import AsioWrapper.Asio.Socket
import AsioWrapper.Foundation.Machine

/-!
# The state of a UDP peer

`UDPServer` and `UDPClient` declare the same members for their socket, buffers
and statistics.  `Peer` holds these, the asynchronous operations outstanding on
the socket, and the members of the class itself in `own`.  The last fields are
observations the code does not make: how many sessions were opened, which
throwing socket calls failed, and the callbacks invoked so far.

The receive buffer is represented by its size, since only the user's callback
looks at its bytes.
-/

namespace AsioWrapper.Udp

open AsioWrapper.Asio
open AsioWrapper.Foundation

/-- The virtual functions a peer calls.  An error code determines the
value, category name and message `onError` is called with. -/
inductive Event where
  | onConnected
  | onDisconnected
  | onStarted
  | onStopped
  | onJoinedMulticastGroup (address : String)
  | onLeftMulticastGroup (address : String)
  | onReceived (endpoint : Endpoint) (size : Nat)
  | onSent (endpoint : Endpoint) (sent : Nat)
  | onError (ec : ErrorCode)
  deriving DecidableEq, Repr

def Event.isLifecycle : Event → Bool
  | .onConnected | .onDisconnected | .onStarted | .onStopped => true
  | _ => false

/-- `running` is `_connected` of a client and `_started` of a server. -/
structure Peer (δ : Type) where
  running : Bool
  socket : Socket
  endpoint : Endpoint
  optionReuseAddress : Bool
  optionReusePort : Bool
  bytesSending : UInt64
  bytesSent : UInt64
  bytesReceived : UInt64
  datagramsSent : UInt64
  datagramsReceived : UInt64
  receiveEndpoint : Endpoint
  sendEndpoint : Endpoint
  receiving : Bool
  receiveBufferLimit : Nat
  receiveBuffer : Nat
  sending : Bool
  sendBufferLimit : Nat
  sendBuffer : List UInt8
  operations : List Operation
  issued : Nat
  timedCalls : List TimedCall
  session : Nat
  failures : List (SocketCall × ErrorCode)
  log : List Event
  own : δ
  deriving DecidableEq, Repr

variable {δ : Type}

namespace Peer

def fresh (endpoint : Endpoint) (own : δ) : Peer δ where
  running := false
  socket := .fresh
  endpoint := endpoint
  optionReuseAddress := false
  optionReusePort := false
  bytesSending := 0
  bytesSent := 0
  bytesReceived := 0
  datagramsSent := 0
  datagramsReceived := 0
  receiveEndpoint := default
  sendEndpoint := default
  receiving := false
  receiveBufferLimit := 0
  receiveBuffer := 0
  sending := false
  sendBufferLimit := 0
  sendBuffer := []
  operations := []
  issued := 0
  timedCalls := []
  session := 0
  failures := []
  log := []
  own := own

def logged (s : Peer δ) (event : Event) : Peer δ := { s with log := s.log ++ [event] }

/-! ### Opening and closing -/

def noteFailure (s : Peer δ) (call : SocketCall) (ec : ErrorCode) : Peer δ :=
  { s with failures := s.failures ++ [(call, ec)] }

def withSocket (s : Peer δ) (f : Socket → Socket) : Peer δ := { s with socket := f s.socket }

def resizeReceiveBuffer (s : Peer δ) (size : Nat) : Peer δ := { s with receiveBuffer := size }

def enterSession (s : Peer δ) : Peer δ :=
  { s with
    bytesSending := 0
    bytesSent := 0
    bytesReceived := 0
    datagramsSent := 0
    datagramsReceived := 0
    running := true
    session := s.session + 1 }

def abortOperations (s : Peer δ) : Peer δ :=
  { s with operations := s.operations.map Operation.abort }

def closeSocket (s : Peer δ) : Peer δ :=
  { s with
    operations := s.operations.map Operation.abort
    socket := s.socket.closed }

def leaveSession (s : Peer δ) : Peer δ :=
  { s with running := false, receiving := false, sending := false }

def clearBuffers (s : Peer δ) : Peer δ := { s with sendBuffer := [], bytesSending := 0 }

/-! ### Operations -/

def startOperation (s : Peer δ) (purpose : Purpose) : Peer δ :=
  { s with
    operations := s.operations ++
      [⟨s.issued, purpose, s.socket.generation, s.session, none⟩]
    issued := s.issued + 1 }

def startSend (s : Peer δ) (data : List UInt8) (endpoint : Endpoint) : Peer δ :=
  { s with
    sendBuffer := data
    bytesSending := UInt64.ofNat data.length
    sendEndpoint := endpoint
    sending := true }.startOperation (.sendAsync data endpoint)

def startReceive (s : Peer δ) : Peer δ :=
  { s with receiving := true }.startOperation (.receiveAsync s.receiveBuffer)

def startTimed (s : Peer δ) (purpose : Purpose) (endpoint : Endpoint) : Peer δ :=
  { s with timedCalls := s.timedCalls ++ [TimedCall.fresh s.issued endpoint] }.startOperation
    purpose

def removeOperation (s : Peer δ) (op : Operation) : Peer δ :=
  { s with operations := s.operations.filter fun other => other ≠ op }

def finishSend (s : Peer δ) (op : Operation) : Peer δ :=
  { s.removeOperation op with sending := false }

def finishReceive (s : Peer δ) (op : Operation) : Peer δ :=
  { s.removeOperation op with receiving := false }

/-! ### Statistics -/

def countSent (s : Peer δ) (sent : Nat) : Peer δ :=
  { s with
    datagramsSent := s.datagramsSent + 1
    bytesSent := s.bytesSent + UInt64.ofNat sent }

/-- The asynchronous send does not count its datagram. -/
def recordSent (s : Peer δ) (sent : Nat) : Peer δ :=
  { s with
    bytesSending := 0
    bytesSent := s.bytesSent + UInt64.ofNat sent
    sendBuffer := [] }

def countReceived (s : Peer δ) (received : Nat) : Peer δ :=
  { s with
    datagramsReceived := s.datagramsReceived + 1
    bytesReceived := s.bytesReceived + UInt64.ofNat received }

/-! ### Timed calls -/

def timedCall (s : Peer δ) (id : Nat) : TimedCall :=
  (s.timedCalls.find? fun call => call.id == id).getD (.fresh id default)

def modifyTimed (s : Peer δ) (id : Nat) (f : TimedCall → TimedCall) : Peer δ :=
  { s with timedCalls := s.timedCalls.map fun call => if call.id = id then f call else call }

/-! ### Completion -/

def pendingOperation (s : Peer δ) (id : Nat) : Option Operation :=
  s.operations.find? fun op => op.id == id && op.pending

def completedOperation (s : Peer δ) (id : Nat) : Option (Operation × Completion) :=
  s.operations.findSome? fun op =>
    if op.id = id then op.result.map fun completion => (op, completion) else none

def firedTimer (s : Peer δ) (id : Nat) : Option ErrorCode :=
  match (s.timedCall id).timer with
  | .fired ec => some ec
  | _ => none

/-- The socket completes `op`; a receive stores the sender where it was told to. -/
def complete (s : Peer δ) (op : Operation) (completion : Completion) : Peer δ :=
  { s with
    operations := s.operations.map (op.completedBy completion)
    receiveEndpoint := if op.isReceive then completion.sender else s.receiveEndpoint
    timedCalls :=
      if op.purpose = .timedReceive then
        (s.modifyTimed op.id fun call => { call with endpoint := completion.sender }).timedCalls
      else s.timedCalls }

end Peer

abbrev Proc (δ α : Type) : Type := Program (Peer δ) Event ErrorCode α

def fire (event : Event) : Proc δ Unit := do
  Program.update fun s => s.logged event
  Program.callback event

/-! ## The environment -/

inductive Stimulus where
  | complete (operation : Nat) (completion : Completion)
  | expire (call : Nat)
  deriving DecidableEq, Repr

def stimulate (s : Peer δ) : Stimulus → Option (Peer δ)
  | .complete id completion =>
      match s.pendingOperation id with
      | some op => some (s.complete op completion)
      | none => none
  | .expire id =>
      if (s.timedCall id).timer = .armed ∧ id ∈ s.timedCalls.map TimedCall.id then
        some (s.modifyTimed id fun call => { call with timer := .fired .success })
      else none

end AsioWrapper.Udp
