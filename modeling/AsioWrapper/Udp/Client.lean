import AsioWrapper.Udp.Transfer

/-!
# `UDPClient`

`posted` holds the handlers handed to the strand or the `io_service` and not
yet run, in posting order; any of them may run next, which covers strands,
plain posting and completions that overtake posted handlers.  `resolves` holds
the queries of the `async_resolve` operations whose handler has not run.

`dispatch` runs its handler inline when it is called from within a handler of the
client and posts it otherwise.  In asio it does so on every thread that runs the
`io_service`, also below a handler of another object.
-/

namespace AsioWrapper.Udp

open AsioWrapper.Asio
open AsioWrapper.Foundation
open AsioWrapper.Foundation.Program

namespace Client

inductive Handler where
  | connect
  | connectVia
  | disconnect (session : Nat)
  | joinMulticastGroup (address : String)
  | leaveMulticastGroup (address : String)
  | asyncResolve
  deriving DecidableEq, Repr

structure Resolve where
  host : String
  service : String
  result : Option (ErrorCode × Endpoint)
  deriving DecidableEq, Repr

structure Members where
  address : String
  scheme : String
  port : Int
  resolving : Bool
  optionMulticast : Bool
  posted : List Handler
  resolves : List Resolve
  deriving DecidableEq, Repr

end Client

abbrev Client : Type := Peer Client.Members

namespace Client

abbrev Code (α : Type) : Type := Proc Members α

/-! ## Construction -/

def ofAddressPort (address : String) (port : Int) : Client :=
  .fresh default ⟨address, "", port, false, false, [], []⟩

def ofAddressScheme (address scheme : String) : Client :=
  .fresh default ⟨address, scheme, 0, false, false, [], []⟩

def ofEndpoint (text : Endpoint → String) (endpoint : Endpoint) : Client :=
  .fresh endpoint ⟨text endpoint, "", endpoint.port.toNat, false, false, [], []⟩

/-! ## Posting -/

def post (handler : Handler) : Code Unit :=
  update fun s => { s with own := { s.own with posted := s.own.posted ++ [handler] } }

def unpost (index : Nat) : Code Unit :=
  update fun s => { s with own := { s.own with posted := s.own.posted.eraseIdx index } }

/-! ## Connecting and disconnecting -/

def setResolving (resolving : Bool) : Code Unit :=
  update fun s => { s with own := { s.own with resolving := resolving } }

def setEndpoint (endpoint : Endpoint) : Code Unit :=
  update fun s => { s with endpoint := endpoint }

def bindTo (s : Client) : Endpoint :=
  if s.own.optionMulticast then s.endpoint else .any s.endpoint.protocol 0

def connect (net : Net) (answers : SocketAnswers) : Code Bool := do
  let s ← state
  if s.own.address.isEmpty then return false
  if s.own.port ≤ 0 then return false
  if s.running then return false
  let address ← makeAddress net s.own.address
  setEndpoint ⟨address, toPort s.own.port⟩
  openSession answers bindTo .onConnected
  return true

def connectVia (resolver : Bool) (resolution : ErrorCode × Endpoint)
    (answers : SocketAnswers) : Code Bool := do
  let s ← state
  if !resolver then return false
  if s.own.address.isEmpty then return false
  if s.own.port ≤ 0 then return false
  if s.running then return false
  if resolution.1.failed then
    sendError resolution.1
    fire .onDisconnected
    return false
  setEndpoint resolution.2
  openSession answers bindTo .onConnected
  return true

def disconnectInternal : Code Bool := do
  let s ← state
  if !s.running then return false
  update fun s => s.closeSocket
  setResolving false
  update fun s => s.leaveSession
  fire .onDisconnected
  return true

def disconnect : Code Bool := disconnectInternal

def reconnect (net : Net) (answers : SocketAnswers) : Code Bool := do
  if !(← disconnect) then return false
  connect net answers

def connectAsync : Code Bool := do
  let s ← state
  if s.running then return false
  post .connect
  return true

def connectAsyncVia (resolver : Bool) : Code Bool := do
  let s ← state
  if !resolver then return false
  if s.running || s.own.resolving then return false
  post .connectVia
  return true

def connectViaHandler : Code Unit := do
  let s ← state
  if s.running || s.own.resolving then return ()
  setResolving true
  update fun s =>
    { s with
      own :=
        { s.own with
          resolves := s.own.resolves ++
            [⟨s.own.address,
              if s.own.scheme.isEmpty then toString s.own.port else s.own.scheme, none⟩] } }

def asyncResolveHandler (index : Nat) (resolution : ErrorCode × Endpoint)
    (answers : SocketAnswers) : Code Unit := do
  update fun s =>
    { s with own := { s.own with resolves := s.own.resolves.eraseIdx index } }
  setResolving false
  let s ← state
  if s.running || s.own.resolving then return ()
  if !resolution.1.failed then
    setEndpoint resolution.2
    openSession answers bindTo .onConnected
  else
    sendError resolution.1
    fire .onDisconnected

/-- The non-throwing overload of `cancel` is called, whose error is ignored. -/
def disconnectInternalAsync (dispatch : Bool) : Code Bool := do
  let s ← state
  if !s.running then return false
  update fun s => if s.socket.isOpen then s.abortOperations else s
  if dispatch then
    -- only the completion handlers dispatch, so the handler runs inline
    discard disconnectInternal
  else
    post (.disconnect s.session)
  return true

def disconnectAsync : Code Bool := disconnectInternalAsync false

def reconnectAsync : Code Bool := do
  if !(← disconnectAsync) then return false
  waitUntil fun s => !s.running
  connectAsync

/-! ## Multicast groups -/

def joinMulticastGroup (net : Net) (address : String) (answer : ErrorCode) :
    Code Unit := do
  let s ← state
  if !s.running then return ()
  let _ ← makeAddress net address
  if answer.failed then throw answer
  fire (.onJoinedMulticastGroup address)

def leaveMulticastGroup (net : Net) (address : String) (answer : ErrorCode) :
    Code Unit := do
  let s ← state
  if !s.running then return ()
  let _ ← makeAddress net address
  if answer.failed then throw answer
  fire (.onLeftMulticastGroup address)

def joinMulticastGroupAsync (net : Net) (inside : Bool) (address : String)
    (answer : ErrorCode) : Code Unit := do
  let s ← state
  if !s.running then return ()
  if inside then joinMulticastGroup net address answer
  else post (.joinMulticastGroup address)

def leaveMulticastGroupAsync (net : Net) (inside : Bool) (address : String)
    (answer : ErrorCode) : Code Unit := do
  let s ← state
  if !s.running then return ()
  if inside then leaveMulticastGroup net address answer
  else post (.leaveMulticastGroup address)

/-! ## Sending and receiving -/

def syncFailed (ec : ErrorCode) : Code Unit := do
  sendError ec
  discard disconnect

def asyncFailed (ec : ErrorCode) : Code Unit := do
  sendError ec
  discard (disconnectInternalAsync true)

def send (endpoint : Endpoint) (buffer : Buffer) (answer : Completion) : Code Nat :=
  Udp.send syncFailed endpoint buffer answer

def sendTimed (endpoint : Endpoint) (buffer : Buffer) : Code Nat :=
  Udp.sendTimed syncFailed endpoint buffer

def sendAsync (endpoint : Endpoint) (buffer : Buffer) : Code Bool :=
  Udp.sendAsync (pure ()) endpoint buffer

def receive (buffer : Buffer) (answer : Completion) : Code Nat :=
  Udp.receive syncFailed buffer answer

def receiveTimed (endpoint : Endpoint) (buffer : Buffer) : Code Nat :=
  Udp.receiveTimed syncFailed endpoint buffer

def receiveAsync : Code Unit := tryReceive

/-! ## The client as a system -/

/-- The public methods.  An omitted endpoint stands for the client's own. -/
inductive Call where
  | connect (answers : SocketAnswers)
  | connectVia (resolver : Bool) (resolution : ErrorCode × Endpoint)
      (answers : SocketAnswers)
  | disconnect
  | reconnect (answers : SocketAnswers)
  | connectAsync
  | connectAsyncVia (resolver : Bool)
  | disconnectAsync
  | reconnectAsync
  | joinMulticastGroup (address : String) (answer : ErrorCode)
  | leaveMulticastGroup (address : String) (answer : ErrorCode)
  | joinMulticastGroupAsync (address : String) (answer : ErrorCode)
  | leaveMulticastGroupAsync (address : String) (answer : ErrorCode)
  | send (endpoint : Option Endpoint) (buffer : Buffer) (answer : Completion)
  | sendTimed (endpoint : Option Endpoint) (buffer : Buffer)
  | sendAsync (endpoint : Option Endpoint) (buffer : Buffer)
  | receive (buffer : Buffer) (answer : Completion)
  | receiveTimed (endpoint : Endpoint) (buffer : Buffer)
  | receiveAsync
  | setupReuseAddress (enable : Bool)
  | setupReusePort (enable : Bool)
  | setupMulticast (enable : Bool)
  deriving DecidableEq, Repr

def call (net : Net) (inside : Bool) : Call → Code Unit
  | .connect answers => discard (connect net answers)
  | .connectVia resolver resolution answers =>
      discard (connectVia resolver resolution answers)
  | .disconnect => discard disconnect
  | .reconnect answers => discard (reconnect net answers)
  | .connectAsync => discard connectAsync
  | .connectAsyncVia resolver => discard (connectAsyncVia resolver)
  | .disconnectAsync => discard disconnectAsync
  | .reconnectAsync => discard reconnectAsync
  | .joinMulticastGroup address answer => joinMulticastGroup net address answer
  | .leaveMulticastGroup address answer => leaveMulticastGroup net address answer
  | .joinMulticastGroupAsync address answer =>
      joinMulticastGroupAsync net inside address answer
  | .leaveMulticastGroupAsync address answer =>
      leaveMulticastGroupAsync net inside address answer
  | .send endpoint buffer answer => do
      let s ← state
      discard (send (endpoint.getD s.endpoint) buffer answer)
  | .sendTimed endpoint buffer => do
      let s ← state
      discard (sendTimed (endpoint.getD s.endpoint) buffer)
  | .sendAsync endpoint buffer => do
      let s ← state
      discard (sendAsync (endpoint.getD s.endpoint) buffer)
  | .receive buffer answer => discard (receive buffer answer)
  | .receiveTimed endpoint buffer => discard (receiveTimed endpoint buffer)
  | .receiveAsync => receiveAsync
  | .setupReuseAddress enable => update fun s => { s with optionReuseAddress := enable }
  | .setupReusePort enable => update fun s => { s with optionReusePort := enable }
  | .setupMulticast enable =>
      update fun s =>
        { s with
          optionReuseAddress := enable
          own := { s.own with optionMulticast := enable } }

def completionHandler (op : Operation) (completion : Completion) : Code Unit :=
  Udp.completionHandler asyncFailed asyncFailed op completion

def postedHandler (net : Net) (answers : SocketAnswers) : Handler → Code Unit
  | .connect => discard (connect net answers)
  | .connectVia => connectViaHandler
  | .disconnect _ => discard disconnectInternal
  | .joinMulticastGroup address => joinMulticastGroup net address answers.group
  | .leaveMulticastGroup address => leaveMulticastGroup net address answers.group
  | .asyncResolve => pure ()

def handler (net : Net) (pending : Pending) (s : Client) :
    Option (Origin Handler × Code Unit) :=
  match pending with
  | .completion id =>
      match s.completedOperation id with
      | some (op, completion) =>
          some (.completion op completion, completionHandler op completion)
      | none => none
  | .timer id =>
      match s.firedTimer id with
      | some ec => some (.timer id, timedTimerHandler id ec)
      | none => none
  | .posted index answers =>
      match s.own.posted[index]? with
      | some handler =>
          some (.posted handler, do unpost index; postedHandler net answers handler)
      | none => none
  | .resolved index answers =>
      match s.own.resolves[index]? with
      | some ⟨_, _, some resolution⟩ =>
          some (.posted .asyncResolve, asyncResolveHandler index resolution answers)
      | _ => none

inductive Stimulus where
  | socket (stimulus : Udp.Stimulus)
  | resolve (index : Nat) (resolution : ErrorCode × Endpoint)
  deriving DecidableEq, Repr

def environment : Stimulus → Client → Option Client
  | .socket stimulus, s => stimulate s stimulus
  | .resolve index resolution, s =>
      match s.own.resolves[index]? with
      | some ⟨host, service, none⟩ =>
          some { s with
            own := { s.own with
              resolves := s.own.resolves.set index ⟨host, service, some resolution⟩ } }
      | _ => none

def system (net : Net) :
    System Client Event ErrorCode (Origin Handler) Call Pending Stimulus where
  call k inside := call net inside k
  handler := handler net
  environment := environment

end Client

end AsioWrapper.Udp
