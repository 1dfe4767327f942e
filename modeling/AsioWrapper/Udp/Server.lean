import AsioWrapper.Udp.Transfer

/-!
# `UDPServer`

Starting and stopping only post a handler; both the method and its handler
test `_started`.
-/

namespace AsioWrapper.Udp

open AsioWrapper.Asio
open AsioWrapper.Foundation
open AsioWrapper.Foundation.Program

namespace Server

inductive Handler where
  | start
  | stop
  deriving DecidableEq, Repr

structure Members where
  address : String
  port : Int
  multicastEndpoint : Endpoint
  posted : List Handler
  deriving DecidableEq, Repr

end Server

abbrev Server : Type := Peer Server.Members

namespace Server

abbrev Code (α : Type) : Type := Proc Members α

/-! ## Construction -/

def ofPort (port : Int) (protocol : InternetProtocol) : Server :=
  .fresh (.any protocol (toPort port)) ⟨"", port, default, []⟩

/-- The constructor throws where the address does not parse. -/
def ofAddress (net : Net) (address : String) (port : Int) : Option Server :=
  (net.makeAddress address).map fun parsed =>
    .fresh ⟨parsed, toPort port⟩ ⟨address, port, default, []⟩

-- This constructor leaves `_option_reuse_address` and `_option_reuse_port` uninitialised; the
-- setters, called first, reach the values that are not false.
def ofEndpoint (text : Endpoint → String) (endpoint : Endpoint) : Server :=
  .fresh endpoint ⟨text endpoint, endpoint.port.toNat, default, []⟩

/-! ## Starting and stopping -/

def post (handler : Handler) : Code Unit :=
  update fun s => { s with own := { s.own with posted := s.own.posted ++ [handler] } }

def unpost (index : Nat) : Code Unit :=
  update fun s => { s with own := { s.own with posted := s.own.posted.eraseIdx index } }

def start : Code Bool := do
  let s ← state
  if s.running then return false
  post .start
  return true

def startHandler (answers : SocketAnswers) : Code Unit := do
  let s ← state
  if s.running then return ()
  openSession answers (fun s => s.endpoint) .onStarted

def startMulticastAt (net : Net) (address : String) (port : Int) : Code Bool := do
  let parsed ← makeAddress net address
  update fun s =>
    { s with own := { s.own with multicastEndpoint := ⟨parsed, toPort port⟩ } }
  start

def startMulticast (endpoint : Endpoint) : Code Bool := do
  update fun s => { s with own := { s.own with multicastEndpoint := endpoint } }
  start

def stop : Code Bool := do
  let s ← state
  if !s.running then return false
  post .stop
  return true

def stopHandler : Code Unit := do
  let s ← state
  if !s.running then return ()
  update fun s => s.closeSocket
  update fun s => s.leaveSession
  update fun s => s.clearBuffers
  fire .onStopped

def restart : Code Bool := do
  if !(← stop) then return false
  waitUntil fun s => !s.running
  start

/-! ## Sending and receiving -/

def sendFailed (ec : ErrorCode) : Code Unit := do
  sendError ec
  let s ← state
  fire (.onSent s.sendEndpoint 0)

def receiveFailed (ec : ErrorCode) : Code Unit := do
  sendError ec
  let s ← state
  fire (.onReceived s.receiveEndpoint 0)

def send (endpoint : Endpoint) (buffer : Buffer) (answer : Completion) : Code Nat :=
  Udp.send sendError endpoint buffer answer

def sendTimed (endpoint : Endpoint) (buffer : Buffer) : Code Nat :=
  Udp.sendTimed sendError endpoint buffer

def sendAsync (endpoint : Endpoint) (buffer : Buffer) : Code Bool :=
  Udp.sendAsync
    (do
      let s ← state
      fire (.onSent s.sendEndpoint 0))
    endpoint buffer

def receive (buffer : Buffer) (answer : Completion) : Code Nat :=
  Udp.receive sendError buffer answer

def receiveTimed (endpoint : Endpoint) (buffer : Buffer) : Code Nat :=
  Udp.receiveTimed sendError endpoint buffer

def receiveAsync : Code Unit := tryReceive

/-! ## The server as a system -/

/-- The public methods.  An omitted endpoint stands for the multicast endpoint,
so that a send without one is the `Multicast` method of that kind. -/
inductive Call where
  | start
  | startMulticastAt (address : String) (port : Int)
  | startMulticast (endpoint : Endpoint)
  | stop
  | restart
  | send (endpoint : Option Endpoint) (buffer : Buffer) (answer : Completion)
  | sendTimed (endpoint : Option Endpoint) (buffer : Buffer)
  | sendAsync (endpoint : Option Endpoint) (buffer : Buffer)
  | receive (buffer : Buffer) (answer : Completion)
  | receiveTimed (endpoint : Endpoint) (buffer : Buffer)
  | receiveAsync
  | setupReuseAddress (enable : Bool)
  | setupReusePort (enable : Bool)
  | setupReceiveBufferLimit (limit : Nat)
  | setupSendBufferLimit (limit : Nat)
  deriving DecidableEq, Repr

def call (net : Net) : Call → Code Unit
  | .start => discard start
  | .startMulticastAt address port => discard (startMulticastAt net address port)
  | .startMulticast endpoint => discard (startMulticast endpoint)
  | .stop => discard stop
  | .restart => discard restart
  | .send endpoint buffer answer => do
      let s ← state
      discard (send (endpoint.getD s.own.multicastEndpoint) buffer answer)
  | .sendTimed endpoint buffer => do
      let s ← state
      discard (sendTimed (endpoint.getD s.own.multicastEndpoint) buffer)
  | .sendAsync endpoint buffer => do
      let s ← state
      discard (sendAsync (endpoint.getD s.own.multicastEndpoint) buffer)
  | .receive buffer answer => discard (receive buffer answer)
  | .receiveTimed endpoint buffer => discard (receiveTimed endpoint buffer)
  | .receiveAsync => receiveAsync
  | .setupReuseAddress enable => update fun s => { s with optionReuseAddress := enable }
  | .setupReusePort enable => update fun s => { s with optionReusePort := enable }
  | .setupReceiveBufferLimit limit => update fun s => { s with receiveBufferLimit := limit }
  | .setupSendBufferLimit limit => update fun s => { s with sendBufferLimit := limit }

def completionHandler (op : Operation) (completion : Completion) : Code Unit :=
  Udp.completionHandler sendFailed receiveFailed op completion

def postedHandler (answers : SocketAnswers) : Handler → Code Unit
  | .start => startHandler answers
  | .stop => stopHandler

def handler (pending : Pending) (s : Server) : Option (Origin Handler × Code Unit) :=
  match pending with
  | .completion id =>
      match s.completedOperation id with
      | some (op, completion) =>
          some (.completion op completion, completionHandler op completion)
      | none => none
  | .timer id =>
      match s.firedTimer id with
      | some ec => some (.timer id, timedTimerHandler id ec)
      | none => none
  | .posted index answers =>
      match s.own.posted[index]? with
      | some handler =>
          some (.posted handler, do unpost index; postedHandler answers handler)
      | none => none
  | .resolved _ _ => none

def system (net : Net) :
    System Server Event ErrorCode (Origin Handler) Call Pending Stimulus where
  call k _ := call net k
  handler := handler
  environment stimulus s := stimulate s stimulus

end Server

end AsioWrapper.Udp
