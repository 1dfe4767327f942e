import AsioWrapper.Udp.State
import Mathlib.Algebra.Order.Ring.Nat

/-!
# The code `UDPServer` and `UDPClient` have in common

Opening the socket, sending and receiving is written twice in the source, once
in each class.  The definitions below are these functions with what the two
classes do differently as a parameter: `failed` is what a path does with an
error code, `rejected` what `SendAsync` does after reporting a datagram above
the limit.  A socket call whose result the environment chooses takes that
result as an argument.
-/

namespace AsioWrapper.Udp

open AsioWrapper.Asio
open AsioWrapper.Foundation
open AsioWrapper.Foundation.Program

variable {δ : Type}

def sendError (ec : ErrorCode) : Proc δ Unit :=
  if ec = .connectionAborted ∨ ec = .connectionRefused ∨ ec = .connectionReset ∨
      ec = .eof ∨ ec = .operationAborted then
    pure ()
  else
    fire (.onError ec)

/-! ## Opening the socket -/

/-- Address parsing, `asio::ip::make_address`, which throws on other texts. -/
structure Net where
  makeAddress : String → Option Address

def makeAddress (net : Net) (text : String) : Proc δ Address :=
  match net.makeAddress text with
  | some address => pure address
  | none => throw .invalidArgument

def attempt (call : SocketCall) (answer : ErrorCode) (effect : Peer δ → Peer δ) :
    Proc δ Unit :=
  if answer.failed then do
    update fun s => s.noteFailure call answer
    throw answer
  else
    update effect

/--
The sequence all four connecting paths share, from `_socket.open` to the
callback that announces the session.
-/
def openSession (answers : SocketAnswers) (bindTo : Peer δ → Endpoint)
    (announce : Event) : Proc δ Unit := do
  let s ← state
  attempt .open (if s.socket.isOpen then .alreadyOpen else answers.opening)
    fun s => s.withSocket Socket.opened
  whenever s.optionReuseAddress <|
    attempt .setReuseAddress answers.reuseAddress
      fun s => s.withSocket fun socket => { socket with reuseAddress := true }
  whenever s.optionReusePort <|
    attempt .setReusePort answers.reusePort
      fun s => s.withSocket fun socket => { socket with reusePort := true }
  attempt .bind answers.binding
    fun s => s.withSocket fun socket => { socket with bound := some (bindTo s) }
  attempt .receiveBufferSize answers.query
    fun s => s.resizeReceiveBuffer answers.receiveBufferSize
  update fun s => s.enterSession
  fire announce

/-! ## Sending -/

def send (failed : ErrorCode → Proc δ Unit) (endpoint : Endpoint) (buffer : Buffer)
    (answer : Completion) : Proc δ Nat := do
  let s ← state
  if !s.running then return 0
  if buffer.size = 0 then return 0
  if buffer.isNull then return 0
  if answer.size > 0 then
    update fun s => s.countSent answer.size
    fire (.onSent endpoint answer.size)
  if answer.error.failed then
    failed answer.error
  return answer.size

def sendAsync (rejected : Proc δ Unit) (endpoint : Endpoint) (buffer : Buffer) :
    Proc δ Bool := do
  let s ← state
  if s.sending then return false
  if !s.running then return false
  if buffer.size = 0 then return true
  if buffer.isNull then return false
  if buffer.size > s.sendBufferLimit ∧ s.sendBufferLimit > 0 then
    sendError .noBufferSpace
    rejected
    return false
  update fun s => s.startSend buffer.data endpoint
  return true

def asyncSendToHandler (failed : ErrorCode → Proc δ Unit) (op : Operation)
    (completion : Completion) : Proc δ Unit := do
  update fun s => s.finishSend op
  let s ← state
  if !s.running then return ()
  if completion.error.failed then
    failed completion.error
    return ()
  if completion.size > 0 then
    update fun s => s.recordSent completion.size
    let s ← state
    fire (.onSent s.sendEndpoint completion.size)

/-! ## Receiving -/

def receive (failed : ErrorCode → Proc δ Unit) (buffer : Buffer)
    (answer : Completion) : Proc δ Nat := do
  let s ← state
  if !s.running then return 0
  if buffer.size = 0 then return 0
  if buffer.isNull then return 0
  update fun s => s.countReceived answer.size
  fire (.onReceived answer.sender answer.size)
  if answer.error.failed then
    failed answer.error
  return answer.size

def tryReceive : Proc δ Unit := do
  let s ← state
  if s.receiving then return ()
  if !s.running then return ()
  update fun s => s.startReceive

def doubled (size : Nat) : Nat := 2 * size % 2 ^ 64

def asyncReceiveHandler (failed : ErrorCode → Proc δ Unit) (op : Operation)
    (completion : Completion) : Proc δ Unit := do
  update fun s => s.finishReceive op
  let s ← state
  if !s.running then return ()
  if completion.error.failed then
    failed completion.error
    return ()
  update fun s => s.countReceived completion.size
  let s ← state
  fire (.onReceived s.receiveEndpoint completion.size)
  let s ← state
  if s.receiveBuffer = completion.size then
    if doubled completion.size > s.receiveBufferLimit ∧ s.receiveBufferLimit > 0 then
      failed .noBufferSpace
      return ()
    update fun s => s.resizeReceiveBuffer (doubled completion.size)

/-! ## Calls with a timeout

The caller registers its local variables under the number of its socket
operation, arms the timer, starts the operation and blocks until both
completion handlers have counted themselves in `done`.
-/

def asyncDoneHandler (id : Nat) (ec : ErrorCode) : Proc δ Unit := do
  let before ← state
  update fun s => s.modifyTimed id fun call => { call with done := call.done + 1 }
  if (before.timedCall id).done = 0 then
    update fun s => s.modifyTimed id fun call => { call with error := ec }
    let s ← state
    -- the throwing overload of `cancel`
    if !s.socket.isOpen then throw .badDescriptor
    update fun s => s.abortOperations
    update fun s => s.modifyTimed id TimedCall.cancelTimer

def timedSocketHandler (op : Operation) (completion : Completion) : Proc δ Unit := do
  update fun s => s.removeOperation op
  asyncDoneHandler op.id completion.error
  update fun s => s.modifyTimed op.id fun call => { call with size := completion.size }

def timedTimerHandler (id : Nat) (ec : ErrorCode) : Proc δ Unit := do
  update fun s => s.modifyTimed id fun call => { call with timer := .handled }
  asyncDoneHandler id (if ec.failed then ec else .timedOut)

def sendTimed (failed : ErrorCode → Proc δ Unit) (endpoint : Endpoint)
    (buffer : Buffer) : Proc δ Nat := do
  let s ← state
  if !s.running then return 0
  if buffer.size = 0 then return 0
  if buffer.isNull then return 0
  let id := s.issued
  update fun s => s.startTimed .timedSend endpoint
  waitUntil fun s => (s.timedCall id).done == 2
  let s ← state
  let call := s.timedCall id
  if call.size > 0 then
    update fun s => s.countSent call.size
    fire (.onSent endpoint call.size)
  if call.error.failed ∧ call.error ≠ .timedOut then
    failed call.error
  return call.size

def receiveTimed (failed : ErrorCode → Proc δ Unit) (endpoint : Endpoint)
    (buffer : Buffer) : Proc δ Nat := do
  let s ← state
  if !s.running then return 0
  if buffer.size = 0 then return 0
  if buffer.isNull then return 0
  let id := s.issued
  update fun s => s.startTimed .timedReceive endpoint
  waitUntil fun s => (s.timedCall id).done == 2
  let s ← state
  let call := s.timedCall id
  update fun s => s.countReceived call.size
  fire (.onReceived call.endpoint call.size)
  if call.error.failed ∧ call.error ≠ .timedOut then
    failed call.error
  return call.size

/-! ## Handlers -/

def completionHandler (sendFailed receiveFailed : ErrorCode → Proc δ Unit) (op : Operation)
    (completion : Completion) : Proc δ Unit :=
  match op.purpose with
  | .sendAsync _ _ => asyncSendToHandler sendFailed op completion
  | .receiveAsync _ => asyncReceiveHandler receiveFailed op completion
  | .timedSend | .timedReceive => timedSocketHandler op completion

section CompletionHandler

variable {sendFailed receiveFailed : ErrorCode → Proc δ Unit} {op : Operation}
  (completion : Completion)

theorem completionHandler_send (hsend : op.isSend = true) :
    completionHandler sendFailed receiveFailed op completion =
      asyncSendToHandler sendFailed op completion := by
  unfold completionHandler
  cases hpurpose : op.purpose with
  | sendAsync data endpoint => rfl
  | _ => simp [Operation.isSend, hpurpose] at hsend

theorem completionHandler_receive (hreceive : op.isReceive = true) :
    completionHandler sendFailed receiveFailed op completion =
      asyncReceiveHandler receiveFailed op completion := by
  unfold completionHandler
  cases hpurpose : op.purpose with
  | receiveAsync length => rfl
  | _ => simp [Operation.isReceive, hpurpose] at hreceive

theorem completionHandler_timed (htimed : op.isTimed = true) :
    completionHandler sendFailed receiveFailed op completion =
      timedSocketHandler op completion := by
  unfold completionHandler
  cases hpurpose : op.purpose with
  | timedSend | timedReceive => rfl
  | _ => simp [Operation.isTimed, hpurpose] at htimed

/-- The rule for the handlers of socket operations: one case for each way to start one. -/
theorem completionHandler_cases {motive : Proc δ Unit → Prop}
    (hsend : op.isSend = true → motive (asyncSendToHandler sendFailed op completion))
    (hreceive : op.isReceive = true → motive (asyncReceiveHandler receiveFailed op completion))
    (htimed : op.isTimed = true → motive (timedSocketHandler op completion)) :
    motive (completionHandler sendFailed receiveFailed op completion) := by
  cases hpurpose : op.purpose with
  | sendAsync data endpoint =>
      have hop : op.isSend = true := by simp [Operation.isSend, hpurpose]
      rw [completionHandler_send completion hop]
      exact hsend hop
  | receiveAsync length =>
      have hop : op.isReceive = true := by simp [Operation.isReceive, hpurpose]
      rw [completionHandler_receive completion hop]
      exact hreceive hop
  | timedSend | timedReceive =>
      have hop : op.isTimed = true := by simp [Operation.isTimed, hpurpose]
      rw [completionHandler_timed completion hop]
      exact htimed hop

end CompletionHandler

inductive Origin (π : Type) where
  | completion (op : Operation) (completion : Completion)
  | timer (call : Nat)
  | posted (handler : π)
  deriving DecidableEq, Repr

inductive Pending where
  | completion (operation : Nat)
  | timer (call : Nat)
  | posted (index : Nat) (answers : SocketAnswers)
  | resolved (index : Nat) (answers : SocketAnswers)
  deriving DecidableEq, Repr

end AsioWrapper.Udp
