import AsioWrapper.Udp.Reach

/-!
# The callbacks a peer invokes

Which callbacks a piece of code can invoke does not depend on the state it runs
in, so a property of callbacks is followed through the code without one.  What
`SendError` leaves out is then left out everywhere, for no other function calls
`onError`.
-/

namespace AsioWrapper.Udp

open AsioWrapper.Asio
open AsioWrapper.Foundation
open AsioWrapper.Foundation.Program

variable {δ π κ η ν : Type}

/-- A failure that `SendError` does not leave out. -/
def Reportable (ec : ErrorCode) : Prop :=
  ec.failed = true ∧ ec ≠ .connectionAborted ∧ ec ≠ .connectionRefused ∧
    ec ≠ .connectionReset ∧ ec ≠ .eof ∧ ec ≠ .operationAborted

instance (ec : ErrorCode) : Decidable (Reportable ec) := inferInstanceAs (Decidable (_ ∧ _))

def CallsOnly (p : Event → Prop) (_ : Option Event) (_ : Peer δ) (stop : Stop Event ErrorCode)
    (_ : Peer δ) : Prop :=
  ∀ event, stop = .called event → p event

abbrev Invoking (p : Event → Prop) {α : Type} (m : Proc δ α) : Prop :=
  Triple (CallsOnly p) (fun _ _ _ => True) (fun _ => True) m fun _ _ => True

structure Tolerates (p : Event → Prop) : Prop where
  sent : ∀ endpoint size, p (.onSent endpoint size)
  received : ∀ endpoint size, p (.onReceived endpoint size)
  error : ∀ ec, Reportable ec → p (.onError ec)

/-! ## The common code -/

section Code

variable {p : Event → Prop} {α : Type}

theorem Invoking.obeys {m : Proc δ α} (hm : Invoking p m) : m.Obeys (CallsOnly p) := by
  intro s
  refine segments_mono (fun _ _ _ _ h => h) ?_ (hm none s s trivial trivial)
  intro value point start s _ event h
  cases h

theorem Invoking.discard {m : Proc δ α} (hm : Invoking p m) :
    Invoking p (Functor.discard m : Proc δ Unit) :=
  Triple.discard hm

theorem Invoking.update (f : Peer δ → Peer δ) : Invoking p (Program.update f : Proc δ Unit) :=
  Triple.update fun _ _ _ _ _ => trivial

theorem Invoking.state {f : Peer δ → Proc δ α} (hf : ∀ s, Invoking p (f s)) :
    Invoking p (Program.state >>= f) :=
  Triple.state fun s => (hf s).weaken (fun _ _ => trivial) fun _ _ h => h

theorem Invoking.waitUntil (ready : Peer δ → Bool) :
    Invoking p (Program.waitUntil ready : Proc δ Unit) := by
  intro point start s _ _
  exact ⟨fun event h => (by cases h), fun s' _ => ⟨trivial, trivial⟩⟩

theorem Invoking.throw (ec : ErrorCode) : Invoking p (Program.throw ec : Proc δ α) := by
  intro point start s _ _ event h
  cases h

theorem Invoking.fire {event : Event} (hevent : p event) :
    Invoking p (fire event : Proc δ Unit) := by
  refine (Invoking.update _).bind fun _ => ?_
  intro point start s _ _
  refine ⟨fun other h => ?_, fun s' => ⟨trivial, trivial⟩⟩
  cases h
  exact hevent

theorem Invoking.makeAddress (net : Net) (text : String) :
    Invoking p (makeAddress net text : Proc δ Address) := by
  unfold Udp.makeAddress
  split
  · exact Triple.pure _
  · exact Invoking.throw _

theorem Invoking.attempt (call : SocketCall) (ec : ErrorCode) (effect : Peer δ → Peer δ) :
    Invoking p (attempt call ec effect) :=
  Triple.ite (fun _ => (Invoking.update _).bind fun _ => Invoking.throw _)
    fun _ => Invoking.update _

theorem Invoking.whenever {m : Proc δ Unit} (hm : Invoking p m) (c : Bool) :
    Invoking p (Program.whenever c m) :=
  Triple.ite (fun _ => hm) fun _ => Triple.pure _

theorem Invoking.openSession {announce : Event} (hannounce : p announce)
    (answers : SocketAnswers) (bindTo : Peer δ → Endpoint) :
    Invoking p (openSession answers bindTo announce) := by
  refine Invoking.state fun s => (Invoking.attempt _ _ _).bind fun _ => ?_
  refine ((Invoking.attempt _ _ _).whenever _).bind fun _ => ?_
  refine ((Invoking.attempt _ _ _).whenever _).bind fun _ => ?_
  refine (Invoking.attempt _ _ _).bind fun _ => (Invoking.attempt _ _ _).bind fun _ => ?_
  exact (Invoking.update _).bind fun _ => Invoking.fire hannounce

theorem Invoking.tryReceive : Invoking p (tryReceive : Proc δ Unit) :=
  Invoking.state fun _ => Triple.ite (fun _ => Triple.pure _) fun _ =>
    Triple.ite (fun _ => Triple.pure _) fun _ => Invoking.update _

theorem Invoking.asyncDoneHandler (id : Nat) (ec : ErrorCode) :
    Invoking p (asyncDoneHandler id ec : Proc δ Unit) := by
  refine Invoking.state fun _ => (Invoking.update _).bind fun _ => ?_
  refine Triple.ite (fun _ => (Invoking.update _).bind fun _ => ?_) fun _ => Triple.pure _
  refine Invoking.state fun _ => Triple.ite (fun _ => ?_) fun _ => ?_
  · exact (Invoking.throw _).bind fun _ => (Invoking.update _).bind fun _ => Invoking.update _
  · exact (Invoking.update _).bind fun _ => Invoking.update _

theorem Invoking.timedSocketHandler (op : Operation) (completion : Completion) :
    Invoking p (timedSocketHandler op completion : Proc δ Unit) :=
  (Invoking.update _).bind fun _ => (Invoking.asyncDoneHandler _ _).bind fun _ =>
    Invoking.update _

theorem Invoking.timedTimerHandler (id : Nat) (ec : ErrorCode) :
    Invoking p (timedTimerHandler id ec : Proc δ Unit) :=
  (Invoking.update _).bind fun _ => Invoking.asyncDoneHandler _ _

end Code

namespace Tolerates

variable {p : Event → Prop} (hp : Tolerates p)

include hp

theorem sendError {ec : ErrorCode} (hec : ec.failed = true) :
    Invoking p (sendError ec : Proc δ Unit) := by
  refine Triple.ite (fun _ => Triple.pure ()) fun hnot => Invoking.fire (hp.error ec ?_)
  simp only [not_or] at hnot
  exact ⟨hec, hnot⟩

section Transfer

variable {failed : ErrorCode → Proc δ Unit}
  (hfailed : ∀ ec, ec.failed = true → Invoking p (failed ec))

include hfailed

omit hp in
theorem result {c : Prop} [Decidable c] {ec : ErrorCode} (hc : c → ec.failed = true)
    (size : Nat) :
    Invoking p (do
      if c then failed ec
      return size : Proc δ Nat) :=
  Triple.ite (fun h => (hfailed ec (hc h)).bind fun _ => Triple.pure _) fun _ => Triple.pure _

theorem send (endpoint : Endpoint) (buffer : Buffer) (answer : Completion) :
    Invoking p (send failed endpoint buffer answer) := by
  refine Invoking.state fun s => Triple.ite (fun _ => Triple.pure _) fun _ => ?_
  refine Triple.ite (fun _ => Triple.pure _) fun _ => ?_
  refine Triple.ite (fun _ => Triple.pure _) fun _ => ?_
  refine Triple.ite (fun _ => ?_) fun _ => result hfailed (fun h => h) _
  refine (Invoking.update _).bind fun _ => (Invoking.fire (hp.sent _ _)).bind fun _ => ?_
  exact result hfailed (fun h => h) _

theorem receive (buffer : Buffer) (answer : Completion) :
    Invoking p (receive failed buffer answer) := by
  refine Invoking.state fun s => Triple.ite (fun _ => Triple.pure _) fun _ => ?_
  refine Triple.ite (fun _ => Triple.pure _) fun _ => ?_
  refine Triple.ite (fun _ => Triple.pure _) fun _ => ?_
  refine (Invoking.update _).bind fun _ => (Invoking.fire (hp.received _ _)).bind fun _ => ?_
  exact result hfailed (fun h => h) _

theorem sendTimed (endpoint : Endpoint) (buffer : Buffer) :
    Invoking p (sendTimed failed endpoint buffer) := by
  refine Invoking.state fun s => Triple.ite (fun _ => Triple.pure _) fun _ => ?_
  refine Triple.ite (fun _ => Triple.pure _) fun _ => ?_
  refine Triple.ite (fun _ => Triple.pure _) fun _ => ?_
  refine (Invoking.update _).bind fun _ => (Invoking.waitUntil _).bind fun _ => ?_
  refine Invoking.state fun s => Triple.ite (fun _ => ?_) fun _ => result hfailed And.left _
  refine (Invoking.update _).bind fun _ => (Invoking.fire (hp.sent _ _)).bind fun _ => ?_
  exact result hfailed And.left _

theorem receiveTimed (endpoint : Endpoint) (buffer : Buffer) :
    Invoking p (receiveTimed failed endpoint buffer) := by
  refine Invoking.state fun s => Triple.ite (fun _ => Triple.pure _) fun _ => ?_
  refine Triple.ite (fun _ => Triple.pure _) fun _ => ?_
  refine Triple.ite (fun _ => Triple.pure _) fun _ => ?_
  refine (Invoking.update _).bind fun _ => (Invoking.waitUntil _).bind fun _ => ?_
  refine Invoking.state fun s => (Invoking.update _).bind fun _ => ?_
  exact (Invoking.fire (hp.received _ _)).bind fun _ => result hfailed And.left _

theorem asyncSendToHandler (op : Operation) (completion : Completion) :
    Invoking p (asyncSendToHandler failed op completion) := by
  refine (Invoking.update _).bind fun _ => Invoking.state fun s => ?_
  refine Triple.ite (fun _ => Triple.pure _) fun _ => ?_
  refine Triple.ite (fun h => (hfailed _ h).bind fun _ => Triple.pure _) fun _ => ?_
  refine Triple.ite (fun _ => (Invoking.update _).bind fun _ => ?_) fun _ => Triple.pure _
  exact Invoking.state fun s => Invoking.fire (hp.sent _ _)

theorem asyncReceiveHandler (op : Operation) (completion : Completion) :
    Invoking p (asyncReceiveHandler failed op completion) := by
  refine (Invoking.update _).bind fun _ => Invoking.state fun s => ?_
  refine Triple.ite (fun _ => Triple.pure _) fun _ => ?_
  refine Triple.ite (fun h => (hfailed _ h).bind fun _ => Triple.pure _) fun _ => ?_
  refine (Invoking.update _).bind fun _ => Invoking.state fun s => ?_
  refine (Invoking.fire (hp.received _ _)).bind fun _ => Invoking.state fun s => ?_
  refine Triple.ite (fun _ => ?_) fun _ => Triple.pure _
  exact Triple.ite (fun _ => (hfailed _ rfl).bind fun _ => Triple.pure _)
    fun _ => Invoking.update _

end Transfer

theorem completionHandler {sendFailed receiveFailed : ErrorCode → Proc δ Unit}
    (hsend : ∀ ec, ec.failed = true → Invoking p (sendFailed ec))
    (hreceive : ∀ ec, ec.failed = true → Invoking p (receiveFailed ec))
    (op : Operation) (completion : Completion) :
    Invoking p (completionHandler sendFailed receiveFailed op completion) :=
  completionHandler_cases (motive := Invoking p) completion
    (fun _ => hp.asyncSendToHandler hsend op completion)
    (fun _ => hp.asyncReceiveHandler hreceive op completion)
    fun _ => Invoking.timedSocketHandler op completion

theorem sendAsync {rejected : Proc δ Unit} (hrejected : Invoking p rejected)
    (endpoint : Endpoint) (buffer : Buffer) :
    Invoking p (sendAsync rejected endpoint buffer) := by
  refine Invoking.state fun s => Triple.ite (fun _ => Triple.pure _) fun _ => ?_
  refine Triple.ite (fun _ => Triple.pure _) fun _ => ?_
  refine Triple.ite (fun _ => Triple.pure _) fun _ => ?_
  refine Triple.ite (fun _ => Triple.pure _) fun _ => ?_
  refine Triple.ite (fun _ => ?_) fun _ => ?_
  · exact (hp.sendError rfl).bind fun _ => hrejected.bind fun _ => Triple.pure _
  · exact (Invoking.update _).bind fun _ => Triple.pure _

end Tolerates

/-! ## The server -/

namespace Server

variable {p : Event → Prop}

theorem start_invoking : Invoking p Server.start :=
  Invoking.state fun _ => Triple.ite (fun _ => Triple.pure _) fun _ =>
    (Invoking.update _).bind fun _ => Triple.pure _

theorem stop_invoking : Invoking p Server.stop :=
  Invoking.state fun _ => Triple.ite (fun _ => Triple.pure _) fun _ =>
    (Invoking.update _).bind fun _ => Triple.pure _

theorem restart_invoking : Invoking p restart :=
  stop_invoking.bind fun _ => Triple.ite (fun _ => Triple.pure _) fun _ =>
    (Invoking.waitUntil _).bind fun _ => start_invoking

theorem call_invoking (hp : Tolerates p) (net : Net) (k : Call) : Invoking p (call net k) := by
  have hfailed (ec : ErrorCode) (hec : ec.failed = true) : Invoking p (sendError ec : Code Unit) :=
    hp.sendError hec
  cases k with
  | start => exact start_invoking.discard
  | startMulticastAt address port =>
      exact ((Invoking.makeAddress net address).bind fun _ =>
        (Invoking.update _).bind fun _ => start_invoking).discard
  | startMulticast endpoint =>
      exact ((Invoking.update _).bind fun _ => start_invoking).discard
  | stop => exact stop_invoking.discard
  | restart => exact restart_invoking.discard
  | send endpoint buffer answer =>
      exact Invoking.state fun s => (hp.send hfailed _ buffer answer).discard
  | sendTimed endpoint buffer =>
      exact Invoking.state fun s => (hp.sendTimed hfailed _ buffer).discard
  | sendAsync endpoint buffer =>
      exact Invoking.state fun s =>
        (hp.sendAsync (Invoking.state fun _ => Invoking.fire (hp.sent _ _)) _ buffer).discard
  | receive buffer answer => exact (hp.receive hfailed buffer answer).discard
  | receiveTimed endpoint buffer => exact (hp.receiveTimed hfailed endpoint buffer).discard
  | receiveAsync => exact Invoking.tryReceive
  | setupReuseAddress enable => exact Invoking.update _
  | setupReusePort enable => exact Invoking.update _
  | setupReceiveBufferLimit limit => exact Invoking.update _
  | setupSendBufferLimit limit => exact Invoking.update _

theorem startHandler_invoking (hstarted : p .onStarted) (answers : SocketAnswers) :
    Invoking p (startHandler answers) :=
  Invoking.state fun _ => Triple.ite (fun _ => Triple.pure _) fun _ =>
    Invoking.openSession hstarted answers _

theorem stopHandler_invoking (hstopped : p .onStopped) : Invoking p stopHandler :=
  Invoking.state fun _ => Triple.ite (fun _ => Triple.pure _) fun _ =>
    (Invoking.update _).bind fun _ => (Invoking.update _).bind fun _ =>
      (Invoking.update _).bind fun _ => Invoking.fire hstopped

theorem sendFailed_invoking (hp : Tolerates p) (ec : ErrorCode) (hec : ec.failed = true) :
    Invoking p (sendFailed ec) :=
  (hp.sendError hec).bind fun _ => Invoking.state fun _ => Invoking.fire (hp.sent _ _)

theorem receiveFailed_invoking (hp : Tolerates p) (ec : ErrorCode) (hec : ec.failed = true) :
    Invoking p (receiveFailed ec) :=
  (hp.sendError hec).bind fun _ => Invoking.state fun _ => Invoking.fire (hp.received _ _)

theorem system_invoking (hp : Tolerates p) (hstarted : p .onStarted) (hstopped : p .onStopped)
    (net : Net) :
    (system net).Obeys (fun _ => True) (fun _ => True) fun _ => CallsOnly p where
  call k inside _ := (call_invoking hp net k).obeys
  handler h s origin program _ hlookup := by
    cases runnable_of_handler hlookup with
    | @completion op completion hmem hresult =>
        exact (hp.completionHandler (sendFailed_invoking hp) (receiveFailed_invoking hp) op
          completion).obeys s
    | timer hfired => exact (Invoking.timedTimerHandler _ _).obeys s
    | @posted index handler answers hposted =>
        have hposted : Invoking p (postedHandler answers handler) := by
          cases handler with
          | start => exact startHandler_invoking hstarted answers
          | stop => exact stopHandler_invoking hstopped
        have hcode : Invoking p (do unpost index; postedHandler answers handler) :=
          (Invoking.update _).bind fun _ => hposted
        exact hcode.obeys s

end Server

/-! ## The client -/

namespace Client

variable {p : Event → Prop}

def Call.isAsynchronous : Call → Bool
  | .connect _ | .connectVia _ _ _ | .disconnect | .reconnect _ | .send _ _ _ | .sendTimed _ _
  | .receive _ _ | .receiveTimed _ _ => false
  | _ => true

theorem connectAsync_invoking : Invoking p connectAsync :=
  Invoking.state fun _ => Triple.ite (fun _ => Triple.pure _) fun _ =>
    (Invoking.update _).bind fun _ => Triple.pure _

theorem disconnectAsync_invoking : Invoking p disconnectAsync :=
  Invoking.state fun _ => Triple.ite (fun _ => Triple.pure _) fun _ =>
    (Invoking.update _).bind fun _ => (Invoking.update _).bind fun _ => Triple.pure _

theorem connectAsyncVia_invoking (resolver : Bool) : Invoking p (connectAsyncVia resolver) :=
  Invoking.state fun _ => Triple.ite (fun _ => Triple.pure _) fun _ =>
    Triple.ite (fun _ => Triple.pure _) fun _ => (Invoking.update _).bind fun _ => Triple.pure _

theorem reconnectAsync_invoking : Invoking p reconnectAsync :=
  disconnectAsync_invoking.bind fun _ => Triple.ite (fun _ => Triple.pure _) fun _ =>
    (Invoking.waitUntil _).bind fun _ => connectAsync_invoking

theorem group_invoking {event : Event} (hevent : p event) (net : Net) (address : String)
    (answer : ErrorCode) :
    Invoking p (do
      let s ← state
      if !s.running then return ()
      let _ ← makeAddress net address
      if answer.failed then throw answer
      fire event : Code Unit) := by
  refine Invoking.state fun _ => Triple.ite (fun _ => Triple.pure _) fun _ => ?_
  refine (Invoking.makeAddress net address).bind fun _ => ?_
  exact Triple.ite (fun _ => (Invoking.throw _).bind fun _ => Invoking.fire hevent)
    fun _ => Invoking.fire hevent

theorem asynchronous_invoking (hp : Tolerates p)
    (hjoined : ∀ address, p (.onJoinedMulticastGroup address))
    (hleft : ∀ address, p (.onLeftMulticastGroup address)) (net : Net) (inside : Bool)
    {k : Call} (hk : k.isAsynchronous = true) : Invoking p (call net inside k) := by
  cases k with
  | connectAsync => exact connectAsync_invoking.discard
  | connectAsyncVia resolver => exact (connectAsyncVia_invoking resolver).discard
  | disconnectAsync => exact disconnectAsync_invoking.discard
  | reconnectAsync => exact reconnectAsync_invoking.discard
  | joinMulticastGroup address answer => exact group_invoking (hjoined _) net address answer
  | leaveMulticastGroup address answer => exact group_invoking (hleft _) net address answer
  | joinMulticastGroupAsync address answer =>
      refine Invoking.state fun _ => Triple.ite (fun _ => Triple.pure _) fun _ => ?_
      exact Triple.ite (fun _ => group_invoking (hjoined _) net address answer)
        fun _ => Invoking.update _
  | leaveMulticastGroupAsync address answer =>
      refine Invoking.state fun _ => Triple.ite (fun _ => Triple.pure _) fun _ => ?_
      exact Triple.ite (fun _ => group_invoking (hleft _) net address answer)
        fun _ => Invoking.update _
  | sendAsync endpoint buffer =>
      exact Invoking.state fun s => (hp.sendAsync (Triple.pure ()) _ buffer).discard
  | receiveAsync => exact Invoking.tryReceive
  | setupReuseAddress enable => exact Invoking.update _
  | setupReusePort enable => exact Invoking.update _
  | setupMulticast enable => exact Invoking.update _
  | _ => cases hk

/-! Where a session may begin and end. -/

section Sessions

variable (hp : Tolerates p) (hconnected : p .onConnected) (hdisconnected : p .onDisconnected)

include hconnected in
theorem openAt_invoking (endpoint : Endpoint) (answers : SocketAnswers) :
    Invoking p (do setEndpoint endpoint; openSession answers bindTo .onConnected : Code Unit) :=
  (Invoking.update _).bind fun _ => Invoking.openSession hconnected answers _

include hconnected in
theorem connect_invoking (net : Net) (answers : SocketAnswers) :
    Invoking p (connect net answers) := by
  refine Invoking.state fun _ => Triple.ite (fun _ => Triple.pure _) fun _ => ?_
  refine Triple.ite (fun _ => Triple.pure _) fun _ => ?_
  refine Triple.ite (fun _ => Triple.pure _) fun _ => ?_
  refine (Invoking.makeAddress net _).bind fun _ => (Invoking.update _).bind fun _ => ?_
  exact (Invoking.openSession hconnected answers _).bind fun _ => Triple.pure _

include hdisconnected in
theorem disconnectInternal_invoking : Invoking p disconnectInternal := by
  refine Invoking.state fun _ => Triple.ite (fun _ => Triple.pure _) fun _ => ?_
  refine (Invoking.update _).bind fun _ => (Invoking.update _).bind fun _ => ?_
  refine (Invoking.update _).bind fun _ => (Invoking.fire hdisconnected).bind fun _ => ?_
  exact Triple.pure _

include hp hdisconnected

theorem syncFailed_invoking (ec : ErrorCode) (hec : ec.failed = true) :
    Invoking p (syncFailed ec) :=
  (hp.sendError hec).bind fun _ => (disconnectInternal_invoking hdisconnected).discard

theorem asyncFailed_invoking (ec : ErrorCode) (hec : ec.failed = true) :
    Invoking p (asyncFailed ec) := by
  refine (hp.sendError hec).bind fun _ => Invoking.discard (Invoking.state fun _ => ?_)
  refine Triple.ite (fun _ => Triple.pure _) fun _ => (Invoking.update _).bind fun _ => ?_
  exact (disconnectInternal_invoking hdisconnected).discard.bind fun _ => Triple.pure _

include hconnected

theorem connectVia_invoking (resolver : Bool) (resolution : ErrorCode × Endpoint)
    (answers : SocketAnswers) : Invoking p (connectVia resolver resolution answers) := by
  refine Invoking.state fun _ => Triple.ite (fun _ => Triple.pure _) fun _ => ?_
  refine Triple.ite (fun _ => Triple.pure _) fun _ => ?_
  refine Triple.ite (fun _ => Triple.pure _) fun _ => ?_
  refine Triple.ite (fun _ => Triple.pure _) fun _ => ?_
  refine Triple.ite (fun hfailed => ?_) fun _ => ?_
  · refine (hp.sendError hfailed).bind fun _ => ?_
    exact (Invoking.fire hdisconnected).bind fun _ => Triple.pure _
  · refine (Invoking.update _).bind fun _ => ?_
    exact (Invoking.openSession hconnected answers _).bind fun _ => Triple.pure _

theorem asyncResolveHandler_invoking (index : Nat) (resolution : ErrorCode × Endpoint)
    (answers : SocketAnswers) :
    Invoking p (asyncResolveHandler index resolution answers) := by
  refine (Invoking.update _).bind fun _ => (Invoking.update _).bind fun _ => ?_
  refine Invoking.state fun _ => Triple.ite (fun _ => Triple.pure _) fun _ => ?_
  refine Triple.ite (fun _ => openAt_invoking hconnected _ answers) fun hfailed => ?_
  refine (hp.sendError ?_).bind fun _ => Invoking.fire hdisconnected
  simpa using hfailed

variable (hjoined : ∀ address, p (.onJoinedMulticastGroup address))
  (hleft : ∀ address, p (.onLeftMulticastGroup address))

include hjoined hleft

theorem call_invoking (net : Net) (inside : Bool) (k : Call) :
    Invoking p (call net inside k) := by
  have hfailed := syncFailed_invoking hp hdisconnected
  cases hk : k.isAsynchronous with
  | true => exact asynchronous_invoking hp hjoined hleft net inside hk
  | false =>
      cases k with
      | connect answers => exact (connect_invoking hconnected net answers).discard
      | connectVia resolver resolution answers =>
          exact (connectVia_invoking hp hconnected hdisconnected _ _ _).discard
      | disconnect => exact (disconnectInternal_invoking hdisconnected).discard
      | reconnect answers =>
          refine Invoking.discard ((disconnectInternal_invoking hdisconnected).bind fun _ => ?_)
          exact Triple.ite (fun _ => Triple.pure _) fun _ =>
            connect_invoking hconnected net answers
      | send endpoint buffer answer =>
          exact Invoking.state fun s => (hp.send hfailed _ buffer answer).discard
      | sendTimed endpoint buffer =>
          exact Invoking.state fun s => (hp.sendTimed hfailed _ buffer).discard
      | receive buffer answer => exact (hp.receive hfailed buffer answer).discard
      | receiveTimed endpoint buffer => exact (hp.receiveTimed hfailed endpoint buffer).discard
      | _ => cases hk

omit hp in
theorem postedHandler_invoking (net : Net) (answers : SocketAnswers) (handler : Handler) :
    Invoking p (postedHandler net answers handler) := by
  cases handler with
  | connect => exact (connect_invoking hconnected net answers).discard
  | connectVia =>
      refine Invoking.state fun _ => Triple.ite (fun _ => Triple.pure _) fun _ => ?_
      exact (Invoking.update _).bind fun _ => Invoking.update _
  | disconnect session => exact (disconnectInternal_invoking hdisconnected).discard
  | joinMulticastGroup address => exact group_invoking (hjoined _) net address _
  | leaveMulticastGroup address => exact group_invoking (hleft _) net address _
  | asyncResolve => exact Triple.pure _

theorem system_invoking (net : Net) :
    (system net).Obeys (fun _ => True) (fun _ => True) fun _ => CallsOnly p where
  call k inside _ := (call_invoking hp hconnected hdisconnected hjoined hleft net inside k).obeys
  handler h s origin program _ hlookup := by
    cases runnable_of_handler hlookup with
    | @completion op completion hmem hresult =>
        have hfailed := asyncFailed_invoking hp hdisconnected
        exact (hp.completionHandler hfailed hfailed op completion).obeys s
    | timer hfired => exact (Invoking.timedTimerHandler _ _).obeys s
    | @posted index handler answers hposted =>
        have hcode : Invoking p (do unpost index; postedHandler net answers handler) :=
          (Invoking.update _).bind fun _ =>
            postedHandler_invoking hconnected hdisconnected hjoined hleft net answers handler
        exact hcode.obeys s
    | resolved index answers resolution =>
        exact (asyncResolveHandler_invoking hp hconnected hdisconnected _ _ _).obeys s

end Sessions

end Client

/-! ## Runs -/

section Runs

variable {P : Profile δ} {s s' : Peer δ} {p : Event → Prop}

private theorem log_quietly {scope : Scope} (h : Quietly P scope s s') : s'.log = s.log := by
  induction h with
  | refl => rfl
  | tail _ hstep ih =>
      refine Eq.trans ?_ ih
      cases hstep with
      | special h => exact P.inert_field h Peer.log
      | _ => rfl

private theorem log_fires {event : Event} (h : Fires P event s s') : s'.log = s.log ++ [event] := by
  cases h with
  | closed hrun => cases P.clears <;> rfl
  | _ => rfl

private theorem log_effect {scope : Option Event → Scope} {point : Option Event}
    {stop : Stop Event ErrorCode} (h : Effect P scope point s stop s') :
    s'.log = s.log ∨ ∃ event, stop = .called event ∧ s'.log = s.log ++ [event] := by
  obtain ⟨middle, hquiet, hends⟩ := h
  rw [← log_quietly hquiet]
  cases hends with
  | returned => exact Or.inl rfl
  | waiting => exact Or.inl rfl
  | called h => exact Or.inr ⟨_, rfl, log_fires h⟩
  | threw h => cases h <;> exact Or.inl rfl

private theorem log_untouched (h : Untouched P s s') : s'.log = s.log := by
  rcases h with rfl | h | h
  · rfl
  · cases h <;> rfl
  · exact P.inert_field h Peer.log

theorem log_states {S : PeerSystem δ π κ η ν} (hM : Modelled S P)
    (hT : S.Obeys (fun _ => True) (fun _ => True) fun _ => CallsOnly p) (endpoint : Endpoint)
    (own : δ) (ms : List (Move κ η ν)) :
    ∀ c ∈ S.states (.initial (.fresh endpoint own)) ms, ∀ event ∈ c.world.log, p event := by
  have hfresh : ∀ event ∈ (Peer.fresh endpoint own).log, p event := by simp [Peer.fresh]
  refine System.states_keep (I := fun s => ∀ event ∈ s.log, p event) ((hM.obeys.and hT).mono ?_)
    ?_ hfresh fun m _ => admitted_all m
  · rintro origin point s stop s' ⟨heffect, hinvokes⟩ hs
    rcases log_effect heffect with hlog | ⟨event, hstop, hlog⟩
    · rwa [hlog]
    · rw [hlog]
      intro other hother
      rcases List.mem_append.mp hother with hother | hother
      · exact hs other hother
      · rw [List.mem_singleton.mp hother]
        exact hinvokes event hstop
  · intro e s s' henv hs
    rwa [log_untouched (Or.inr (hM.environment e s s' henv))]

end Runs

/-- `onError` is invoked for failures only, and for none that `SendError` leaves out. -/
def Event.Genuine : Event → Prop
  | .onError ec => Reportable ec
  | _ => True

private theorem tolerates_genuine : Tolerates Event.Genuine where
  sent _ _ := trivial
  received _ _ := trivial
  error _ h := h

/--
Whatever the socket and the resolver report, `onError` of a server or of a client is invoked for
failures only, and never because an operation was aborted or because a connection was aborted,
refused, reset or ended.
-/
theorem onError_reports_genuine_failures (net : Net) :
    (∀ {s₀ : Server}, Server.Constructed net s₀ →
      ∀ ms, ∀ c ∈ (Server.system net).states (.initial s₀) ms,
        ∀ ec, .onError ec ∈ c.world.log → Reportable ec) ∧
    ∀ {s₀ : Client}, Client.Constructed s₀ →
      ∀ ms, ∀ c ∈ (Client.system net).states (.initial s₀) ms,
        ∀ ec, .onError ec ∈ c.world.log → Reportable ec := by
  constructor
  · intro s₀ hs₀ ms c hc ec hec
    obtain ⟨endpoint, own, rfl, -⟩ := hs₀.fresh
    exact log_states (Server.modelled net)
      (Server.system_invoking tolerates_genuine trivial trivial net) endpoint own ms c hc _ hec
  · intro s₀ hs₀ ms c hc ec hec
    obtain ⟨endpoint, own, rfl, -⟩ := hs₀.fresh
    exact log_states (Client.modelled net)
      (Client.system_invoking tolerates_genuine trivial trivial (fun _ => trivial)
        (fun _ => trivial) net) endpoint own ms c hc _ hec

theorem onError_reports_genuine_failures_rejected :
    ∃ c, (Server.system .loopback).run (.initial (Server.ofPort 5000 .ipv4))
        [.call .start none, .handler (.posted 0 (.clean 4)), .resume 1,
          .call .receiveAsync none, .call (.setupSendBufferLimit 1) none,
          .call (.sendAsync none (.bytes [1, 2])) none, .resume 4, .resume 4,
          .environment (.complete 0 ⟨.operationAborted, 0, default⟩),
          .handler (.completion 0), .resume 5] = some c ∧
      c.world.log = [.onStarted, .onError .noBufferSpace, .onSent default 0,
        .onReceived default 0] ∧
      ∀ ec, .onError ec ∈ c.world.log → Reportable ec :=
  Steps.run_and_states
    ((onError_reports_genuine_failures .loopback).1 (.ofPort 5000 .ipv4) _) ⟨_, rfl, rfl⟩

end AsioWrapper.Udp
