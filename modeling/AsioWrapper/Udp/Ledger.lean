import AsioWrapper.Udp.Reach

/-!
# The books a peer keeps

The four statistics and the callbacks invoked so far form a ledger.  A segment
that invokes a callback makes one entry, which the callback, the code it is
invoked by and the callback that code was resumed from determine; every other
segment leaves the ledger alone.  Only four calls block, each in its first
segment, so what is blocked can be told from the call.
-/

namespace AsioWrapper.Udp

open AsioWrapper.Asio
open AsioWrapper.Foundation
open AsioWrapper.Foundation.Program

variable {δ π : Type}

structure Ledger where
  bytesSent : UInt64
  bytesReceived : UInt64
  datagramsSent : UInt64
  datagramsReceived : UInt64
  log : List Event
  deriving DecidableEq, Repr

def Peer.ledger (s : Peer δ) : Ledger :=
  ⟨s.bytesSent, s.bytesReceived, s.datagramsSent, s.datagramsReceived, s.log⟩

def Event.sentSize : Event → Nat
  | .onSent _ sent => sent
  | _ => 0

def Event.receivedSize : Event → Nat
  | .onReceived _ size => size
  | _ => 0

def Event.isSent : Event → Bool
  | .onSent _ _ => true
  | _ => false

def Event.isReceived : Event → Bool
  | .onReceived _ _ => true
  | _ => false

theorem Event.isReceived_of_isLifecycle {event : Event} (h : event.isLifecycle = true) :
    event.isReceived = false := by
  cases event <;> first | rfl | contradiction

theorem Event.isSent_of_isLifecycle {event : Event} (h : event.isLifecycle = true) :
    event.isSent = false := by
  cases event <;> first | rfl | contradiction

theorem Event.sentSize_of_isSent {event : Event} (h : event.isSent = false) :
    event.sentSize = 0 := by
  cases event <;> first | rfl | contradiction

/-- Whether the code at this point counts a datagram with the callback: the calls count
what they sent and what they received, the completion handlers what they received. -/
def counts (origin : Option (Origin π)) (point : Option Event) (event : Event) : Bool :=
  match origin, point, event with
  | none, _, .onSent _ sent => decide (0 < sent)
  | none, none, .onReceived _ _ => true
  | some (.completion _ completion), none, .onReceived _ _ => !completion.error.failed
  | _, _, _ => false

def Ledger.entry (announce : Event) (counted : Bool) (event : Event) (l : Ledger) : Ledger :=
  if event = announce then ⟨0, 0, 0, 0, l.log ++ [event]⟩
  else
    { bytesSent := l.bytesSent + UInt64.ofNat event.sentSize
      bytesReceived := l.bytesReceived + UInt64.ofNat event.receivedSize
      datagramsSent := l.datagramsSent + if event.isSent && counted then 1 else 0
      datagramsReceived := l.datagramsReceived + if event.isReceived && counted then 1 else 0
      log := l.log ++ [event] }

def SentAsync (origin : Option (Origin π)) (point : Option Event) (s : Peer δ)
    (sent : Nat) : Prop :=
  s.running = true ∧ point = none ∧ ∃ op completion, origin = some (.completion op completion) ∧
    op.isSend = true ∧ completion.error.failed = false ∧ completion.size = sent

/-- A segment of code that does not block.  Among the calls only those that receive report
a datagram, and among the handlers only those of sends report bytes sent. -/
def Books (announce : Event) (receives : Bool) (origin : Option (Origin π))
    (point : Option Event) (s : Peer δ) (stop : Stop Event ErrorCode) (s' : Peer δ) : Prop :=
  match stop with
  | .called event =>
      s'.ledger = s.ledger.entry announce (counts origin point event) event ∧
        (origin = none → event.isReceived = true → receives = true) ∧
        (origin ≠ none → 0 < event.sentSize → SentAsync origin point s event.sentSize)
  | .waiting => False
  | _ => s'.ledger = s.ledger

def Unbooked (_ : Option Event) (start s : Peer δ) : Prop := s.ledger = start.ledger

def Booked (announce : Event) (receives : Bool) (origin : Option (Origin π)) {α : Type}
    (m : Proc δ α) : Prop :=
  Triple (Books announce receives origin) Unbooked (fun _ => True) m (fun _ _ => True)

section Rules

variable {announce : Event} {receives : Bool} {origin : Option (Origin π)} {α β : Type}

theorem Booked.bind {m : Proc δ α} {f : α → Proc δ β} (hm : Booked announce receives origin m)
    (hf : ∀ value, Booked announce receives origin (f value)) :
    Booked announce receives origin (m >>= f) :=
  Triple.bind hm hf

theorem Booked.pure (value : α) :
    Booked announce receives origin (Pure.pure value : Proc δ α) :=
  Triple.pure value

theorem Booked.discard {m : Proc δ α} (hm : Booked announce receives origin m) :
    Booked announce receives origin (Functor.discard m) :=
  Triple.discard hm

theorem Booked.state {f : Peer δ → Proc δ β} (hf : ∀ s, Booked announce receives origin (f s)) :
    Booked announce receives origin (Program.state >>= f) :=
  Triple.state fun s => (hf s).weaken (fun _ _ => trivial) (fun _ _ h => h)

theorem Booked.update {f : Peer δ → Peer δ} (h : ∀ s, (f s).ledger = s.ledger) :
    Booked announce receives origin (Program.update f) :=
  Triple.update fun _ _ s hs _ => (h s).trans hs

theorem Booked.throw (ec : ErrorCode) : Booked announce receives origin (throw ec : Proc δ α) :=
  fun _ _ _ hs _ => hs

theorem Booked.ite {c : Prop} [Decidable c] {m m' : Proc δ α}
    (hm : Booked announce receives origin m) (hm' : Booked announce receives origin m') :
    Booked announce receives origin (if c then m else m') :=
  Triple.ite (fun _ => hm) (fun _ => hm')

theorem Booked.fire {event : Event} (hannounce : event ≠ announce)
    (hsize : event.sentSize = 0 ∧ event.receivedSize = 0)
    (hcounts : ∀ point, counts origin point event = false)
    (hreceived : origin = none → event.isReceived = false) :
    Booked announce receives origin (Udp.fire event : Proc δ Unit) := by
  intro point start s hs _
  rw [Udp.fire, segments_bind, segments_update, segments_callback]
  refine ⟨⟨?_, fun horigin h => ?_, fun _ h => ?_⟩, fun s' => ⟨rfl, trivial⟩⟩
  · have hs : s.ledger = start.ledger := hs
    simp only [hcounts, Ledger.entry, if_neg hannounce, hsize.1, hsize.2, ← hs]
    simp [Peer.ledger, Peer.logged]
  · rw [hreceived horigin] at h
    cases h
  · rw [hsize.1] at h
    cases h

end Rules

/-! ## The code of both classes -/

theorem entry_of_ne {announce event : Event} (h : event ≠ announce) (counted : Bool)
    (l : Ledger) :
    l.entry announce counted event =
      { bytesSent := l.bytesSent + UInt64.ofNat event.sentSize
        bytesReceived := l.bytesReceived + UInt64.ofNat event.receivedSize
        datagramsSent := l.datagramsSent + if event.isSent && counted then 1 else 0
        datagramsReceived := l.datagramsReceived + if event.isReceived && counted then 1 else 0
        log := l.log ++ [event] } :=
  if_neg h

section Common

variable {announce : Event} (hannounce : announce.isLifecycle = true) {receives : Bool}
  {origin : Option (Origin π)}

include hannounce

theorem ne_announce {event : Event} (h : event.isLifecycle = false) : event ≠ announce := by
  rintro rfl
  rw [hannounce] at h
  contradiction

theorem sendError_booked (ec : ErrorCode) :
    Booked announce receives origin (sendError ec : Proc δ Unit) :=
  Booked.ite (Booked.pure ()) (Booked.fire (ne_announce hannounce rfl) ⟨rfl, rfl⟩
    (fun point => by simp [counts]) fun _ => rfl)

omit hannounce in
theorem attempt_booked (call : SocketCall) (ec : ErrorCode) {effect : Peer δ → Peer δ}
    (heffect : ∀ s, (effect s).ledger = s.ledger) :
    Booked announce receives origin (attempt call ec effect) := by
  refine Booked.ite (Booked.bind ?_ fun _ => Booked.throw ec) (Booked.update heffect)
  exact Booked.update fun _ => rfl

omit hannounce in
theorem whenever_booked (c : Bool) {m : Proc δ Unit} (hm : Booked announce receives origin m) :
    Booked announce receives origin (whenever c m) :=
  Booked.ite hm (Booked.pure ())

theorem openSession_booked (answers : SocketAnswers) (bindTo : Peer δ → Endpoint) :
    Booked announce receives origin (openSession answers bindTo announce) := by
  refine Booked.state fun s => ?_
  refine Booked.bind (attempt_booked _ _ fun _ => rfl) fun _ => ?_
  refine Booked.bind (whenever_booked _ (attempt_booked _ _ fun _ => rfl)) fun _ => ?_
  refine Booked.bind (whenever_booked _ (attempt_booked _ _ fun _ => rfl)) fun _ => ?_
  refine Booked.bind (attempt_booked _ _ fun _ => rfl) fun _ => ?_
  refine Booked.bind (attempt_booked _ _ fun _ => rfl) fun _ => ?_
  intro point start s hs _
  rw [segments_bind, segments_update, Udp.fire, segments_bind, segments_update, segments_callback]
  refine ⟨⟨?_, fun _ h => ?_, fun _ h => ?_⟩, fun s' => ⟨rfl, trivial⟩⟩
  · have hlog : s.log = start.log := congrArg Ledger.log hs
    simp [Ledger.entry, Peer.ledger, Peer.logged, Peer.enterSession, hlog]
  · rw [Event.isReceived_of_isLifecycle hannounce] at h
    cases h
  · rw [Event.sentSize_of_isSent (Event.isSent_of_isLifecycle hannounce)] at h
    cases h

theorem books_sent {point : Option Event} {start s : Peer δ} (hs : s.ledger = start.ledger)
    (endpoint : Endpoint) {sent : Nat} (hsent : sent > 0) :
    Books announce receives (none : Option (Origin π)) point start (.called (.onSent endpoint sent))
      ((s.countSent sent).logged (.onSent endpoint sent)) := by
  have hne : Event.onSent endpoint sent ≠ announce := ne_announce hannounce rfl
  refine ⟨?_, fun _ h => (by cases h), fun h => (h rfl).elim⟩
  simp only [entry_of_ne hne, ← hs]
  simp [Peer.ledger, Peer.logged, Peer.countSent, counts, Event.sentSize, Event.receivedSize,
    Event.isSent, Event.isReceived, hsent]

theorem books_received {origin : Option (Origin π)} {point : Option Event} {start s : Peer δ}
    (hs : s.ledger = start.ledger) (endpoint : Endpoint) (size : Nat)
    (hcounts : counts origin point (.onReceived endpoint size) = true)
    (hreceives : origin = none → receives = true) :
    Books announce receives origin point start (.called (.onReceived endpoint size))
      ((s.countReceived size).logged (.onReceived endpoint size)) := by
  have hne : Event.onReceived endpoint size ≠ announce := ne_announce hannounce rfl
  refine ⟨?_, fun horigin _ => hreceives horigin, fun _ h => by cases h⟩
  simp only [entry_of_ne hne, ← hs, hcounts]
  simp [Peer.ledger, Peer.logged, Peer.countReceived, Event.sentSize, Event.receivedSize,
    Event.isSent, Event.isReceived]

theorem send_booked {failed : ErrorCode → Proc δ Unit}
    (hfailed : ∀ ec, Booked announce receives (none : Option (Origin π)) (failed ec))
    (endpoint : Endpoint) (buffer : Buffer) (answer : Completion) :
    Booked announce receives (none : Option (Origin π)) (send failed endpoint buffer answer) := by
  intro point start s hs _
  simp only [send, fire, segments_bind, segments_state, segments_ite, segments_pure,
    segments_update, segments_callback]
  split_ifs with hrun hsize hnull hsent herror herror
  · exact ⟨hs, trivial⟩
  · exact ⟨hs, trivial⟩
  · exact ⟨hs, trivial⟩
  · exact ⟨books_sent hannounce hs endpoint hsent, fun s' => hfailed _ _ s' s' rfl trivial⟩
  · exact ⟨books_sent hannounce hs endpoint hsent, fun s' => ⟨rfl, trivial⟩⟩
  · exact hfailed _ point start s hs trivial
  · exact ⟨hs, trivial⟩

theorem sendAsync_booked {rejected : Proc δ Unit}
    (hrejected : Booked announce receives origin rejected) (endpoint : Endpoint) (buffer : Buffer) :
    Booked announce receives origin (sendAsync rejected endpoint buffer) := by
  intro point start s hs _
  simp only [sendAsync, segments_bind, segments_state, segments_ite, segments_pure,
    segments_update]
  split_ifs with hsending hrun hsize hnull hlimit
  · exact ⟨hs, trivial⟩
  · exact ⟨hs, trivial⟩
  · exact ⟨hs, trivial⟩
  · exact ⟨hs, trivial⟩
  · exact (segments_bind _ _).mp
      ((sendError_booked hannounce _).bind (fun _ => hrejected.bind fun _ => Booked.pure false)
        point start s hs trivial)
  · exact ⟨hs, trivial⟩

/-- The handler of an asynchronous send reports its bytes, but does not count the datagram. -/
theorem asyncSendToHandler_booked {failed : ErrorCode → Proc δ Unit} {op : Operation}
    {completion : Completion} (hsend : op.isSend = true)
    (hfailed : ∀ ec, Booked announce receives (some (.completion op completion : Origin π))
      (failed ec)) (s : Peer δ) :
    (asyncSendToHandler failed op completion).Segments
      (Books announce receives (some (.completion op completion : Origin π)))
      (fun _ point start s => Unbooked point start s ∧ True) none s s := by
  simp only [asyncSendToHandler, fire, segments_bind, segments_state, segments_ite,
    segments_pure, segments_update, segments_callback]
  split_ifs with hrun herror hsent
  · exact ⟨rfl, trivial⟩
  · exact hfailed _ none s _ rfl trivial
  · refine ⟨⟨?_, fun h => (by cases h), fun _ _ => ?_⟩, fun s' => ⟨rfl, trivial⟩⟩
    · have hne : Event.onSent s.sendEndpoint completion.size ≠ announce :=
        ne_announce hannounce rfl
      refine Eq.trans ?_ (entry_of_ne hne _ _).symm
      simp [Peer.ledger, Peer.logged, Peer.recordSent, Peer.finishSend, Peer.removeOperation,
        counts, Event.sentSize, Event.receivedSize, Event.isSent, Event.isReceived]
    · have hrun : s.running = true := by
        simpa [Peer.finishSend, Peer.removeOperation] using hrun
      exact ⟨hrun, rfl, op, completion, rfl, hsend, by simpa using herror, rfl⟩
  · exact ⟨rfl, trivial⟩

omit hannounce in
theorem asyncSendToHandler_reports (failed : ErrorCode → Proc δ Unit) (op : Operation)
    {completion : Completion} (hok : completion.error.failed = false)
    (hsent : 0 < completion.size) {s : Peer δ} (hrun : s.running = true) :
    (asyncSendToHandler failed op completion s).reached.log =
      s.log ++ [.onSent s.sendEndpoint completion.size] := by
  have hrun : (s.finishSend op).running = true := hrun
  simp only [asyncSendToHandler, bind_apply, Program.state, Program.update, Outcome.bind, hrun,
    hok, hsent, Bool.not_true, Bool.false_eq_true, if_false, if_true]
  rfl

omit hannounce in
theorem receive_reports (failed : ErrorCode → Proc δ Unit) {buffer : Buffer}
    (hsize : buffer.size ≠ 0) (hnull : buffer.isNull = false) (answer : Completion)
    {s : Peer δ} (hrun : s.running = true) :
    ((discard (receive failed buffer answer) : Proc δ Unit) s).reached.log =
      s.log ++ [.onReceived answer.sender answer.size] := by
  change ((receive failed buffer answer s).bind _).reached.log = _
  simp only [receive, bind_apply, Program.state, Outcome.bind, hrun, hsize, hnull,
    Bool.not_true, Bool.false_eq_true, if_false]
  rfl

theorem receive_booked {failed : ErrorCode → Proc δ Unit}
    (hfailed : ∀ ec, Booked announce true (none : Option (Origin π)) (failed ec))
    (buffer : Buffer) (answer : Completion) (s : Peer δ) :
    (receive failed buffer answer).Segments (Books announce true (none : Option (Origin π)))
      (fun _ point start s => Unbooked point start s ∧ True) none s s := by
  simp only [receive, fire, segments_bind, segments_state, segments_ite, segments_pure,
    segments_update, segments_callback]
  split_ifs with hrun hsize hnull herror
  · exact ⟨rfl, trivial⟩
  · exact ⟨rfl, trivial⟩
  · exact ⟨rfl, trivial⟩
  · exact ⟨books_received hannounce rfl _ _ rfl fun _ => rfl,
      fun s' => hfailed _ _ s' s' rfl trivial⟩
  · exact ⟨books_received hannounce rfl _ _ rfl fun _ => rfl, fun s' => ⟨rfl, trivial⟩⟩

omit hannounce in
theorem tryReceive_booked : Booked announce receives origin (tryReceive : Proc δ Unit) := by
  intro point start s hs _
  simp only [tryReceive, segments_bind, segments_state, segments_ite, segments_pure,
    segments_update]
  split_ifs
  · exact ⟨hs, trivial⟩
  · exact ⟨hs, trivial⟩
  · exact ⟨hs, trivial⟩

/-- The failure of a receive is reported before anything was counted or after the datagram
was, so that what it reports counts for nothing. -/
theorem asyncReceiveHandler_booked {failed : ErrorCode → Proc δ Unit} {op : Operation}
    {completion : Completion}
    (hfailed : ∀ ec point start (s : Peer δ), s.ledger = start.ledger →
      (point = none → completion.error.failed = true) →
      (failed ec).Segments (Books announce receives (some (.completion op completion : Origin π)))
        (fun _ point start s => Unbooked point start s ∧ True) point start s) (s : Peer δ) :
    (asyncReceiveHandler failed op completion).Segments
      (Books announce receives (some (.completion op completion : Origin π)))
      (fun _ point start s => Unbooked point start s ∧ True) none s s := by
  simp only [asyncReceiveHandler, fire, segments_bind, segments_state, segments_ite,
    segments_pure, segments_update, segments_callback]
  split_ifs with hrun herror
  · exact ⟨rfl, trivial⟩
  · exact hfailed _ none s _ rfl fun _ => herror
  · have hcounts : counts (some (.completion op completion : Origin π)) none
        (.onReceived (s.finishReceive op).receiveEndpoint completion.size) = true := by
      simpa [counts] using herror
    refine ⟨books_received hannounce rfl _ _ hcounts fun h => (by cases h), fun s' => ?_⟩
    split_ifs with hfull hlimit
    · exact hfailed _ _ s' s' rfl fun h => (by cases h)
    · exact ⟨rfl, trivial⟩
    · exact ⟨rfl, trivial⟩

omit hannounce in
theorem asyncDoneHandler_booked (id : Nat) (ec : ErrorCode) :
    Booked announce receives origin (asyncDoneHandler id ec : Proc δ Unit) := by
  refine Booked.state fun before => Booked.bind (Booked.update fun _ => rfl) fun _ => ?_
  refine Booked.ite (Booked.bind (Booked.update fun _ => rfl) fun _ => ?_) (Booked.pure _)
  refine Booked.state fun s => Booked.ite (Booked.throw _) ?_
  refine Booked.bind (Booked.update fun _ => rfl) fun _ => ?_
  exact Booked.update fun _ => rfl

omit hannounce in
theorem timedSocketHandler_booked (op : Operation) (completion : Completion) :
    Booked announce receives origin (timedSocketHandler op completion : Proc δ Unit) := by
  refine Booked.bind (Booked.update fun _ => rfl) fun _ => ?_
  refine (asyncDoneHandler_booked _ _).bind fun _ => ?_
  exact Booked.update fun _ => rfl

omit hannounce in
theorem timedTimerHandler_booked (id : Nat) (ec : ErrorCode) :
    Booked announce receives origin (timedTimerHandler id ec : Proc δ Unit) :=
  Booked.bind (Booked.update fun _ => rfl) fun _ => asyncDoneHandler_booked _ _

omit hannounce in
theorem makeAddress_booked (net : Net) (text : String) :
    Booked announce receives origin (makeAddress net text : Proc δ Address) := by
  unfold makeAddress
  split
  · exact Booked.pure _
  · exact Booked.throw _

end Common

/-! ## Calls that block -/

def awaitsCall (id : Nat) (s : Peer δ) : Bool := (s.timedCall id).done == 2

abbrev BookedFrom (announce : Event) (receives : Bool) (origin : Option (Origin π))
    (point : Option Event) (s : Peer δ) (o : Outcome (Peer δ) Event ErrorCode Unit) : Prop :=
  o.Segments (Books announce receives origin)
    (fun _ point start s' => Books announce receives origin point start .returned s') point s

def sendReport (failed : ErrorCode → Proc δ Unit) (endpoint : Endpoint) (id : Nat) :
    Proc δ Nat := do
  let s ← state
  let call := s.timedCall id
  if call.size > 0 then
    update fun s => s.countSent call.size
    fire (.onSent endpoint call.size)
  if call.error.failed ∧ call.error ≠ .timedOut then
    failed call.error
  return call.size

def receiveReport (failed : ErrorCode → Proc δ Unit) (id : Nat) : Proc δ Nat := do
  let s ← state
  let call := s.timedCall id
  update fun s => s.countReceived call.size
  fire (.onReceived call.endpoint call.size)
  if call.error.failed ∧ call.error ≠ .timedOut then
    failed call.error
  return call.size

def AwaitsReceive (id : Nat) (ready : Peer δ → Bool)
    (resume : Peer δ → Outcome (Peer δ) Event ErrorCode Unit) : Prop :=
  ready = awaitsCall id ∧ ∃ failed, resume = (discard (receiveReport failed id) : Proc δ Unit)

theorem AwaitsReceive.reports {id : Nat} {ready : Peer δ → Bool}
    {resume : Peer δ → Outcome (Peer δ) Event ErrorCode Unit}
    (h : AwaitsReceive id ready resume) (s : Peer δ) :
    (resume s).reached.log =
      s.log ++ [.onReceived (s.timedCall id).endpoint (s.timedCall id).size] := by
  obtain ⟨-, failed, rfl⟩ := h
  rfl

/--
A call runs without blocking, or blocks at once and runs on when it is woken.  A
woken call that reports a datagram had waited for the handlers of its timed call.
-/
inductive CallBooked (π : Type) (announce : Event) (receives : Bool) (s : Peer δ) :
    Outcome (Peer δ) Event ErrorCode Unit → Prop where
  | runs {o : Outcome (Peer δ) Event ErrorCode Unit}
      (h : BookedFrom announce receives (none : Option (Origin π)) none s o) :
      CallBooked π announce receives s o
  | blocks {woken : Bool} {ready : Peer δ → Bool} {s' : Peer δ}
      {resume : Peer δ → Outcome (Peer δ) Event ErrorCode Unit} (hledger : s'.ledger = s.ledger)
      (hresume : ∀ s'', ready s'' = true →
        BookedFrom announce woken (none : Option (Origin π)) none s'' (resume s''))
      (hwoken : woken = true → ∃ id, AwaitsReceive id ready resume) :
      CallBooked π announce receives s (.wait ready s' resume)

theorem Booked.bookedFrom {announce : Event} {receives : Bool} {origin : Option (Origin π)}
    {m : Proc δ Unit} (hm : Booked announce receives origin m) (s : Peer δ) :
    BookedFrom announce receives origin none s (m s) :=
  Outcome.segments_mono (fun _ _ _ _ h => h) (fun _ _ _ _ h => h.1) (hm none s s rfl trivial)

theorem completionHandler_booked {announce : Event} (hannounce : announce.isLifecycle = true)
    {receives : Bool} {sendFailed receiveFailed : ErrorCode → Proc δ Unit} {op : Operation}
    {completion : Completion}
    (hsend : ∀ ec, Booked announce receives (some (.completion op completion : Origin π))
      (sendFailed ec))
    (hreceive : ∀ ec point start (s : Peer δ), s.ledger = start.ledger →
      (point = none → completion.error.failed = true) →
      (receiveFailed ec).Segments
        (Books announce receives (some (.completion op completion : Origin π)))
        (fun _ point start s => Unbooked point start s ∧ True) point start s) (s : Peer δ) :
    BookedFrom announce receives (some (.completion op completion : Origin π)) none s
      (completionHandler sendFailed receiveFailed op completion s) :=
  completionHandler_cases
    (motive := fun m =>
      BookedFrom announce receives (some (.completion op completion)) none s (m s))
    completion
    (fun hop => Outcome.segments_mono (fun _ _ _ _ h => h) (fun _ _ _ _ h => h.1)
      (asyncSendToHandler_booked hannounce hop hsend s))
    (fun _ => Outcome.segments_mono (fun _ _ _ _ h => h) (fun _ _ _ _ h => h.1)
      (asyncReceiveHandler_booked hannounce hreceive s))
    fun _ => (timedSocketHandler_booked op completion).bookedFrom s

theorem Booked.callBooked {announce : Event} {receives : Bool} {m : Proc δ Unit}
    (hm : Booked announce receives (none : Option (Origin π)) m) (s : Peer δ) :
    CallBooked π announce receives s (m s) :=
  .runs (hm.bookedFrom s)

theorem receive_callBooked {announce : Event} (hannounce : announce.isLifecycle = true)
    {failed : ErrorCode → Proc δ Unit}
    (hfailed : ∀ ec, Booked announce true (none : Option (Origin π)) (failed ec))
    (buffer : Buffer) (answer : Completion) (s : Peer δ) :
    CallBooked π announce
      (s.running && (if buffer.size ≠ 0 ∧ buffer.isNull = false then some answer.error
        else none).isSome)
      s ((discard (receive failed buffer answer) : Proc δ Unit) s) := by
  by_cases hready : s.running = true ∧ buffer.size ≠ 0 ∧ buffer.isNull = false
  · rw [hready.1, if_pos hready.2]
    refine .runs (segments_discard _ |>.mpr ?_)
    exact segments_mono (fun _ _ _ _ h => h) (fun _ _ _ _ h => h.1)
      (receive_booked hannounce hfailed buffer answer s)
  · have hreturns : (discard (receive failed buffer answer) : Proc δ Unit) s = .ret () s := by
      change (receive failed buffer answer s).bind _ = _
      simp only [receive, bind_apply, Program.state, Outcome.bind]
      by_cases hrun : s.running = true
      · by_cases hsize : buffer.size = 0
        · simp only [hrun, hsize, Bool.not_true, Bool.false_eq_true, if_false, if_true]
          rfl
        · have hnull : buffer.isNull = true := by
            by_contra hnull
            exact hready ⟨hrun, hsize, by simpa using hnull⟩
          simp only [hrun, hsize, hnull, Bool.not_true, Bool.false_eq_true, if_false, if_true]
          rfl
      · rw [if_pos (by simpa using hrun)]
        rfl
    exact .runs (hreturns ▸ rfl)

theorem timed_blocks (purpose : Purpose) (endpoint : Endpoint) (report : Nat → Proc δ Nat)
    (buffer : Buffer) (s : Peer δ) :
    let m : Proc δ Nat := do
      let s ← state
      if !s.running then return 0
      if buffer.size = 0 then return 0
      if buffer.isNull then return 0
      let id := s.issued
      update fun s => s.startTimed purpose endpoint
      waitUntil (awaitsCall id)
      report id
    (discard m : Proc δ Unit) s = .ret () s ∨
      (discard m : Proc δ Unit) s =
        .wait (awaitsCall s.issued) (s.startTimed purpose endpoint)
          (discard (report s.issued)) := by
  intro m
  by_cases hready : s.running = true ∧ buffer.size ≠ 0 ∧ buffer.isNull = false
  · obtain ⟨hrun, hsize, hnull⟩ := hready
    refine Or.inr ?_
    change (m s).bind _ = _
    simp only [m, bind_apply, Program.state, Outcome.bind, hrun, hsize, hnull, Bool.not_true,
      Bool.false_eq_true, if_false]
    rfl
  · refine Or.inl ?_
    change (m s).bind _ = _
    simp only [m, bind_apply, Program.state, Outcome.bind]
    split_ifs with hrun hsize hnull
    · rfl
    · rfl
    · rfl
    · simp_all

section Timed

variable {announce : Event} (hannounce : announce.isLifecycle = true) {receives : Bool}
  {failed : ErrorCode → Proc δ Unit}
  (hfailed : ∀ receives ec, Booked announce receives (none : Option (Origin π)) (failed ec))

include hannounce hfailed

theorem sendTimed_booked (endpoint : Endpoint) (buffer : Buffer) (s : Peer δ) :
    CallBooked π announce receives s
      ((discard (sendTimed failed endpoint buffer) : Proc δ Unit) s) := by
  have hreport (id : Nat) :
      Booked announce false (none : Option (Origin π)) (sendReport failed endpoint id) := by
    intro point start s hs _
    simp only [sendReport, fire, segments_bind, segments_state, segments_ite, segments_pure,
      segments_update, segments_callback]
    split_ifs with hsent herror herror
    · exact ⟨books_sent hannounce hs endpoint hsent, fun s' => hfailed _ _ _ s' s' rfl trivial⟩
    · exact ⟨books_sent hannounce hs endpoint hsent, fun s' => ⟨rfl, trivial⟩⟩
    · exact hfailed _ _ point start s hs trivial
    · exact ⟨hs, trivial⟩
  rcases timed_blocks .timedSend endpoint (sendReport failed endpoint) buffer s with h | h
  · exact .runs (h ▸ rfl)
  · exact h ▸ .blocks rfl (fun s' _ => (hreport _).discard.bookedFrom s') fun h => (by cases h)

theorem receiveTimed_booked (endpoint : Endpoint) (buffer : Buffer) (s : Peer δ) :
    CallBooked π announce receives s
      ((discard (receiveTimed failed endpoint buffer) : Proc δ Unit) s) := by
  have hreport (id : Nat) (s : Peer δ) :
      BookedFrom announce true (none : Option (Origin π)) none s
        ((discard (receiveReport failed id) : Proc δ Unit) s) := by
    change (discard (receiveReport failed id) : Proc δ Unit).Segments _ _ none s s
    simp only [receiveReport, fire, segments_bind, segments_discard, segments_state,
      segments_ite, segments_pure, segments_update, segments_callback]
    refine ⟨books_received hannounce rfl _ _ rfl fun _ => rfl, fun s' => ?_⟩
    split_ifs with herror
    · exact segments_mono (fun _ _ _ _ h => h) (fun _ _ _ _ h => h.1)
        (hfailed _ _ _ s' s' rfl trivial)
    · rfl
  rcases timed_blocks .timedReceive endpoint (receiveReport failed) buffer s with h | h
  · exact .runs (h ▸ rfl)
  · exact h ▸ .blocks rfl (fun s' _ => hreport _ s') fun _ => ⟨_, rfl, failed, rfl⟩

end Timed

end AsioWrapper.Udp
