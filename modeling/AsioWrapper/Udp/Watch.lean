import AsioWrapper.Udp.Reach

/-!
# Watching a part of the state

To follow a few members of a peer through all of its code it is enough to know
what sending, opening and closing do to them.  What is known of them in the
course of a segment is a relation between the state the segment started in and
the present one.  The code that only makes the changes listed below keeps it,
and what a segment does to the members is put together from the segments of
the few functions that do not.
-/

namespace AsioWrapper.Udp

open AsioWrapper.Asio
open AsioWrapper.Foundation
open AsioWrapper.Foundation.Program

variable {δ γ : Type}

/-- The changes of the common code that belong to no send and to no session. -/
inductive Minor : Peer δ → Peer δ → Prop where
  | logged {s : Peer δ} (event : Event) : Minor s (s.logged event)
  | noteFailure {s : Peer δ} (call : SocketCall) (ec : ErrorCode) : Minor s (s.noteFailure call ec)
  | withSocket {s : Peer δ} (f : Socket → Socket) : Minor s (s.withSocket f)
  | resizeReceiveBuffer {s : Peer δ} (size : Nat) : Minor s (s.resizeReceiveBuffer size)
  | startReceive {s : Peer δ} : Minor s s.startReceive
  | startTimed {s : Peer δ} {endpoint : Endpoint} (purpose : Purpose)
      (htimed : purpose = .timedSend ∨ purpose = .timedReceive) :
      Minor s (s.startTimed purpose endpoint)
  | finishReceive {s : Peer δ} {op : Operation} (hreceive : op.isReceive = true) :
      Minor s (s.finishReceive op)
  | finishTimed {s : Peer δ} {op : Operation} (htimed : op.isTimed = true) :
      Minor s (s.removeOperation op)
  | countSent {s : Peer δ} (sent : Nat) : Minor s (s.countSent sent)
  | countReceived {s : Peer δ} (received : Nat) : Minor s (s.countReceived received)
  | modifyTimed {s : Peer δ} (id : Nat) (f : TimedCall → TimedCall) : Minor s (s.modifyTimed id f)
  | abortOperations {s : Peer δ} : Minor s s.abortOperations

def Peer.closing (clears : Bool) (s : Peer δ) : Peer δ :=
  if clears then s.closeSocket.leaveSession.clearBuffers else s.closeSocket.leaveSession

/--
The relation `R` is kept by all other changes, and wherever a segment stops it describes the
segment.  `aside` are the changes a class makes to its own members and to its configuration.
-/
structure Watches (clears : Bool) (aside : Peer δ → Peer δ → Prop)
    (R : Option Event → Peer δ → Peer δ → Prop)
    (T : Option Event → Peer δ → Stop Event ErrorCode → Peer δ → Prop) : Prop where
  resumed : ∀ event s, R (some event) s s
  minor : ∀ {point : Option Event} {start s s' : Peer δ}, Minor s s' → R point start s →
    R point start s'
  aside : ∀ {point : Option Event} {start s s' : Peer δ}, aside s s' → R point start s →
    R point start s'
  kept : ∀ {point : Option Event} {start s : Peer δ} (stop : Stop Event ErrorCode),
    R point start s → T point start stop s
  opened : ∀ {point : Option Event} {start s : Peer δ} (event : Event), R point start s →
    s.running = false → T point start (.called event) (s.enterSession.logged event)
  closed : ∀ {point : Option Event} {start s : Peer δ} (event : Event), R point start s →
    s.running = true → T point start (.called event) ((s.closing clears).logged event)

def Same (view : Peer δ → γ) (_ : Option Event) (start s : Peer δ) : Prop := view s = view start

abbrev Viewed (R : Option Event → Peer δ → Peer δ → Prop)
    (T : Option Event → Peer δ → Stop Event ErrorCode → Peer δ → Prop) {α : Type}
    (m : Proc δ α) : Prop :=
  Triple T R (fun _ => True) m (fun _ _ => True)

variable {clears : Bool} {aside : Peer δ → Peer δ → Prop}
  {R : Option Event → Peer δ → Peer δ → Prop}
  {T : Option Event → Peer δ → Stop Event ErrorCode → Peer δ → Prop} {α : Type}

theorem Watches.of_view {view : Peer δ → γ}
    (hminor : ∀ {s s' : Peer δ}, Minor s s' → view s' = view s)
    (haside : ∀ {s s' : Peer δ}, aside s s' → view s' = view s)
    (hkept : ∀ {point : Option Event} {start s : Peer δ} (stop : Stop Event ErrorCode),
      view s = view start → T point start stop s)
    (hopened : ∀ {point : Option Event} {start s : Peer δ} (event : Event),
      view s = view start → s.running = false →
      T point start (.called event) (s.enterSession.logged event))
    (hclosed : ∀ {point : Option Event} {start s : Peer δ} (event : Event),
      view s = view start → s.running = true →
      T point start (.called event) ((s.closing clears).logged event)) :
    Watches clears aside (Same view) T where
  resumed _ _ := rfl
  minor h hs := (hminor h).trans hs
  aside h hs := (haside h).trans hs
  kept := hkept
  opened := hopened
  closed := hclosed

theorem Viewed.state {f : Peer δ → Proc δ α} (hf : ∀ s, Viewed R T (f s)) :
    Viewed R T (Program.state >>= f) :=
  Triple.state fun s => (hf s).weaken (fun _ _ => trivial) fun _ _ h => h

theorem Viewed.whileRunning {m : Proc δ Unit} (hm : Viewed R T m) :
    Viewed R T (do
      let s ← Program.state
      if !s.running then return ()
      m) :=
  Viewed.state fun _ => Triple.ite (fun _ => Triple.pure ()) fun _ => hm

theorem Viewed.update {f : Peer δ → Peer δ}
    (h : ∀ point start s, R point start s → R point start (f s)) :
    Viewed R T (Program.update f) :=
  Triple.update fun point start s hs _ => h point start s hs

namespace Watches

variable (hT : Watches clears aside R T)

include hT

theorem returns {m : Proc δ α} (hm : Viewed R T m) {point : Option Event} {start s : Peer δ}
    (hs : R point start s) :
    m.Segments T (fun _ point start s => T point start .returned s) point start s := by
  refine segments_mono (fun _ _ _ _ h => h) ?_ (hm point start s hs trivial)
  intro value point start s h
  exact hT.kept _ h.1

theorem obeys (hwait : ∀ s, R none s s) {m : Proc δ α} (hm : Viewed R T m) : m.Obeys T :=
  fun s => hT.returns hm (hwait s)

theorem change {f : Peer δ → Peer δ} (h : ∀ s, Minor s (f s)) :
    Viewed R T (Program.update f) :=
  Viewed.update fun _ _ s hs => hT.minor (h s) hs

theorem throw (ec : ErrorCode) : Viewed R T (throw ec : Proc δ α) :=
  fun _ _ _ hs _ => hT.kept _ hs

theorem callback (event : Event) : Viewed R T (Program.callback event : Proc δ Unit) :=
  fun _ _ _ hs _ => ⟨hT.kept _ hs, fun s' => ⟨hT.resumed event s', trivial⟩⟩

theorem waitUntil (hwait : ∀ s, R none s s) (ready : Peer δ → Bool) :
    Viewed R T (Program.waitUntil ready : Proc δ Unit) :=
  fun _ _ _ hs _ => ⟨hT.kept _ hs, fun s' _ => ⟨hwait s', trivial⟩⟩

theorem fire (event : Event) : Viewed R T (fire event : Proc δ Unit) :=
  Triple.bind (hT.change fun _ => .logged event) fun _ => hT.callback event

theorem sendError (ec : ErrorCode) : Viewed R T (sendError ec : Proc δ Unit) :=
  Triple.ite (fun _ => Triple.pure ()) fun _ => hT.fire _

theorem makeAddress (net : Net) (text : String) :
    Viewed R T (makeAddress net text : Proc δ Address) := by
  unfold Udp.makeAddress
  split
  · exact Triple.pure _
  · exact hT.throw _

/-! ## Opening and closing -/

theorem attempt (call : SocketCall) (ec : ErrorCode) {effect : Peer δ → Peer δ}
    (heffect : ∀ s, Minor s (effect s)) (hrun : ∀ s, (effect s).running = s.running) :
    Triple T R (fun s => s.running = false)
      (attempt call ec effect) (fun _ s => s.running = false) := by
  intro point start s hs hidle
  rw [attempt_segments]
  split
  · exact hT.kept _ (hT.minor (.noteFailure call ec) hs)
  · exact ⟨hT.minor (heffect s) hs, (hrun s).trans hidle⟩

private theorem attemptWhenever (c : Bool) (call : SocketCall) (ec : ErrorCode)
    {effect : Peer δ → Peer δ} (heffect : ∀ s, Minor s (effect s))
    (hrun : ∀ s, (effect s).running = s.running) :
    Triple T R (fun s => s.running = false)
      (Program.whenever c (Udp.attempt call ec effect)) (fun _ s => s.running = false) := by
  refine Triple.ite (fun _ => hT.attempt call ec heffect hrun) fun _ => ?_
  exact fun _ _ _ hs hidle => ⟨hs, hidle⟩

theorem openSession (answers : SocketAnswers) (bindTo : Peer δ → Endpoint) (announce : Event) :
    Triple T R (fun s => s.running = false)
      (openSession answers bindTo announce) (fun _ _ => True) := by
  refine Triple.state fun s => Triple.weaken (A := fun s => s.running = false)
    (B := fun _ _ => True) ?_ (fun s' h => by rw [h.1]; exact h.2) fun _ _ h => h
  refine Triple.bind (hT.attempt _ _ (fun _ => .withSocket _) fun _ => rfl) fun _ => ?_
  refine Triple.bind (hT.attemptWhenever _ _ _ (fun _ => .withSocket _) fun _ => rfl) fun _ => ?_
  refine Triple.bind (hT.attemptWhenever _ _ _ (fun _ => .withSocket _) fun _ => rfl) fun _ => ?_
  refine Triple.bind (hT.attempt _ _ (fun _ => .withSocket _) fun _ => rfl) fun _ => ?_
  refine Triple.bind (hT.attempt _ _ (fun _ => .resizeReceiveBuffer _) fun _ => rfl) fun _ => ?_
  intro point start s hs hidle
  rw [segments_bind, segments_update, Udp.fire, segments_bind, segments_update, segments_callback]
  exact ⟨hT.opened announce hs hidle, fun s' => ⟨hT.resumed announce s', trivial⟩⟩

/-! ## Sending and receiving -/

section Transfer

variable {failed : ErrorCode → Proc δ Unit} (hfailed : ∀ ec, Viewed R T (failed ec))

include hfailed

theorem send (endpoint : Endpoint) (buffer : Buffer) (answer : Completion) :
    Viewed R T (send failed endpoint buffer answer) := by
  have hreport : Viewed R T (do
      if answer.error.failed then failed answer.error
      return answer.size : Proc δ Nat) :=
    Triple.ite (fun _ => (hfailed _).bind fun _ => Triple.pure _) fun _ => Triple.pure _
  refine Viewed.state fun s => Triple.ite (fun _ => Triple.pure _) fun _ => ?_
  refine Triple.ite (fun _ => Triple.pure _) fun _ => ?_
  refine Triple.ite (fun _ => Triple.pure _) fun _ => ?_
  refine Triple.ite (fun _ => ?_) fun _ => hreport
  refine Triple.bind (hT.change fun _ => .countSent _) fun _ => ?_
  exact (hT.fire _).bind fun _ => hreport

theorem receive (buffer : Buffer) (answer : Completion) :
    Viewed R T (receive failed buffer answer) := by
  refine Viewed.state fun s => Triple.ite (fun _ => Triple.pure _) fun _ => ?_
  refine Triple.ite (fun _ => Triple.pure _) fun _ => ?_
  refine Triple.ite (fun _ => Triple.pure _) fun _ => ?_
  refine Triple.bind (hT.change fun _ => .countReceived _) fun _ => ?_
  refine (hT.fire _).bind fun _ => ?_
  exact Triple.ite (fun _ => (hfailed _).bind fun _ => Triple.pure _) fun _ => Triple.pure _

theorem asyncReceiveHandler {op : Operation} (hreceive : op.isReceive = true)
    (completion : Completion) : Viewed R T (asyncReceiveHandler failed op completion) := by
  refine Triple.bind (hT.change fun _ => .finishReceive hreceive) fun _ => ?_
  refine Viewed.state fun s => Triple.ite (fun _ => Triple.pure _) fun _ => ?_
  refine Triple.ite (fun _ => (hfailed _).bind fun _ => Triple.pure _) fun _ => ?_
  refine Triple.bind (hT.change fun _ => .countReceived _) fun _ => ?_
  refine Viewed.state fun s => (hT.fire _).bind fun _ => ?_
  refine Viewed.state fun s => Triple.ite (fun _ => ?_) fun _ => Triple.pure _
  refine Triple.ite (fun _ => (hfailed _).bind fun _ => Triple.pure _) fun _ => ?_
  exact hT.change fun _ => .resizeReceiveBuffer _

theorem sendTimed (hwait : ∀ s, R none s s) (endpoint : Endpoint) (buffer : Buffer) :
    Viewed R T (sendTimed failed endpoint buffer) := by
  have hreport (call : TimedCall) : Viewed R T (do
      if call.error.failed ∧ call.error ≠ .timedOut then failed call.error
      return call.size : Proc δ Nat) :=
    Triple.ite (fun _ => (hfailed _).bind fun _ => Triple.pure _) fun _ => Triple.pure _
  refine Viewed.state fun s => Triple.ite (fun _ => Triple.pure _) fun _ => ?_
  refine Triple.ite (fun _ => Triple.pure _) fun _ => ?_
  refine Triple.ite (fun _ => Triple.pure _) fun _ => ?_
  refine Triple.bind (hT.change fun _ => .startTimed _ (Or.inl rfl)) fun _ => ?_
  refine (hT.waitUntil hwait _).bind fun _ => Viewed.state fun s => ?_
  refine Triple.ite (fun _ => ?_) fun _ => hreport _
  refine Triple.bind (hT.change fun _ => .countSent _) fun _ => ?_
  exact (hT.fire _).bind fun _ => hreport _

theorem receiveTimed (hwait : ∀ s, R none s s) (endpoint : Endpoint) (buffer : Buffer) :
    Viewed R T (receiveTimed failed endpoint buffer) := by
  refine Viewed.state fun s => Triple.ite (fun _ => Triple.pure _) fun _ => ?_
  refine Triple.ite (fun _ => Triple.pure _) fun _ => ?_
  refine Triple.ite (fun _ => Triple.pure _) fun _ => ?_
  refine Triple.bind (hT.change fun _ => .startTimed _ (Or.inr rfl)) fun _ => ?_
  refine (hT.waitUntil hwait _).bind fun _ => Viewed.state fun s => ?_
  refine Triple.bind (hT.change fun _ => .countReceived _) fun _ => ?_
  refine (hT.fire _).bind fun _ => ?_
  exact Triple.ite (fun _ => (hfailed _).bind fun _ => Triple.pure _) fun _ => Triple.pure _

/-! For views that do not look at the sends themselves. -/

omit hfailed in
theorem sendAsync
    (hstart : ∀ point start s data endpoint, R point start s →
      R point start (s.startSend data endpoint))
    {rejected : Proc δ Unit} (hrejected : Viewed R T rejected) (endpoint : Endpoint)
    (buffer : Buffer) : Viewed R T (sendAsync rejected endpoint buffer) := by
  refine Viewed.state fun s => Triple.ite (fun _ => Triple.pure _) fun _ => ?_
  refine Triple.ite (fun _ => Triple.pure _) fun _ => ?_
  refine Triple.ite (fun _ => Triple.pure _) fun _ => ?_
  refine Triple.ite (fun _ => Triple.pure _) fun _ => ?_
  refine Triple.ite (fun _ => ?_) fun _ => ?_
  · exact (hT.sendError _).bind fun _ => hrejected.bind fun _ => Triple.pure _
  · exact Triple.bind (Viewed.update fun _ _ s => hstart _ _ s _ _) fun _ => Triple.pure _

theorem asyncSendToHandler
    (hfinish : ∀ point start s op, R point start s → R point start (s.finishSend op))
    (hrecord : ∀ point start s sent, R point start s → R point start (s.recordSent sent))
    (op : Operation) (completion : Completion) :
    Viewed R T (asyncSendToHandler failed op completion) := by
  refine Triple.bind (Viewed.update fun _ _ s => hfinish _ _ s op) fun _ => ?_
  refine Viewed.state fun s => Triple.ite (fun _ => Triple.pure _) fun _ => ?_
  refine Triple.ite (fun _ => (hfailed _).bind fun _ => Triple.pure _) fun _ => ?_
  refine Triple.ite (fun _ => ?_) fun _ => Triple.pure _
  refine Triple.bind (Viewed.update fun _ _ s => hrecord _ _ s _) fun _ => ?_
  exact Viewed.state fun s => hT.fire _

end Transfer

theorem tryReceive : Viewed R T (tryReceive : Proc δ Unit) :=
  Viewed.state fun _ => Triple.ite (fun _ => Triple.pure _) fun _ =>
    Triple.ite (fun _ => Triple.pure _) fun _ => hT.change fun _ => .startReceive

theorem asyncDoneHandler (id : Nat) (ec : ErrorCode) :
    Viewed R T (asyncDoneHandler id ec : Proc δ Unit) := by
  refine Viewed.state fun before => ?_
  refine Triple.bind (hT.change fun _ => .modifyTimed id _) fun _ => ?_
  refine Triple.ite (fun _ => ?_) fun _ => Triple.pure _
  refine Triple.bind (hT.change fun _ => .modifyTimed id _) fun _ => ?_
  refine Viewed.state fun s => Triple.ite (fun _ => hT.throw _) fun _ => ?_
  refine Triple.bind (hT.change fun _ => .abortOperations) fun _ => ?_
  exact hT.change fun _ => .modifyTimed id _

theorem timedSocketHandler {op : Operation} (htimed : op.isTimed = true)
    (completion : Completion) :
    Viewed R T (timedSocketHandler op completion : Proc δ Unit) := by
  refine Triple.bind (hT.change fun _ => .finishTimed htimed) fun _ => ?_
  refine (hT.asyncDoneHandler _ _).bind fun _ => ?_
  exact hT.change fun _ => .modifyTimed _ _

theorem completionHandler {sendFailed receiveFailed : ErrorCode → Proc δ Unit}
    (hreceive : ∀ ec, Viewed R T (receiveFailed ec)) {op : Operation}
    (hsend : op.isSend = false) (completion : Completion) :
    Viewed R T (completionHandler sendFailed receiveFailed op completion) := by
  refine completionHandler_cases (motive := Viewed R T) completion (fun hop => ?_)
    (fun hop => hT.asyncReceiveHandler hreceive hop completion)
    fun hop => hT.timedSocketHandler hop completion
  cases hsend.symm.trans hop

theorem timedTimerHandler (id : Nat) (ec : ErrorCode) :
    Viewed R T (timedTimerHandler id ec : Proc δ Unit) :=
  Triple.bind (hT.change fun _ => .modifyTimed id _) fun _ => hT.asyncDoneHandler _ _

end Watches

/-! ## Starting a send -/

def Accepts (s : Peer δ) (buffer : Buffer) : Prop :=
  s.sending = false ∧ s.running = true ∧ buffer.size ≠ 0 ∧ buffer.isNull = false ∧
    ¬(buffer.size > s.sendBufferLimit ∧ s.sendBufferLimit > 0)

instance (s : Peer δ) (buffer : Buffer) : Decidable (Accepts s buffer) :=
  inferInstanceAs (Decidable (_ ∧ _))

theorem sendAsync_cases (rejected : Proc δ Unit) (endpoint : Endpoint) (buffer : Buffer)
    (s : Peer δ) :
    Accepts s buffer ∧
        sendAsync rejected endpoint buffer s = .ret true (s.startSend buffer.data endpoint) ∨
      ¬Accepts s buffer ∧ ((∃ value, sendAsync rejected endpoint buffer s = .ret value s) ∨
        sendAsync rejected endpoint buffer s =
          (do fire (.onError .noBufferSpace); rejected; pure false : Proc δ Bool) s) := by
  unfold Accepts
  simp only [sendAsync, bind_apply, state, Outcome.bind]
  by_cases hsending : s.sending = true
  · exact Or.inr ⟨by simp [hsending], Or.inl ⟨false, by simp [hsending]; rfl⟩⟩
  by_cases hrun : s.running = false
  · exact Or.inr ⟨by simp [hrun], Or.inl ⟨false, by simp [hsending, hrun]; rfl⟩⟩
  by_cases hsize : buffer.size = 0
  · exact Or.inr ⟨by simp [hsize], Or.inl ⟨true, by simp [hsending, hrun, hsize]; rfl⟩⟩
  by_cases hnull : buffer.isNull = true
  · exact Or.inr ⟨by simp [hnull], Or.inl ⟨false, by simp [hsending, hrun, hsize, hnull]; rfl⟩⟩
  simp only [Bool.not_eq_true, Bool.not_eq_false] at hsending hrun hnull
  by_cases hlimit : buffer.size > s.sendBufferLimit ∧ s.sendBufferLimit > 0
  · refine Or.inr ⟨fun h => h.2.2.2.2 hlimit, Or.inr ?_⟩
    simp only [hsending, hrun, hsize, hnull, hlimit]
    rfl
  · refine Or.inl ⟨⟨hsending, hrun, hsize, hnull, hlimit⟩, ?_⟩
    simp only [hsending, hrun, hsize, hnull, hlimit]
    rfl

def Origin.isSend {π : Type} : Origin π → Bool
  | .completion op _ => op.isSend
  | _ => false

/-! ## The server -/

namespace Server

inductive Aside : Server → Server → Prop where
  | options {s : Server} (address port : Bool) :
      Aside s { s with optionReuseAddress := address, optionReusePort := port }
  | limits {s : Server} (receive send : Nat) :
      Aside s { s with receiveBufferLimit := receive, sendBufferLimit := send }
  | setPosted {s : Server} (posted : List Handler) :
      Aside s { s with own := { s.own with posted := posted } }

def Call.isPlain : Call → Bool
  | .startMulticastAt _ _ | .startMulticast _ | .sendAsync _ _ => false
  | _ => true

section Viewed

variable {R : Option Event → Server → Server → Prop}
  {T : Option Event → Server → Stop Event ErrorCode → Server → Prop}
  (hT : Watches true Aside R T)

include hT

theorem start_viewed : Viewed R T start := by
  refine Viewed.state fun s => Triple.ite (fun _ => Triple.pure _) fun _ => ?_
  exact Triple.bind (Viewed.update fun _ _ _ => hT.aside (.setPosted _)) fun _ => Triple.pure _

theorem stop_viewed : Viewed R T stop := by
  refine Viewed.state fun s => Triple.ite (fun _ => Triple.pure _) fun _ => ?_
  exact Triple.bind (Viewed.update fun _ _ _ => hT.aside (.setPosted _)) fun _ => Triple.pure _

theorem restart_viewed (hwait : ∀ s, R none s s) : Viewed R T restart := by
  refine (stop_viewed hT).bind fun _ => Triple.ite (fun _ => Triple.pure _) fun _ => ?_
  exact (hT.waitUntil hwait _).bind fun _ => start_viewed hT

theorem startHandler_viewed (answers : SocketAnswers) :
    Viewed R T (startHandler answers) := by
  intro point start s hs _
  rw [startHandler, segments_bind, segments_state, segments_ite]
  split
  · exact ⟨hs, trivial⟩
  · rename_i hrun
    simp only [Bool.not_eq_true] at hrun
    exact hT.openSession answers _ _ point start s hs hrun

theorem stopHandler_viewed : Viewed R T stopHandler := by
  intro point start s hs _
  simp only [stopHandler, fire, segments_bind, segments_state, segments_ite, segments_pure,
    segments_update, segments_callback]
  split
  · exact ⟨hs, trivial⟩
  · rename_i hrun
    simp only [Bool.not_eq_true', Bool.not_eq_false] at hrun
    exact ⟨hT.closed _ hs hrun, fun s' => ⟨hT.resumed _ s', trivial⟩⟩

theorem sendFailed_viewed (ec : ErrorCode) : Viewed R T (sendFailed ec) :=
  (hT.sendError ec).bind fun _ => Viewed.state fun _ => hT.fire _

theorem receiveFailed_viewed (ec : ErrorCode) : Viewed R T (receiveFailed ec) :=
  (hT.sendError ec).bind fun _ => Viewed.state fun _ => hT.fire _

theorem call_viewed (hwait : ∀ s, R none s s) (net : Net) {k : Call} (hk : k.isPlain = true) :
    Viewed R T (call net k) := by
  cases k with
  | start => exact (start_viewed hT).discard
  | startMulticastAt address port => cases hk
  | startMulticast endpoint => cases hk
  | stop => exact (stop_viewed hT).discard
  | restart => exact (restart_viewed hT hwait).discard
  | send endpoint buffer answer =>
      exact Viewed.state fun s => (hT.send hT.sendError _ buffer answer).discard
  | sendTimed endpoint buffer =>
      exact Viewed.state fun s => (hT.sendTimed hT.sendError hwait _ buffer).discard
  | sendAsync endpoint buffer => cases hk
  | receive buffer answer => exact (hT.receive hT.sendError buffer answer).discard
  | receiveTimed endpoint buffer =>
      exact (hT.receiveTimed hT.sendError hwait endpoint buffer).discard
  | receiveAsync => exact hT.tryReceive
  | setupReuseAddress enable => exact Viewed.update fun _ _ _ => hT.aside (.options _ _)
  | setupReusePort enable => exact Viewed.update fun _ _ _ => hT.aside (.options _ _)
  | setupReceiveBufferLimit limit => exact Viewed.update fun _ _ _ => hT.aside (.limits _ _)
  | setupSendBufferLimit limit => exact Viewed.update fun _ _ _ => hT.aside (.limits _ _)

theorem postedHandler_viewed (index : Nat) (answers : SocketAnswers) (handler : Handler) :
    Viewed R T (do unpost index; postedHandler answers handler) := by
  refine Triple.bind (Viewed.update fun _ _ _ => hT.aside (.setPosted _)) fun _ => ?_
  cases handler with
  | start => exact startHandler_viewed hT answers
  | stop => exact stopHandler_viewed hT

end Viewed

theorem system_viewed (net : Net) {R : Option Event → Server → Server → Prop}
    (hwait : ∀ s, R none s s) {okCall : Call → Prop}
    {T : Option (Origin Handler) → Option Event → Server → Stop Event ErrorCode → Server → Prop}
    (hT : ∀ origin, origin.any Origin.isSend = false → Watches true Aside R (T origin))
    (hcall : ∀ k, okCall k → k.isPlain = false → (call net k).Obeys (T none))
    (hsend : ∀ s op completion, op ∈ s.operations → op.isSend = true →
      (completionHandler op completion).Segments (T (some (.completion op completion)))
        (fun _ point start s' =>
          T (some (.completion op completion)) point start .returned s') none s s) :
    (system net).Obeys okCall (fun _ => True) T where
  call k inside hk := by
    cases hplain : k.isPlain with
    | true => exact (hT none rfl).obeys hwait (call_viewed (hT none rfl) hwait net hplain)
    | false => exact hcall k hk hplain
  handler h s origin program _ hlookup := by
    cases runnable_of_handler hlookup with
    | @completion op completion hmem hresult =>
        cases hop : op.isSend with
        | true => exact hsend s op completion hmem hop
        | false =>
            have hT' := hT (some (.completion op completion)) hop
            have hfailed := receiveFailed_viewed hT'
            exact hT'.obeys hwait (hT'.completionHandler hfailed hop completion) s
    | timer hfired => exact (hT _ rfl).obeys hwait ((hT _ rfl).timedTimerHandler _ _) s
    | posted answers hposted =>
        exact (hT _ rfl).obeys hwait (postedHandler_viewed (hT _ rfl) _ _ _) s

end Server

/-! ## The client -/

namespace Client

def Call.isPlain : Call → Bool
  | .sendAsync _ _ => false
  | _ => true

section Viewed

variable {R : Option Event → Client → Client → Prop}
  {T : Option Event → Client → Stop Event ErrorCode → Client → Prop}
  (hT : Watches false Special R T)

include hT

theorem post_viewed {handler : Handler} (hh : ∀ session, handler ≠ .disconnect session) :
    Viewed R T (post handler) :=
  Viewed.update fun _ _ _ => hT.aside (.post handler fun session h => absurd h (hh session))

theorem openAt_viewed (endpoint : Endpoint) (answers : SocketAnswers) :
    Triple T R (fun s => s.running = false)
      (do setEndpoint endpoint; openSession answers bindTo .onConnected) (fun _ _ => True) := by
  refine Triple.bind (B := fun _ s => s.running = false) ?_ fun _ =>
    hT.openSession answers bindTo .onConnected
  intro point start s hs hidle
  exact ⟨hT.aside (.setEndpoint endpoint) hs, hidle⟩

theorem connect_viewed (net : Net) (answers : SocketAnswers) :
    Viewed R T (connect net answers) := by
  intro point start s hs _
  rw [connect, segments_bind, segments_state]
  simp only [segments_ite, segments_pure]
  split_ifs with haddress hport hrun
  · exact ⟨hs, trivial⟩
  · exact ⟨hs, trivial⟩
  · exact ⟨hs, trivial⟩
  · simp only [Bool.not_eq_true] at hrun
    rw [segments_bind, makeAddress]
    cases net.makeAddress s.own.address with
    | none => exact hT.kept _ hs
    | some address =>
        exact (openAt_viewed hT _ answers).bind (fun _ => Triple.pure true) point start s hs hrun

theorem connectVia_viewed (resolver : Bool) (resolution : ErrorCode × Endpoint)
    (answers : SocketAnswers) : Viewed R T (connectVia resolver resolution answers) := by
  intro point start s hs _
  rw [connectVia, segments_bind, segments_state]
  simp only [segments_ite, segments_pure]
  split_ifs with hresolver haddress hport hrun hfailed
  · exact ⟨hs, trivial⟩
  · exact ⟨hs, trivial⟩
  · exact ⟨hs, trivial⟩
  · exact ⟨hs, trivial⟩
  · exact (hT.sendError _).bind (fun _ => (hT.fire _).bind fun _ => Triple.pure false)
      point start s hs trivial
  · simp only [Bool.not_eq_true] at hrun
    exact (openAt_viewed hT _ answers).bind (fun _ => Triple.pure true) point start s hs hrun

theorem disconnectInternal_viewed : Viewed R T disconnectInternal := by
  intro point start s hs _
  simp only [disconnectInternal, setResolving, fire, segments_bind, segments_state,
    segments_ite, segments_pure, segments_update, segments_callback]
  split
  · exact ⟨hs, trivial⟩
  · rename_i hrun
    simp only [Bool.not_eq_true', Bool.not_eq_false] at hrun
    have hresolving := hT.aside (.setResolving false) hs
    exact ⟨hT.closed _ hresolving hrun, fun s' => ⟨hT.resumed _ s', trivial⟩⟩

theorem reconnect_viewed (net : Net) (answers : SocketAnswers) :
    Viewed R T (reconnect net answers) :=
  (disconnectInternal_viewed hT).bind fun _ =>
    Triple.ite (fun _ => Triple.pure _) fun _ => connect_viewed hT net answers

theorem connectAsync_viewed : Viewed R T connectAsync := by
  refine Viewed.state fun s => Triple.ite (fun _ => Triple.pure _) fun _ => ?_
  exact (post_viewed hT fun _ => (by simp)).bind fun _ => Triple.pure _

theorem connectAsyncVia_viewed (resolver : Bool) : Viewed R T (connectAsyncVia resolver) := by
  refine Viewed.state fun s => Triple.ite (fun _ => Triple.pure _) fun _ => ?_
  refine Triple.ite (fun _ => Triple.pure _) fun _ => ?_
  exact (post_viewed hT fun _ => (by simp)).bind fun _ => Triple.pure _

theorem connectViaHandler_viewed : Viewed R T connectViaHandler := by
  refine Viewed.state fun s => Triple.ite (fun _ => Triple.pure _) fun _ => ?_
  refine Triple.bind (Viewed.update fun _ _ _ => hT.aside (.setResolving true)) fun _ => ?_
  exact Viewed.update fun _ _ _ => hT.aside (.setResolves _)

theorem asyncResolveHandler_viewed (index : Nat) (resolution : ErrorCode × Endpoint)
    (answers : SocketAnswers) :
    Viewed R T (asyncResolveHandler index resolution answers) := by
  intro point start s hs _
  have hnext := hT.aside (.setResolving false)
    (hT.aside (.setResolves (s.own.resolves.eraseIdx index)) hs)
  rw [asyncResolveHandler, segments_bind, segments_update, segments_bind, setResolving,
    segments_update, segments_bind, segments_state]
  simp only [segments_ite, segments_pure]
  split_ifs with hbusy hresolved
  · exact ⟨hnext, trivial⟩
  · have hrun : s.running = false := by
      simpa using hbusy
    exact openAt_viewed hT _ answers point start _ hnext hrun
  · exact (hT.sendError _).bind (fun _ => hT.fire _) point start _ hnext trivial

theorem disconnectInternalAsync_viewed (dispatch : Bool) :
    Viewed R T (disconnectInternalAsync dispatch) := by
  have hcancel {point : Option Event} {start s : Client} (hs : R point start s) :
      R point start (if s.socket.isOpen then s.abortOperations else s) := by
    split
    · exact hT.minor .abortOperations hs
    · exact hs
  intro point start s hs _
  rw [disconnectInternalAsync, segments_bind, segments_state, segments_ite]
  split
  · exact ⟨hs, trivial⟩
  · rename_i hrun
    simp only [Bool.not_eq_true', Bool.not_eq_false] at hrun
    rw [segments_bind, segments_update]
    have hnext := hcancel hs
    cases dispatch with
    | true =>
        exact (disconnectInternal_viewed hT).discard.bind (fun _ => Triple.pure true)
          point start _ hnext trivial
    | false =>
        refine ⟨hT.aside (.post (.disconnect s.session) ?_) hnext, trivial⟩
        rintro session ⟨rfl⟩
        split <;> exact ⟨rfl, hrun⟩

theorem reconnectAsync_viewed (hwait : ∀ s, R none s s) : Viewed R T reconnectAsync := by
  refine (disconnectInternalAsync_viewed hT false).bind fun _ => ?_
  refine Triple.ite (fun _ => Triple.pure _) fun _ => ?_
  exact (hT.waitUntil hwait _).bind fun _ => connectAsync_viewed hT

theorem group_viewed (net : Net) (address : String) (answer : ErrorCode) (event : Event) :
    Viewed R T (do
      let _ ← makeAddress net address
      if answer.failed then throw answer
      fire event) := by
  refine (hT.makeAddress net address).bind fun _ => ?_
  exact Triple.ite (fun _ => (hT.throw _).bind fun _ => hT.fire _) fun _ => hT.fire _

theorem joinMulticastGroup_viewed (net : Net) (address : String) (answer : ErrorCode) :
    Viewed R T (joinMulticastGroup net address answer) :=
  Viewed.whileRunning (group_viewed hT net address answer _)

theorem leaveMulticastGroup_viewed (net : Net) (address : String) (answer : ErrorCode) :
    Viewed R T (leaveMulticastGroup net address answer) :=
  Viewed.whileRunning (group_viewed hT net address answer _)

theorem syncFailed_viewed (ec : ErrorCode) : Viewed R T (syncFailed ec) :=
  (hT.sendError ec).bind fun _ => (disconnectInternal_viewed hT).discard

theorem asyncFailed_viewed (ec : ErrorCode) : Viewed R T (asyncFailed ec) :=
  (hT.sendError ec).bind fun _ => (disconnectInternalAsync_viewed hT true).discard

theorem call_viewed (hwait : ∀ s, R none s s) (net : Net) (inside : Bool) {k : Call}
    (hk : k.isPlain = true) :
    Viewed R T (call net inside k) := by
  cases k with
  | connect answers => exact (connect_viewed hT net answers).discard
  | connectVia resolver resolution answers =>
      exact (connectVia_viewed hT resolver resolution answers).discard
  | disconnect => exact (disconnectInternal_viewed hT).discard
  | reconnect answers => exact (reconnect_viewed hT net answers).discard
  | connectAsync => exact (connectAsync_viewed hT).discard
  | connectAsyncVia resolver => exact (connectAsyncVia_viewed hT resolver).discard
  | disconnectAsync => exact (disconnectInternalAsync_viewed hT false).discard
  | reconnectAsync => exact (reconnectAsync_viewed hT hwait).discard
  | joinMulticastGroup address answer => exact joinMulticastGroup_viewed hT net address answer
  | leaveMulticastGroup address answer => exact leaveMulticastGroup_viewed hT net address answer
  | joinMulticastGroupAsync address answer =>
      refine Viewed.whileRunning (Triple.ite (fun _ => ?_) fun _ => ?_)
      · exact joinMulticastGroup_viewed hT net address answer
      · exact post_viewed hT fun _ => (by simp)
  | leaveMulticastGroupAsync address answer =>
      refine Viewed.whileRunning (Triple.ite (fun _ => ?_) fun _ => ?_)
      · exact leaveMulticastGroup_viewed hT net address answer
      · exact post_viewed hT fun _ => (by simp)
  | send endpoint buffer answer =>
      exact Viewed.state fun s => (hT.send (syncFailed_viewed hT) _ buffer answer).discard
  | sendTimed endpoint buffer =>
      exact Viewed.state fun s => (hT.sendTimed (syncFailed_viewed hT) hwait _ buffer).discard
  | sendAsync endpoint buffer => cases hk
  | receive buffer answer => exact (hT.receive (syncFailed_viewed hT) buffer answer).discard
  | receiveTimed endpoint buffer =>
      exact (hT.receiveTimed (syncFailed_viewed hT) hwait endpoint buffer).discard
  | receiveAsync => exact hT.tryReceive
  | setupReuseAddress enable => exact Viewed.update fun _ _ _ => hT.aside (.options _ _ _)
  | setupReusePort enable => exact Viewed.update fun _ _ _ => hT.aside (.options _ _ _)
  | setupMulticast enable => exact Viewed.update fun _ _ _ => hT.aside (.options _ _ _)

theorem postedHandler_viewed (net : Net) (index : Nat) (answers : SocketAnswers)
    (handler : Handler) : Viewed R T (do unpost index; postedHandler net answers handler) := by
  refine Triple.bind (Viewed.update fun _ _ _ => hT.aside (.unpost index)) fun _ => ?_
  cases handler with
  | connect => exact (connect_viewed hT net answers).discard
  | connectVia => exact connectViaHandler_viewed hT
  | disconnect session => exact (disconnectInternal_viewed hT).discard
  | joinMulticastGroup address => exact joinMulticastGroup_viewed hT net address _
  | leaveMulticastGroup address => exact leaveMulticastGroup_viewed hT net address _
  | asyncResolve => exact Triple.pure ()

end Viewed

theorem system_viewed (net : Net) {R : Option Event → Client → Client → Prop}
    (hwait : ∀ s, R none s s) {okCall : Call → Prop}
    {T : Option (Origin Handler) → Option Event → Client → Stop Event ErrorCode → Client → Prop}
    (hT : ∀ origin, origin.any Origin.isSend = false → Watches false Special R (T origin))
    (hcall : ∀ k inside, okCall k → k.isPlain = false → (call net inside k).Obeys (T none))
    (hsend : ∀ s op completion, op ∈ s.operations → op.isSend = true →
      (completionHandler op completion).Segments (T (some (.completion op completion)))
        (fun _ point start s' =>
          T (some (.completion op completion)) point start .returned s') none s s) :
    (system net).Obeys okCall (fun _ => True) T where
  call k inside hk := by
    cases hplain : k.isPlain with
    | true => exact (hT none rfl).obeys hwait (call_viewed (hT none rfl) hwait net inside hplain)
    | false => exact hcall k inside hk hplain
  handler h s origin program _ hlookup := by
    cases runnable_of_handler hlookup with
    | @completion op completion hmem hresult =>
        cases hop : op.isSend with
        | true => exact hsend s op completion hmem hop
        | false =>
            have hT' := hT (some (.completion op completion)) hop
            have hfailed := asyncFailed_viewed hT'
            exact hT'.obeys hwait (hT'.completionHandler hfailed hop completion) s
    | timer hfired => exact (hT _ rfl).obeys hwait ((hT _ rfl).timedTimerHandler _ _) s
    | posted answers hposted =>
        exact (hT _ rfl).obeys hwait (postedHandler_viewed (hT _ rfl) net _ _ _) s
    | resolved index answers resolution =>
        exact (hT _ rfl).obeys hwait
          (asyncResolveHandler_viewed (hT _ rfl) index resolution answers) s

end Client

end AsioWrapper.Udp
