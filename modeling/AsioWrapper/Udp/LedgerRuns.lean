import AsioWrapper.Udp.Ledger

/-!
# The books of the two classes

Every piece of code of a client and of a server makes the entries that belong
to its callbacks, so a step of a run makes one entry or none.
-/

namespace AsioWrapper.Udp

open AsioWrapper.Asio
open AsioWrapper.Foundation
open AsioWrapper.Foundation.Program

variable {δ π : Type}

/-! ## Systems that keep books -/

/-- All code of the system makes its entries; `receiveError` is the error a synchronous
receive ends with, if its arguments make it receive. -/
structure Bookkept {κ η ν : Type} (S : PeerSystem δ π κ η ν) (announce : Event)
    (receiveError : κ → Option ErrorCode) : Prop where
  call : ∀ k inside s,
    CallBooked π announce (s.running && (receiveError k).isSome) s (S.call k inside s)
  handler : ∀ h s origin program, S.handler h s = some (origin, program) →
    BookedFrom announce false (some origin) none s (program s)
  receives : ∀ k inside s ec, receiveError k = some ec → s.running = true →
    ∃ endpoint size, (S.call k inside s).reached.log = s.log ++ [.onReceived endpoint size]
  sends : ∀ h s origin program sent, S.handler h s = some (origin, program) →
    SentAsync (some origin) none s sent → 0 < sent →
    ∃ endpoint, (program s).reached.log = s.log ++ [.onSent endpoint sent]
  environment : ∀ e s s', S.environment e s = some s' → s'.ledger = s.ledger

theorem Stirred.ledger {s s' : Peer δ} (h : Stirred s s') : s'.ledger = s.ledger := by
  cases h <;> rfl

section Runs

variable {κ η ν : Type} {S : PeerSystem δ π κ η ν} {announce : Event}
  {receiveError : κ → Option ErrorCode}

def FrameBooked (announce : Event) (f : Frame (Peer δ) Event ErrorCode (Origin π)) : Prop :=
  ∃ receives, (∀ s, f.ready s = true →
      BookedFrom announce receives f.origin f.event s (f.resume s)) ∧
    (f.event = none → f.origin = none) ∧
    (f.event = none → receives = true → ∃ id, AwaitsReceive id f.ready f.resume)

/-- A step at the point where a receive is reported, which ended with this error: a
synchronous call, a timed call that has been woken, or a completion handler.  The error of
a timed call is the one its first handler noted; if that was the timer's, the call ends
with it even where the socket operation has completed without an error. -/
inductive ReceiveEnds (S : PeerSystem δ π κ η ν) (receiveError : κ → Option ErrorCode)
    (c : PeerConfig δ π) (m : Move κ η ν) : ErrorCode → Prop where
  | call {k : κ} {thread : Option Nat} {ec : ErrorCode} (hmove : m = .call k thread)
      (hrun : c.world.running = true) (h : receiveError k = some ec) :
      ReceiveEnds S receiveError c m ec
  | timed {i id : Nat} {f : Frame (Peer δ) Event ErrorCode (Origin π)}
      {rest : List (Frame (Peer δ) Event ErrorCode (Origin π))} (hmove : m = .resume i)
      (hstack : c.threads[i]? = some (f :: rest)) (horigin : f.origin = none)
      (hwaiting : f.event = none) (hframe : AwaitsReceive id f.ready f.resume) :
      ReceiveEnds S receiveError c m (c.world.timedCall id).error
  | completion {op : Operation} {completion : Completion}
      (hsegment : S.segment c m = some (some (.completion op completion), none)) :
      ReceiveEnds S receiveError c m completion.error

inductive StepBooked (S : PeerSystem δ π κ η ν) (announce : Event)
    (receiveError : κ → Option ErrorCode) (c : PeerConfig δ π) (m : Move κ η ν)
    (c' : PeerConfig δ π) : Prop where
  | nothing (h : c'.world.ledger = c.world.ledger)
  | entry {origin : Option (Origin π)} {point : Option Event} (event : Event)
      (hsegment : S.segment c m = some (origin, point))
      (h : c'.world.ledger = c.world.ledger.entry announce (counts origin point event) event)
      (hreceive : origin = none → point = none → event.isReceived = true →
        ∃ ec, ReceiveEnds S receiveError c m ec)
      (hsent : origin ≠ none → 0 < event.sentSize →
        SentAsync origin point c.world event.sentSize)

theorem BookedFrom.suspends {receives : Bool} {origin : Option (Origin π)}
    {point : Option Event} {s : Peer δ} {o : Outcome (Peer δ) Event ErrorCode Unit}
    (h : BookedFrom announce receives origin point s o) :
    o.Suspends (FrameBooked announce) origin := by
  cases o with
  | ret value s' => trivial
  | throw error s' => trivial
  | call event s' resume =>
      exact ⟨receives, fun s'' _ => h.2 s'', fun h => (by cases h), fun h => by cases h⟩
  | wait ready s' resume => exact h.1.elim

theorem BookedFrom.booked {receives : Bool} {origin : Option (Origin π)}
    {point : Option Event} {s : Peer δ} {o : Outcome (Peer δ) Event ErrorCode Unit}
    (h : BookedFrom announce receives origin point s o) :
    o.reached.ledger = s.ledger ∨ ∃ event,
      o.reached.ledger = s.ledger.entry announce (counts origin point event) event ∧
        (origin = none → event.isReceived = true → receives = true) ∧
        (origin ≠ none → 0 < event.sentSize → SentAsync origin point s event.sentSize) := by
  cases o with
  | ret value s' => exact Or.inl h
  | throw error s' => exact Or.inl h
  | call event s' resume => exact Or.inr ⟨event, h.1⟩
  | wait ready s' resume => exact h.1.elim

theorem CallBooked.suspends {receives : Bool} {s : Peer δ}
    {o : Outcome (Peer δ) Event ErrorCode Unit} (h : CallBooked π announce receives s o) :
    o.Suspends (FrameBooked announce) (none : Option (Origin π)) := by
  cases h with
  | runs h => exact h.suspends
  | blocks hledger hresume hwoken => exact ⟨_, hresume, fun _ => rfl, fun _ => hwoken⟩

theorem CallBooked.booked {receives : Bool} {s : Peer δ}
    {o : Outcome (Peer δ) Event ErrorCode Unit} (h : CallBooked π announce receives s o) :
    o.reached.ledger = s.ledger ∨ ∃ event,
      o.reached.ledger =
          s.ledger.entry announce (counts (none : Option (Origin π)) none event) event ∧
        (event.isReceived = true → receives = true) := by
  cases h with
  | runs h => exact h.booked.imp_right fun ⟨event, h, hreceives, _⟩ => ⟨event, h, hreceives rfl⟩
  | blocks hledger hresume hwoken => exact Or.inl hledger

theorem Bookkept.frames_step (hS : Bookkept S announce receiveError) {c c' : PeerConfig δ π}
    (hc : ∀ f ∈ c.frames, FrameBooked announce f) {m : Move κ η ν}
    (hstep : S.step c m = some c') : ∀ f ∈ c'.frames, FrameBooked announce f := by
  refine System.frames_step (fun k inside s => ?_) (fun h s origin program hlookup => ?_)
    (fun f s hf hready => ?_) hc hstep
  · exact (hS.call k inside s).suspends
  · exact (hS.handler h s origin program hlookup).suspends
  · obtain ⟨receives, hresume, -, -⟩ := hf
    exact (hresume s hready).suspends

theorem Bookkept.step (hS : Bookkept S announce receiveError) {c c' : PeerConfig δ π}
    (hc : ∀ f ∈ c.frames, FrameBooked announce f) {m : Move κ η ν}
    (hstep : S.step c m = some c') : StepBooked S announce receiveError c m c' := by
  cases m with
  | call k thread =>
      obtain ⟨inside, hworld⟩ := System.step_call hstep
      rcases (hS.call k inside c.world).booked with h | ⟨event, h, hreceives⟩
      · exact .nothing (hworld ▸ h)
      · refine .entry event rfl (hworld ▸ h) (fun _ _ hevent => ?_) fun h => (h rfl).elim
        obtain ⟨hrun, hreceive⟩ := Bool.and_eq_true_iff.mp (hreceives hevent)
        obtain ⟨ec, hec⟩ := Option.isSome_iff_exists.mp hreceive
        exact ⟨ec, .call rfl hrun hec⟩
  | handler h =>
      obtain ⟨origin, program, hlookup, hworld⟩ := System.step_handler hstep
      have hsegment : S.segment c (.handler h) = some (some origin, none) := by
        simp [System.segment, hlookup]
      rcases (hS.handler h c.world origin program hlookup).booked with h | ⟨event, h, -, hsent⟩
      · exact .nothing (hworld ▸ h)
      · exact .entry event hsegment (hworld ▸ h) (fun horigin => by cases horigin) hsent
  | resume i =>
      obtain ⟨f, rest, hstack, hready, hworld⟩ := System.step_resume hstep
      have hmem : f ∈ c.frames :=
        Config.mem_frames.mpr ⟨_, List.mem_of_getElem? hstack, List.mem_cons_self⟩
      obtain ⟨receives, hresume, -, hwoken⟩ := hc f hmem
      rcases (hresume c.world hready).booked with h | ⟨event, h, hreceives, hsent⟩
      · exact .nothing (hworld ▸ h)
      · refine .entry event (by simp [System.segment, hstack]) (hworld ▸ h)
          (fun horigin hpoint hevent => ?_) hsent
        obtain ⟨id, hid⟩ := hwoken hpoint (hreceives horigin hevent)
        exact ⟨_, .timed rfl hstack horigin hpoint hid⟩
  | unwind i =>
      simp only [System.step] at hstep
      split at hstep
      · split at hstep
        · cases hstep
          exact .nothing rfl
        · cases hstep
      · cases hstep
  | environment e =>
      simp only [System.step] at hstep
      split at hstep
      · cases hstep
        exact .nothing (hS.environment e _ _ ‹_›)
      · cases hstep

/-! ### Where something is reported -/

theorem SentAsync.reports (hS : Bookkept S announce receiveError) {c c' : PeerConfig δ π}
    (hc : ∀ f ∈ c.frames, FrameBooked announce f) {m : Move κ η ν}
    (hstep : S.step c m = some c') {origin : Option (Origin π)} {point : Option Event}
    (hsegment : S.segment c m = some (origin, point)) {sent : Nat}
    (h : SentAsync origin point c.world sent) (hpos : 0 < sent) :
    ∃ endpoint, c'.world.log = c.world.log ++ [.onSent endpoint sent] := by
  obtain ⟨hrun, rfl, op, completion, rfl, hop⟩ := h
  cases m with
  | call k thread => cases hsegment
  | handler h =>
      obtain ⟨origin, program, hlookup, hworld⟩ := System.step_handler hstep
      have horigin : origin = .completion op completion := by
        simpa [System.segment, hlookup] using hsegment
      subst horigin
      rw [hworld]
      exact hS.sends h c.world _ program sent hlookup ⟨hrun, rfl, op, completion, rfl, hop⟩ hpos
  | resume i =>
      -- a handler is never resumed from a wait
      obtain ⟨f, rest, hstack, -, -⟩ := System.step_resume hstep
      have hmem : f ∈ c.frames :=
        Config.mem_frames.mpr ⟨_, List.mem_of_getElem? hstack, List.mem_cons_self⟩
      obtain ⟨-, -, hblocked, -⟩ := hc f hmem
      simp only [System.segment, hstack, Option.some.injEq, Prod.mk.injEq] at hsegment
      rw [hblocked hsegment.2] at hsegment
      cases hsegment.1
  | unwind i => cases hsegment
  | environment e => cases hsegment

theorem ReceiveEnds.reports (hS : Bookkept S announce receiveError) {c c' : PeerConfig δ π}
    {m : Move κ η ν} (hstep : S.step c m = some c')
    (hsegment : S.segment c m = some (none, none)) {ec : ErrorCode}
    (h : ReceiveEnds S receiveError c m ec) :
    ∃ endpoint size, c'.world.log = c.world.log ++ [.onReceived endpoint size] := by
  cases h with
  | call hmove hrun hec =>
      subst hmove
      obtain ⟨inside, hworld⟩ := System.step_call hstep
      rw [hworld]
      exact hS.receives _ inside c.world _ hec hrun
  | timed hmove hstack horigin hwaiting hframe =>
      subst hmove
      obtain ⟨f', rest', hstack', -, hworld⟩ := System.step_resume hstep
      rw [hstack] at hstack'
      cases hstack'
      rw [hworld]
      exact ⟨_, _, hframe.reports c.world⟩
  | completion hsegment' =>
      rw [hsegment] at hsegment'
      cases hsegment'

end Runs

/-! ## The client -/

namespace Client

section Code

variable {receives : Bool} {origin : Option (Origin Handler)}

abbrev Entered (receives : Bool) (origin : Option (Origin Handler)) {α : Type}
    (m : Code α) : Prop :=
  Booked .onConnected receives origin m

theorem fire_entered {event : Event} (hannounce : event ≠ .onConnected)
    (hsent : event.isSent = false) (hreceived : event.isReceived = false) :
    Entered receives origin (fire event) := by
  refine Booked.fire hannounce ?_ (fun point => ?_) fun _ => hreceived
  · cases event <;> first | exact ⟨rfl, rfl⟩ | contradiction
  · cases event <;> first | contradiction | simp [counts]

theorem sendError_entered (ec : ErrorCode) : Entered receives origin (sendError ec) :=
  sendError_booked rfl ec

theorem openAt_entered {α : Type} (endpoint : Endpoint) (answers : SocketAnswers) (value : α) :
    Entered receives origin
      (do setEndpoint endpoint; openSession answers bindTo .onConnected; pure value) := by
  refine Booked.bind (Booked.update fun _ => rfl) fun _ => ?_
  exact (openSession_booked rfl answers bindTo).bind fun _ => Booked.pure value

theorem connect_entered (net : Net) (answers : SocketAnswers) :
    Entered receives origin (connect net answers) := by
  refine Booked.state fun s => ?_
  refine Booked.ite (Booked.pure false) ?_
  refine Booked.ite (Booked.pure false) ?_
  refine Booked.ite (Booked.pure false) ?_
  exact (makeAddress_booked net _).bind fun address => openAt_entered _ answers true

theorem connectVia_entered (resolver : Bool) (resolution : ErrorCode × Endpoint)
    (answers : SocketAnswers) :
    Entered receives origin (connectVia resolver resolution answers) := by
  refine Booked.state fun s => ?_
  refine Booked.ite (Booked.pure false) ?_
  refine Booked.ite (Booked.pure false) ?_
  refine Booked.ite (Booked.pure false) ?_
  refine Booked.ite (Booked.pure false) ?_
  refine Booked.ite ?_ (openAt_entered _ answers true)
  refine (sendError_entered _).bind fun _ => ?_
  exact (fire_entered (by decide) rfl rfl).bind fun _ => Booked.pure false

theorem disconnectInternal_entered : Entered receives origin disconnectInternal := by
  refine Booked.state fun s => ?_
  refine Booked.ite (Booked.pure false) ?_
  refine Booked.bind (Booked.update fun _ => rfl) fun _ => ?_
  refine Booked.bind (Booked.update fun _ => rfl) fun _ => ?_
  refine Booked.bind (Booked.update fun _ => rfl) fun _ => ?_
  exact (fire_entered (by decide) rfl rfl).bind fun _ => Booked.pure true

theorem reconnect_entered (net : Net) (answers : SocketAnswers) :
    Entered receives origin (reconnect net answers) :=
  disconnectInternal_entered.bind fun _ =>
    Booked.ite (Booked.pure false) (connect_entered net answers)

theorem post_entered (handler : Handler) : Entered receives origin (post handler) :=
  Booked.update fun _ => rfl

theorem connectAsync_entered : Entered receives origin connectAsync :=
  Booked.state fun _ => Booked.ite (Booked.pure false)
    ((post_entered .connect).bind fun _ => Booked.pure true)

theorem connectAsyncVia_entered (resolver : Bool) :
    Entered receives origin (connectAsyncVia resolver) :=
  Booked.state fun _ => Booked.ite (Booked.pure false) (Booked.ite (Booked.pure false)
    ((post_entered .connectVia).bind fun _ => Booked.pure true))

theorem connectViaHandler_entered : Entered receives origin connectViaHandler := by
  refine Booked.state fun s => Booked.ite (Booked.pure ()) ?_
  exact Booked.bind (Booked.update fun _ => rfl) fun _ => Booked.update fun _ => rfl

theorem asyncResolveHandler_entered (index : Nat) (resolution : ErrorCode × Endpoint)
    (answers : SocketAnswers) :
    Entered receives origin (asyncResolveHandler index resolution answers) := by
  refine Booked.bind (Booked.update fun _ => rfl) fun _ => ?_
  refine Booked.bind (Booked.update fun _ => rfl) fun _ => ?_
  refine Booked.state fun s => Booked.ite (Booked.pure ()) (Booked.ite ?_ ?_)
  · refine Booked.bind (Booked.update fun _ => rfl) fun _ => ?_
    exact openSession_booked rfl answers bindTo
  · exact (sendError_entered _).bind fun _ => fire_entered (by decide) rfl rfl

theorem disconnectInternalAsync_entered (dispatch : Bool) :
    Entered receives origin (disconnectInternalAsync dispatch) := by
  refine Booked.state fun s => Booked.ite (Booked.pure false) ?_
  refine Booked.bind (Booked.update fun s => ?_) fun _ => ?_
  · split <;> rfl
  · refine Booked.ite ?_ ?_
    · exact disconnectInternal_entered.discard.bind fun _ => Booked.pure true
    · exact (post_entered _).bind fun _ => Booked.pure true

theorem group_entered (net : Net) (address : String) (answer : ErrorCode) {event : Event}
    (hannounce : event ≠ .onConnected) (hsent : event.isSent = false)
    (hreceived : event.isReceived = false) :
    Entered receives origin
      (do
        let s ← state
        if !s.running then return ()
        let _ ← makeAddress net address
        if answer.failed then throw answer
        fire event) := by
  refine Booked.state fun s => Booked.ite (Booked.pure ()) ?_
  refine (makeAddress_booked net address).bind fun _ => Booked.ite (Booked.throw answer) ?_
  exact fire_entered hannounce hsent hreceived

theorem joinMulticastGroup_entered (net : Net) (address : String) (answer : ErrorCode) :
    Entered receives origin (joinMulticastGroup net address answer) :=
  group_entered net address answer (fun h => by cases h) rfl rfl

theorem leaveMulticastGroup_entered (net : Net) (address : String) (answer : ErrorCode) :
    Entered receives origin (leaveMulticastGroup net address answer) :=
  group_entered net address answer (fun h => by cases h) rfl rfl

theorem syncFailed_entered (ec : ErrorCode) : Entered receives origin (syncFailed ec) :=
  (sendError_entered ec).bind fun _ => disconnectInternal_entered.discard

theorem asyncFailed_entered (ec : ErrorCode) : Entered receives origin (asyncFailed ec) :=
  (sendError_entered ec).bind fun _ => (disconnectInternalAsync_entered true).discard

theorem postedHandler_entered (net : Net) (answers : SocketAnswers) (handler : Handler) :
    Entered receives origin (postedHandler net answers handler) := by
  cases handler with
  | connect => exact (connect_entered net answers).discard
  | connectVia => exact connectViaHandler_entered
  | disconnect session => exact disconnectInternal_entered.discard
  | joinMulticastGroup address => exact joinMulticastGroup_entered net address _
  | leaveMulticastGroup address => exact leaveMulticastGroup_entered net address _
  | asyncResolve => exact Booked.pure ()

end Code

def Call.receiveError : Call → Option ErrorCode
  | .receive buffer answer =>
      if buffer.size ≠ 0 ∧ buffer.isNull = false then some answer.error else none
  | _ => none

theorem reconnectAsync_booked (receives : Bool) (s : Client) :
    CallBooked Handler .onConnected receives s ((discard reconnectAsync : Code Unit) s) := by
  cases hrun : s.running with
  | false =>
      have hreturns : (discard reconnectAsync : Code Unit) s = .ret () s := by
        change (reconnectAsync s).bind _ = _
        simp only [reconnectAsync, disconnectAsync, disconnectInternalAsync, bind_apply,
          Program.state, Outcome.bind, hrun, Bool.not_false, if_true]
        rfl
      exact .runs (hreturns ▸ rfl)
  | true =>
      let cancelled : Client := if s.socket.isOpen then s.abortOperations else s
      let s' : Client :=
        { cancelled with
          own := { cancelled.own with
            posted := cancelled.own.posted ++ [.disconnect s.session] } }
      have hledger : s'.ledger = s.ledger := by
        simp only [s', cancelled]
        split <;> rfl
      have hblocks : (discard reconnectAsync : Code Unit) s =
          .wait (fun s => !s.running) s' (discard connectAsync) := by
        change (reconnectAsync s).bind _ = _
        simp only [reconnectAsync, disconnectAsync, disconnectInternalAsync, bind_apply,
          Program.state, Outcome.bind, hrun, Bool.not_true, Bool.false_eq_true, if_false]
        rfl
      rw [hblocks]
      refine .blocks hledger (fun s'' _ => ?_) fun (h : false = true) => by cases h
      exact connectAsync_entered.discard.bookedFrom s''

theorem call_booked (net : Net) (inside : Bool) (k : Call) (s : Client) :
    CallBooked Handler .onConnected (s.running && k.receiveError.isSome) s
      (call net inside k s) := by
  cases k with
  | connect answers => exact (connect_entered net answers).discard.callBooked s
  | connectVia resolver resolution answers =>
      exact (connectVia_entered resolver resolution answers).discard.callBooked s
  | disconnect => exact disconnectInternal_entered.discard.callBooked s
  | reconnect answers => exact (reconnect_entered net answers).discard.callBooked s
  | connectAsync => exact connectAsync_entered.discard.callBooked s
  | connectAsyncVia resolver => exact (connectAsyncVia_entered resolver).discard.callBooked s
  | disconnectAsync => exact (disconnectInternalAsync_entered false).discard.callBooked s
  | reconnectAsync => exact reconnectAsync_booked _ s
  | joinMulticastGroup address answer =>
      exact (joinMulticastGroup_entered net address answer).callBooked s
  | leaveMulticastGroup address answer =>
      exact (leaveMulticastGroup_entered net address answer).callBooked s
  | joinMulticastGroupAsync address answer =>
      exact (Booked.state fun _ => Booked.ite (Booked.pure ()) (Booked.ite
        (joinMulticastGroup_entered net address answer) (post_entered _))).callBooked s
  | leaveMulticastGroupAsync address answer =>
      exact (Booked.state fun _ => Booked.ite (Booked.pure ()) (Booked.ite
        (leaveMulticastGroup_entered net address answer) (post_entered _))).callBooked s
  | send endpoint buffer answer =>
      exact (Booked.state fun _ =>
        (send_booked rfl syncFailed_entered _ buffer answer).discard).callBooked s
  | sendTimed endpoint buffer =>
      exact sendTimed_booked rfl (fun _ => syncFailed_entered) _ buffer s
  | sendAsync endpoint buffer =>
      exact (Booked.state fun _ =>
        (sendAsync_booked rfl (Booked.pure ()) _ buffer).discard).callBooked s
  | receive buffer answer => exact receive_callBooked rfl syncFailed_entered buffer answer s
  | receiveTimed endpoint buffer =>
      exact receiveTimed_booked rfl (fun _ => syncFailed_entered) endpoint buffer s
  | receiveAsync => exact tryReceive_booked.callBooked s
  | setupReuseAddress enable =>
      refine Booked.callBooked ?_ s
      exact Booked.update fun _ => rfl
  | setupReusePort enable =>
      refine Booked.callBooked ?_ s
      exact Booked.update fun _ => rfl
  | setupMulticast enable =>
      refine Booked.callBooked ?_ s
      exact Booked.update fun _ => rfl

theorem receive_logged (net : Net) (inside : Bool) {k : Call} {ec : ErrorCode}
    (hk : k.receiveError = some ec) {s : Client} (hrun : s.running = true) :
    ∃ endpoint size, (call net inside k s).reached.log = s.log ++ [.onReceived endpoint size] := by
  unfold Call.receiveError at hk
  split at hk
  · split at hk
    · rename_i hbuffer
      exact ⟨_, _, receive_reports syncFailed hbuffer.1 hbuffer.2 _ hrun⟩
    · cases hk
  · cases hk

theorem send_logged {net : Net} {h : Pending} {s : Client} {origin : Origin Handler}
    {program : Code Unit} {sent : Nat} (hlookup : (system net).handler h s = some (origin, program))
    (hsent : SentAsync (some origin) none s sent) (hpos : 0 < sent) :
    ∃ endpoint, (program s).reached.log = s.log ++ [.onSent endpoint sent] := by
  obtain ⟨hrun, -, op, completion, horigin, hsend, hok, rfl⟩ := hsent
  cases Option.some.inj horigin
  cases runnable_of_handler hlookup with
  | completion hmem hresult =>
      rw [completionHandler, completionHandler_send _ hsend]
      exact ⟨_, asyncSendToHandler_reports asyncFailed op hok hpos hrun⟩

theorem bookkept (net : Net) : Bookkept (system net) .onConnected Call.receiveError where
  call k inside s := call_booked net inside k s
  receives _ inside _ _ hk hrun := receive_logged net inside hk hrun
  sends _ _ _ _ _ := send_logged
  handler h s origin program hlookup := by
    cases runnable_of_handler hlookup with
    | completion hmem hresult =>
        exact completionHandler_booked rfl asyncFailed_entered
          (fun ec point start s hs _ => asyncFailed_entered ec point start s hs trivial) s
    | timer hfired => exact (timedTimerHandler_booked _ _).bookedFrom s
    | posted answers hposted =>
        refine Booked.bookedFrom (Booked.bind ?_ fun _ => postedHandler_entered net answers _) s
        exact Booked.update fun _ => rfl
    | resolved index answers resolution =>
        exact (asyncResolveHandler_entered index resolution answers).bookedFrom s
  environment e s s' h := by
    cases environment_cases h with
    | inl h => exact h.ledger
    | inr h => cases h <;> rfl

end Client

/-! ## The server -/

namespace Server

section Code

variable {receives : Bool} {origin : Option (Origin Handler)}

abbrev Entered (receives : Bool) (origin : Option (Origin Handler)) {α : Type}
    (m : Code α) : Prop :=
  Booked .onStarted receives origin m

theorem sendError_entered (ec : ErrorCode) : Entered receives origin (sendError ec) :=
  sendError_booked rfl ec

theorem post_entered (handler : Handler) : Entered receives origin (post handler) :=
  Booked.update fun _ => rfl

theorem start_entered : Entered receives origin start :=
  Booked.state fun _ => Booked.ite (Booked.pure false)
    ((post_entered .start).bind fun _ => Booked.pure true)

theorem startMulticast_entered (endpoint : Endpoint) :
    Entered receives origin (startMulticast endpoint) := by
  refine Booked.bind ?_ fun _ => start_entered
  exact Booked.update fun _ => rfl

theorem stop_entered : Entered receives origin stop :=
  Booked.state fun _ => Booked.ite (Booked.pure false)
    ((post_entered .stop).bind fun _ => Booked.pure true)

theorem startHandler_entered (answers : SocketAnswers) :
    Entered receives origin (startHandler answers) :=
  Booked.state fun _ => Booked.ite (Booked.pure ()) (openSession_booked rfl answers _)

theorem stopHandler_entered : Entered receives origin stopHandler := by
  refine Booked.state fun s => Booked.ite (Booked.pure ()) ?_
  refine Booked.bind (Booked.update fun _ => rfl) fun _ => ?_
  refine Booked.bind (Booked.update fun _ => rfl) fun _ => ?_
  refine Booked.bind (Booked.update fun _ => rfl) fun _ => ?_
  exact Booked.fire (by decide) ⟨rfl, rfl⟩ (fun point => by simp [counts]) fun _ => rfl

theorem reportUnsent_entered :
    Entered receives origin (do
      let s ← state
      fire (.onSent s.sendEndpoint 0)) := by
  refine Booked.state fun s => Booked.fire (fun h => by cases h) ⟨rfl, rfl⟩ (fun point => ?_)
    fun _ => rfl
  unfold counts
  split <;> simp_all

theorem sendFailed_entered (ec : ErrorCode) : Entered receives origin (sendFailed ec) :=
  (sendError_entered ec).bind fun _ => reportUnsent_entered

end Code

def Call.receiveError : Call → Option ErrorCode
  | .receive buffer answer =>
      if buffer.size ≠ 0 ∧ buffer.isNull = false then some answer.error else none
  | _ => none

theorem restart_booked (receives : Bool) (s : Server) :
    CallBooked Handler .onStarted receives s ((discard restart : Code Unit) s) := by
  cases hrun : s.running with
  | false =>
      have hreturns : (discard restart : Code Unit) s = .ret () s := by
        change (restart s).bind _ = _
        simp only [restart, stop, bind_apply, Program.state, Outcome.bind, hrun, Bool.not_false,
          if_true]
        rfl
      exact .runs (hreturns ▸ rfl)
  | true =>
      let s' : Server := { s with own := { s.own with posted := s.own.posted ++ [.stop] } }
      have hblocks : (discard restart : Code Unit) s =
          .wait (fun s => !s.running) s' (discard start) := by
        change (restart s).bind _ = _
        simp only [restart, stop, bind_apply, Program.state, Outcome.bind, hrun, Bool.not_true,
          Bool.false_eq_true, if_false]
        rfl
      rw [hblocks]
      refine .blocks rfl (fun s'' _ => ?_) fun (h : false = true) => by cases h
      exact start_entered.discard.bookedFrom s''

theorem call_booked (net : Net) (k : Call) (s : Server) :
    CallBooked Handler .onStarted (s.running && k.receiveError.isSome) s (call net k s) := by
  cases k with
  | start => exact start_entered.discard.callBooked s
  | startMulticastAt address port =>
      exact ((makeAddress_booked net address).bind fun _ =>
        startMulticast_entered _).discard.callBooked s
  | startMulticast endpoint => exact (startMulticast_entered endpoint).discard.callBooked s
  | stop => exact stop_entered.discard.callBooked s
  | restart => exact restart_booked _ s
  | send endpoint buffer answer =>
      exact (Booked.state fun _ =>
        (send_booked rfl sendError_entered _ buffer answer).discard).callBooked s
  | sendTimed endpoint buffer =>
      exact sendTimed_booked rfl (fun _ => sendError_entered) _ buffer s
  | sendAsync endpoint buffer =>
      exact (Booked.state fun _ =>
        (sendAsync_booked rfl reportUnsent_entered _ buffer).discard).callBooked s
  | receive buffer answer => exact receive_callBooked rfl sendError_entered buffer answer s
  | receiveTimed endpoint buffer =>
      exact receiveTimed_booked rfl (fun _ => sendError_entered) endpoint buffer s
  | receiveAsync => exact tryReceive_booked.callBooked s
  | setupReuseAddress enable =>
      refine Booked.callBooked ?_ s
      exact Booked.update fun _ => rfl
  | setupReusePort enable =>
      refine Booked.callBooked ?_ s
      exact Booked.update fun _ => rfl
  | setupReceiveBufferLimit limit =>
      refine Booked.callBooked ?_ s
      exact Booked.update fun _ => rfl
  | setupSendBufferLimit limit =>
      refine Booked.callBooked ?_ s
      exact Booked.update fun _ => rfl

/-- The zero-size report of a failed receive comes after `onError`, after `onReceived`, or
in the first segment of a completion that failed. -/
theorem receiveFailed_entered {op : Operation} {completion : Completion} (ec : ErrorCode)
    (point : Option Event) (start s : Server) (hs : s.ledger = start.ledger)
    (hfirst : point = none → completion.error.failed = true) :
    (receiveFailed ec).Segments
      (Books .onStarted false (some (.completion op completion : Origin Handler)))
      (fun _ point start s => Unbooked point start s ∧ True) point start s := by
  have hreport (point : Option Event) (start s : Server) (hs : s.ledger = start.ledger)
      (hfirst : point = none → completion.error.failed = true) :
      (fire (.onReceived s.receiveEndpoint 0)).Segments
        (Books .onStarted false (some (.completion op completion : Origin Handler)))
        (fun _ point start s => Unbooked point start s ∧ True) point start s := by
    rw [fire, segments_bind, segments_update, segments_callback]
    refine ⟨⟨?_, fun h => (by cases h), fun _ h => (by cases h)⟩, fun s' => ⟨rfl, trivial⟩⟩
    have hcounts : counts (some (.completion op completion : Origin Handler)) point
        (.onReceived s.receiveEndpoint 0) = false := by
      cases point with
      | none => simp [counts, hfirst rfl]
      | some event => rfl
    rw [hcounts, entry_of_ne (fun h => by cases h), ← hs]
    simp [Peer.ledger, Peer.logged, Event.sentSize, Event.receivedSize]
  rw [receiveFailed, segments_bind, sendError]
  split
  · exact hreport point start s hs hfirst
  · rw [fire, segments_bind, segments_update, segments_callback]
    refine ⟨⟨?_, fun h => (by cases h), fun _ h => (by cases h)⟩,
      fun s' => hreport _ s' s' rfl fun h => by cases h⟩
    rw [entry_of_ne (fun h => by cases h), ← hs]
    simp [Peer.ledger, Peer.logged, Event.sentSize, Event.receivedSize, Event.isSent,
      Event.isReceived]

theorem receive_logged (net : Net) {k : Call} {ec : ErrorCode} (hk : k.receiveError = some ec)
    {s : Server} (hrun : s.running = true) :
    ∃ endpoint size, (call net k s).reached.log = s.log ++ [.onReceived endpoint size] := by
  unfold Call.receiveError at hk
  split at hk
  · split at hk
    · rename_i hbuffer
      exact ⟨_, _, receive_reports sendError hbuffer.1 hbuffer.2 _ hrun⟩
    · cases hk
  · cases hk

theorem send_logged {net : Net} {h : Pending} {s : Server} {origin : Origin Handler}
    {program : Code Unit} {sent : Nat} (hlookup : (system net).handler h s = some (origin, program))
    (hsent : SentAsync (some origin) none s sent) (hpos : 0 < sent) :
    ∃ endpoint, (program s).reached.log = s.log ++ [.onSent endpoint sent] := by
  obtain ⟨hrun, -, op, completion, horigin, hsend, hok, rfl⟩ := hsent
  cases Option.some.inj horigin
  cases runnable_of_handler hlookup with
  | completion hmem hresult =>
      rw [completionHandler, completionHandler_send _ hsend]
      exact ⟨_, asyncSendToHandler_reports sendFailed op hok hpos hrun⟩

theorem bookkept (net : Net) : Bookkept (system net) .onStarted Call.receiveError where
  call k _ s := call_booked net k s
  receives _ _ _ _ hk hrun := receive_logged net hk hrun
  sends _ _ _ _ _ := send_logged
  handler h s origin program hlookup := by
    cases runnable_of_handler hlookup with
    | completion hmem hresult =>
        exact completionHandler_booked rfl sendFailed_entered receiveFailed_entered s
    | timer hfired => exact (timedTimerHandler_booked _ _).bookedFrom s
    | @posted _ handler answers hposted =>
        refine Booked.bookedFrom (Booked.bind ?_ fun _ => ?_) s
        · exact Booked.update fun _ => rfl
        · cases handler with
          | start => exact startHandler_entered answers
          | stop => exact stopHandler_entered
  environment e s s' h := (stimulate_stirred h).ledger

end Server

end AsioWrapper.Udp
