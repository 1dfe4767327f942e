import AsioWrapper.Udp.Bookkeeping

/-!
# The two handlers of a timed call

A timed call starts a socket operation and a timer and waits until both of
their handlers have counted themselves.  The first to do so cancels the other
through the socket and the timer.  `socket.cancel()` is the throwing overload:
on a socket that was closed meanwhile it throws into the loop that runs the
handlers.  The count itself is always taken: an operation that is not in
flight any more and a timer that was handled have each counted once.
-/

namespace AsioWrapper.Udp

open AsioWrapper.Asio
open AsioWrapper.Foundation
open AsioWrapper.Foundation.Program

variable {δ π : Type}

def Origin.timedCall : Origin π → Option Nat
  | .completion op _ => if op.isTimed then some op.id else none
  | .timer id => some id
  | .posted _ => none

def Origin.isTimer : Origin π → Bool
  | .timer _ => true
  | _ => false

def Origin.dequeue (o : Origin π) (s : Peer δ) : Peer δ :=
  match o with
  | .completion op _ => s.removeOperation op
  | _ => s

theorem Follows.trans {op op' op'' : Operation} (h : Follows op op') (h' : Follows op' op'') :
    Follows op op'' where
  id := h'.id.trans h.id
  purpose := h'.purpose.trans h.purpose
  generation := h'.generation.trans h.generation
  session := h'.session.trans h.session
  result hresult := by
    obtain rfl := h'.result hresult
    exact h.result hresult

theorem Follows.refl (op : Operation) : Follows op op := ⟨rfl, rfl, rfl, rfl, fun _ => rfl⟩

/-! ## What a handler does to the calls -/

structure Touches (id n : Nat) (handled : Bool) (s s' : Peer δ) : Prop where
  issued : s'.issued = s.issued
  operations : ∃ f, (∀ op, Follows op (f op)) ∧ s'.operations = s.operations.map f
  calls : ∃ g : TimedCall → TimedCall, s'.timedCalls = s.timedCalls.map g ∧
    ∀ call, (g call).id = call.id ∧ (call.id ≠ id → g call = call) ∧
      (call.id = id → (g call).done = call.done + n ∧
        ((g call).timer = .handled ↔ call.timer = .handled ∨ handled = true))

theorem Touches.trans {id n m : Nat} {handled handled' : Bool} {s s' s'' : Peer δ}
    (h : Touches id n handled s s') (h' : Touches id m handled' s' s'') :
    Touches id (n + m) (handled || handled') s s'' where
  issued := h'.issued.trans h.issued
  operations := by
    obtain ⟨f, hf, hoperations⟩ := h.operations
    obtain ⟨f', hf', hoperations'⟩ := h'.operations
    refine ⟨f' ∘ f, fun op => (hf op).trans (hf' _), ?_⟩
    rw [hoperations', hoperations, List.map_map]
  calls := by
    obtain ⟨g, hcalls, hg⟩ := h.calls
    obtain ⟨g', hcalls', hg'⟩ := h'.calls
    refine ⟨g' ∘ g, by rw [hcalls', hcalls, List.map_map], fun call => ?_⟩
    obtain ⟨hid, hother, hown⟩ := hg call
    obtain ⟨hid', hother', hown'⟩ := hg' (g call)
    refine ⟨hid'.trans hid, fun hne => ?_, fun heq => ?_⟩
    · rw [Function.comp_apply, hother' (hid ▸ hne), hother hne]
    · obtain ⟨hdone, htimer⟩ := hown heq
      obtain ⟨hdone', htimer'⟩ := hown' (hid.trans heq)
      refine ⟨?_, ?_⟩
      · rw [Function.comp_apply, hdone', hdone]
        omega
      · rw [Function.comp_apply, htimer', htimer, Bool.or_eq_true, or_assoc]

theorem touches_modify (n : Nat) (handled : Bool) {id : Nat} {f : TimedCall → TimedCall}
    (s : Peer δ) (hid : ∀ call, (f call).id = call.id)
    (hdone : ∀ call, (f call).done = call.done + n)
    (htimer : ∀ call, (f call).timer = .handled ↔ call.timer = .handled ∨ handled = true) :
    Touches id n handled s (s.modifyTimed id f) where
  issued := rfl
  operations := ⟨fun op => op, Follows.refl, (List.map_id' _).symm⟩
  calls := by
    refine ⟨_, rfl, fun call => ?_⟩
    split
    · rename_i heq
      exact ⟨hid call, fun hne => absurd heq hne, fun _ => ⟨hdone call, htimer call⟩⟩
    · rename_i hne
      exact ⟨rfl, fun _ => rfl, fun heq => absurd heq hne⟩

private theorem touches_abort (id : Nat) (s : Peer δ) : Touches id 0 false s s.abortOperations where
  issued := rfl
  operations := ⟨_, follows_abort, rfl⟩
  calls := ⟨fun call => call, (List.map_id' _).symm, fun call => by simp⟩

theorem cancelTimer_id (call : TimedCall) : call.cancelTimer.id = call.id := by
  unfold TimedCall.cancelTimer
  split <;> rfl

theorem cancelTimer_done (call : TimedCall) : call.cancelTimer.done = call.done := by
  unfold TimedCall.cancelTimer
  split <;> rfl

theorem cancelTimer_size (call : TimedCall) : call.cancelTimer.size = call.size := by
  unfold TimedCall.cancelTimer
  split <;> rfl

theorem cancelTimer_timer (call : TimedCall) :
    call.cancelTimer.timer = .handled ↔ call.timer = .handled := by
  unfold TimedCall.cancelTimer
  split <;> simp_all

private theorem timedCall_modifyTimed_done {f : TimedCall → TimedCall} (id : Nat) (s : Peer δ)
    (hid : ∀ call, (f call).id = call.id) (hdone : ∀ call, (f call).done = call.done) :
    ((s.modifyTimed id f).timedCall id).done = (s.timedCall id).done := by
  simp only [Peer.timedCall, Peer.modifyTimed, List.find?_map]
  have hcomp : ((fun call : TimedCall => call.id == id) ∘ fun call =>
      if call.id = id then f call else call) = fun call => call.id == id := by
    funext call
    simp only [Function.comp_apply]
    split
    · rw [hid]
    · rfl
  rw [hcomp]
  cases s.timedCalls.find? fun call => call.id == id with
  | none => rfl
  | some call =>
      simp only [Option.map_some, Option.getD_some]
      split
      · rw [hdone]
      · rfl

/-! ## Exactly what the handlers do -/

def Origin.Due (o : Origin π) (s : Peer δ) : Prop :=
  match o with
  | .completion op _ => op ∈ s.operations
  | .timer id => ∃ ec, s.firedTimer id = some ec
  | .posted _ => True

/-- A handler of a timed call throws exactly if it is the first and the socket is closed. -/
structure Counts (o : Origin π) (id : Nat) (s : Peer δ) (stop : Stop Event ErrorCode)
    (s' : Peer δ) : Prop where
  due : o.Due s
  threw : (∃ ec, stop = .threw ec) ↔ (s.timedCall id).done = 0 ∧ s.socket.isOpen = false
  touches : Touches id 1 o.isTimer (o.dequeue s) s'
  aborts : (s.timedCall id).done = 0 → s.socket.isOpen = true →
    ∀ op ∈ s'.operations, op.result ≠ none

def TimedExact (origin : Option (Origin π)) (_ : Option Event) (s : Peer δ)
    (stop : Stop Event ErrorCode) (s' : Peer δ) : Prop :=
  ∀ o id, origin = some o → o.timedCall = some id → Counts o id s stop s'

theorem asyncDoneHandler_timed (id : Nat) (ec : ErrorCode) (s : Peer δ)
    {T : Option Event → Peer δ → Stop Event ErrorCode → Peer δ → Prop}
    {Q : Unit → Option Event → Peer δ → Peer δ → Prop} {point : Option Event} {start : Peer δ}
    (hthrow : (s.timedCall id).done = 0 → s.socket.isOpen = false → ∀ s', Touches id 1 false s s' →
      T point start (.threw .badDescriptor) s')
    (hreturn : ((s.timedCall id).done = 0 → s.socket.isOpen = true) → ∀ s',
      Touches id 1 false s s' →
      ((s.timedCall id).done = 0 → ∀ op ∈ s'.operations, op.result ≠ none) →
      Q () point start s') :
    (asyncDoneHandler id ec).Segments T Q point start s := by
  have hcount : Touches id 1 false s
      (s.modifyTimed id fun call => { call with done := call.done + 1 }) :=
    touches_modify 1 false s (fun _ => rfl) (fun _ => rfl) (by simp)
  have hnote := hcount.trans (touches_modify (f := fun call => { call with error := ec })
    0 false _ (fun _ => rfl) (fun _ => rfl) (by simp))
  simp only [asyncDoneHandler, segments_bind, segments_state, segments_ite, segments_pure,
    segments_update, segments_throw]
  split_ifs with hfirst hopen
  · exact hthrow hfirst (by simpa [Peer.modifyTimed] using hopen) _ hnote
  · refine hreturn (fun _ => by simpa [Peer.modifyTimed] using hopen) _ ?_ fun _ op hop => ?_
    · have hcancel := hnote.trans (touches_abort id _)
      exact hcancel.trans (touches_modify 0 false _ cancelTimer_id cancelTimer_done
        fun call => by simp [cancelTimer_timer])
    · obtain ⟨other, _, rfl⟩ := List.mem_map.mp hop
      exact other.abort_result_ne_none
  · exact hreturn (fun h => absurd h hfirst) _ hcount fun h => absurd h hfirst

theorem timedSocketHandler_timed (op : Operation) (completion : Completion)
    (htimed : op.isTimed = true) {s : Peer δ} (hmem : op ∈ s.operations) :
    (timedSocketHandler op completion).Segments
      (TimedExact (some (.completion op completion : Origin π)))
      (fun _ point start state => TimedExact (some (.completion op completion : Origin π))
        point start .returned state) none s s := by
  rw [timedSocketHandler, segments_bind, segments_update, segments_bind]
  refine asyncDoneHandler_timed _ _ _ (fun hfirst hclosed s' htouches => ?_)
    fun hlate s' htouches haborts => ?_
  · rintro o id ⟨⟩ hid
    obtain rfl : op.id = id := by simpa [Origin.timedCall, htimed] using hid
    refine ⟨hmem, ⟨fun _ => ⟨hfirst, hclosed⟩, fun _ => ⟨_, rfl⟩⟩, htouches, fun _ hopen => ?_⟩
    cases hclosed.symm.trans hopen
  · rintro o id ⟨⟩ hid
    obtain rfl : op.id = id := by simpa [Origin.timedCall, htimed] using hid
    refine ⟨hmem, ⟨fun h => (nomatch h), fun ⟨hfirst, hclosed⟩ => ?_⟩, ?_,
      fun hfirst _ => haborts hfirst⟩
    · cases hclosed.symm.trans (hlate hfirst)
    · exact htouches.trans
        (touches_modify (f := fun call => { call with size := completion.size }) 0 false _
          (fun _ => rfl) (fun _ => rfl) (by simp))

theorem timedTimerHandler_timed {id : Nat} {ec : ErrorCode} {s : Peer δ}
    (hfired : s.firedTimer id = some ec) :
    (timedTimerHandler id ec).Segments (TimedExact (some (.timer id : Origin π)))
      (fun _ point start state => TimedExact (some (.timer id : Origin π))
        point start .returned state) none s s := by
  have hhandled : Touches id 0 true s
      (s.modifyTimed id fun call => { call with timer := .handled }) :=
    touches_modify 0 true s (fun _ => rfl) (fun _ => rfl) (by simp)
  have hdone := timedCall_modifyTimed_done
    (f := fun call => { call with timer := .handled }) id s (fun _ => rfl) fun _ => rfl
  rw [timedTimerHandler, segments_bind, segments_update]
  refine asyncDoneHandler_timed _ _ _ (fun hfirst hclosed s' htouches => ?_)
    fun hlate s' htouches haborts => ?_
  · rintro o id ⟨⟩ ⟨⟩
    rw [hdone] at hfirst
    refine ⟨⟨_, hfired⟩, ⟨fun _ => ⟨hfirst, hclosed⟩, fun _ => ⟨_, rfl⟩⟩,
      hhandled.trans htouches, fun _ hopen => ?_⟩
    cases hclosed.symm.trans hopen
  · rintro o id ⟨⟩ ⟨⟩
    refine ⟨⟨_, hfired⟩, ⟨fun h => (nomatch h), fun ⟨hfirst, hclosed⟩ => ?_⟩,
      hhandled.trans htouches, fun hfirst _ => haborts (hdone.trans hfirst)⟩
    cases hclosed.symm.trans (hlate (hdone.trans hfirst))

theorem Origin.isTimed_of_timedCall {o : Origin π} {id : Nat} (h : o.timedCall = some id) :
    o.isTimed = true := by
  cases o with
  | completion op completion =>
      simp only [Origin.timedCall] at h
      split at h
      · assumption
      · cases h
  | timer id => rfl
  | posted handler => cases h

theorem Origin.isTimed_of_timedCall_none {o : Origin π} (h : o.timedCall = none) :
    o.isTimed = false := by
  cases o with
  | completion op completion =>
      simp only [Origin.timedCall] at h
      split at h
      · cases h
      · simpa [Origin.isTimed] using ‹¬op.isTimed = true›
  | timer id => cases h
  | posted handler => rfl

theorem segments_timedExact (origin : Option (Origin π))
    (h : origin.any Origin.isTimed = false) {α : Type} (m : Proc δ α) (s : Peer δ) :
    m.Segments (TimedExact origin)
      (fun _ point start state => TimedExact origin point start .returned state) none s s := by
  have hT (point : Option Event) (s : Peer δ) (stop : Stop Event ErrorCode) (s' : Peer δ) :
      TimedExact origin point s stop s' := by
    rintro o id rfl hid
    rw [Option.any_some, Origin.isTimed_of_timedCall hid] at h
    cases h
  exact Outcome.segments_of_forall hT (fun _ point start s' => hT point start _ s') _ _ _

theorem completionHandler_timedExact {sendFailed receiveFailed : ErrorCode → Proc δ Unit}
    {op : Operation} {completion : Completion} {s : Peer δ} (hmem : op ∈ s.operations) :
    (completionHandler sendFailed receiveFailed op completion).Segments
      (TimedExact (some (.completion op completion : Origin π)))
      (fun _ point start state => TimedExact (some (.completion op completion : Origin π))
        point start .returned state) none s s := by
  cases htimed : op.isTimed with
  | true =>
      rw [completionHandler_timed completion htimed]
      exact timedSocketHandler_timed op completion htimed hmem
  | false => exact segments_timedExact (some (.completion op completion)) htimed _ s

theorem Client.system_timed (net : Net) :
    (Client.system net).Obeys (fun _ => True) (fun _ => True) TimedExact where
  call k inside _ s := segments_timedExact none rfl _ s
  handler h s origin program _ hlookup := by
    cases Client.runnable_of_handler hlookup with
    | completion hmem hresult => exact completionHandler_timedExact hmem
    | timer hfired => exact timedTimerHandler_timed hfired
    | posted answers hposted => exact segments_timedExact _ rfl _ s
    | resolved index answers resolution => exact segments_timedExact _ rfl _ s

theorem Server.system_timed (net : Net) :
    (Server.system net).Obeys (fun _ => True) (fun _ => True) TimedExact where
  call k inside _ s := segments_timedExact none rfl _ s
  handler h s origin program _ hlookup := by
    cases Server.runnable_of_handler hlookup with
    | completion hmem hresult => exact completionHandler_timedExact hmem
    | timer hfired => exact timedTimerHandler_timed hfired
    | posted answers hposted => exact segments_timedExact _ rfl _ s

/-! ## Both handlers are counted -/

def Peer.ids (s : Peer δ) : List Nat := s.operations.map Operation.id

def Peer.balance (s : Peer δ) (call : TimedCall) : Nat :=
  call.done + (if call.id ∈ s.ids then 1 else 0) + (if call.timer = .handled then 0 else 1)

structure Accounted (s : Peer δ) : Prop where
  tidy : Tidy s
  numbered : ∀ call ∈ s.timedCalls, call.id < s.issued
  distinct : s.timedCalls.Pairwise fun call other => call.id ≠ other.id
  timed : ∀ call ∈ s.timedCalls, ∀ op ∈ s.operations, op.id = call.id → op.isTimed = true
  balance : ∀ call ∈ s.timedCalls, s.balance call = 2

theorem accounted_fresh (endpoint : Endpoint) (own : δ) :
    Accounted (Peer.fresh endpoint own) where
  tidy := tidy_fresh endpoint own
  numbered := by simp [Peer.fresh]
  distinct := .nil
  timed := by simp [Peer.fresh]
  balance := by simp [Peer.fresh]

theorem Accounted.timedCall_of_mem {s : Peer δ} (hs : Accounted s) {call : TimedCall}
    (hcall : call ∈ s.timedCalls) : s.timedCall call.id = call := by
  unfold Peer.timedCall
  cases hfind : s.timedCalls.find? fun other => other.id == call.id with
  | none => simpa using List.find?_eq_none.mp hfind call hcall
  | some other =>
      have hid : other.id = call.id := by simpa using List.find?_some hfind
      exact List.inj_on_of_nodup_map (List.pairwise_map.mpr hs.distinct)
        (List.mem_of_find?_eq_some hfind) hcall hid

/-- A call whose two handlers have run has what its caller waits for. -/
def Released (s : Peer δ) : Prop :=
  ∀ call ∈ s.timedCalls, call.timer = .handled → (∀ op ∈ s.operations, op.id ≠ call.id) →
    (s.timedCall call.id).done = 2

theorem Accounted.released {s : Peer δ} (hs : Accounted s) : Released s := by
  intro call hcall htimer hgone
  have hids : call.id ∉ s.ids := fun h => by
    obtain ⟨op, hop, hid⟩ := List.mem_map.mp h
    exact hgone op hop hid
  have hbalance := hs.balance call hcall
  rw [hs.timedCall_of_mem hcall]
  simpa [Peer.balance, hids, htimer] using hbalance

theorem Operation.isTimed_eq_of_purpose {op op' : Operation} (h : op'.purpose = op.purpose) :
    op'.isTimed = op.isTimed := by
  simp [Operation.isTimed, h]

section Accounting

variable {P : Profile δ} {s s' : Peer δ}

theorem Accounted.of_map (hs : Accounted s) (htidy : Tidy s') (hissued : s.issued ≤ s'.issued)
    (hmem : ∀ op' ∈ s'.operations,
      (∃ op ∈ s.operations, Follows op op') ∨ s.issued ≤ op'.id)
    {g : TimedCall → TimedCall} (hcalls : s'.timedCalls = s.timedCalls.map g)
    (hid : ∀ call, (g call).id = call.id)
    (hbalance : ∀ call ∈ s.timedCalls, s'.balance (g call) = s.balance call) :
    Accounted s' where
  tidy := htidy
  numbered call' hcall' := by
    rw [hcalls] at hcall'
    obtain ⟨call, hcall, rfl⟩ := List.mem_map.mp hcall'
    rw [hid]
    exact Nat.lt_of_lt_of_le (hs.numbered call hcall) hissued
  distinct := by
    rw [hcalls, List.pairwise_map]
    refine hs.distinct.imp fun {call other} hne => ?_
    rwa [hid, hid]
  timed call' hcall' op' hop' heq := by
    rw [hcalls] at hcall'
    obtain ⟨call, hcall, rfl⟩ := List.mem_map.mp hcall'
    rw [hid] at heq
    rcases hmem op' hop' with ⟨op, hop, hfollows⟩ | hnew
    · rw [Operation.isTimed_eq_of_purpose hfollows.purpose]
      exact hs.timed call hcall op hop (hfollows.id ▸ heq)
    · have := hs.numbered call hcall
      omega
  balance call' hcall' := by
    rw [hcalls] at hcall'
    obtain ⟨call, hcall, rfl⟩ := List.mem_map.mp hcall'
    rw [hbalance call hcall]
    exact hs.balance call hcall

theorem OperationsStep.mem_or_new (h : OperationsStep s s') :
    ∀ op' ∈ s'.operations, (∃ op ∈ s.operations, Follows op op') ∨ s.issued ≤ op'.id := by
  intro op' hop'
  rcases h.mem hop' with h | ⟨_, _, purpose, rfl⟩
  · exact Or.inl h
  · exact Or.inr (Nat.le_refl _)

theorem mem_ids_of_follows {f : Operation → Operation} (hf : ∀ op, Follows op (f op))
    (h : s'.operations = s.operations.map f) : s'.ids = s.ids := by
  rw [Peer.ids, Peer.ids, h, List.map_map]
  exact List.map_congr_left fun op _ => (hf op).id

theorem Accounted.of_step (hs : Accounted s) (htidy : Tidy s') (h : OperationsStep s s')
    (hkept : ∀ op ∈ s.operations, op.isTimed = true → op.id ∈ s'.ids)
    {g : TimedCall → TimedCall} (hcalls : s'.timedCalls = s.timedCalls.map g)
    (hg : ∀ call, (g call).id = call.id ∧ (g call).done = call.done)
    (htimer : ∀ call ∈ s.timedCalls, ((g call).timer = .handled ↔ call.timer = .handled)) :
    Accounted s' := by
  refine hs.of_map htidy h.issued_le h.mem_or_new hcalls (fun call => (hg call).1) ?_
  intro call hcall
  have hids : call.id ∈ s'.ids ↔ call.id ∈ s.ids := by
    constructor
    · intro hmem
      obtain ⟨op', hop', hid⟩ := List.mem_map.mp hmem
      rcases h.mem_or_new op' hop' with ⟨op, hop, hfollows⟩ | hnew
      · exact List.mem_map.mpr ⟨op, hop, hfollows.id ▸ hid⟩
      · have := hs.numbered call hcall
        omega
    · intro hmem
      obtain ⟨op, hop, hid⟩ := List.mem_map.mp hmem
      exact hid ▸ hkept op hop (hs.timed call hcall op hop hid)
  simp only [Peer.balance, hg, htimer call hcall, hids]

theorem Accounted.of_kept (hs : Accounted s) (htidy : Tidy s') (h : OperationsStep s s')
    (hkept : ∀ op ∈ s.operations, op.isTimed = true → op.id ∈ s'.ids)
    (hcalls : s'.timedCalls = s.timedCalls) : Accounted s' :=
  hs.of_step htidy h hkept (g := fun call => call) (by rw [hcalls, List.map_id'])
    (fun _ => ⟨rfl, rfl⟩) fun _ _ => Iff.rfl

theorem Accounted.startTimed (hs : Accounted s) {purpose : Purpose} {endpoint : Endpoint}
    (htidy : Tidy (s.startTimed purpose endpoint))
    (htimed : purpose = .timedSend ∨ purpose = .timedReceive) :
    Accounted (s.startTimed purpose endpoint) where
  tidy := htidy
  numbered call hcall := by
    rcases List.mem_append.mp hcall with hcall | hcall
    · exact Nat.lt_succ_of_lt (hs.numbered call hcall)
    · rw [List.mem_singleton.mp hcall]
      exact Nat.lt_succ_self _
  distinct := by
    refine List.pairwise_append.mpr ⟨hs.distinct, List.pairwise_singleton _ _, ?_⟩
    intro call hcall new hnew
    rw [List.mem_singleton.mp hnew]
    exact Nat.ne_of_lt (hs.numbered call hcall)
  timed call hcall op hop hid := by
    rcases List.mem_append.mp hop with hop | hop
    · rcases List.mem_append.mp hcall with hcall | hcall
      · exact hs.timed call hcall op hop hid
      · rw [List.mem_singleton.mp hcall] at hid
        exact absurd hid (Nat.ne_of_lt (hs.tidy.numbered op hop))
    · rw [List.mem_singleton.mp hop]
      rcases htimed with rfl | rfl <;> rfl
  balance call hcall := by
    have hids : (s.startTimed purpose endpoint).ids = s.ids ++ [s.issued] := by
      simp [Peer.ids, Peer.startTimed, Peer.startOperation]
    rcases List.mem_append.mp hcall with hcall | hcall
    · have hne : call.id ≠ s.issued := Nat.ne_of_lt (hs.numbered call hcall)
      have hbalance := hs.balance call hcall
      simpa only [Peer.balance, hids, List.mem_append, List.mem_singleton, hne, or_false]
        using hbalance
    · rw [List.mem_singleton.mp hcall]
      simp [Peer.balance, hids, TimedCall.fresh]

theorem mem_ids_of_map {f : Operation → Operation} (hf : ∀ op, Follows op (f op))
    (h : s'.operations = s.operations.map f) {op : Operation} (hop : op ∈ s.operations) :
    op.id ∈ s'.ids := by
  rw [mem_ids_of_follows hf h]
  exact List.mem_map_of_mem hop

theorem mem_ids_of_ne {op removed : Operation} (hop : op ∈ s.operations)
    (h : s'.operations = s.operations.filter fun other => other ≠ removed)
    (hne : op ≠ removed) : op.id ∈ s'.ids := by
  rw [Peer.ids, h]
  exact List.mem_map_of_mem (List.mem_filter.mpr ⟨hop, by simpa using hne⟩)

private theorem mem_ids_of_append {op new : Operation} (hop : op ∈ s.operations)
    (h : s'.operations = s.operations ++ [new]) : op.id ∈ s'.ids := by
  rw [Peer.ids, h]
  exact List.mem_map_of_mem (List.mem_append_left _ hop)

theorem mem_ids_of_eq {op : Operation} (hop : op ∈ s.operations)
    (h : s'.operations = s.operations) : op.id ∈ s'.ids := by
  rw [Peer.ids, h]
  exact List.mem_map_of_mem hop

theorem accounted_quiet {scope : Scope} (hscope : scope.timed = false) (h : Quiet P scope s s')
    (hs : Accounted s) : Accounted s' := by
  have htidy := (tidy_stable P).quiet h hs.tidy
  have hstep := h.operationsStep
  cases h with
  | special h =>
      exact hs.of_kept htidy hstep
        (fun op hop _ => mem_ids_of_eq hop (P.inert_field h Peer.operations))
        (P.inert_field h Peer.timedCalls)
  | startSend data endpoint hrun hfree =>
      exact hs.of_kept htidy hstep (fun op hop _ => mem_ids_of_append hop rfl) rfl
  | startReceive hrun hfree =>
      exact hs.of_kept htidy hstep (fun op hop _ => mem_ids_of_append hop rfl) rfl
  | startTimed purpose hrun htimed => exact hs.startTimed htidy htimed
  | finishSend hmem hdone hsend =>
      refine hs.of_kept htidy hstep (fun op hop htimed => mem_ids_of_ne hop rfl ?_) rfl
      rintro rfl
      rw [Operation.isSend_of_isTimed htimed] at hsend
      cases hsend
  | finishReceive hmem hdone hreceive =>
      refine hs.of_kept htidy hstep (fun op hop htimed => mem_ids_of_ne hop rfl ?_) rfl
      rintro rfl
      rw [Operation.isReceive_of_isTimed htimed] at hreceive
      cases hreceive
  | finishTimed htimed hmem hdone hop =>
      rw [hscope] at htimed
      cases htimed
  | modifyTimed htimed id f =>
      rw [hscope] at htimed
      cases htimed
  | cancel hopen =>
      exact hs.of_kept htidy hstep (fun op hop _ => mem_ids_of_map follows_abort rfl hop) rfl
  | grow htail hfull hlimit =>
      exact hs.of_kept htidy hstep (fun op hop _ => mem_ids_of_eq hop rfl) rfl

private theorem accounted_fires {event : Event} (h : Fires P event s s') (hs : Accounted s) :
    Accounted s' := by
  have htidy := (tidy_stable P).fires h hs.tidy
  have hstep := h.operationsStep
  cases h with
  | closed hrun =>
      refine hs.of_kept htidy hstep (fun op hop _ => mem_ids_of_map follows_abort ?_ hop) ?_
      · split <;> rfl
      · split <;> rfl
  | _ => exact hs.of_kept htidy hstep (fun op hop _ => mem_ids_of_eq hop rfl) rfl

private theorem accounted_fails {ec : ErrorCode} (h : Fails ec s s') (htidy : Tidy s')
    (hs : Accounted s) : Accounted s' := by
  have hstep := h.operationsStep
  cases h <;> exact hs.of_kept htidy hstep (fun op hop _ => mem_ids_of_eq hop rfl) rfl

private theorem accounted_stirred (h : Stirred s s') (htidy : Tidy s') (hs : Accounted s) :
    Accounted s' := by
  have hstep := h.operationsStep
  cases h with
  | @complete op hmem hpending completion =>
      have hids : ∀ other ∈ s.operations, other.isTimed = true →
          other.id ∈ (s.complete op completion).ids := fun other hother _ =>
        mem_ids_of_map (fun other => follows_completedBy op other completion) rfl hother
      by_cases hreceive : op.purpose = .timedReceive
      · refine hs.of_step htidy hstep hids
          (g := fun call => if call.id = op.id then { call with endpoint := completion.sender }
            else call) ?_ (fun call => ?_) fun call _ => ?_
        · exact if_pos hreceive
        · split <;> exact ⟨rfl, rfl⟩
        · split <;> exact Iff.rfl
      · exact hs.of_kept htidy hstep hids (if_neg hreceive)
  | expire id harmed =>
      refine hs.of_step htidy hstep (fun op hop _ => mem_ids_of_eq hop rfl) rfl
        (fun call => ?_) fun call hcall => ?_
      · split <;> exact ⟨rfl, rfl⟩
      · split
        · rename_i hid
          rw [← hid, hs.timedCall_of_mem hcall] at harmed
          simp [harmed]
        · exact Iff.rfl

private theorem accounted_effect {scope : Option Event → Scope} {point : Option Event}
    {stop : Stop Event ErrorCode} (hscope : (scope point).timed = false)
    (h : Effect P scope point s stop s') (hs : Accounted s) : Accounted s' := by
  obtain ⟨middle, hquiet, hends⟩ := h
  have hmiddle : Accounted middle := by
    clear hends
    induction hquiet with
    | refl => exact hs
    | tail _ hstep ih => exact accounted_quiet hscope hstep ih
  cases hends with
  | returned => exact hmiddle
  | waiting => exact hmiddle
  | called h => exact accounted_fires h hmiddle
  | threw h => exact accounted_fails h ((tidy_stable P).fails h hmiddle.tidy) hmiddle

private theorem mem_dequeue {o : Origin π} {op : Operation} (h : op ∈ (o.dequeue s).operations) :
    op ∈ s.operations := by
  cases o with
  | completion removed completion => exact (List.mem_filter.mp h).1
  | timer id => exact h
  | posted handler => exact h

private theorem mem_ids_dequeue_completion (htidy : Tidy s) {op : Operation}
    (hop : op ∈ s.operations) (completion : Completion) (id : Nat) :
    id ∈ ((.completion op completion : Origin π).dequeue s).ids ↔ id ∈ s.ids ∧ id ≠ op.id := by
  constructor
  · intro h
    obtain ⟨other, hother, rfl⟩ := List.mem_map.mp h
    obtain ⟨hmem, hne⟩ := List.mem_filter.mp hother
    refine ⟨List.mem_map_of_mem hmem, fun hid => ?_⟩
    rw [htidy.eq_of_id hmem hop hid] at hne
    simp at hne
  · rintro ⟨h, hne⟩
    obtain ⟨other, hother, rfl⟩ := List.mem_map.mp h
    exact mem_ids_of_ne hother rfl fun heq => hne (heq ▸ rfl)

/-- A timed handler moves one unit from what is still to come to what is counted. -/
private theorem balance_counts {o : Origin π} {id : Nat} {stop : Stop Event ErrorCode}
    (ho : o.timedCall = some id) (h : Counts o id s stop s') (hs : Accounted s)
    {g : TimedCall → TimedCall} (hids : s'.ids = (o.dequeue s).ids)
    (hg : ∀ call, (g call).id = call.id ∧ (call.id ≠ id → g call = call) ∧
      (call.id = id → (g call).done = call.done + 1 ∧
        ((g call).timer = .handled ↔ call.timer = .handled ∨ o.isTimer = true)))
    {call : TimedCall} (hcall : call ∈ s.timedCalls) : s'.balance (g call) = s.balance call := by
  obtain ⟨hid, hother, hown⟩ := hg call
  have hdue := h.due
  cases o with
  | completion op completion =>
      have hop : op ∈ s.operations := hdue
      obtain rfl : op.id = id := by
        simp only [Origin.timedCall] at ho
        split at ho
        · exact Option.some.inj ho
        · cases ho
      have hflying := mem_ids_dequeue_completion (π := π) hs.tidy hop completion
      by_cases heq : call.id = op.id
      · obtain ⟨hdone, htimer⟩ := hown heq
        have hbefore : op.id ∈ s.ids := List.mem_map_of_mem hop
        simp only [Peer.balance, hids, hid, hflying, hdone, htimer, heq, hbefore, Origin.isTimer,
          Bool.false_eq_true, ne_eq, not_true_eq_false, and_false, or_false, if_true, if_false]
      · simp [Peer.balance, hother heq, hids, hflying, heq]
  | timer id' =>
      obtain rfl : id' = id := Option.some.inj ho
      have hsame : s'.ids = s.ids := hids
      by_cases heq : call.id = id'
      · obtain ⟨hdone, htimer⟩ := hown heq
        obtain ⟨ec, hfired⟩ := hdue
        have hbefore : call.timer ≠ .handled := by
          rw [← heq, Peer.firedTimer, hs.timedCall_of_mem hcall] at hfired
          intro hhandled
          rw [hhandled] at hfired
          cases hfired
        simp only [Peer.balance, hsame, hid, hdone, htimer, hbefore, Origin.isTimer, or_true,
          if_true, if_false]
        omega
      · simp only [Peer.balance, hother heq, hsame]
  | posted handler => cases ho

private theorem accounted_counts {o : Origin π} {id : Nat} {stop : Stop Event ErrorCode}
    (ho : o.timedCall = some id) (h : Counts o id s stop s') (htidy : Tidy s')
    (hs : Accounted s) : Accounted s' := by
  obtain ⟨f, hf, hoperations⟩ := h.touches.operations
  obtain ⟨g, hcalls, hg⟩ := h.touches.calls
  have hsame : (o.dequeue s).timedCalls = s.timedCalls ∧ (o.dequeue s).issued = s.issued := by
    cases o <;> exact ⟨rfl, rfl⟩
  refine hs.of_map htidy ?_ ?_ (hsame.1 ▸ hcalls) (fun call => (hg call).1) ?_
  · exact Nat.le_of_eq (h.touches.issued.trans hsame.2).symm
  · intro op' hop'
    rw [hoperations] at hop'
    obtain ⟨op, hop, rfl⟩ := List.mem_map.mp hop'
    exact Or.inl ⟨op, mem_dequeue hop, hf op⟩
  · intro call hcall
    exact balance_counts ho h hs (mem_ids_of_follows hf hoperations) hg hcall

private theorem accounted_known {origin : Option (Origin π)} {point : Option Event}
    {stop : Stop Event ErrorCode} (h : Known P TimedExact origin point s stop s')
    (hs : Accounted s) : Accounted s' := by
  have htidy := (tidy_stable P).effect h.1 hs.tidy
  cases origin with
  | none => exact accounted_effect rfl h.1 hs
  | some o =>
      cases hcall : o.timedCall with
      | some id => exact accounted_counts hcall (h.2 o id rfl hcall) htidy hs
      | none =>
          refine accounted_effect ?_ h.1 hs
          exact Origin.isTimed_of_timedCall_none hcall

end Accounting

/-! ## Runs -/

section Runs

variable {κ η ν : Type} {S : PeerSystem δ π κ η ν} {P : Profile δ}

structure Watched (P : Profile δ) (c : PeerConfig δ π) : Prop where
  frames : ∀ f ∈ c.frames, f.Obeys (Known P TimedExact)
  accounted : Accounted c.world

theorem watched_initial (endpoint : Endpoint) (own : δ) :
    Watched P (.initial (.fresh endpoint own) : PeerConfig δ π) where
  frames := by simp [Config.frames, Config.initial]
  accounted := accounted_fresh endpoint own

variable (hM : Modelled S P) (hT : S.Obeys (fun _ => True) (fun _ => True) TimedExact)

include hM hT

theorem watched_step (t : PeerTransition δ π κ η ν) (hpre : Watched P t.pre)
    (hstep : S.step t.pre t.move = some t.post) : Watched P t.post := by
  obtain ⟨hframes, hcases⟩ := hM.step hT hpre.frames hstep
  refine ⟨hframes, ?_⟩
  rcases hcases with ⟨origin, point, stop, -, hexec⟩ | ⟨-, -, -, hidle⟩
  · exact accounted_known hexec.world hpre.accounted
  · rcases hidle with h | h | h
    · rw [h]
      exact hpre.accounted
    · exact accounted_stirred h ((tidy_stable P).stirred h hpre.accounted.tidy) hpre.accounted
    · have hquiet : Quiet P ⟨none, false⟩ t.pre.world t.post.world := .special h
      exact accounted_quiet rfl hquiet hpre.accounted

theorem watched_run (endpoint : Endpoint) (own : δ) {ms : List (Move κ η ν)}
    {c : PeerConfig δ π} (hrun : S.run (.initial (.fresh endpoint own)) ms = some c) :
    Watched P c :=
  Steps.states_invariant (f := S.step) (P := fun _ => True)
    (fun t hpre hstep _ => watched_step hM hT t hpre hstep) (watched_initial endpoint own)
    (fun _ _ => trivial) c (Steps.run_mem_states hrun)

end Runs

end AsioWrapper.Udp
