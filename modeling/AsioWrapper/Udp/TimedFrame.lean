import AsioWrapper.Udp.TimedStages

/-!
# What else a timed call touches

The handler that comes first cancels the other one through the socket, and
`cancel` knows no single operation: it aborts everything outstanding.  A call
whose own operation completes in time is therefore harmless exactly if nothing
else was outstanding when it was made.
-/

namespace AsioWrapper.Udp

open AsioWrapper.Asio
open AsioWrapper.Foundation
open AsioWrapper.Foundation.Program

variable {δ π κ ν : Type}

/-! ## The call and what belongs to it -/

/--
A step that belongs to the call made in `c`: its operation completes without error, its
handlers run, the handler of an operation runs that was outstanding when the call was
made, or code entered since then is resumed.
-/
def Attends (own : Nat → Completion → ν) (c : PeerConfig δ π)
    (t : PeerTransition δ π κ Pending ν) : Prop :=
  match t.move with
  | .environment e =>
      ∃ completion, completion.error.failed = false ∧ e = own c.world.issued completion
  | .handler h =>
      h = .timer c.world.issued ∨ h = .completion c.world.issued ∨
        ∃ op ∈ c.world.operations, op.result = none ∧ h = .completion op.id
  | .resume i => t.pre.threads[i]? ≠ c.threads[i]?
  | _ => False

/-- The call made in `c` has returned, and all handlers it made runnable have run. -/
structure Drained (c c' : PeerConfig δ π) : Prop where
  threads : ∃ n, c'.threads = c.threads ++ List.replicate n []
  operation : ∀ op ∈ c'.world.operations, op.id ≠ c.world.issued
  timer : (c'.world.timedCall c.world.issued).timer = .handled
  others : ∀ op ∈ c.world.operations, op.result = none →
    ∀ op' ∈ c'.world.operations, op'.id = op.id → op'.result = none

/-- The call made in `c` has disturbed nothing; `report` are its own callbacks. -/
structure LeftAlone (report : TimedCall → List Event) (c c' : PeerConfig δ π) : Prop where
  operations : ∀ op ∈ c.world.operations, op.result = none → op ∈ c'.world.operations
  running : c'.world.running = true
  log : c'.world.log = c.world.log ++ report (c'.world.timedCall c.world.issued)

/-! ## Something else is outstanding

Before one of its handlers is counted the call has not touched the operation, and
the first one that is counted aborts it.
-/

def Uncounted (id : Nat) (s : Peer δ) : Prop :=
  ∀ call ∈ s.timedCalls, call.id = id → call.done = 0

theorem Uncounted.timedCall_done {id : Nat} {s : Peer δ} (hs : Uncounted id s) :
    (s.timedCall id).done = 0 := by
  unfold Peer.timedCall
  cases hfind : s.timedCalls.find? fun call => call.id == id with
  | none => rfl
  | some call =>
      have hid : call.id = id := by simpa using List.find?_some hfind
      exact hs call (List.mem_of_find?_eq_some hfind) hid

section Outstanding

variable {P : Profile δ} {s s' : Peer δ} {id : Nat} {op : Operation}

theorem Uncounted.of_map (hs : Uncounted id s) {g : TimedCall → TimedCall}
    (hcalls : s'.timedCalls = s.timedCalls.map g)
    (hg : ∀ call, (g call).id = call.id ∧ (g call).done = call.done) : Uncounted id s' := by
  intro call' hcall' hid
  rw [hcalls] at hcall'
  obtain ⟨call, hcall, rfl⟩ := List.mem_map.mp hcall'
  rw [(hg call).2]
  exact hs call hcall ((hg call).1 ▸ hid)

theorem Uncounted.of_eq (hs : Uncounted id s) (hcalls : s'.timedCalls = s.timedCalls) :
    Uncounted id s' :=
  hs.of_map (g := fun call => call) (by rw [hcalls, List.map_id']) fun _ => ⟨rfl, rfl⟩

theorem uncounted_quiet {scope : Scope} (hscope : scope.timed = false)
    (h : Quiet P scope s s') (hs : Uncounted id s) : Uncounted id s' := by
  cases h with
  | special h => exact hs.of_eq (P.inert_field h Peer.timedCalls)
  | startTimed purpose hrun htimed =>
      intro call hcall hid
      rcases List.mem_append.mp hcall with hcall | hcall
      · exact hs call hcall hid
      · rw [List.mem_singleton.mp hcall]
        rfl
  | finishTimed htimed hmem hdone hop =>
      rw [hscope] at htimed
      cases htimed
  | modifyTimed htimed id f =>
      rw [hscope] at htimed
      cases htimed
  | _ => exact hs.of_eq rfl

private theorem uncounted_ends {stop : Stop Event ErrorCode} (h : Ends P stop s s')
    (hs : Uncounted id s) : Uncounted id s' := by
  cases h with
  | returned => exact hs
  | waiting => exact hs
  | called h =>
      cases h with
      | closed hrun =>
          refine hs.of_eq ?_
          split <;> rfl
      | _ => exact hs.of_eq rfl
  | threw h => cases h <;> exact hs.of_eq rfl

theorem uncounted_stirred (h : Stirred s s') (hs : Uncounted id s) : Uncounted id s' := by
  cases h with
  | @complete op hmem hpending completion =>
      by_cases hreceive : op.purpose = .timedReceive
      · refine hs.of_map (g := fun call =>
          if call.id = op.id then { call with endpoint := completion.sender } else call)
          (if_pos hreceive) fun call => ?_
        split <;> exact ⟨rfl, rfl⟩
      · exact hs.of_eq (if_neg hreceive)
  | expire id harmed =>
      refine hs.of_map rfl fun call => ?_
      split <;> exact ⟨rfl, rfl⟩

theorem OperationsStep.mem_of_pending (h : OperationsStep s s') (hmem : op ∈ s'.operations)
    (hpending : op.result = none) (hold : op.id < s.issued) : op ∈ s.operations := by
  rcases h.mem hmem with ⟨other, hother, hfollows⟩ | ⟨_, _, purpose, rfl⟩
  · obtain rfl := hfollows.result hpending
    exact hother
  · exact absurd hold (Nat.lt_irrefl _)

theorem Quietly.issued_le {scope : Scope} (h : Quietly P scope s s') :
    s.issued ≤ s'.issued := by
  induction h with
  | refl => exact Nat.le_refl _
  | tail _ hstep ih => exact Nat.le_trans ih hstep.operationsStep.issued_le

theorem Quietly.mem_of_pending {scope : Scope} (h : Quietly P scope s s')
    (hmem : op ∈ s'.operations) (hpending : op.result = none) (hold : op.id < s.issued) :
    op ∈ s.operations := by
  induction h with
  | refl => exact hmem
  | tail hquiet hstep ih =>
      have hissued := Quietly.issued_le hquiet
      exact ih (hstep.operationsStep.mem_of_pending hmem hpending (by omega))

theorem Ends.operationsStep {stop : Stop Event ErrorCode} (h : Ends P stop s s') :
    OperationsStep s s' := by
  cases h with
  | returned => exact .kept rfl rfl
  | waiting => exact .kept rfl rfl
  | called h => exact h.operationsStep
  | threw h => exact h.operationsStep

theorem Effect.issued_le {scope : Option Event → Scope} {point : Option Event}
    {stop : Stop Event ErrorCode} (h : Effect P scope point s stop s') :
    s.issued ≤ s'.issued := by
  obtain ⟨middle, hquiet, hends⟩ := h
  exact Nat.le_trans (Quietly.issued_le hquiet) hends.operationsStep.issued_le

theorem Effect.mem_of_pending {scope : Option Event → Scope} {point : Option Event}
    {stop : Stop Event ErrorCode} (h : Effect P scope point s stop s')
    (hmem : op ∈ s'.operations) (hpending : op.result = none) (hold : op.id < s.issued) :
    op ∈ s.operations := by
  obtain ⟨middle, hquiet, hends⟩ := h
  have hissued := Quietly.issued_le hquiet
  have hmiddle := hends.operationsStep.mem_of_pending hmem hpending (by omega)
  exact Quietly.mem_of_pending hquiet hmiddle hpending hold

theorem uncounted_effect {scope : Option Event → Scope} {point : Option Event}
    {stop : Stop Event ErrorCode} (hscope : (scope point).timed = false)
    (h : Effect P scope point s stop s') (hs : Uncounted id s) : Uncounted id s' := by
  obtain ⟨middle, hquiet, hends⟩ := h
  refine uncounted_ends hends ?_
  clear hends
  induction hquiet with
  | refl => exact hs
  | tail _ hstep ih => exact uncounted_quiet hscope hstep ih

/-- A handler of the call that finds it uncounted aborts every pending operation. -/
private theorem uncounted_counts {o : Origin π} {id' : Nat} {stop : Stop Event ErrorCode}
    (h : Counts o id' s stop s') (hmem : op ∈ s'.operations) (hpending : op.result = none)
    (hopen : s.socket.isOpen = true) (hs : Uncounted id s) : Uncounted id s' := by
  by_cases hid : id' = id
  · subst hid
    exact absurd hpending (h.aborts hs.timedCall_done hopen op hmem)
  · obtain ⟨g, hcalls, hg⟩ := h.touches.calls
    intro call' hcall' heq
    rw [hcalls] at hcall'
    obtain ⟨call, hcall, rfl⟩ := List.mem_map.mp hcall'
    have hcallId : call.id = id := (hg call).1 ▸ heq
    rw [(hg call).2.1 fun h => hid (h.symm.trans hcallId)]
    have hsame : (o.dequeue s).timedCalls = s.timedCalls := by
      cases o <;> rfl
    exact hs call (hsame ▸ hcall) hcallId

structure Spared (id : Nat) (op : Operation) (s : Peer δ) : Prop where
  issued : op.id < s.issued
  uncounted : op ∈ s.operations → Uncounted id s

private theorem spared_known {origin : Option (Origin π)} {point : Option Event}
    {stop : Stop Event ErrorCode} (hpending : op.result = none) (htidy : Tidy s)
    (h : Known P TimedExact origin point s stop s') (hs : Spared id op s) :
    Spared id op s' where
  issued := Nat.lt_of_lt_of_le hs.issued h.1.issued_le
  uncounted hmem' := by
    have hmem := h.1.mem_of_pending hmem' hpending hs.issued
    have huncounted := hs.uncounted hmem
    have hopen := (htidy.pending op hmem hpending).1
    cases origin with
    | none => exact uncounted_effect rfl h.1 huncounted
    | some o =>
        cases hcall : o.timedCall with
        | some id' =>
            exact uncounted_counts (h.2 o id' rfl hcall) hmem' hpending hopen huncounted
        | none =>
            exact uncounted_effect (Origin.isTimed_of_timedCall_none hcall) h.1 huncounted

private theorem spared_untouched (hpending : op.result = none) (h : Untouched P s s')
    (hs : Spared id op s) : Spared id op s' := by
  rcases h with rfl | h | h
  · exact hs
  · refine ⟨Nat.lt_of_lt_of_le hs.issued h.operationsStep.issued_le, fun hmem => ?_⟩
    exact uncounted_stirred h
      (hs.uncounted (h.operationsStep.mem_of_pending hmem hpending hs.issued))
  · have hquiet : Quiet P ⟨none, false⟩ s s' := .special h
    refine ⟨Nat.lt_of_lt_of_le hs.issued hquiet.operationsStep.issued_le, fun hmem => ?_⟩
    exact uncounted_quiet rfl hquiet
      (hs.uncounted (hquiet.operationsStep.mem_of_pending hmem hpending hs.issued))

end Outstanding

section Disturbed

variable {η : Type} {S : PeerSystem δ π κ η ν} {P : Profile δ} {c c' : PeerConfig δ π}
  (hM : Modelled S P) (hT : S.Obeys (fun _ => True) (fun _ => True) TimedExact)

include hM hT

theorem spared_run {id : Nat} {op : Operation} (hpending : op.result = none)
    (hwatched : Watched P c) (hspared : Spared id op c.world) {ms : List (Move κ η ν)}
    (hrun : S.run c ms = some c') : Watched P c' ∧ Spared id op c'.world := by
  refine Steps.states_invariant (f := S.step) (P := fun _ => True)
    (I := fun c => Watched P c ∧ Spared id op c.world) (fun t hpre hstep _ => ?_)
    ⟨hwatched, hspared⟩ (fun _ _ => trivial) c' (Steps.run_mem_states hrun)
  refine ⟨watched_step hM hT t hpre.1 hstep, ?_⟩
  rcases (hM.step hT hpre.1.frames hstep).2 with ⟨origin, point, stop, -, hexec⟩ | ⟨-, -, -, hidle⟩
  · exact spared_known hpending hpre.1.accounted.tidy hexec.world hpre.2
  · exact spared_untouched hpending hidle hpre.2

end Disturbed

/-! ## Nothing else is outstanding -/

structure Serves (S : PeerSystem δ π κ Pending ν) (own : Nat → Completion → ν) : Prop where
  environment : ∀ id completion s,
    S.environment (own id completion) s = stimulate s (.complete id completion)
  completion : ∀ id s origin program, S.handler (.completion id) s = some (origin, program) →
    ∃ op completion, s.completedOperation id = some (op, completion) ∧
      (op.isTimed = true → program = timedSocketHandler op completion)
  timer : ∀ id s origin program, S.handler (.timer id) s = some (origin, program) →
    ∃ ec, s.firedTimer id = some ec ∧ program = timedTimerHandler id ec

structure Threads (c c' : PeerConfig δ π) (n i : Nat)
    (rest stack : List (Frame (Peer δ) Event ErrorCode (Origin π))) : Prop where
  entered : (c.threads ++ List.replicate n [])[i]? = some rest
  threads : c'.threads = (c.threads ++ List.replicate n []).set i stack

inductive Proceeds (report : TimedCall → List Event) (purpose : Purpose)
    (c c' : PeerConfig δ π) : Prop where
  | waiting {n i : Nat} {rest : List (Frame (Peer δ) Event ErrorCode (Origin π))}
      {ready : Peer δ → Bool} {resume : Peer δ → Outcome (Peer δ) Event ErrorCode Unit}
      (hthreads : Threads c c' n i rest (⟨none, none, ready, resume⟩ :: rest))
      (hready : ∀ s, ready s = ((s.timedCall c.world.issued).done == 2))
      (hresume : ∀ s, (s.timedCall c.world.issued).error.failed = false →
        Reporting s (report (s.timedCall c.world.issued)) (resume s))
      {operations : List Operation} {call : TimedCall}
      (hstage : Stage c.world purpose operations call)
      (hworld : During c.world operations call [] c'.world)
  | reporting {n i : Nat} {rest : List (Frame (Peer δ) Event ErrorCode (Origin π))}
      {event : Event} {resume : Peer δ → Outcome (Peer δ) Event ErrorCode Unit}
      (hthreads : Threads c c' n i rest (⟨none, some event, fun _ => true, resume⟩ :: rest))
      (hresume : ∀ s, resume s = .ret () s) {call : TimedCall} (htimer : call.timer = .handled)
      (hworld : During c.world [] call (report call) c'.world)
  | returned {n i : Nat} {rest : List (Frame (Peer δ) Event ErrorCode (Origin π))}
      (hthreads : Threads c c' n i rest rest) {call : TimedCall} (htimer : call.timer = .handled)
      (hworld : During c.world [] call (report call) c'.world)

section Steps

variable {S : PeerSystem δ π κ Pending ν} {own : Nat → Completion → ν}
  {report : TimedCall → List Event} {purpose : Purpose} {c c₁ c₂ : PeerConfig δ π}
  {n i : Nat} {rest stack : List (Frame (Peer δ) Event ErrorCode (Origin π))}

theorem Threads.lt (h : Threads c c₁ n i rest stack) :
    i < (c.threads ++ List.replicate n []).length :=
  (List.getElem?_eq_some_iff.mp h.entered).1

theorem Threads.set (h : Threads c c₁ n i rest stack)
    {stack' : List (Frame (Peer δ) Event ErrorCode (Origin π))}
    (hthreads : c₂.threads = c₁.threads.set i stack') : Threads c c₂ n i rest stack' where
  entered := h.entered
  threads := by rw [hthreads, h.threads, List.set_set]

theorem Threads.spawn (h : Threads c c₁ n i rest stack)
    (hthreads : c₂.threads = c₁.threads ++ [[]]) : Threads c c₂ (n + 1) i rest stack := by
  have happend : c.threads ++ List.replicate (n + 1) [] =
      (c.threads ++ List.replicate n []) ++ [[]] := by
    rw [List.replicate_succ', List.append_assoc]
  refine ⟨?_, ?_⟩
  · rw [happend, List.getElem?_append_left h.lt]
    exact h.entered
  · rw [hthreads, h.threads, happend, List.set_append_left _ _ h.lt]

theorem Threads.resumed (h : Threads c c₁ n i rest stack) {j : Nat}
    {f : Frame (Peer δ) Event ErrorCode (Origin π)}
    {below : List (Frame (Peer δ) Event ErrorCode (Origin π))}
    (hstack : c₁.threads[j]? = some (f :: below)) (hentered : c₁.threads[j]? ≠ c.threads[j]?) :
    j = i ∧ stack = f :: below := by
  rw [h.threads] at hstack hentered
  by_cases hj : j = i
  · subst hj
    rw [List.getElem?_set_self h.lt] at hstack
    exact ⟨rfl, Option.some.inj hstack⟩
  · rw [List.getElem?_set_ne (Ne.symm hj)] at hstack hentered
    by_cases hlt : j < c.threads.length
    · rw [List.getElem?_append_left hlt] at hentered
      exact absurd rfl hentered
    · rw [List.getElem?_append_right (by omega), List.getElem?_replicate] at hstack
      split at hstack <;> simp at hstack

theorem Threads.rest_ne (h : Threads c c₁ n i rest stack)
    {f : Frame (Peer δ) Event ErrorCode (Origin π)}
    {below : List (Frame (Peer δ) Event ErrorCode (Origin π))}
    (hentered : some (f :: below) ≠ c.threads[i]?) : rest ≠ f :: below := by
  rintro rfl
  have hrest := h.entered
  by_cases hlt : i < c.threads.length
  · rw [List.getElem?_append_left hlt] at hrest
    exact hentered hrest.symm
  · rw [List.getElem?_append_right (by omega), List.getElem?_replicate] at hrest
    split at hrest <;> simp at hrest

private theorem proceeds_call {k : κ} {thread : Option Nat} (hs : Accounted c.world)
    (hrun : c.world.running = true)
    (hwaits : ∀ inside, Waits report c.world purpose (S.call k inside c.world))
    (hstep : S.step c (.call k thread) = some c₁) : Proceeds report purpose c c₁ := by
  obtain ⟨n, i, rest, inside, hrest, rfl⟩ := System.step_call_settle hstep
  have hcall := hwaits inside
  cases houtcome : S.call k inside c.world with
  | wait ready s resume =>
      rw [houtcome] at hcall
      obtain ⟨⟨endpoint, rfl⟩, hready, hresume⟩ := hcall
      exact .waiting ⟨hrest, rfl⟩ hready hresume (.called endpoint)
        (during_called hs hrun purpose endpoint)
  | ret value s => simp [houtcome, Waits] at hcall
  | throw error s => simp [houtcome, Waits] at hcall
  | call event s resume => simp [houtcome, Waits] at hcall

section Call

variable (hserves : Serves S own) (hids : ∀ op ∈ c.world.operations, op.id ≠ c.world.issued)
  (hidle : ∀ op ∈ c.world.operations, op.result ≠ none)

include hids hidle

private theorem proceeds_complete (h : Proceeds report purpose c c₁) {completion : Completion}
    (hok : completion.error.failed = false)
    (hthreads : c₂.threads = c₁.threads)
    (hstep : stimulate c₁.world (.complete c.world.issued completion) = some c₂.world) :
    Proceeds report purpose c c₂ := by
  cases h with
  | waiting hstack hready hresume hstage hworld =>
      obtain ⟨operations', call', hstage', hworld'⟩ :=
        during_complete hids hidle hworld hstage hok hstep
      exact .waiting ⟨hstack.entered, hthreads ▸ hstack.threads⟩ hready hresume hstage' hworld'
  | reporting hstack hresume htimer hworld =>
      simp [stimulate, pendingOperation_during hidle hworld] at hstep
  | returned hstack htimer hworld =>
      simp [stimulate, pendingOperation_during hidle hworld] at hstep

private theorem proceeds_socketHandler (hpurpose : purpose = .timedSend ∨ purpose = .timedReceive)
    (h : Proceeds report purpose c c₁) {op : Operation} {completion : Completion}
    {program : Proc δ Unit}
    (hlookup : c₁.world.completedOperation c.world.issued = some (op, completion))
    (hprogram : op.isTimed = true → program = timedSocketHandler op completion)
    (origin : Option (Origin π)) :
    Proceeds report purpose c (c₁.spawn origin (program c₁.world)) := by
  cases h with
  | waiting hstack hready hresume hstage hworld =>
      obtain ⟨rfl, s, operations', call', hrun, hstage', hworld'⟩ :=
        during_socketHandler hids hidle hworld hstage hlookup
      have htimed : (ownOperation c.world purpose (some completion)).isTimed = true := by
        rcases hpurpose with rfl | rfl <;> rfl
      rw [hprogram htimed, hrun]
      refine .waiting (hstack.spawn ?_) hready hresume hstage' hworld'
      simp [Config.spawn, Config.settle]
  | reporting hstack hresume htimer hworld =>
      simp [completedOperation_during hids hworld] at hlookup
  | returned hstack htimer hworld =>
      simp [completedOperation_during hids hworld] at hlookup

omit hids hidle in
private theorem proceeds_timerHandler (h : Proceeds report purpose c c₁) {ec : ErrorCode}
    (hfired : c₁.world.firedTimer c.world.issued = some ec) (origin : Option (Origin π)) :
    Proceeds report purpose c
      (c₁.spawn origin (timedTimerHandler c.world.issued ec c₁.world)) := by
  cases h with
  | waiting hstack hready hresume hstage hworld =>
      obtain ⟨s, operations', call', hrun, hstage', hworld'⟩ :=
        during_timerHandler hworld hstage hfired
      rw [hrun]
      refine .waiting (hstack.spawn ?_) hready hresume hstage' hworld'
      simp [Config.spawn, Config.settle]
  | reporting hstack hresume htimer hworld =>
      simp [Peer.firedTimer, hworld.call, htimer] at hfired
  | returned hstack htimer hworld =>
      simp [Peer.firedTimer, hworld.call, htimer] at hfired

omit hids hidle in
private theorem proceeds_resume (h : Proceeds report purpose c c₁) {j : Nat}
    {f : Frame (Peer δ) Event ErrorCode (Origin π)}
    {below : List (Frame (Peer δ) Event ErrorCode (Origin π))}
    (hstack : c₁.threads[j]? = some (f :: below)) (hentered : c₁.threads[j]? ≠ c.threads[j]?)
    (hready : f.ready c₁.world = true) :
    Proceeds report purpose c (c₁.settle j f.origin below (f.resume c₁.world)) := by
  cases h with
  | @waiting n i rest ready resume hthreads hfree hresume operations call hstage hworld =>
      obtain ⟨rfl, hframe⟩ := hthreads.resumed hstack hentered
      cases hframe
      have hdone : call.done = 2 := by
        have := (hfree c₁.world).symm.trans hready
        simpa [hworld.call] using this
      obtain ⟨rfl, hok, htimer⟩ := stage_of_ready hstage hdone
      have hreport := hresume c₁.world (hworld.call ▸ hok)
      rw [hworld.call] at hreport
      change Proceeds report purpose c (c₁.settle j none below (resume c₁.world))
      cases houtcome : resume c₁.world with
      | ret value s =>
          rw [houtcome] at hreport
          obtain ⟨hevents, rfl⟩ := hreport
          exact .returned (hthreads.set rfl) htimer (hevents.symm ▸ hworld)
      | call event s resume' =>
          rw [houtcome] at hreport
          obtain ⟨hevents, hkept, hlog, hreturn⟩ := hreport
          refine .reporting (hthreads.set rfl) hreturn htimer ⟨?_, ?_, ?_, ?_, ?_, ?_⟩
          · exact hkept.running.trans hworld.running
          · exact (congrArg Socket.isOpen hkept.socket).trans hworld.isOpen
          · exact hkept.operations.trans hworld.operations
          · simpa [Config.settle, Peer.timedCall, hkept.timedCalls] using hworld.call
          · simpa [Config.settle, hkept.timedCalls] using hworld.present
          · simpa [Config.settle, hlog, hevents] using hworld.log
      | throw error s => simp [houtcome, Reporting] at hreport
      | wait ready s resume' => simp [houtcome, Reporting] at hreport
  | @reporting n i rest event resume hthreads hresume call htimer hworld =>
      obtain ⟨rfl, hframe⟩ := hthreads.resumed hstack hentered
      cases hframe
      change Proceeds report purpose c (c₁.settle j none below (resume c₁.world))
      rw [hresume]
      exact .returned (hthreads.set rfl) htimer hworld
  | @returned n i rest hthreads call htimer hworld =>
      obtain ⟨rfl, hframe⟩ := hthreads.resumed hstack hentered
      exact absurd hframe (hthreads.rest_ne (hstack ▸ hentered))

include hserves in
theorem proceeds_step (hpurpose : purpose = .timedSend ∨ purpose = .timedReceive)
    (t : PeerTransition δ π κ Pending ν) (hpre : Proceeds report purpose c t.pre)
    (hstep : S.step t.pre t.move = some t.post) (hattends : Attends own c t) :
    Proceeds report purpose c t.post := by
  cases hmove : t.move with
  | call k thread => simp [Attends, hmove] at hattends
  | unwind i => simp [Attends, hmove] at hattends
  | environment e =>
      simp only [Attends, hmove] at hattends
      obtain ⟨completion, hok, rfl⟩ := hattends
      rw [hmove] at hstep
      simp only [System.step, hserves.environment] at hstep
      split at hstep
      · rename_i s hs
        have hpost := Option.some.inj hstep
        refine proceeds_complete hids hidle hpre hok ?_ ?_
        · rw [← hpost]
        · rw [← hpost]
          exact hs
      · cases hstep
  | handler h =>
      simp only [Attends, hmove] at hattends
      rw [hmove] at hstep
      simp only [System.step] at hstep
      split at hstep
      · split at hstep
        · rename_i origin program hlookup
          rw [← Option.some.inj hstep]
          rcases hattends with rfl | rfl | ⟨op, hop, hpending, -⟩
          · obtain ⟨ec, hfired, rfl⟩ := hserves.timer _ _ _ _ hlookup
            exact proceeds_timerHandler hpre hfired _
          · obtain ⟨op, completion, hcompleted, hprogram⟩ := hserves.completion _ _ _ _ hlookup
            exact proceeds_socketHandler hids hidle hpurpose hpre hcompleted hprogram _
          · exact absurd hpending (hidle op hop)
        · cases hstep
      · cases hstep
  | resume j =>
      simp only [Attends, hmove] at hattends
      rw [hmove] at hstep
      simp only [System.step] at hstep
      split at hstep
      · rename_i f below hstack
        split at hstep
        · rename_i hready
          rw [← Option.some.inj hstep]
          exact proceeds_resume hpre hstack hattends hready
        · cases hstep
      · cases hstep

end Call

theorem Threads.not_returned {f : Frame (Peer δ) Event ErrorCode (Origin π)}
    (h : Threads c c₁ n i rest (f :: rest)) (m : Nat) :
    c₁.threads ≠ c.threads ++ List.replicate m [] := by
  intro hreturned
  have hlength := congrArg List.length (h.threads.symm.trans hreturned)
  simp only [List.length_set, List.length_append, List.length_replicate] at hlength
  obtain rfl : n = m := by omega
  have hstack : c₁.threads[i]? = some (f :: rest) := by
    rw [h.threads, List.getElem?_set_self h.lt]
  rw [hreturned, h.entered] at hstack
  exact List.cons_ne_self _ _ (Option.some.inj hstack).symm

theorem Proceeds.leftAlone (h : Proceeds report purpose c c₁)
    (hreturned : ∃ n, c₁.threads = c.threads ++ List.replicate n []) :
    LeftAlone report c c₁ := by
  obtain ⟨m, hreturned⟩ := hreturned
  cases h with
  | waiting hthreads => exact absurd hreturned (hthreads.not_returned m)
  | reporting hthreads => exact absurd hreturned (hthreads.not_returned m)
  | returned hthreads htimer hworld =>
      refine ⟨fun op hop _ => ?_, hworld.running, ?_⟩
      · rw [hworld.operations]
        exact List.mem_append_left _ hop
      · rw [hworld.call]
        exact hworld.log

theorem uncounted_startTimed {s : Peer δ} (hs : Accounted s) (purpose : Purpose)
    (endpoint : Endpoint) : Uncounted s.issued (s.startTimed purpose endpoint) := by
  intro call hcall hid
  rcases List.mem_append.mp hcall with hcall | hcall
  · have := hs.numbered call hcall
    omega
  · rw [List.mem_singleton.mp hcall]
    rfl

theorem Drained.counted (h : Drained c c₁) (hs : Accounted c₁.world) :
    ¬Uncounted c.world.issued c₁.world := by
  intro huncounted
  have htimer := h.timer
  have hdone := huncounted.timedCall_done
  unfold Peer.timedCall at htimer hdone
  cases hfind : c₁.world.timedCalls.find? fun call => call.id == c.world.issued with
  | none =>
      rw [hfind] at htimer
      cases htimer
  | some call =>
      have hcall := List.mem_of_find?_eq_some hfind
      have hid : call.id = c.world.issued := by simpa using List.find?_some hfind
      rw [hfind] at htimer
      have hreleased := hs.released call hcall htimer fun op hop => hid ▸ h.operation op hop
      rw [hs.timedCall_of_mem hcall, huncounted call hcall hid] at hreleased
      cases hreleased

variable {P : Profile δ} (hM : Modelled S P)
  (hT : S.Obeys (fun _ => True) (fun _ => True) TimedExact) (hserves : Serves S own)

include hM hT hserves

theorem timed_call_left_alone_iff_run {k : κ} {thread : Option Nat} {c' : PeerConfig δ π}
    {ms : List (Move κ Pending ν)} (hwatched : Watched P c) (hrun : c.world.running = true)
    (hpurpose : purpose = .timedSend ∨ purpose = .timedReceive)
    (hwaits : ∀ inside, Waits report c.world purpose (S.call k inside c.world))
    (hcall : S.step c (.call k thread) = some c₁) (hms : S.run c₁ ms = some c')
    (hattends : ∀ t ∈ S.trace c₁ ms, Attends own c t) (hdrained : Drained c c') :
    LeftAlone report c c' ↔ ∀ op ∈ c.world.operations, op.result ≠ none := by
  constructor
  · intro hleft op hop hpending
    have hwatched₁ := watched_step hM hT ⟨c, .call k thread, c₁⟩ hwatched hcall
    obtain ⟨endpoint, hworld⟩ : ∃ endpoint, c₁.world = c.world.startTimed purpose endpoint := by
      obtain ⟨inside, hreached⟩ := System.step_call hcall
      have hwait := hwaits inside
      unfold Waits at hwait
      split at hwait
      · rename_i houtcome
        rw [hreached, houtcome]
        exact hwait.1
      · exact hwait.elim
    have hspared : Spared c.world.issued op c₁.world := by
      rw [hworld]
      have := hwatched.accounted.tidy.numbered op hop
      exact ⟨Nat.lt_succ_of_lt this,
        fun _ => uncounted_startTimed hwatched.accounted purpose endpoint⟩
    obtain ⟨hwatched', hspared'⟩ := spared_run hM hT hpending hwatched₁ hspared hms
    exact hdrained.counted hwatched'.accounted
      (hspared'.uncounted (hleft.operations op hop hpending))
  · intro hidle
    have hids : ∀ op ∈ c.world.operations, op.id ≠ c.world.issued := fun op hop =>
      Nat.ne_of_lt (hwatched.accounted.tidy.numbered op hop)
    have hproceeds := Steps.states_invariant (f := S.step)
      (fun t hpre hstep hok => proceeds_step hserves hids hidle hpurpose t hpre hstep hok)
      (proceeds_call hwatched.accounted hrun hwaits hcall) hattends c'
      (Steps.run_mem_states hms)
    exact hproceeds.leftAlone hdrained.threads

end Steps

/-! ## The two classes -/

theorem serves_of_handlers {own : Nat → Completion → ν} {S : PeerSystem δ π κ Pending ν}
    {sendFailed receiveFailed : ErrorCode → Proc δ Unit}
    (henvironment : ∀ id completion s,
      S.environment (own id completion) s = stimulate s (.complete id completion))
    (hcompletion : ∀ id s, S.handler (.completion id) s =
      match s.completedOperation id with
      | some (op, completion) =>
          some (.completion op completion,
            completionHandler sendFailed receiveFailed op completion)
      | none => none)
    (htimer : ∀ id s, S.handler (.timer id) s =
      match s.firedTimer id with
      | some ec => some (.timer id, timedTimerHandler id ec)
      | none => none) :
    Serves S own where
  environment := henvironment
  completion id s origin program h := by
    rw [hcompletion] at h
    split at h
    · rename_i op completion hlookup
      cases h
      exact ⟨op, completion, hlookup, completionHandler_timed completion⟩
    · cases h
  timer id s origin program h := by
    rw [htimer] at h
    split at h
    · rename_i ec hfired
      cases h
      exact ⟨ec, hfired, rfl⟩
    · cases h

/-- The overloads with a timeout, with the callbacks a result is reported by; `destination`
is where the overload without an endpoint sends to. -/
inductive TimedOverload (sendTimed : Option Endpoint → Buffer → κ)
    (receiveTimed : Endpoint → Buffer → κ) (destination : Endpoint) :
    κ → Purpose → (TimedCall → List Event) → Prop where
  | send (endpoint : Option Endpoint) (buffer : Buffer) (hsize : buffer.size ≠ 0)
      (hnull : buffer.isNull = false) :
      TimedOverload sendTimed receiveTimed destination (sendTimed endpoint buffer) .timedSend
        (sentReport (endpoint.getD destination))
  | receive (endpoint : Endpoint) (buffer : Buffer) (hsize : buffer.size ≠ 0)
      (hnull : buffer.isNull = false) :
      TimedOverload sendTimed receiveTimed destination (receiveTimed endpoint buffer)
        .timedReceive receivedReport

theorem TimedOverload.waits {η : Type} {S : PeerSystem δ π κ η ν}
    {callSend : Option Endpoint → Buffer → κ} {callReceive : Endpoint → Buffer → κ}
    {destination : Endpoint} {k : κ} {purpose : Purpose} {report : TimedCall → List Event}
    {s : Peer δ} {failed : ErrorCode → Proc δ Unit}
    (h : TimedOverload callSend callReceive destination k purpose report)
    (hsend : ∀ endpoint buffer inside, S.call (callSend endpoint buffer) inside s =
      (discard (sendTimed failed (endpoint.getD destination) buffer) : Proc δ Unit) s)
    (hreceive : ∀ endpoint buffer inside, S.call (callReceive endpoint buffer) inside s =
      (discard (receiveTimed failed endpoint buffer) : Proc δ Unit) s)
    (hrun : s.running = true) :
    (purpose = .timedSend ∨ purpose = .timedReceive) ∧
      ∀ inside, Waits report s purpose (S.call k inside s) := by
  cases h with
  | send endpoint buffer hsize hnull =>
      exact ⟨Or.inl rfl, fun _ => hsend _ _ _ ▸ sendTimed_waits hrun hsize hnull⟩
  | receive endpoint buffer hsize hnull =>
      exact ⟨Or.inr rfl, fun _ => hreceive _ _ _ ▸ receiveTimed_waits hrun hsize hnull⟩

namespace Client

abbrev TimedOverload (s : Client) : Call → Purpose → (TimedCall → List Event) → Prop :=
  Udp.TimedOverload .sendTimed .receiveTimed s.endpoint

def completes (id : Nat) (completion : Completion) : Stimulus := .socket (.complete id completion)

theorem serves (net : Net) : Serves (system net) completes :=
  serves_of_handlers (fun _ _ _ => rfl) (fun _ _ => rfl) (fun _ _ => rfl)

end Client

namespace Server

abbrev TimedOverload (s : Server) : Call → Purpose → (TimedCall → List Event) → Prop :=
  Udp.TimedOverload .sendTimed .receiveTimed s.own.multicastEndpoint

def completes (id : Nat) (completion : Completion) : Stimulus := .complete id completion

theorem serves (net : Net) : Serves (system net) completes :=
  serves_of_handlers (fun _ _ _ => rfl) (fun _ _ => rfl) (fun _ _ => rfl)

end Server

section Reach

variable {P : Profile δ} {η : Type} {S : PeerSystem δ π κ η ν}

private theorem attends_of_resume {S : PeerSystem δ π κ Pending ν} {own : Nat → Completion → ν}
    {c : PeerConfig δ π} {t : PeerTransition δ π κ Pending ν}
    (hstep : S.step t.pre t.move = some t.post) {i : Nat} (hmove : t.move = .resume i)
    (hentered : c.threads.length ≤ i) : Attends own c t := by
  rw [hmove] at hstep
  simp only [System.step] at hstep
  simp only [Attends, hmove]
  split at hstep
  · rename_i f rest hstack
    rw [hstack, List.getElem?_eq_none hentered]
    simp
  · cases hstep

theorem drained_of_empty {c c' : PeerConfig δ π} (n : Nat)
    (hthreads : c'.threads = c.threads ++ List.replicate n [])
    (hoperations : c'.world.operations = [])
    (htimer : (c'.world.timedCall c.world.issued).timer = .handled) : Drained c c' where
  threads := ⟨n, hthreads⟩
  operation := by simp [hoperations]
  timer := htimer
  others := by simp [hoperations]

def attending (own : Nat → Completion → ν) (c : PeerConfig δ π) (size : Nat) :
    List (Move κ Pending ν) :=
  [.environment (own c.world.issued ⟨.success, size, default⟩),
    .handler (.completion c.world.issued), .handler (.timer c.world.issued),
    .resume c.threads.length, .resume c.threads.length]

theorem attends_of_move {S : PeerSystem δ π κ Pending ν} {own : Nat → Completion → ν}
    {c : PeerConfig δ π} {size : Nat} {t : PeerTransition δ π κ Pending ν}
    (hstep : S.step t.pre t.move = some t.post)
    (hmove : t.move ∈ attending own c size ∨
      (∃ op ∈ c.world.operations, op.result = none ∧ t.move = .handler (.completion op.id)) ∨
      ∃ i, c.threads.length ≤ i ∧ t.move = .resume i) : Attends own c t := by
  rcases hmove with hmove | ⟨op, hop, hpending, hmove⟩ | ⟨i, hentered, hmove⟩
  · simp only [attending, List.mem_cons, List.not_mem_nil, or_false] at hmove
    rcases hmove with h | h | h | h | h
    · simp only [Attends, h]
      exact ⟨_, rfl, rfl⟩
    · simp [Attends, h]
    · simp [Attends, h]
    · exact attends_of_resume hstep h (Nat.le_refl _)
    · exact attends_of_resume hstep h (Nat.le_refl _)
  · simp only [Attends, hmove]
    exact Or.inr (Or.inr ⟨op, hop, hpending, rfl⟩)
  · exact attends_of_resume hstep hmove hentered

private theorem attends_attending {S : PeerSystem δ π κ Pending ν} {own : Nat → Completion → ν}
    {c c₁ : PeerConfig δ π} {size : Nat} :
    ∀ t ∈ S.trace c₁ (attending own c size), Attends own c t :=
  fun t ht => attends_of_move (Steps.trace_valid t ht) (Or.inl (Steps.trace_move_mem t ht))

end Reach

/--
A timed call whose operation completes without error before the timer expires leaves
everything else alone, once it has returned and the handlers it made runnable have run,
exactly if no other operation was outstanding when it was made.
-/
theorem timed_call_left_alone_iff (net : Net) :
    (∀ s₀, Client.Constructed s₀ → ∀ ms₀ c,
      (Client.system net).run (.initial s₀) ms₀ = some c → c.world.running = true →
      ∀ k purpose report, Client.TimedOverload c.world k purpose report →
      ∀ thread c₁ ms c', (Client.system net).step c (.call k thread) = some c₁ →
        (Client.system net).run c₁ ms = some c' →
        (∀ t ∈ (Client.system net).trace c₁ ms, Attends Client.completes c t) →
        Drained c c' →
        (LeftAlone report c c' ↔ ∀ op ∈ c.world.operations, op.result ≠ none)) ∧
    (∀ s₀, Server.Constructed net s₀ → ∀ ms₀ c,
      (Server.system net).run (.initial s₀) ms₀ = some c → c.world.running = true →
      ∀ k purpose report, Server.TimedOverload c.world k purpose report →
      ∀ thread c₁ ms c', (Server.system net).step c (.call k thread) = some c₁ →
        (Server.system net).run c₁ ms = some c' →
        (∀ t ∈ (Server.system net).trace c₁ ms, Attends Server.completes c t) →
        Drained c c' →
        (LeftAlone report c c' ↔ ∀ op ∈ c.world.operations, op.result ≠ none)) := by
  constructor
  · intro s₀ hs₀ ms₀ c hreach hrun k purpose report hk thread c₁ ms c' hcall hms hattends hdrained
    obtain ⟨endpoint, own, rfl, -⟩ := hs₀.fresh
    have hwatched := watched_run (Client.modelled net) (Client.system_timed net) endpoint own hreach
    have hwaits := hk.waits (S := Client.system net) (fun _ _ _ => rfl) (fun _ _ _ => rfl) hrun
    exact timed_call_left_alone_iff_run (Client.modelled net) (Client.system_timed net)
      (Client.serves net) hwatched hrun hwaits.1 hwaits.2 hcall hms hattends hdrained
  · intro s₀ hs₀ ms₀ c hreach hrun k purpose report hk thread c₁ ms c' hcall hms hattends hdrained
    obtain ⟨endpoint, own, rfl, -⟩ := hs₀.fresh
    have hwatched := watched_run (Server.modelled net) (Server.system_timed net) endpoint own hreach
    have hwaits := hk.waits (S := Server.system net) (fun _ _ _ => rfl) (fun _ _ _ => rfl) hrun
    exact timed_call_left_alone_iff_run (Server.modelled net) (Server.system_timed net)
      (Server.serves net) hwatched hrun hwaits.1 hwaits.2 hcall hms hattends hdrained

theorem timed_call_left_alone_iff_alone :
    (∃ c c₁ c', (Client.system .loopback).run
        (.initial (Client.ofAddressPort "127.0.0.1" 5000))
        [.call (.connect (.clean 4)) none] = some c ∧
      (Client.system .loopback).step c (.call (.receiveTimed default (.bytes [0])) none) = some c₁ ∧
      (Client.system .loopback).run c₁ (attending Client.completes c 1) = some c' ∧
      c'.world.log = [.onConnected, .onReceived default 1] ∧ LeftAlone receivedReport c c') ∧
    (∃ c c₁ c', (Server.system .loopback).run (.initial (Server.ofPort 5000 .ipv4))
        [.call .start none, .handler (.posted 0 (.clean 4)), .resume 1] = some c ∧
      (Server.system .loopback).step c (.call (.sendTimed none (.bytes [0])) none) = some c₁ ∧
      (Server.system .loopback).run c₁ (attending Server.completes c 1) = some c' ∧
      c'.world.log = [.onStarted, .onSent default 1] ∧
      LeftAlone (sentReport default) c c') := by
  refine ⟨⟨_, _, _, rfl, rfl, rfl, rfl, ?_⟩, _, _, _, rfl, rfl, rfl, rfl, ?_⟩
  · exact ((timed_call_left_alone_iff .loopback).1 _ (.ofAddressPort "127.0.0.1" 5000)
      [.call (.connect (.clean 4)) none] _ rfl rfl _ _ _
      (.receive default (.bytes [0]) (by decide) rfl) none _ (attending Client.completes _ 1) _
      rfl rfl attends_attending
      (drained_of_empty 3 rfl rfl rfl)).mpr
      (List.eq_nil_iff_forall_not_mem.mp rfl · · |>.elim)
  · exact ((timed_call_left_alone_iff .loopback).2 _ (.ofPort 5000 .ipv4)
      [.call .start none, .handler (.posted 0 (.clean 4)), .resume 1] _ rfl rfl _ _ _
      (.send none (.bytes [0]) (by decide) rfl) none _ (attending Server.completes _ 1) _ rfl rfl
      attends_attending
      (drained_of_empty 3 rfl rfl rfl)).mpr (List.eq_nil_iff_forall_not_mem.mp rfl · · |>.elim)

def attendingWith (own : Nat → Completion → ν) (c : PeerConfig δ π) (size : Nat) :
    List (Move κ Pending ν) :=
  attending own c size ++ [.handler (.completion 0), .resume (c.threads.length + 3)]

private theorem attends_attendingWith {S : PeerSystem δ π κ Pending ν} {own : Nat → Completion → ν}
    {c c₁ : PeerConfig δ π} {size : Nat} {op : Operation} (hop : c.world.operations = [op])
    (hid : op.id = 0) (hpending : op.result = none) :
    ∀ t ∈ S.trace c₁ (attendingWith own c size), Attends own c t := by
  intro t ht
  have hmove := Steps.trace_move_mem t ht
  rw [attendingWith, List.mem_append] at hmove
  refine attends_of_move (Steps.trace_valid t ht) (hmove.imp_right fun h => ?_)
  rcases List.mem_cons.mp h with h | h
  · exact Or.inl ⟨op, by simp [hop], hpending, by rw [h, hid]⟩
  · exact Or.inr ⟨_, by omega, List.mem_singleton.mp h⟩

/--
A `ReceiveAsync` is outstanding when a timed `Send` succeeds: the client is
disconnected, the server reports an empty datagram, and neither receives any more.
-/
theorem timed_call_aborts_receive :
    (∃ c c₁ c', (Client.system .loopback).run
        (.initial (Client.ofAddressPort "127.0.0.1" 5000))
        [.call (.connect (.clean 4)) none, .call .receiveAsync none] = some c ∧
      (Client.system .loopback).step c (.call (.sendTimed none (.bytes [0])) none) = some c₁ ∧
      (Client.system .loopback).run c₁ (attendingWith Client.completes c 1) = some c' ∧
      (∀ t ∈ (Client.system .loopback).trace c₁ (attendingWith Client.completes c 1),
        Attends Client.completes c t) ∧
      Drained c c' ∧ c'.world.running = false ∧ c'.world.operations = [] ∧
      c'.world.log =
        [.onConnected, .onSent ⟨.v4 0x7f000001, 5000⟩ 1, .onDisconnected] ∧
      ¬LeftAlone (sentReport ⟨.v4 0x7f000001, 5000⟩) c c') ∧
    (∃ c c₁ c', (Server.system .loopback).run (.initial (Server.ofPort 5000 .ipv4))
        [.call .start none, .handler (.posted 0 (.clean 4)), .resume 1,
          .call .receiveAsync none] = some c ∧
      (Server.system .loopback).step c (.call (.sendTimed none (.bytes [0])) none) = some c₁ ∧
      (Server.system .loopback).run c₁ (attendingWith Server.completes c 1) = some c' ∧
      (∀ t ∈ (Server.system .loopback).trace c₁ (attendingWith Server.completes c 1),
        Attends Server.completes c t) ∧
      Drained c c' ∧ c'.world.operations = [] ∧
      c'.world.log = [.onStarted, .onSent default 1, .onReceived default 0] ∧
      ¬LeftAlone (sentReport default) c c') := by
  have hgone {δ π : Type} {report : TimedCall → List Event} {c c' : PeerConfig δ π}
      {op : Operation} (hop : c.world.operations = [op]) (hpending : op.result = none)
      (hnone : c'.world.operations = []) : ¬LeftAlone report c c' := by
    intro hleft
    have hmem := hleft.operations op (by simp [hop]) hpending
    simp [hnone] at hmem
  refine ⟨⟨_, _, _, rfl, rfl, rfl, attends_attendingWith rfl rfl rfl,
    drained_of_empty 4 rfl rfl rfl, rfl, rfl, rfl, hgone rfl rfl rfl⟩,
    _, _, _, rfl, rfl, rfl, attends_attendingWith rfl rfl rfl,
    drained_of_empty 4 rfl rfl rfl, rfl, rfl, hgone rfl rfl rfl⟩

end AsioWrapper.Udp
