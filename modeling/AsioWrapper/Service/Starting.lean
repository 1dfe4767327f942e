import AsioWrapper.Service.Attendance

/-!
# Waiting for the start handler

`Stop` leaves the `io_service`s stopped, and only `Restart` replaces them.  A plain
`Start` after that posts its handler to an `io_service` that runs nothing, and
waits for the flag forever.
-/

namespace AsioWrapper.Service

open AsioWrapper.Asio
open AsioWrapper.Foundation
open State

variable {m n : Nat} [NeZero m] {s s' : State m n} {i : Fin n}

def StartServed (s : State m n) : Prop :=
  (∃ i, (s.threads i).errand = some .start) ∨
    ∃ j, (∃ h ∈ (s.services j).queue, h.task = .start) ∧ (s.services j).stopped = false ∧
      ∃ i, home i = j ∧ (s.threads i).stays false = true

/-- The caller waits for a flag that nobody will set. -/
def Stuck (s : State m n) : Prop :=
  s.caller = .awaitingStart ∧ s.started = false ∧ ¬StartServed s

def Caller.opening : Caller → Bool
  | start _ | posting | spawning _ | awaitingStart => true
  | _ => false

/-- `Start` is called on a service that is not started and whose `io_service` is stopped. -/
def startsStopped (t : Transition (State m n) (Move m n)) : Bool :=
  match t.move with
  | .call (.start _) => !t.pre.started && t.pre.halted
  | _ => false

/-! ## Starting on a live `io_service` -/

def Live (s : State m n) : Prop :=
  s.caller.opening = true → s.started = false → s.halted = false

theorem Orderly.not_stop_of_opening (ho : Orderly s) (hopening : s.caller.opening = true) :
    (s.threads i).errand ≠ some .stop := by
  intro herrand
  rcases Caller.permits_stop (ho.errand i _ herrand).2 with ⟨_, _, hcaller⟩ | ⟨_, hcaller⟩
  · rw [hcaller] at hopening
    cases hopening
  · rw [hcaller] at hopening
    cases hopening

/-- The start handler keeps its `io_service` from running out of work. -/
theorem Live.leave (hs : Live s) (ho : Orderly s) (herrand : (s.threads i).errand = none)
    (hpresent : s.threads i ≠ .absent) : Live (s.leave i) := by
  intro hopening hstarted
  rw [leave_caller] at hopening
  rw [leave_started] at hstarted
  have hlive := hs hopening hstarted
  by_contra hhalted
  rw [Bool.not_eq_false] at hhalted
  have hload : s.load ≠ 0 := by
    have hadmits := ho.present i hpresent
    rw [ho.load]
    cases hcaller : s.caller <;>
      simp_all [Caller.expected, Caller.opening, Caller.admits]
  rcases leave_stopped hhalted with hstopped | ⟨hhome, hworkless⟩
  · cases hlive.symm.trans hstopped
  · rcases exists_of_load hload with ⟨j, handler, hmem, hsystem⟩ | ⟨k, task, hk⟩
    · obtain ⟨rfl, -⟩ := ho.queued j handler hmem hsystem
      have hqueue := queue_of_workless hworkless
      rw [← hhome, setThread_services] at hqueue
      rw [hqueue] at hmem
      cases hmem
    · have hki : k ≠ i := by
        rintro rfl
        cases herrand.symm.trans hk
      have hwork : (s.threads k).holdsWork = true := by
        cases hthread : s.threads k <;> simp_all [Worker.errand, Worker.holdsWork]
      have hzero := (ho.errand k task hk).1
      rw [State.halted, ← hzero] at hhalted hlive
      cases hlive.symm.trans (leave_stopped_of_holdsWork hki hwork hhalted)

theorem Live.works (hs : Live s) (ho : Orderly s) (h : Works s i s') : Live s' := by
  cases h with
  | take h hlive hfront =>
      intro hopening hstarted
      exact (modifyService_stopped (f := .pop _) (fun _ => rfl) 0).trans (hs hopening hstarted)
  | ran h hstopped => exact hs.leave ho (by rw [h]; rfl) (by simp [h])
  | announce h hstarted => exact fun _ hcleared => by cases hcleared
  | stopOne h hk =>
      intro hopening
      exact absurd (by rw [h]; rfl) (ho.not_stop_of_opening (i := i) hopening)
  | halted h hk =>
      intro hopening
      exact absurd (by rw [h]; rfl) (ho.not_stop_of_opening (i := i) hopening)
  | quit h hstarted => exact hs.leave ho (by rw [h]; rfl) (by simp [h])
  | fail h hjob =>
      exact hs.leave ho (by rw [h]; exact errand_of_throws hjob) (by simp [h])
  | _ => exact hs

theorem Live.calls (hs : Live s) (h : Calls s s') : Live s' := by
  cases h with
  | prepare h hstarted => exact fun _ => hs (by rw [h]; rfl)
  | post h =>
      intro _ hstarted
      exact (modifyService_stopped (f := .post ⟨s.strand, .start⟩) (fun _ => rfl) 0).trans
        (hs (by rw [h]; rfl) hstarted)
  | spawn h hk => exact fun _ => hs (by rw [h]; rfl)
  | spawned h hk => exact fun _ => hs (by rw [h]; rfl)
  | renewed h => exact fun _ _ => rfl
  | _ => exact fun hopening => by cases hopening

theorem Live.step (hs : Live s) (ho : Orderly s) {move : Move m n}
    (h : step s move = some s') (hcall : startsStopped ⟨s, move, s'⟩ = false) : Live s' := by
  cases step_changes h with
  | start hidle =>
      intro _ hstarted
      change s.started = false at hstarted
      change s.halted = false
      simpa [startsStopped, hstarted] using hcall
  | stop hidle hcall => exact fun hopening => by cases hopening
  | caller h => exact hs.calls h
  | worker h => exact hs.works ho h
  | submit hmove h =>
      intro hopening hstarted
      rw [h.caller] at hopening
      rw [h.started] at hstarted
      exact (h.stopped 0).trans (hs hopening hstarted)

theorem Served.not_stuck (hs : Served s) (hlive : Live s) (hthrown : s.thrown = false) :
    ¬Stuck s := by
  rintro ⟨hcaller, hstarted, hunserved⟩
  apply hunserved
  have hload : s.load ≠ 0 := by
    rw [hs.orderly.load, hcaller, hstarted]
    simp [Caller.expected]
  have hhalted := hlive (by rw [hcaller]; rfl) hstarted
  have hpermits {task : Task} (h : s.caller.permits task = true) : task = .start := by
    rw [hcaller] at h
    cases task <;> simp_all [Caller.permits]
  rcases exists_of_load hload with ⟨j, handler, hmem, hsystem⟩ | ⟨i, task, herrand⟩
  · obtain ⟨rfl, hpermitted⟩ := hs.orderly.queued j handler hmem hsystem
    obtain ⟨i, hhome, hstays⟩ := (hs.attended hthrown).manned (by rw [hcaller]; rfl) hhalted
    rw [hstarted] at hstays
    exact Or.inr ⟨0, ⟨handler, hmem, hpermits hpermitted⟩, hhalted, i, hhome, hstays⟩
  · rw [hpermits (hs.orderly.errand i task herrand).2] at herrand
    exact Or.inl ⟨i, herrand⟩

/-! ## Starting on a stopped `io_service` -/

structure InVain (s : State m n) : Prop where
  opening : s.caller.opening = true
  started : s.started = false
  halted : s.halted = true
  errand : ∀ i, (s.threads i).errand = none

theorem InVain.setThread (hs : InVain s) {w : Worker} (hw : w.errand = none) :
    InVain (s.setThread i w) := by
  refine ⟨hs.opening, hs.started, hs.halted, fun k => ?_⟩
  by_cases hk : k = i
  · subst hk
    rw [setThread_self]
    exact hw
  · rw [setThread_of_ne hk]
    exact hs.errand k

theorem InVain.leave (hs : InVain s) : InVain (s.leave i) := by
  have hleft := hs.setThread (i := i) (w := .left) rfl
  refine ⟨?_, ?_, stopped_leave hs.halted, ?_⟩
  · rw [leave_caller]
    exact hs.opening
  · rw [leave_started]
    exact hs.started
  · rw [leave_threads]
    exact hleft.errand

theorem InVain.works (hs : InVain s) (ho : Orderly s) (h : Works s i s') : InVain s' := by
  have hidle {p : Bool} {strand : Option Nat} {job : Job}
      (h : s.threads i = .running p strand job) : job.errand = none := by
    have hnone := hs.errand i
    rwa [h] at hnone
  cases h with
  | readMode h => exact hs.setThread rfl
  | enter h => exact hs.setThread rfl
  | @take p strand handler h hlive hfront =>
      -- what a live `io_service` still runs is not a handler of the service
      have huser : handler.task.isSystem = false := by
        by_contra hsystem
        rw [Bool.not_eq_false] at hsystem
        have hzero := (ho.queued _ handler (IoService.mem_of_front hfront).1 hsystem).1
        rw [hzero] at hlive
        cases hlive.symm.trans hs.halted
      have hkept : (s.modifyService (home i) (.pop strand)).halted = s.halted :=
        modifyService_stopped (f := .pop strand) (fun _ => rfl) 0
      have hpopped : InVain (s.modifyService (home i) (.pop strand)) :=
        ⟨hs.opening, hs.started, hkept.trans hs.halted, hs.errand⟩
      exact hpopped.setThread (by simp [Worker.errand, huser])
  | polled h hready => exact hs.setThread rfl
  | ran h hstopped => exact hs.leave
  | announce h hstarted => cases hidle h
  | halt h hstarted => cases hidle h
  | stopOne h hk => cases hidle h
  | halted h hk => cases hidle h
  | finish h hjob => exact hs.setThread rfl
  | again h hstarted => exact hs.setThread rfl
  | quit h hstarted => exact hs.leave
  | @retry p strand job h hjob =>
      have hnext := hs.setThread (i := i) (w := .checking p) rfl
      exact ⟨hnext.opening, hnext.started, hnext.halted, hnext.errand⟩
  | fail h hjob =>
      have hnext := hs.leave (i := i)
      exact ⟨hnext.opening, hnext.started, hnext.halted, hnext.errand⟩
  | exit h => exact hs.setThread rfl

theorem InVain.calls (hs : InVain s) (h : Calls s s') : InVain s' := by
  have hopening := hs.opening
  have hstarted := hs.started
  cases h with
  | prepare h _ => exact ⟨rfl, hs.started, hs.halted, hs.errand⟩
  | post h =>
      have hkept : (s.post .start).halted = s.halted :=
        modifyService_stopped (f := .post ⟨s.strand, .start⟩) (fun _ => rfl) 0
      exact ⟨rfl, hs.started, hkept.trans hs.halted, hs.errand⟩
  | spawn h hk =>
      have hnext := hs.setThread (i := ⟨_, hk⟩) (w := .created) rfl
      exact ⟨rfl, hnext.started, hnext.halted, hnext.errand⟩
  | spawned h hk => exact ⟨rfl, hs.started, hs.halted, hs.errand⟩
  | alreadyStarted h hset => cases hset.symm.trans hstarted
  | started h hset => cases hset.symm.trans hstarted
  | _ h => simp [h, Caller.opening] at hopening

theorem InVain.step (hs : InVain s) (ho : Orderly s) {move : Move m n}
    (h : step s move = some s') : InVain s' := by
  have hopening := hs.opening
  cases step_changes h with
  | start hidle => simp [hidle, Caller.opening] at hopening
  | stop hidle hcall => simp [hidle, Caller.opening] at hopening
  | caller h => exact hs.calls h
  | worker h => exact hs.works ho h
  | submit hmove h =>
      refine ⟨?_, ?_, (h.stopped 0).trans hs.halted, ?_⟩
      · rw [h.caller]
        exact hs.opening
      · rw [h.started]
        exact hs.started
      · rw [h.threads]
        exact hs.errand

private theorem inVain_of_startsStopped (ho : Orderly s) {move : Move m n}
    (h : step s move = some s') (hcall : startsStopped ⟨s, move, s'⟩ = true) : InVain s' := by
  cases step_changes h with
  | start hidle =>
      simp only [startsStopped, Bool.and_eq_true, Bool.not_eq_true'] at hcall
      refine ⟨rfl, hcall.1, hcall.2, fun i => errand_of_load (s := s) ?_ i⟩
      rw [ho.load, hidle]
      rfl
  | stop hidle hother =>
      unfold startsStopped at hcall
      split at hcall
      · rename_i p hmove
        injection hmove with hmove
        exact absurd hmove (hother p)
      · cases hcall
  | caller h => cases hcall
  | worker h => cases hcall
  | submit hmove h =>
      unfold startsStopped at hcall
      split at hcall
      · rename_i p heq
        exact absurd heq (hmove _)
      · cases hcall

theorem InVain.stuck (hs : InVain s) (ho : Orderly s) (hcaller : s.caller = .awaitingStart) :
    Stuck s := by
  refine ⟨hcaller, hs.started, ?_⟩
  rintro (⟨i, herrand⟩ | ⟨j, ⟨handler, hmem, htask⟩, hlive, -⟩)
  · cases (hs.errand i).symm.trans herrand
  · obtain ⟨rfl, -⟩ := ho.queued j handler hmem (by rw [htask]; rfl)
    cases hlive.symm.trans hs.halted

/-! ## Runs -/

theorem served_run {threads : Nat} {pool : Bool} (hthreads : 1 ≤ threads)
    (ms : List (Move (serviceCount threads pool) threads)) :
    ∀ t ∈ Steps.trace step (ofThreads threads pool) ms,
      Served t.pre ∧ step t.pre t.move = some t.post ∧ Served t.post :=
  Steps.trace_invariant (P := fun _ => True)
    (fun _ hpre hstep _ => hpre.step hthreads hstep) (served_ofThreads threads pool)
    fun _ _ => trivial

/--
A caller of `Start` is never stuck in a run, as long as no handler throws, if `Start` is
never called on a stopped `io_service`; from such a call on it never returns, and is stuck
whenever it waits.
-/
theorem start_stuck_iff (threads : Nat) (hthreads : 1 ≤ threads) (pool : Bool) :
    ∀ ms,
      ((∀ t ∈ Steps.trace step (ofThreads threads pool) ms, startsStopped t = false) →
        ∀ s ∈ Steps.states step (ofThreads threads pool) ms, s.thrown = false → ¬Stuck s) ∧
      ∀ t ∈ Steps.trace step (ofThreads threads pool) ms, startsStopped t = true →
        ∀ ms', ∀ s ∈ Steps.states step t.post ms',
          s.caller.opening = true ∧ (s.caller = .awaitingStart → Stuck s) := by
  intro ms
  constructor
  · intro hlive s hs hthrown
    obtain ⟨hserved, hopen⟩ := Steps.states_invariant (f := step)
      (I := fun s => Served s ∧ Live s) (P := fun t => startsStopped t = false)
      (fun t hpre hstep hcall => ⟨hpre.1.step hthreads hstep,
        hpre.2.step hpre.1.orderly hstep hcall⟩)
      ⟨served_ofThreads threads pool, fun hopening => (by cases hopening)⟩ hlive s hs
    exact hserved.not_stuck hopen hthrown
  · intro t ht hcall ms' s hs
    obtain ⟨hpre, hstep, hpost⟩ := served_run hthreads ms t ht
    obtain ⟨hserved, hvain⟩ := Steps.states_invariant (f := step)
      (I := fun s => Served s ∧ InVain s) (P := fun _ => True)
      (fun t hpre hstep _ => ⟨hpre.1.step hthreads hstep, hpre.2.step hpre.1.orderly hstep⟩)
      ⟨hpost, inVain_of_startsStopped hpre.orderly hstep hcall⟩ (fun _ _ => trivial) s hs
    exact ⟨hvain.opening, hvain.stuck hserved.orderly⟩

def startOne : List (Move 1 1) :=
  [.call (.start false), .caller, .caller, .caller, .caller, .worker 0 .advance,
    .worker 0 .advance, .worker 0 (.take none), .worker 0 .advance, .worker 0 .advance, .caller]

def stopOne : List (Move 1 1) :=
  [.caller, .caller, .worker 0 (.take none), .worker 0 .advance, .worker 0 .advance,
    .worker 0 .advance, .worker 0 .advance, .worker 0 .advance, .worker 0 .advance, .caller,
    .caller, .caller]

def restartOne : List (Move 1 1) :=
  startOne ++ [.call .restart] ++ stopOne ++ [.caller, .caller, .caller, .caller, .caller]

theorem start_stuck_iff_restarted :
    ∃ s, Steps.run step (ofThreads 1 false) restartOne = some s ∧ s.generation = 1 ∧
      s.caller = .awaitingStart ∧ s.started = false ∧ ¬Stuck s := by
  refine ⟨_, rfl, rfl, rfl, rfl, ?_⟩
  refine (start_stuck_iff 1 (by decide) false restartOne).1 (fun t ht => ?_) _
    (Steps.run_mem_states rfl) rfl
  have hall : (Steps.trace step (ofThreads 1 false) restartOne).all
      (fun t => !startsStopped t) = true := rfl
  simpa using List.all_eq_true.mp hall t ht

/-- `Start`, `Stop` and `Start` again: the handler is queued on a stopped `io_service`, and
the thread that was to run it is gone. -/
theorem start_stuck_after_stop :
    ∃ s, Steps.run step (ofThreads 1 false) (startOne ++ [.call .stop] ++ stopOne ++
        [.call (.start false), .caller, .caller, .caller, .caller, .worker 0 .advance,
          .worker 0 .advance, .worker 0 .advance, .worker 0 .advance]) = some s ∧
      s.threads 0 = .exited ∧ (s.services 0).queue = [⟨none, .start⟩] ∧
      (s.services 0).stopped = true ∧ s.thrown = false ∧ Stuck s := by
  refine ⟨_, rfl, rfl, rfl, rfl, rfl, rfl, rfl, ?_⟩
  rintro (⟨i, herrand⟩ | ⟨j, -, hlive, -⟩)
  · obtain rfl : i = 0 := Subsingleton.elim i 0
    cases herrand
  · change Fin 1 at j
    obtain rfl : j = 0 := Subsingleton.elim j 0
    cases hlive

end AsioWrapper.Service
