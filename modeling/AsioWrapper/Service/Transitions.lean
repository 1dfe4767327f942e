import AsioWrapper.Service.Model

/-!
# What a step of the service can do

One inversion of the step function: every later proof goes through the cases
listed here and never unfolds the model.
-/

namespace AsioWrapper.Service

open AsioWrapper.Asio
open AsioWrapper.Foundation
open State

variable {m n : Nat} {s s' : State m n} {i : Fin n} {j : Fin m}

namespace State

section Fields

variable {w : Worker} {f : IoService Task → IoService Task}

@[simp] theorem setThread_services : (s.setThread i w).services = s.services := rfl
@[simp] theorem setThread_started : (s.setThread i w).started = s.started := rfl
@[simp] theorem setThread_polling : (s.setThread i w).polling = s.polling := rfl
@[simp] theorem setThread_caller : (s.setThread i w).caller = s.caller := rfl
@[simp] theorem setThread_thrown : (s.setThread i w).thrown = s.thrown := rfl
@[simp] theorem modifyService_threads : (s.modifyService j f).threads = s.threads := rfl
@[simp] theorem modifyService_started : (s.modifyService j f).started = s.started := rfl
@[simp] theorem modifyService_polling : (s.modifyService j f).polling = s.polling := rfl
@[simp] theorem modifyService_caller : (s.modifyService j f).caller = s.caller := rfl
@[simp] theorem modifyService_thrown : (s.modifyService j f).thrown = s.thrown := rfl

theorem setThread_threads : (s.setThread i w).threads = Function.update s.threads i w := rfl

@[simp]
theorem setThread_self : (s.setThread i w).threads i = w := Function.update_self ..

theorem setThread_of_ne {k : Fin n} (h : k ≠ i) : (s.setThread i w).threads k = s.threads k :=
  Function.update_of_ne h ..

theorem modifyService_services :
    (s.modifyService j f).services = Function.update s.services j (f (s.services j)) := rfl

theorem modifyService_stopped (hf : ∀ io, (f io).stopped = io.stopped) (k : Fin m) :
    ((s.modifyService j f).services k).stopped = (s.services k).stopped := by
  rw [modifyService_services]
  by_cases h : k = j
  · subst h
    rw [Function.update_self, hf]
  · rw [Function.update_of_ne h]

theorem modifyService_queue (hf : ∀ io, (f io).queue = io.queue) (k : Fin m) :
    ((s.modifyService j f).services k).queue = (s.services k).queue := by
  rw [modifyService_services]
  by_cases h : k = j
  · subst h
    rw [Function.update_self, hf]
  · rw [Function.update_of_ne h]

theorem modifyService_stop (k : Fin m) :
    ((s.modifyService j .stop).services k).stopped = true ↔
      (s.services k).stopped = true ∨ k = j := by
  rw [modifyService_services]
  by_cases h : k = j
  · subst h
    simp [IoService.stop]
  · simp [h]

end Fields

section Leaving

variable [NeZero m]

theorem leave_eq : s.leave i = s.setThread i .left ∨
    (s.setThread i .left).workless (home i) = true ∧
      s.leave i = (s.setThread i .left).modifyService (home i) .stop := by
  unfold leave
  split
  · exact Or.inr ⟨‹_›, rfl⟩
  · exact Or.inl rfl

theorem leave_field {α : Type} (g : State m n → α)
    (hg : ∀ (t : State m n) (j : Fin m), g (t.modifyService j .stop) = g t) :
    g (s.leave i) = g (s.setThread i .left) := by
  rcases leave_eq (s := s) (i := i) with h | ⟨-, h⟩
  · rw [h]
  · rw [h, hg]

@[simp]
theorem leave_threads : (s.leave i).threads = (s.setThread i .left).threads :=
  leave_field State.threads fun _ _ => rfl

@[simp]
theorem leave_started : (s.leave i).started = s.started :=
  leave_field State.started fun _ _ => rfl

@[simp]
theorem leave_polling : (s.leave i).polling = s.polling :=
  leave_field State.polling fun _ _ => rfl

@[simp]
theorem leave_caller : (s.leave i).caller = s.caller :=
  leave_field State.caller fun _ _ => rfl

@[simp]
theorem leave_thrown : (s.leave i).thrown = s.thrown :=
  leave_field State.thrown fun _ _ => rfl

@[simp]
theorem leave_queue (k : Fin m) : ((s.leave i).services k).queue = (s.services k).queue :=
  leave_field (fun t => (t.services k).queue) fun _ _ =>
    modifyService_queue (f := .stop) (fun _ => rfl) k

theorem leave_stopped {k : Fin m} (h : ((s.leave i).services k).stopped = true) :
    (s.services k).stopped = true ∨
      k = home i ∧ (s.setThread i .left).workless (home i) = true := by
  rcases leave_eq (s := s) (i := i) with hleave | ⟨hworkless, hleave⟩
  · rw [hleave] at h
    exact Or.inl h
  · rw [hleave, modifyService_stop] at h
    exact h.imp_right fun hk => ⟨hk, hworkless⟩

theorem stopped_leave {k : Fin m} (h : (s.services k).stopped = true) :
    ((s.leave i).services k).stopped = true := by
  rcases leave_eq (s := s) (i := i) with hleave | ⟨-, hleave⟩
  · rw [hleave]
    exact h
  · rw [hleave, modifyService_stop]
    exact Or.inl h

theorem queue_of_workless (h : s.workless j = true) : (s.services j).queue = [] := by
  simp only [workless, Bool.and_eq_true, List.isEmpty_iff] at h
  exact h.1.1

private theorem holdsWork_of_workless (h : s.workless j = true) {k : Fin n} (hk : home k = j) :
    (s.threads k).holdsWork = false := by
  simp only [workless, Bool.and_eq_true, decide_eq_true_eq] at h
  exact h.2 k hk

/-- An `io_service` is not stopped for want of work while another of its threads is in its
loop. -/
theorem leave_stopped_of_holdsWork {k : Fin n} (hk : k ≠ i)
    (hholds : (s.threads k).holdsWork = true)
    (h : ((s.leave i).services (home k)).stopped = true) :
    (s.services (home k)).stopped = true := by
  refine (leave_stopped h).resolve_right fun ⟨hhome, hworkless⟩ => ?_
  have hnone := holdsWork_of_workless hworkless hhome
  rw [setThread_of_ne hk, hholds] at hnone
  cases hnone

end Leaving

end State

/-! ## The cases -/

/-- What other code does to the `io_service`s; the service takes no notice of it. -/
structure Submits (s s' : State m n) : Prop where
  threads : s'.threads = s.threads
  started : s'.started = s.started
  polling : s'.polling = s.polling
  caller : s'.caller = s.caller
  thrown : s'.thrown = s.thrown
  stopped : ∀ j, (s'.services j).stopped = (s.services j).stopped
  queue : ∀ j, ∃ added : List (Handler Task),
    (s'.services j).queue = (s.services j).queue ++ added ∧ ∀ h ∈ added, h.task = .user

private theorem submits_modifyService {f : IoService Task → IoService Task}
    (hstopped : ∀ io, (f io).stopped = io.stopped)
    (hqueue : ∀ io, ∃ added : List (Handler Task), (f io).queue = io.queue ++ added ∧
      ∀ h ∈ added, h.task = .user) : Submits s (s.modifyService j f) where
  threads := rfl
  started := rfl
  polling := rfl
  caller := rfl
  thrown := rfl
  stopped := modifyService_stopped hstopped
  queue k := by
    rw [modifyService_services]
    by_cases hk : k = j
    · subst hk
      rw [Function.update_self]
      exact hqueue _
    · rw [Function.update_of_ne hk]
      exact ⟨[], by simp, by simp⟩

variable [NeZero m]

inductive Works (s : State m n) (i : Fin n) : State m n → Prop where
  | readMode (h : s.threads i = .created) : Works s i (s.setThread i (.initialized s.polling))
  | enter {p : Bool} (h : s.threads i = .initialized p) : Works s i (s.setThread i (.serving p))
  | take {p : Bool} {strand : Option Nat} {handler : Handler Task}
      (h : s.threads i = .serving p) (hlive : (s.services (home i)).stopped = false)
      (hfront : (s.services (home i)).front strand = some handler) :
      Works s i ((s.modifyService (home i) (.pop strand)).setThread i
        (.running p strand handler.task.job))
  | polled (h : s.threads i = .serving true)
      (hready : (s.services (home i)).stopped = true ∨ s.quiescent (home i) = true) :
      Works s i (s.setThread i (.checking true))
  | ran (h : s.threads i = .serving false) (hstopped : (s.services (home i)).stopped = true) :
      Works s i (s.leave i)
  | announce {p : Bool} {strand : Option Nat} (h : s.threads i = .running p strand .start)
      (hstarted : s.started = false) :
      Works s i { s.setThread i (.running p strand .onStarted) with started := true }
  | halt {p : Bool} {strand : Option Nat} (h : s.threads i = .running p strand .stop)
      (hstarted : s.started = true) :
      Works s i (s.setThread i (.running p strand (.stopping 0)))
  | stopOne {p : Bool} {strand : Option Nat} {k : Nat}
      (h : s.threads i = .running p strand (.stopping k)) (hk : k < m) :
      Works s i ((s.setThread i (.running p strand (.stopping (k + 1)))).modifyService ⟨k, hk⟩
        .stop)
  | halted {p : Bool} {strand : Option Nat} {k : Nat}
      (h : s.threads i = .running p strand (.stopping k)) (hk : ¬k < m) :
      Works s i { s.setThread i (.running p strand .onStopped) with started := false }
  | finish {p : Bool} {strand : Option Nat} {job : Job} (h : s.threads i = .running p strand job)
      (hjob : job.throws = true ∨ job = .start ∧ s.started = true ∨
        job = .stop ∧ s.started = false) :
      Works s i (s.setThread i (.serving p))
  | again {p : Bool} (h : s.threads i = .checking p) (hstarted : s.started = true) :
      Works s i (s.setThread i (.serving p))
  | quit {p : Bool} (h : s.threads i = .checking p) (hstarted : s.started = false) :
      Works s i (s.leave i)
  | retry {p : Bool} {strand : Option Nat} {job : Job} (h : s.threads i = .running p strand job)
      (hjob : job.throws = true) :
      Works s i { s.setThread i (.checking p) with thrown := true }
  | fail {p : Bool} {strand : Option Nat} {job : Job} (h : s.threads i = .running p strand job)
      (hjob : job.throws = true) : Works s i { s.leave i with thrown := true }
  | exit (h : s.threads i = .left) : Works s i (s.setThread i .exited)

private theorem handlerStep_works {p : Bool} {strand : Option Nat} {job : Job}
    (h : s.threads i = .running p strand job) : Works s i (handlerStep s i p strand job) := by
  cases job with
  | start =>
      simp only [handlerStep]
      split
      · exact .finish h (Or.inr (Or.inl ⟨rfl, ‹_›⟩))
      · exact .announce h (Bool.eq_false_iff.mpr ‹_›)
  | stop =>
      simp only [handlerStep]
      split
      · exact .halt h ‹_›
      · exact .finish h (Or.inr (Or.inr ⟨rfl, Bool.eq_false_iff.mpr ‹_›⟩))
  | stopping k =>
      simp only [handlerStep]
      split
      · exact .stopOne h ‹_›
      · exact .halted h ‹_›
  | onStarted => exact .finish h (Or.inl rfl)
  | onStopped => exact .finish h (Or.inl rfl)
  | user => exact .finish h (Or.inl rfl)

theorem workerStep_works {turn : Turn} (h : workerStep s i turn = some s') : Works s i s' := by
  unfold workerStep at h
  split at h
  · cases h
    exact .readMode ‹_›
  · cases h
    exact .enter ‹_›
  · split at h
    · cases h
    · rename_i hthread hready
      simp only [Bool.or_eq_true, not_or, Bool.not_eq_true] at hready
      obtain ⟨handler, hfront, rfl⟩ := Option.map_eq_some_iff.mp h
      exact .take hthread hready.1 hfront
  · split at h
    · rename_i hthread hready
      cases h
      exact .polled hthread (by simpa using hready)
    · cases h
  · split at h
    · cases h
      exact .ran ‹_› ‹_›
    · cases h
  · cases h
    exact handlerStep_works ‹_›
  · split at h
    · rename_i failure hthread hthrows
      cases failure with
      | system ec =>
          simp only [catchStep] at h
          split at h
          · cases h
            exact .retry hthread hthrows
          · cases h
            exact .fail hthread hthrows
      | other => cases h
    · cases h
  · split at h
    · cases h
      exact .again ‹_› ‹_›
    · cases h
      exact .quit ‹_› (Bool.eq_false_iff.mpr ‹_›)
  · cases h
    exact .exit ‹_›
  · cases h

theorem workerStep_take {strand : Option Nat} (h : workerStep s i (.take strand) = some s') :
    ∃ p handler, s.threads i = .serving p ∧
      (s.services (home i)).front strand = some handler ∧
      s' = (s.modifyService (home i) (.pop strand)).setThread i
        (.running p strand handler.task.job) := by
  cases hthread : s.threads i with
  | serving p =>
      simp only [workerStep, hthread] at h
      split at h
      · cases h
      · obtain ⟨handler, hfront, rfl⟩ := Option.map_eq_some_iff.mp h
        exact ⟨p, handler, rfl, hfront, rfl⟩
  | _ => simp [workerStep, hthread] at h

inductive Calls (s : State m n) : State m n → Prop where
  | alreadyStarted {p : Bool} (h : s.caller = .start p) (hstarted : s.started = true) :
      Calls s { s with caller := .idle (some false) }
  | prepare {p : Bool} (h : s.caller = .start p) (hstarted : s.started = false) :
      Calls s { s with polling := p, roundRobinIndex := 0, caller := .posting }
  | post (h : s.caller = .posting) : Calls s { s.post .start with caller := .spawning 0 }
  | spawn {k : Nat} (h : s.caller = .spawning k) (hk : k < n) :
      Calls s { s.setThread ⟨k, hk⟩ .created with caller := .spawning (k + 1) }
  | spawned {k : Nat} (h : s.caller = .spawning k) (hk : ¬k < n) :
      Calls s { s with caller := .awaitingStart }
  | started (h : s.caller = .awaitingStart) (hstarted : s.started = true) :
      Calls s { s with caller := .idle (some true) }
  | notStarted {restart : Option Bool} (h : s.caller = .stop restart)
      (hstarted : s.started = false) : Calls s { s with caller := .idle (some false) }
  | accept {restart : Option Bool} (h : s.caller = .stop restart) (hstarted : s.started = true) :
      Calls s { s with caller := .postingStop restart }
  | postStop {restart : Option Bool} (h : s.caller = .postingStop restart) :
      Calls s { s.post .stop with caller := .joining 0 restart }
  | join {k : Nat} {restart : Option Bool} (h : s.caller = .joining k restart) (hk : k < n)
      (hexited : s.threads ⟨k, hk⟩ = .exited) :
      Calls s { s.setThread ⟨k, hk⟩ .absent with caller := .joining (k + 1) restart }
  | joined {k : Nat} {restart : Option Bool} (h : s.caller = .joining k restart) (hk : ¬k < n) :
      Calls s { s with polling := false, caller := .awaitingStop restart }
  | stopped (h : s.caller = .awaitingStop none) (hstarted : s.started = false) :
      Calls s { s with caller := .idle (some true) }
  | renew {p : Bool} (h : s.caller = .awaitingStop (some p)) (hstarted : s.started = false) :
      Calls s { s with caller := .renewing p }
  | renewed {p : Bool} (h : s.caller = .renewing p) :
      Calls s { s with
        services := fun _ => .fresh
        generation := s.generation + 1
        caller := .start p }

theorem callerStep_calls (h : callerStep s = some s') : Calls s s' := by
  unfold callerStep at h
  split at h
  · cases h
  · split at h
    · cases h
      exact .alreadyStarted ‹_› ‹_›
    · cases h
      exact .prepare ‹_› (Bool.eq_false_iff.mpr ‹_›)
  · cases h
    exact .post ‹_›
  · split at h
    · cases h
      exact .spawn ‹_› ‹_›
    · cases h
      exact .spawned ‹_› ‹_›
  · split at h
    · cases h
      exact .started ‹_› ‹_›
    · cases h
  · split at h
    · cases h
      exact .accept ‹_› ‹_›
    · cases h
      exact .notStarted ‹_› (Bool.eq_false_iff.mpr ‹_›)
  · cases h
    exact .postStop ‹_›
  · split at h
    · split at h
      · cases h
        exact .join ‹_› ‹_› ‹_›
      · cases h
    · cases h
      exact .joined ‹_› ‹_›
  · split at h
    · cases h
    · split at h
      · cases h
        exact .stopped ‹_› (Bool.eq_false_iff.mpr ‹_›)
      · cases h
        exact .renew ‹_› (Bool.eq_false_iff.mpr ‹_›)
  · cases h
    exact .renewed ‹_›

inductive Changes (s : State m n) : Move m n → State m n → Prop where
  | start {returned : Option Bool} {p : Bool} (h : s.caller = .idle returned) :
      Changes s (.call (.start p)) { s with caller := .start p }
  | stop {returned restart : Option Bool} {call : Call} (h : s.caller = .idle returned)
      (hcall : ∀ p, call ≠ .start p) :
      Changes s (.call call) { s with caller := .stop restart }
  | caller {s' : State m n} (h : Calls s s') : Changes s .caller s'
  | worker {i : Fin n} {turn : Turn} {s' : State m n} (h : Works s i s') :
      Changes s (.worker i turn) s'
  | submit {move : Move m n} {s' : State m n} (hmove : ∀ call, move ≠ .call call)
      (h : Submits s s') : Changes s move s'

theorem step_changes {move : Move m n} (h : step s move = some s') : Changes s move s' := by
  cases move with
  | call call =>
      cases call with
      | start p =>
          simp only [step, callStep] at h
          split at h
          · cases h
            exact .start ‹_›
          · cases h
      | stop =>
          simp only [step, callStep] at h
          split at h
          · cases h
            exact .stop ‹_› (by simp)
          · cases h
      | restart =>
          simp only [step, callStep] at h
          split at h
          · cases h
            exact .stop ‹_› (by simp)
          · cases h
  | caller => exact .caller (callerStep_calls h)
  | worker i turn => exact .worker (workerStep_works h)
  | submit j strand =>
      cases h
      refine .submit (by simp) (submits_modifyService (fun _ => rfl) fun io => ?_)
      exact ⟨[⟨strand, .user⟩], rfl, by simp⟩
  | initiate j =>
      cases h
      refine .submit (by simp) (submits_modifyService (fun _ => rfl) fun io => ?_)
      exact ⟨[], (List.append_nil _).symm, by simp⟩
  | complete j strand =>
      simp only [step] at h
      split at h
      · cases h
      · cases h
        refine .submit (by simp) (submits_modifyService (fun _ => rfl) fun io => ?_)
        exact ⟨[⟨strand, .user⟩], rfl, by simp⟩
  | getAsioService =>
      cases h
      refine .submit (by simp) ⟨rfl, rfl, rfl, rfl, rfl, fun _ => rfl, fun _ => ?_⟩
      exact ⟨[], (List.append_nil _).symm, by simp⟩

end AsioWrapper.Service
