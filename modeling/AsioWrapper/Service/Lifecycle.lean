import AsioWrapper.Service.Transitions
import Mathlib.Algebra.BigOperators.Group.Finset.Piecewise

/-!
# The handlers of `Start` and `Stop`

Calls follow one another, so at most one of the two handlers is under way at a
time: exactly one while `Start` waits for the flag to be set or `Stop` for it to
be cleared, and none otherwise.  That count, and which threads exist while
the caller is where, decide everything else.
-/

namespace AsioWrapper.Service

open AsioWrapper.Asio
open AsioWrapper.Foundation
open State

variable {m n : Nat}

/-! ## Counting the handlers -/

/-- The handler is under way until its callback. -/
def Job.errand : Job → Option Task
  | start => some .start
  | stop | stopping _ => some .stop
  | _ => none

def Worker.errand : Worker → Option Task
  | running _ _ job => job.errand
  | _ => none

def Worker.mode : Worker → Option Bool
  | initialized polling | serving polling | running polling _ _ | checking polling =>
      some polling
  | _ => none

def Worker.weight (w : Worker) : Nat := if w.errand.isSome then 1 else 0

def Task.isSystem (task : Task) : Bool := task != .user

def queuedErrands (io : IoService Task) : Nat := io.queue.countP fun h => h.task.isSystem

def State.load (s : State m n) : Nat :=
  ∑ j, queuedErrands (s.services j) + ∑ i, (s.threads i).weight

theorem sum_update {ι α : Type} [Fintype ι] [DecidableEq ι] (t : ι → α) (i : ι) (a : α)
    (g : α → Nat) : ∑ k, g (Function.update t i a k) + g (t i) = ∑ k, g (t k) + g a := by
  have hcomp : (fun k => g (Function.update t i a k)) =
      Function.update (fun k => g (t k)) i (g a) := by
    funext k
    by_cases hk : k = i
    · subst hk
      simp
    · simp [Function.update_of_ne hk]
  have hsplit := Finset.sum_eq_add_sum_sdiff_singleton_of_mem (Finset.mem_univ i) fun k => g (t k)
  rw [hcomp, Finset.sum_update_of_mem (Finset.mem_univ i), hsplit]
  omega

@[simp]
theorem Task.errand_job (task : Task) :
    task.job.errand = if task.isSystem then some task else none := by
  cases task <;> rfl

theorem errand_of_throws {job : Job} (h : job.throws = true) : job.errand = none := by
  cases job <;> simp_all [Job.throws, Job.errand]

theorem queuedErrands_post (handler : Handler Task) (io : IoService Task) :
    queuedErrands (io.post handler) =
      queuedErrands io + if handler.task.isSystem then 1 else 0 := by
  simp [queuedErrands, IoService.post, List.countP_append, List.countP_singleton]

private theorem queuedErrands_pop {strand : Option Nat} {io : IoService Task}
    {handler : Handler Task} (h : io.front strand = some handler) :
    queuedErrands (io.pop strand) + (if handler.task.isSystem then 1 else 0) =
      queuedErrands io := by
  obtain ⟨earlier, later, hqueue, hpop⟩ := IoService.queue_split h
  simp only [queuedErrands, hpop, hqueue, List.countP_append, List.countP_cons]
  omega

namespace State

variable {s s' : State m n}

theorem load_setThread (s : State m n) (i : Fin n) (w : Worker) :
    (s.setThread i w).load + (s.threads i).weight = s.load + w.weight := by
  have hsum := sum_update s.threads i w Worker.weight
  simp only [load, setThread_services, setThread_threads]
  omega

theorem load_modifyService (s : State m n) (j : Fin m) (f : IoService Task → IoService Task) :
    (s.modifyService j f).load + queuedErrands (s.services j) =
      s.load + queuedErrands (f (s.services j)) := by
  have hsum := sum_update s.services j (f (s.services j)) queuedErrands
  simp only [load, modifyService_threads, modifyService_services]
  omega

theorem load_congr (hthreads : s'.threads = s.threads)
    (hqueue : ∀ j, queuedErrands (s'.services j) = queuedErrands (s.services j)) :
    s'.load = s.load := by
  simp only [load, hthreads, hqueue]

theorem queued_of_load (h : s.load = 0) {j : Fin m} {handler : Handler Task}
    (hmem : handler ∈ (s.services j).queue) : handler.task.isSystem = false := by
  have hsum : ∑ j, queuedErrands (s.services j) = 0 := by
    unfold load at h
    omega
  have hnone := Finset.sum_eq_zero_iff.mp hsum j (Finset.mem_univ j)
  simpa using List.countP_eq_zero.mp hnone handler hmem

theorem errand_of_load (h : s.load = 0) (i : Fin n) : (s.threads i).errand = none := by
  have hsum : ∑ i, (s.threads i).weight = 0 := by
    unfold load at h
    omega
  have hnone := Finset.sum_eq_zero_iff.mp hsum i (Finset.mem_univ i)
  unfold Worker.weight at hnone
  split at hnone
  · cases hnone
  · rename_i hsome
    simpa using hsome

theorem exists_of_load (h : s.load ≠ 0) :
    (∃ j, ∃ handler ∈ (s.services j).queue, handler.task.isSystem = true) ∨
      ∃ i task, (s.threads i).errand = some task := by
  by_contra hnone
  simp only [not_or, not_exists, not_and] at hnone
  obtain ⟨hqueued, herrand⟩ := hnone
  apply h
  have hqueues : ∑ j, queuedErrands (s.services j) = 0 := by
    refine Finset.sum_eq_zero fun j _ => ?_
    exact List.countP_eq_zero.mpr fun handler hmem => hqueued j handler hmem
  have hthreads : ∑ i, (s.threads i).weight = 0 := by
    refine Finset.sum_eq_zero fun i _ => ?_
    have hi : (s.threads i).errand = none := Option.eq_none_iff_forall_ne_some.mpr (herrand i)
    simp [Worker.weight, hi]
  rw [load, hqueues, hthreads]

end State

/-! ## Where the caller is, and what may be under way -/

namespace Caller

def expected (started : Bool) : Caller → Nat
  | spawning _ | awaitingStart => if started then 0 else 1
  | joining _ _ | awaitingStop _ => if started then 1 else 0
  | _ => 0

theorem expected_le (started : Bool) (caller : Caller) : caller.expected started ≤ 1 := by
  cases caller <;> cases started <;> simp [expected]

def permits : Caller → Task → Bool
  | spawning _, .start | awaitingStart, .start => true
  | joining _ _, .stop | awaitingStop _, .stop => true
  | _, _ => false

def admits (started : Bool) (i : Nat) : Caller → Prop
  | idle _ | start _ | stop _ => started = true
  | posting | renewing _ | awaitingStop _ => False
  | spawning thread => i < thread
  | joining thread _ => thread ≤ i
  | awaitingStart | postingStop _ => True

theorem permits_start {caller : Caller} (h : caller.permits .start = true) :
    (∃ thread, caller = .spawning thread) ∨ caller = .awaitingStart := by
  cases caller <;> simp_all [permits]

theorem permits_stop {caller : Caller} (h : caller.permits .stop = true) :
    (∃ thread restart, caller = .joining thread restart) ∨
      ∃ restart, caller = .awaitingStop restart := by
  cases caller <;> simp_all [permits]

/-- The flag, where the caller knows it. -/
def knows : Caller → Option Bool
  | posting | renewing _ => some false
  | postingStop _ => some true
  | _ => none

def resting : Caller → Bool
  | idle _ | start _ | stop _ | awaitingStop _ | renewing _ => true
  | _ => false

end Caller

section Shifts

variable {s s' : State m n} {i : Fin n}

structure Shifts (s : State m n) (i : Fin n) (s' : State m n) : Prop where
  others : ∀ k, k ≠ i → s'.threads k = s.threads k
  present : s.threads i ≠ .absent
  errand : (s'.threads i).errand = (s.threads i).errand
  mode : ∀ p, (s'.threads i).mode = some p → p = s.polling
  queue : ∀ j, (s'.services j).queue = (s.services j).queue
  started : s'.started = s.started
  polling : s'.polling = s.polling
  caller : s'.caller = s.caller

theorem Shifts.setThread {v w : Worker} (h : s.threads i = v) (hpresent : v ≠ .absent)
    (herrand : w.errand = v.errand) (hmode : ∀ p, w.mode = some p → p = s.polling) :
    Shifts s i (s.setThread i w) where
  others _ hk := setThread_of_ne hk
  present := h ▸ hpresent
  errand := by rw [setThread_self, herrand, h]
  mode := by rwa [setThread_self]
  queue _ := rfl
  started := rfl
  polling := rfl
  caller := rfl

theorem Shifts.thrown (h : Shifts s i s') : Shifts s i { s' with thrown := true } :=
  ⟨h.others, h.present, h.errand, h.mode, h.queue, h.started, h.polling, h.caller⟩

theorem Shifts.modifyService {j : Fin m} (h : Shifts s i s') :
    Shifts s i (s'.modifyService j .stop) where
  others := h.others
  present := h.present
  errand := h.errand
  mode := h.mode
  queue k := (modifyService_queue (f := .stop) (fun _ => rfl) k).trans (h.queue k)
  started := h.started
  polling := h.polling
  caller := h.caller

theorem Shifts.load (h : Shifts s i s') : s'.load = s.load := by
  have hthreads : s'.threads = (s.setThread i (s'.threads i)).threads := by
    funext k
    by_cases hk : k = i
    · subst hk
      rw [setThread_self]
    · rw [h.others k hk, setThread_of_ne hk]
  have hload := load_setThread s i (s'.threads i)
  have hcongr : s'.load = (s.setThread i (s'.threads i)).load :=
    load_congr hthreads fun j => by rw [queuedErrands, h.queue j, setThread_services, queuedErrands]
  simp only [Worker.weight, h.errand] at hload
  omega

end Shifts

variable [NeZero m]

structure Orderly (s : State m n) : Prop where
  load : s.load = s.caller.expected s.started
  queued : ∀ j, ∀ h ∈ (s.services j).queue, h.task.isSystem = true →
    j = 0 ∧ s.caller.permits h.task = true
  errand : ∀ i task, (s.threads i).errand = some task →
    home i = (0 : Fin m) ∧ s.caller.permits task = true
  present : ∀ i, s.threads i ≠ .absent → s.caller.admits s.started i
  knows : ∀ b, s.caller.knows = some b → s.started = b
  resting : s.caller.resting = true → s.started = false → s.polling = false
  mode : ∀ i p, (s.threads i).mode = some p → p = s.polling

theorem orderly_ofThreads (threads : Nat) (pool : Bool) : Orderly (ofThreads threads pool) where
  load := by simp [ofThreads, State.load, Caller.expected, queuedErrands, IoService.fresh,
    Worker.weight, Worker.errand]
  queued j h hmem := by simp [ofThreads, IoService.fresh] at hmem
  errand i task h := by simp [ofThreads, Worker.errand] at h
  present i h := absurd rfl h
  knows b h := by simp [ofThreads, Caller.knows] at h
  resting _ _ := rfl
  mode i p h := by simp [ofThreads, Worker.mode] at h

section Orderly

variable {s s' : State m n} {i : Fin n}

theorem Orderly.errand_unique (hs : Orderly s) {k : Fin n} {task task' : Task}
    (hi : (s.threads i).errand = some task) (hk : (s.threads k).errand = some task') : k = i := by
  by_contra hne
  -- take both handlers away, one after the other
  have hfirst := load_setThread s i .absent
  have hsecond := load_setThread (s.setThread i .absent) k .absent
  have hbound : s.load ≤ 1 := hs.load ▸ Caller.expected_le s.started s.caller
  rw [setThread_of_ne hne] at hsecond
  simp only [Worker.weight, hi, hk, Option.isSome_some, if_true] at hfirst hsecond
  simp only [Worker.errand, Option.isSome_none, Bool.false_eq_true, if_false] at hfirst hsecond
  omega

theorem Orderly.submits (hs : Orderly s) (h : Submits s s') : Orderly s' := by
  have hsystem : ∀ j, queuedErrands (s'.services j) = queuedErrands (s.services j) := by
    intro j
    obtain ⟨added, hqueue, huser⟩ := h.queue j
    have hnone : added.countP (fun h => h.task.isSystem) = 0 := by
      rw [List.countP_eq_zero]
      intro handler hmem
      simp [huser handler hmem, Task.isSystem]
    rw [queuedErrands, hqueue, List.countP_append, hnone, Nat.add_zero, queuedErrands]
  refine ⟨?_, ?_, ?_, ?_, ?_, ?_, ?_⟩
  · rw [load_congr h.threads hsystem, h.caller, h.started, hs.load]
  · intro j handler hmem htask
    obtain ⟨added, hqueue, huser⟩ := h.queue j
    rw [h.caller]
    rw [hqueue, List.mem_append] at hmem
    rcases hmem with hmem | hmem
    · exact hs.queued j handler hmem htask
    · simp [huser handler hmem, Task.isSystem] at htask
  · rw [h.threads, h.caller]
    exact hs.errand
  · rw [h.threads, h.caller, h.started]
    exact hs.present
  · rw [h.caller, h.started]
    exact hs.knows
  · rw [h.caller, h.started, h.polling]
    exact hs.resting
  · rw [h.threads, h.polling]
    exact hs.mode

theorem Shifts.leave {v : Worker} (h : s.threads i = v) (hpresent : v ≠ .absent)
    (herrand : v.errand = none) : Shifts s i (s.leave i) where
  others _ hk := by rw [leave_threads, setThread_of_ne hk]
  present := h ▸ hpresent
  errand := by
    rw [leave_threads, setThread_self, h, herrand]
    rfl
  mode p h := by
    rw [leave_threads, setThread_self] at h
    cases h
  queue := leave_queue
  started := leave_started
  polling := leave_polling
  caller := leave_caller

theorem Orderly.shifts (hs : Orderly s) (h : Shifts s i s') : Orderly s' := by
  refine ⟨?_, ?_, fun k task herrand => ?_, fun k hpresent => ?_, ?_, ?_, fun k p hmode => ?_⟩
  · rw [h.load, h.caller, h.started, hs.load]
  · intro j
    rw [h.queue j, h.caller]
    exact hs.queued j
  · rw [h.caller]
    by_cases hk : k = i
    · subst hk
      exact hs.errand k task (h.errand ▸ herrand)
    · exact hs.errand k task (h.others k hk ▸ herrand)
  · rw [h.caller, h.started]
    by_cases hk : k = i
    · subst hk
      exact hs.present k h.present
    · exact hs.present k (h.others k hk ▸ hpresent)
  · rw [h.caller, h.started]
    exact hs.knows
  · rw [h.caller, h.started, h.polling]
    exact hs.resting
  · rw [h.polling]
    by_cases hk : k = i
    · subst hk
      exact h.mode p hmode
    · exact hs.mode k p (h.others k hk ▸ hmode)

theorem Orderly.started_of_errand (hs : Orderly s) {task : Task}
    (h : (s.threads i).errand = some task) : s.started = decide (task = .stop) := by
  have hload : s.load ≠ 0 := fun hzero => by
    rw [errand_of_load hzero] at h
    cases h
  have hpermits := (hs.errand i task h).2
  rw [hs.load] at hload
  cases task with
  | start =>
      rcases Caller.permits_start hpermits with ⟨_, hcaller⟩ | hcaller
      · simpa [hcaller, Caller.expected] using hload
      · simpa [hcaller, Caller.expected] using hload
  | stop =>
      rcases Caller.permits_stop hpermits with ⟨_, _, hcaller⟩ | ⟨_, hcaller⟩
      · simpa [hcaller, Caller.expected] using hload
      · simpa [hcaller, Caller.expected] using hload
  | user =>
      cases hcaller : s.caller <;> simp [hcaller, Caller.permits] at hpermits

theorem Orderly.take (hs : Orderly s) {p : Bool} {strand : Option Nat} {handler : Handler Task}
    (h : s.threads i = .serving p)
    (hfront : (s.services (home i)).front strand = some handler) :
    Orderly ((s.modifyService (home i) (.pop strand)).setThread i
      (.running p strand handler.task.job)) := by
  have hmem := (IoService.mem_of_front hfront).1
  refine ⟨?_, ?_, fun k task herrand => ?_, fun k hpresent => ?_, hs.knows, hs.resting,
    fun k q hmode => ?_⟩
  · have hthread := load_setThread (s.modifyService (home i) (.pop strand)) i
      (.running p strand handler.task.job)
    have hservice := load_modifyService s (home i) (.pop strand)
    have hpop := queuedErrands_pop hfront
    have hload := hs.load
    simp only [modifyService_threads, h, Worker.weight, Worker.errand, Task.errand_job] at hthread
    simp only [setThread_caller, setThread_started, modifyService_caller, modifyService_started]
    split at hpop
    · rename_i hsystem
      simp only [hsystem, if_true, Option.isSome_some, Option.isSome_none, Bool.false_eq_true,
        if_false] at hthread
      omega
    · rename_i hsystem
      simp only [hsystem, Bool.false_eq_true, if_false, Option.isSome_none] at hthread
      omega
  · intro j queued hqueued
    simp only [setThread_services, modifyService_services] at hqueued
    by_cases hj : j = home i
    · subst hj
      rw [Function.update_self] at hqueued
      exact hs.queued _ queued (IoService.mem_of_mem_pop hqueued)
    · rw [Function.update_of_ne hj] at hqueued
      exact hs.queued j queued hqueued
  · by_cases hk : k = i
    · subst hk
      simp only [setThread_self, Worker.errand, Task.errand_job] at herrand
      split at herrand
      · cases herrand
        exact hs.queued _ handler hmem ‹_›
      · cases herrand
    · exact hs.errand k task (by rwa [setThread_of_ne hk] at herrand)
  · by_cases hk : k = i
    · subst hk
      exact hs.present k (by simp [h])
    · exact hs.present k (by rwa [setThread_of_ne hk] at hpresent)
  · by_cases hk : k = i
    · subst hk
      rw [setThread_self] at hmode
      exact hs.mode k q (by rw [h]; exact hmode)
    · exact hs.mode k q (by rwa [setThread_of_ne hk] at hmode)

theorem Orderly.settle (hs : Orderly s) {p : Bool} {strand : Option Nat} {job job' : Job}
    {task : Task} (h : s.threads i = .running p strand job) (herrand : job.errand = some task)
    (herrand' : job'.errand = none) :
    Orderly { s.setThread i (.running p strand job') with started := decide (task = .start) } := by
  have hthread : (s.threads i).errand = some task := by rw [h]; exact herrand
  have hpermits := (hs.errand i task hthread).2
  have hadmits := hs.present i (by simp [h])
  -- it was the only handler under way
  have hzero : (s.setThread i (.running p strand job')).load = 0 := by
    have hbound := hs.load ▸ Caller.expected_le s.started s.caller
    have hset := load_setThread s i (.running p strand job')
    simp only [h, Worker.weight, Worker.errand, herrand, herrand', Option.isSome_some,
      Option.isSome_none, Bool.false_eq_true, if_true, if_false] at hset
    omega
  have hwaits : s.caller.expected (decide (task = .start)) = 0 ∧ s.caller.knows = none ∧
      s.caller.resting = false ∧
      ∀ k started, s.caller.admits s.started k → s.caller.admits started k := by
    cases task with
    | start =>
        rcases Caller.permits_start hpermits with ⟨_, hcaller⟩ | hcaller
        · rw [hcaller]
          exact ⟨rfl, rfl, rfl, fun _ _ h => h⟩
        · rw [hcaller]
          exact ⟨rfl, rfl, rfl, fun _ _ h => h⟩
    | stop =>
        rcases Caller.permits_stop hpermits with ⟨_, _, hcaller⟩ | ⟨_, hcaller⟩
        · rw [hcaller]
          exact ⟨rfl, rfl, rfl, fun _ _ h => h⟩
        · rw [hcaller] at hadmits
          exact hadmits.elim
    | user => cases hcaller : s.caller <;> simp [hcaller, Caller.permits] at hpermits
  obtain ⟨hexpected, hknows, hresting, hkept⟩ := hwaits
  refine ⟨hzero.trans hexpected.symm, fun j handler hmem htask => ?_, fun k task' h' => ?_,
    fun k hpresent => ?_, fun b hb => ?_, fun hrest => ?_, fun k q hmode => ?_⟩
  · rw [queued_of_load hzero hmem] at htask
    cases htask
  · have hnone := errand_of_load hzero k
    rw [hnone] at h'
    cases h'
  · refine hkept k _ ?_
    by_cases hk : k = i
    · subst hk
      exact hadmits
    · exact hs.present k (by rwa [setThread_of_ne hk] at hpresent)
  · rw [setThread_caller, hknows] at hb
    cases hb
  · rw [setThread_caller, hresting] at hrest
    cases hrest
  · by_cases hk : k = i
    · subst hk
      rw [setThread_self] at hmode
      exact hs.mode k q (by rw [h]; exact hmode)
    · exact hs.mode k q (by rwa [setThread_of_ne hk] at hmode)

def Takes (s : State m n) (i : Fin n) (s' : State m n) : Prop :=
  ∃ p strand handler, s.threads i = .serving p ∧
    (s.services (home i)).front strand = some handler ∧
    s' = (s.modifyService (home i) (.pop strand)).setThread i (.running p strand handler.task.job)

def Settles (s : State m n) (i : Fin n) (s' : State m n) : Prop :=
  ∃ p strand job job' task, s.threads i = .running p strand job ∧ job.errand = some task ∧
    job'.errand = none ∧
    s' = { s.setThread i (.running p strand job') with started := decide (task = .start) }

theorem Orderly.works_cases (hs : Orderly s) (h : Works s i s') :
    Shifts s i s' ∨ Takes s i s' ∨ Settles s i s' := by
  have hmode := hs.mode i
  cases h with
  | readMode h =>
      refine Or.inl (.setThread h (by simp) rfl ?_)
      simp [Worker.mode]
  | enter h =>
      rw [h] at hmode
      exact Or.inl (.setThread h (by simp) rfl hmode)
  | take h hlive hfront => exact Or.inr (Or.inl ⟨_, _, _, h, hfront, rfl⟩)
  | polled h hready =>
      rw [h] at hmode
      exact Or.inl (.setThread h (by simp) rfl hmode)
  | ran h hstopped => exact Or.inl (.leave h (by simp) rfl)
  | announce h hstarted =>
      exact Or.inr (Or.inr ⟨_, _, _, .onStarted, .start, h, rfl, rfl, rfl⟩)
  | halt h hstarted =>
      rw [h] at hmode
      exact Or.inl (.setThread h (by simp) rfl hmode)
  | stopOne h hk =>
      rw [h] at hmode
      exact Or.inl (Shifts.modifyService (.setThread h (by simp) rfl hmode))
  | halted h hk =>
      exact Or.inr (Or.inr ⟨_, _, _, .onStopped, .stop, h, rfl, rfl, rfl⟩)
  | finish h hjob =>
      rw [h] at hmode
      rcases hjob with hjob | ⟨rfl, hstarted⟩ | ⟨rfl, hstarted⟩
      · exact Or.inl (.setThread h (by simp) (errand_of_throws hjob).symm hmode)
      · have herrand : (s.threads i).errand = some .start := by rw [h]; rfl
        simp [hs.started_of_errand herrand] at hstarted
      · have herrand : (s.threads i).errand = some .stop := by rw [h]; rfl
        simp [hs.started_of_errand herrand] at hstarted
  | again h hstarted =>
      rw [h] at hmode
      exact Or.inl (.setThread h (by simp) rfl hmode)
  | quit h hstarted => exact Or.inl (.leave h (by simp) rfl)
  | retry h hjob =>
      rw [h] at hmode
      exact Or.inl (Shifts.thrown (.setThread h (by simp) (errand_of_throws hjob).symm hmode))
  | fail h hjob => exact Or.inl (Shifts.thrown (.leave h (by simp) (errand_of_throws hjob)))
  | exit h =>
      refine Or.inl (.setThread h (by simp) rfl ?_)
      simp [Worker.mode]

theorem Orderly.works (hs : Orderly s) (h : Works s i s') : Orderly s' := by
  rcases hs.works_cases h with hshifts | ⟨p, strand, handler, hthread, hfront, rfl⟩ |
    ⟨p, strand, job, job', task, hthread, herrand, herrand', rfl⟩
  · exact hs.shifts hshifts
  · exact hs.take hthread hfront
  · exact hs.settle hthread herrand herrand'

theorem Orderly.proceed (hs : Orderly s) {c : Caller}
    (hexpected : c.expected s.started = s.caller.expected s.started)
    (hpermits : (∀ task, c.permits task = s.caller.permits task) ∨
      s.caller.expected s.started = 0)
    (hadmits : ∀ i : Fin n, s.caller.admits s.started i → c.admits s.started i)
    (hknows : ∀ b, c.knows = some b → s.started = b)
    (hresting : c.resting = true → s.started = false → s.polling = false) :
    Orderly { s with caller := c } := by
  refine ⟨hs.load.trans hexpected.symm, fun j handler hmem htask => ?_, fun i task herrand => ?_,
    fun i hpresent => hadmits i (hs.present i hpresent), hknows, hresting, hs.mode⟩
  · rcases hpermits with hpermits | hzero
    · rw [hpermits]
      exact hs.queued j handler hmem htask
    · rw [queued_of_load (hs.load.trans hzero) hmem] at htask
      cases htask
  · rcases hpermits with hpermits | hzero
    · rw [hpermits]
      exact hs.errand i task herrand
    · rw [errand_of_load (hs.load.trans hzero)] at herrand
      cases herrand

theorem Orderly.post (hs : Orderly s) {task : Task} {c : Caller} (htask : task.isSystem = true)
    (hbefore : s.caller.expected s.started = 0) (hafter : c.expected s.started = 1)
    (hpermits : c.permits task = true)
    (hadmits : ∀ i : Fin n, s.caller.admits s.started i → c.admits s.started i)
    (hknows : c.knows = none) (hresting : c.resting = false) :
    Orderly { s.post task with caller := c } := by
  have hzero := hs.load.trans hbefore
  refine ⟨?_, fun j handler hmem hsystem => ?_, fun i task' herrand => ?_,
    fun i hpresent => hadmits i (hs.present i hpresent), by simp [hknows], by simp [hresting],
    hs.mode⟩
  · have hload := load_modifyService s 0 (.post ⟨s.strand, task⟩)
    rw [queuedErrands_post, htask, if_pos rfl] at hload
    change (s.modifyService 0 (.post ⟨s.strand, task⟩)).load = c.expected s.started
    omega
  · change handler ∈ (Function.update s.services 0 ((s.services 0).post ⟨s.strand, task⟩) j).queue
      at hmem
    by_cases hj : j = 0
    · subst hj
      rw [Function.update_self] at hmem
      rcases List.mem_append.mp hmem with hmem | hmem
      · rw [queued_of_load hzero hmem] at hsystem
        cases hsystem
      · rw [List.mem_singleton.mp hmem]
        exact ⟨rfl, hpermits⟩
    · rw [Function.update_of_ne hj] at hmem
      rw [queued_of_load hzero hmem] at hsystem
      cases hsystem
  · change (s.threads i).errand = some task' at herrand
    rw [errand_of_load hzero] at herrand
    cases herrand

theorem Orderly.absent (hs : Orderly s) (hnone : ¬s.caller.admits s.started i) :
    s.threads i = .absent := by
  by_contra hpresent
  exact hnone (hs.present i hpresent)

theorem Orderly.replace (hs : Orderly s) {w : Worker} {c : Caller}
    (hold : (s.threads i).errand = none) (hnew : w.errand = none) (hmode : w.mode = none)
    (hexpected : c.expected s.started = s.caller.expected s.started)
    (hpermits : ∀ task, c.permits task = s.caller.permits task)
    (hadmits : ∀ k : Fin n, k ≠ i → s.caller.admits s.started k → c.admits s.started k)
    (hadded : w ≠ .absent → c.admits s.started i)
    (hknows : c.knows = none) (hresting : c.resting = false) :
    Orderly { s.setThread i w with caller := c } := by
  refine ⟨?_, fun j handler hmem htask => ?_, fun k task herrand => ?_, fun k hpresent => ?_,
    by simp [hknows], by simp [hresting], fun k p hp => ?_⟩
  · have hload := load_setThread s i w
    simp only [Worker.weight, hold, hnew] at hload
    change (s.setThread i w).load = c.expected s.started
    rw [hexpected, ← hs.load]
    omega
  · rw [hpermits]
    exact hs.queued j handler hmem htask
  · rw [hpermits]
    change ((s.setThread i w).threads k).errand = some task at herrand
    by_cases hk : k = i
    · subst hk
      rw [setThread_self, hnew] at herrand
      cases herrand
    · exact hs.errand k task (by rwa [setThread_of_ne hk] at herrand)
  · change (s.setThread i w).threads k ≠ .absent at hpresent
    by_cases hk : k = i
    · subst hk
      exact hadded (by rwa [setThread_self] at hpresent)
    · refine hadmits k hk (hs.present k ?_)
      rwa [setThread_of_ne hk] at hpresent
  · change ((s.setThread i w).threads k).mode = some p at hp
    by_cases hk : k = i
    · subst hk
      rw [setThread_self, hmode] at hp
      cases hp
    · exact hs.mode k p (by rwa [setThread_of_ne hk] at hp)

theorem Orderly.setPolling (hs : Orderly s) {p : Bool} {index : Nat}
    (hnone : ∀ i, s.threads i = .absent) (hresting : s.caller.resting = true →
      s.started = false → p = false) :
    Orderly { s with polling := p, roundRobinIndex := index } := by
  refine ⟨hs.load, hs.queued, hs.errand, hs.present, hs.knows, hresting, fun i q hq => ?_⟩
  change (s.threads i).mode = some q at hq
  rw [hnone i] at hq
  cases hq

theorem Orderly.calls (hs : Orderly s) (h : Calls s s') : Orderly s' := by
  cases h with
  | alreadyStarted h hstarted =>
      refine hs.proceed ?_ (Or.inr ?_) ?_ ?_ ?_ <;>
        simp [h, hstarted, Caller.expected, Caller.admits, Caller.knows]
  | prepare h hstarted =>
      have hnone : ∀ i, s.threads i = .absent := fun i =>
        hs.absent (by simp [h, hstarted, Caller.admits])
      have hposting : Orderly { s with caller := .posting } := by
        refine hs.proceed ?_ (Or.inr ?_) ?_ ?_ ?_ <;>
          simp [h, hstarted, Caller.expected, Caller.admits, Caller.knows, Caller.resting]
      exact hposting.setPolling hnone (by simp [Caller.resting])
  | post h =>
      have hstarted := hs.knows false (by simp [h, Caller.knows])
      refine hs.post rfl ?_ ?_ rfl ?_ rfl rfl <;>
        simp [h, hstarted, Caller.expected, Caller.admits]
  | spawn h hk =>
      have habsent := hs.absent (i := ⟨_, hk⟩) (by simp [h, Caller.admits])
      refine hs.replace (by rw [habsent]; rfl) rfl rfl (by rw [h]; rfl)
        (fun task => by rw [h]; cases task <;> rfl) ?_ ?_ rfl rfl
      · intro k _ hadmits
        simp only [h, Caller.admits] at hadmits ⊢
        omega
      · simp [Caller.admits]
  | spawned h hk =>
      refine hs.proceed (by rw [h]; rfl) (Or.inl fun task => by rw [h]; cases task <;> rfl)
        ?_ ?_ ?_ <;>
        simp [Caller.admits, Caller.knows, Caller.resting]
  | started h hstarted =>
      refine hs.proceed ?_ (Or.inr ?_) ?_ ?_ ?_ <;>
        simp [h, hstarted, Caller.expected, Caller.admits, Caller.knows]
  | notStarted h hstarted =>
      have hpolling := hs.resting (by simp [h, Caller.resting]) hstarted
      refine hs.proceed ?_ (Or.inr ?_) ?_ ?_ ?_ <;>
        simp [h, hstarted, hpolling, Caller.expected, Caller.admits, Caller.knows]
  | accept h hstarted =>
      refine hs.proceed ?_ (Or.inr ?_) ?_ ?_ ?_ <;>
        simp [h, hstarted, Caller.expected, Caller.admits, Caller.knows, Caller.resting]
  | postStop h =>
      have hstarted := hs.knows true (by simp [h, Caller.knows])
      refine hs.post rfl ?_ ?_ rfl ?_ rfl rfl <;>
        simp [h, hstarted, Caller.expected, Caller.admits]
  | join h hk hexited =>
      refine hs.replace (by rw [hexited]; rfl) rfl rfl (by rw [h]; rfl)
        (fun task => by rw [h]; cases task <;> rfl) ?_ ?_ rfl rfl
      · intro k hne hadmits
        have hval := Fin.val_ne_of_ne hne
        simp only [h, Caller.admits] at hval hadmits ⊢
        omega
      · simp
  | joined h hk =>
      have hnone : ∀ i, s.threads i = .absent := fun i =>
        hs.absent (by simp only [h, Caller.admits]; omega)
      have hreset : Orderly { s with polling := false } :=
        hs.setPolling hnone (by simp [h, Caller.resting])
      refine hreset.proceed (by simp only [h]; rfl)
        (Or.inl fun task => by simp only [h]; cases task <;> rfl) ?_ ?_ ?_
      · intro i hadmits
        simp only [h, Caller.admits] at hadmits
        omega
      · simp [Caller.knows]
      · simp
  | stopped h hstarted =>
      have hpolling := hs.resting (by simp [h, Caller.resting]) hstarted
      refine hs.proceed ?_ (Or.inr ?_) ?_ ?_ ?_ <;>
        simp [h, hstarted, hpolling, Caller.expected, Caller.admits, Caller.knows]
  | renew h hstarted =>
      have hpolling := hs.resting (by simp [h, Caller.resting]) hstarted
      refine hs.proceed ?_ (Or.inr ?_) ?_ ?_ ?_ <;>
        simp [h, hstarted, hpolling, Caller.expected, Caller.admits, Caller.knows]
  | renewed h =>
      have hstarted := hs.knows false (by simp [h, Caller.knows])
      have hzero : s.load = 0 := hs.load.trans (by rw [h]; rfl)
      have hnone : ∀ i, s.threads i = .absent := fun i => hs.absent (by simp [h, Caller.admits])
      refine ⟨?_, ?_, ?_, fun i hi => absurd (hnone i) hi, ?_, fun _ _ => ?_, hs.mode⟩
      · simp [State.load, queuedErrands, IoService.fresh, hnone, Worker.weight, Worker.errand,
          Caller.expected]
      · simp [IoService.fresh]
      · simp [hnone, Worker.errand]
      · simp [Caller.knows]
      · exact hs.resting (by simp [h, Caller.resting]) hstarted

theorem Orderly.step (hs : Orderly s) {move : Move m n} (h : step s move = some s') :
    Orderly s' := by
  cases step_changes h with
  | start hidle =>
      have hresting := hs.resting (by simp [hidle, Caller.resting])
      refine hs.proceed ?_ (Or.inr ?_) ?_ ?_ fun _ => hresting <;>
        simp [hidle, Caller.expected, Caller.admits, Caller.knows]
  | stop hidle hcall =>
      have hresting := hs.resting (by simp [hidle, Caller.resting])
      refine hs.proceed ?_ (Or.inr ?_) ?_ ?_ fun _ => hresting <;>
        simp [hidle, Caller.expected, Caller.admits, Caller.knows]
  | caller h => exact hs.calls h
  | worker h => exact hs.works h
  | submit hmove h => exact hs.submits h

theorem orderly_run {threads : Nat} {pool : Bool}
    {s : State (serviceCount threads pool) threads} {ms : List (Move _ threads)}
    (hs : Steps.run Service.step (ofThreads threads pool) ms = some s) : Orderly s :=
  Steps.states_invariant (f := Service.step) (I := Orderly) (P := fun _ => True)
    (fun _ hpre hstep _ => hpre.step hstep) (orderly_ofThreads threads pool)
    (fun _ _ => trivial) s (Steps.run_mem_states hs)

end Orderly

end AsioWrapper.Service
