import AsioWrapper.Service.Serial
import AsioWrapper.Service.Starting

/-!
# Threads and their slots

`Start` assigns a new thread to each slot and `Stop` joins them one by one.
Assigning over a thread that has not been joined ends the process, and so does
joining an empty slot.  Where the caller is decides which slots are taken, so
neither happens; and when `Stop` has joined the last thread, its handler has
stopped every `io_service`.
-/

namespace AsioWrapper.Service

open AsioWrapper.Asio
open AsioWrapper.Foundation
open State

variable {m n : Nat} [NeZero m] {s s' : State m n} {i : Fin n}

/-! ## The slots that are taken -/

def Populated (s : State m n) : Prop :=
  ∀ i : Fin n, s.caller.admits s.started i → s.threads i ≠ .absent

theorem populated_ofThreads (threads : Nat) (pool : Bool) : Populated (ofThreads threads pool) := by
  intro i hadmits
  cases hadmits

theorem Works.present_iff (h : Works s i s') (k : Fin n) :
    s'.threads k ≠ .absent ↔ s.threads k ≠ .absent := by
  have hset {v w : Worker} (h : s.threads i = v) (hv : v ≠ .absent) (hw : w ≠ .absent) :
      (s.setThread i w).threads k ≠ .absent ↔ s.threads k ≠ .absent := by
    by_cases hk : k = i
    · subst hk
      rw [setThread_self, h]
      exact ⟨fun _ => hv, fun _ => hw⟩
    · rw [setThread_of_ne hk]
  cases h with
  | ran h hstopped =>
      rw [leave_threads]
      exact hset h (by simp) (by simp)
  | quit h hstarted =>
      rw [leave_threads]
      exact hset h (by simp) (by simp)
  | fail h hjob =>
      change (s.leave i).threads k ≠ .absent ↔ _
      rw [leave_threads]
      exact hset h (by simp) (by simp)
  | take h hlive hfront => exact hset h (by simp) (by simp)
  | readMode h => exact hset h (by simp) (by simp)
  | enter h => exact hset h (by simp) (by simp)
  | polled h hready => exact hset h (by simp) (by simp)
  | announce h hstarted => exact hset h (by simp) (by simp)
  | halt h hstarted => exact hset h (by simp) (by simp)
  | stopOne h hk => exact hset h (by simp) (by simp)
  | halted h hk => exact hset h (by simp) (by simp)
  | finish h hjob => exact hset h (by simp) (by simp)
  | again h hstarted => exact hset h (by simp) (by simp)
  | retry h hjob => exact hset h (by simp) (by simp)
  | exit h => exact hset h (by simp) (by simp)

theorem Works.caller_eq (h : Works s i s') : s'.caller = s.caller := by
  cases h with
  | ran => exact leave_caller
  | quit => exact leave_caller
  | fail => exact leave_caller
  | _ => rfl

theorem Caller.admits_of_permits {c : Caller} {task : Task} (h : c.permits task = true)
    (started started' : Bool) (k : Nat) (hadmits : c.admits started k) : c.admits started' k := by
  cases c <;> cases task <;> first | exact hadmits | cases h

theorem Populated.works (hs : Populated s) (ho : Orderly s) (h : Works s i s') :
    Populated s' := by
  intro k hadmits
  rw [h.present_iff]
  rw [h.caller_eq] at hadmits
  rcases ho.works_cases h with hshifts | ⟨p, strand, handler, -, -, rfl⟩ |
    ⟨p, strand, job, job', task, hthread, herrand, -, rfl⟩
  · exact hs k (hshifts.started ▸ hadmits)
  · exact hs k hadmits
  · have hpermits := (ho.errand i task (by rw [hthread]; exact herrand)).2
    exact hs k (Caller.admits_of_permits hpermits _ _ k hadmits)

theorem Populated.calls (hs : Populated s) (ho : Orderly s) (h : Calls s s') : Populated s' := by
  cases h with
  | alreadyStarted h hstarted => exact fun k _ => hs k (by rw [h]; exact hstarted)
  | prepare h hstarted => exact fun k hadmits => hadmits.elim
  | post h => exact fun k hadmits => absurd hadmits (Nat.not_lt_zero _)
  | @spawn thread h hk =>
      intro k hadmits
      change (s.setThread ⟨thread, hk⟩ .created).threads k ≠ .absent
      by_cases heq : k = ⟨thread, hk⟩
      · subst heq
        rw [setThread_self]
        simp
      · rw [setThread_of_ne heq]
        apply hs k
        rw [h]
        have hval := Fin.val_ne_of_ne heq
        simp only [Caller.admits] at hval hadmits ⊢
        omega
  | spawned h hk =>
      intro k _
      apply hs k
      rw [h]
      exact Nat.lt_of_lt_of_le k.isLt (Nat.le_of_not_lt hk)
  | started h hstarted => exact fun k _ => hs k (by rw [h]; trivial)
  | notStarted h hstarted => exact fun k hadmits => hs k (by rw [h]; exact hadmits)
  | accept h hstarted => exact fun k _ => hs k (by rw [h]; exact hstarted)
  | postStop h => exact fun k _ => hs k (by rw [h]; trivial)
  | @join thread restart h hk hexited =>
      intro k hadmits
      change (s.setThread ⟨thread, hk⟩ .absent).threads k ≠ .absent
      simp only [Caller.admits] at hadmits
      have hne : k ≠ ⟨thread, hk⟩ := by
        rintro rfl
        exact absurd hadmits (Nat.not_succ_le_self _)
      rw [setThread_of_ne hne]
      apply hs k
      rw [h]
      exact Nat.le_of_succ_le hadmits
  | joined h hk => exact fun k hadmits => hadmits.elim
  | stopped h hstarted =>
      intro k hadmits
      cases hstarted.symm.trans hadmits
  | renew h hstarted => exact fun k hadmits => hadmits.elim
  | renewed h =>
      intro k hadmits
      have hstarted := ho.knows false (by simp [h, Caller.knows])
      cases hstarted.symm.trans hadmits

theorem Populated.step (hs : Populated s) (ho : Orderly s) {move : Move m n}
    (h : step s move = some s') : Populated s' := by
  cases step_changes h with
  | start hidle => exact fun k hadmits => hs k (by rw [hidle]; exact hadmits)
  | stop hidle hcall => exact fun k hadmits => hs k (by rw [hidle]; exact hadmits)
  | caller hcalls => exact hs.calls ho hcalls
  | worker hworks => exact hs.works ho hworks
  | submit hmove hsubmits =>
      intro k hadmits
      rw [hsubmits.caller, hsubmits.started] at hadmits
      rw [hsubmits.threads]
      exact hs k hadmits

/-! ## The `io_service`s that are stopped -/

structure Swept (s : State m n) : Prop where
  passed : ∀ i p strand k, s.threads i = .running p strand (.stopping k) →
    ∀ j : Fin m, j.val < k → (s.services j).stopped = true
  cleared : s.caller.joins = true → s.started = false → ∀ j, (s.services j).stopped = true

theorem swept_ofThreads (threads : Nat) (pool : Bool) : Swept (ofThreads threads pool) where
  passed i p strand k h := by cases h
  cleared h := by cases h

theorem Works.stopped_mono (h : Works s i s') {j : Fin m} (hj : (s.services j).stopped = true) :
    (s'.services j).stopped = true := by
  cases h with
  | take => exact (modifyService_stopped (f := .pop _) (fun _ => rfl) j).trans hj
  | ran => exact stopped_leave hj
  | quit => exact stopped_leave hj
  | fail => exact stopped_leave hj
  | stopOne => exact (modifyService_stop j).mpr (Or.inl hj)
  | _ => exact hj

theorem Swept.of_works (hs : Swept s) (h : Works s i s')
    (hmoved : ∀ p strand k, s'.threads i = .running p strand (.stopping k) →
      ∀ j : Fin m, j.val < k → (s'.services j).stopped = true)
    (hcleared : s'.started = false → s.started = true → ∀ j, (s'.services j).stopped = true) :
    Swept s' where
  passed k p strand service hk j hj := by
    by_cases hki : k = i
    · subst hki
      exact hmoved p strand service hk j hj
    · rw [h.others hki] at hk
      exact h.stopped_mono (hs.passed k p strand service hk j hj)
  cleared hjoins hstarted j := by
    rw [h.caller_eq] at hjoins
    cases hbefore : s.started with
    | true => exact hcleared hstarted hbefore j
    | false => exact h.stopped_mono (hs.cleared hjoins hbefore j)

theorem Swept.works (hs : Swept s) (h : Works s i s') : Swept s' := by
  -- a step that neither clears the flag nor enters the loop of the stop handler
  have hplain (hleft : ∀ p strand k, s'.threads i ≠ .running p strand (.stopping k))
      (hstarted : s'.started = false → s.started = false) : Swept s' := by
    refine hs.of_works h (fun p strand k hk => absurd hk (hleft p strand k)) fun hcleared hset => ?_
    cases hset.symm.trans (hstarted hcleared)
  have hset {w : Worker} : (s.setThread i w).threads i = w := setThread_self
  have hleave : (s.leave i).threads i = .left := by rw [leave_threads, setThread_self]
  cases h with
  | @take p strand handler h hlive hfront =>
      refine hplain (fun q held k hk => ?_) id
      cases htask : handler.task <;> simp [htask, Task.job] at hk
  | ran h hstopped =>
      refine hplain (fun q held k hk => by cases hleave.symm.trans hk) fun hcleared => ?_
      exact leave_started (s := s) (i := i) ▸ hcleared
  | quit h hstarted =>
      exact hplain (fun q held k hk => by cases hleave.symm.trans hk) fun _ => hstarted
  | fail h hjob =>
      refine hplain (fun q held k hk => by cases hleave.symm.trans hk) fun hcleared => ?_
      exact leave_started (s := s) (i := i) ▸ hcleared
  | announce h hstarted =>
      exact hplain (fun q held k hk => by cases hset.symm.trans hk) fun _ => hstarted
  | halt h hstarted =>
      refine hs.of_works (.halt h hstarted) (fun q held k hk j hj => ?_) fun hcleared => ?_
      · cases hset.symm.trans hk
        exact absurd hj (Nat.not_lt_zero _)
      · cases hstarted.symm.trans hcleared
  | @stopOne p strand k h hk =>
      refine hs.of_works (.stopOne h hk) (fun q held k' hk' j hj => ?_) fun hcleared hstarted => ?_
      · cases hset.symm.trans hk'
        rw [modifyService_stop]
        rcases Nat.lt_succ_iff_lt_or_eq.mp hj with hless | heq
        · exact Or.inl (hs.passed i p strand k h j hless)
        · exact Or.inr (Fin.ext heq)
      · cases hstarted.symm.trans hcleared
  | @halted p strand k h hk =>
      refine hs.of_works (.halted h hk) (fun q held k' hk' => ?_) fun _ _ j => ?_
      · cases hset.symm.trans hk'
      · exact hs.passed i p strand k h j (Nat.lt_of_lt_of_le j.isLt (Nat.le_of_not_lt hk))
  | _ => exact hplain (fun q held k hk => by cases hset.symm.trans hk) id

omit [NeZero m] in
theorem Swept.proceed (hs : Swept s)
    (hthreads : ∀ i p strand k, s'.threads i = .running p strand (.stopping k) →
      s.threads i = .running p strand (.stopping k))
    (hstopped : ∀ j, (s'.services j).stopped = (s.services j).stopped)
    (hjoins : s'.caller.joins = true → s'.started = false →
      s.caller.joins = true ∧ s.started = false) : Swept s' where
  passed i p strand k h j hj := by
    rw [hstopped]
    exact hs.passed i p strand k (hthreads i p strand k h) j hj
  cleared h hstarted j := by
    rw [hstopped]
    exact hs.cleared (hjoins h hstarted).1 (hjoins h hstarted).2 j

theorem Swept.calls (hs : Swept s) (ho : Orderly s) (h : Calls s s') : Swept s' := by
  have hset {a : Fin n} {w : Worker} (hw : ∀ p strand k, w ≠ .running p strand (.stopping k))
      (i : Fin n) (p : Bool) (strand : Option Nat) (k : Nat)
      (h : (s.setThread a w).threads i = .running p strand (.stopping k)) :
      s.threads i = .running p strand (.stopping k) := by
    by_cases hia : i = a
    · subst hia
      rw [setThread_self] at h
      exact absurd h (hw p strand k)
    · rwa [setThread_of_ne hia] at h
  have hposted {task : Task} (j : Fin m) :
      ((s.post task).services j).stopped = (s.services j).stopped :=
    modifyService_stopped (f := .post ⟨s.strand, task⟩) (fun _ => rfl) j
  cases h with
  | post h => exact hs.proceed (fun _ _ _ _ h => h) hposted fun hjoins => by cases hjoins
  | postStop h =>
      refine hs.proceed (fun _ _ _ _ h => h) hposted fun _ hcleared => ?_
      have hset := ho.knows true (by simp [h, Caller.knows])
      cases hset.symm.trans hcleared
  | spawn h hk => exact hs.proceed (hset (by simp)) (fun _ => rfl) fun hjoins => by cases hjoins
  | join h hk hexited =>
      exact hs.proceed (hset (by simp)) (fun _ => rfl) fun _ hcleared => ⟨by rw [h]; rfl, hcleared⟩
  | joined h hk =>
      exact hs.proceed (fun _ _ _ _ h => h) (fun _ => rfl)
        fun _ hcleared => ⟨by rw [h]; rfl, hcleared⟩
  | renewed h =>
      have hnone : ∀ i, s.threads i = .absent := fun i => ho.absent (by simp [h, Caller.admits])
      refine ⟨fun i p strand k hk => ?_, fun hjoins => by cases hjoins⟩
      cases (hnone i).symm.trans hk
  | _ => exact hs.proceed (fun _ _ _ _ h => h) (fun _ => rfl) fun hjoins => by cases hjoins

theorem Swept.step (hs : Swept s) (ho : Orderly s) {move : Move m n}
    (h : step s move = some s') : Swept s' := by
  cases step_changes h with
  | start hidle =>
      exact hs.proceed (fun _ _ _ _ h => h) (fun _ => rfl) fun hjoins => by cases hjoins
  | stop hidle hcall =>
      exact hs.proceed (fun _ _ _ _ h => h) (fun _ => rfl) fun hjoins => by cases hjoins
  | caller hcalls => exact hs.calls ho hcalls
  | worker hworks => exact hs.works hworks
  | submit hmove hsubmits =>
      refine hs.proceed (fun i p strand k hk => ?_) hsubmits.stopped fun hjoins hcleared => ?_
      · rwa [hsubmits.threads] at hk
      · rw [hsubmits.caller] at hjoins
        rw [hsubmits.started] at hcleared
        exact ⟨hjoins, hcleared⟩

/-! ## Runs -/

structure Joinable (s : State m n) : Prop where
  orderly : Orderly s
  populated : Populated s
  swept : Swept s

theorem joinable_ofThreads (threads : Nat) (pool : Bool) : Joinable (ofThreads threads pool) where
  orderly := orderly_ofThreads threads pool
  populated := populated_ofThreads threads pool
  swept := swept_ofThreads threads pool

theorem Joinable.step (hs : Joinable s) {move : Move m n} (h : step s move = some s') :
    Joinable s' where
  orderly := hs.orderly.step h
  populated := hs.populated.step hs.orderly h
  swept := hs.swept.step hs.orderly h

theorem Joinable.present_iff (hs : Joinable s) (i : Fin n) :
    s.threads i ≠ .absent ↔ s.caller.admits s.started i :=
  ⟨hs.orderly.present i, hs.populated i⟩

/--
In every run `Start` assigns its threads to empty slots and `Stop` joins threads that exist.
Between two calls there are either all threads or none, as the flag says, and a `Stop` that is
done waiting leaves every `io_service` stopped.
-/
theorem thread_slots_safe (threads : Nat) (pool : Bool)
    (ms : List (Move (serviceCount threads pool) threads)) :
    ∀ s ∈ Steps.states Service.step (ofThreads threads pool) ms,
      (∀ k (hk : k < threads), s.caller = .spawning k → s.threads ⟨k, hk⟩ = .absent) ∧
      (∀ k restart (hk : k < threads), s.caller = .joining k restart →
        s.threads ⟨k, hk⟩ ≠ .absent) ∧
      (∀ returned, s.caller = .idle returned →
        ∀ i, s.threads i ≠ .absent ↔ s.started = true) ∧
      (∀ restart, s.caller = .awaitingStop restart → s.started = false →
        (∀ i, s.threads i = .absent) ∧ ∀ j, (s.services j).stopped = true) := by
  intro s hs
  have hjoinable : Joinable s :=
    Steps.states_invariant (P := fun _ => True) (fun _ hpre hstep _ => hpre.step hstep)
      (joinable_ofThreads threads pool) (fun _ _ => trivial) s hs
  refine ⟨fun k hk hcaller => ?_, fun k restart hk hcaller => ?_, fun returned hcaller i => ?_,
    fun restart hcaller hstarted => ⟨fun i => ?_, ?_⟩⟩
  · exact hjoinable.orderly.absent (by simp [hcaller, Caller.admits])
  · rw [hjoinable.present_iff, hcaller]
    exact Nat.le_refl k
  · rw [hjoinable.present_iff, hcaller]
    rfl
  · exact hjoinable.orderly.absent (by simp [hcaller, Caller.admits])
  · exact hjoinable.swept.cleared (by rw [hcaller]; rfl) hstarted

theorem thread_slots_safe_stopped :
    ∃ s, Steps.run Service.step (ofThreads 1 false)
        (startOne ++ [.call .stop] ++ stopOne.dropLast) = some s ∧
      s.caller = .awaitingStop none ∧ (∀ i, s.threads i = .absent) ∧
      ∀ j, (s.services j).stopped = true := by
  refine ⟨_, rfl, rfl, ?_⟩
  exact (thread_slots_safe 1 false (startOne ++ [.call .stop] ++ stopOne.dropLast) _
    (Steps.run_mem_states rfl)).2.2.2 none rfl rfl

end AsioWrapper.Service
