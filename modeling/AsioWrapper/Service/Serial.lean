import AsioWrapper.Service.Workers

/-!
# Handlers one at a time

Handlers that go through one strand do not overlap.  Where no strand is required
every `io_service` has a single thread, so that none of its handlers overlap.
In a pool the handlers of the timed calls of a server or a client, which go
through no strand, may run while another handler of it does.
-/

namespace AsioWrapper.Service

open AsioWrapper.Asio
open AsioWrapper.Foundation
open State

variable {m n : Nat}

/-- The strand of the handler the thread is running. -/
def Worker.holds : Worker → Option (Option Nat)
  | running _ strand _ => some strand
  | _ => none

variable [NeZero m] {s s' : State m n} {i : Fin n}

/-! ## What a step does to the handlers that are running -/

omit [NeZero m] in
@[simp]
theorem State.setThread_strandRequired {w : Worker} :
    (s.setThread i w).strandRequired = s.strandRequired := rfl

theorem Works.strandRequired_eq (h : Works s i s') : s'.strandRequired = s.strandRequired := by
  have hleave : (s.leave i).strandRequired = s.strandRequired :=
    leave_field State.strandRequired fun _ _ => rfl
  cases h with
  | ran => exact hleave
  | quit => exact hleave
  | fail => exact hleave
  | _ => rfl

theorem step_strandRequired {move : Move m n} (h : step s move = some s') :
    s'.strandRequired = s.strandRequired := by
  cases move with
  | call call =>
      cases step_changes h with
      | start => rfl
      | stop => rfl
      | submit hmove _ => exact absurd rfl (hmove call)
  | caller => cases callerStep_calls h <;> rfl
  | worker k turn => exact (workerStep_works h).strandRequired_eq
  | submit j strand =>
      cases h
      rfl
  | initiate j =>
      cases h
      rfl
  | complete j strand =>
      simp only [step] at h
      split at h
      · cases h
      · cases h
        rfl
  | getAsioService =>
      cases h
      rfl

theorem Works.others (h : Works s i s') {k : Fin n} (hk : k ≠ i) :
    s'.threads k = s.threads k := by
  have hleave : (s.leave i).threads k = s.threads k := by
    rw [leave_threads, setThread_of_ne hk]
  cases h with
  | ran => exact hleave
  | quit => exact hleave
  | fail => exact hleave
  | _ => exact setThread_of_ne hk

theorem holds_leave : ((s.leave i).threads i).holds = none := by
  rw [leave_threads, setThread_self]
  rfl

omit [NeZero m] in
private theorem handlerStep_holds {p : Bool} {strand held : Option Nat} {job : Job}
    (h : ((handlerStep s i p strand job).threads i).holds = some held) : held = strand := by
  have hserving : ((s.setThread i (.serving p)).threads i).holds = none := by
    rw [setThread_self]
    rfl
  have hrunning {job : Job} :
      ((s.setThread i (.running p strand job)).threads i).holds = some strand := by
    rw [setThread_self]
    rfl
  cases job with
  | start =>
      simp only [handlerStep] at h
      split at h
      · cases hserving.symm.trans h
      · cases hrunning.symm.trans h
        rfl
  | stop =>
      simp only [handlerStep] at h
      split at h
      · cases hrunning.symm.trans h
        rfl
      · cases hserving.symm.trans h
  | stopping service =>
      simp only [handlerStep] at h
      split at h
      · cases hrunning.symm.trans h
        rfl
      · cases hrunning.symm.trans h
        rfl
  | _ => cases hserving.symm.trans h

private theorem catchStep_holds {p : Bool} {failure : Failure}
    (h : catchStep s i p failure = some s') : (s'.threads i).holds = none := by
  cases failure with
  | system ec =>
      simp only [catchStep] at h
      split at h
      · cases h
        exact congrArg Worker.holds setThread_self
      · cases h
        exact holds_leave
  | other => cases h

private theorem workerStep_holds {turn : Turn} (h : workerStep s i turn = some s')
    {strand : Option Nat} (hholds : (s'.threads i).holds = some strand) :
    (s.threads i).holds = some strand ∨
      (s.threads i).holds = none ∧ s.busy (home i) strand = false := by
  have hidle {w : Worker} (hw : w.holds = none) :
      ((s.setThread i w).threads i).holds ≠ some strand := by
    rw [setThread_self, hw]
    simp
  have hleft : ((s.leave i).threads i).holds ≠ some strand := by
    rw [holds_leave]
    simp
  unfold workerStep at h
  split at h
  · cases h
    exact absurd hholds (hidle rfl)
  · cases h
    exact absurd hholds (hidle rfl)
  · rename_i hthread
    split at h
    · cases h
    · rename_i hfree
      obtain ⟨handler, -, rfl⟩ := Option.map_eq_some_iff.mp h
      rw [setThread_self] at hholds
      cases hholds
      simp only [Bool.or_eq_true, not_or, Bool.not_eq_true] at hfree
      exact Or.inr ⟨by rw [hthread]; rfl, hfree.2⟩
  · split at h
    · cases h
      exact absurd hholds (hidle rfl)
    · cases h
  · split at h
    · cases h
      exact absurd hholds hleft
    · cases h
  · rename_i hthread
    cases h
    rw [hthread, handlerStep_holds hholds]
    exact Or.inl rfl
  · split at h
    · rw [catchStep_holds h] at hholds
      cases hholds
    · cases h
  · split at h
    · cases h
      exact absurd hholds (hidle rfl)
    · cases h
      exact absurd hholds hleft
  · cases h
    exact absurd hholds (hidle rfl)
  · cases h

theorem Worker.occupies_of_holds {w : Worker} {id : Nat} (h : w.holds = some (some id)) :
    w.occupies (some id) = true := by
  cases w with
  | running p held job =>
      cases h
      simp [occupies]
  | _ => cases h

/-! ## One handler at a time -/

structure Serial (s : State m n) : Prop where
  sole : s.strandRequired = false → ∀ i k : Fin n, home i = (home k : Fin m) → i = k
  exclusive : ∀ i k : Fin n, ∀ id, home i = (home k : Fin m) →
    (s.threads i).holds = some (some id) → (s.threads k).holds = some (some id) → i = k

theorem serial_ofThreads (threads : Nat) (pool : Bool) : Serial (ofThreads threads pool) where
  sole hfree i k hhome := by
    have hpool : pool = false := by
      have hpos : threads ≠ 0 := Nat.ne_of_gt (Nat.lt_of_le_of_lt (Nat.zero_le _) i.isLt)
      simpa [ofThreads, hpos] using hfree
    subst hpool
    have hcount : serviceCount threads false = threads := by
      unfold serviceCount
      split
      · exact absurd i.isLt (by omega)
      · rfl
    have hval := congrArg Fin.val hhome
    simp only [home, Fin.val_ofNat, hcount, Nat.mod_eq_of_lt i.isLt, Nat.mod_eq_of_lt k.isLt]
      at hval
    exact Fin.ext hval
  exclusive i k id _ hi := by cases hi

theorem Serial.of_threads (hs : Serial s) (hrequired : s'.strandRequired = s.strandRequired)
    (hthreads : ∀ k, s'.threads k = s.threads k ∨ (s'.threads k).holds = none) : Serial s' := by
  have hheld {k : Fin n} {strand : Option Nat} (h : (s'.threads k).holds = some strand) :
      (s.threads k).holds = some strand := by
    rcases hthreads k with hsame | hnone
    · rwa [hsame] at h
    · cases hnone.symm.trans h
  constructor
  · rw [hrequired]
    exact hs.sole
  · intro i k id hhome hi hk
    exact hs.exclusive i k id hhome (hheld hi) (hheld hk)

theorem Serial.worker (hs : Serial s) {turn : Turn} (h : workerStep s i turn = some s') :
    Serial s' := by
  have hrequired := (workerStep_works h).strandRequired_eq
  have hother {k : Fin n} (hk : k ≠ i) := (workerStep_works h).others hk
  -- the thread that has moved against any other one
  have hmoved {k : Fin n} {id : Nat} (hk : k ≠ i) (hhome : home i = (home k : Fin m))
      (hi : (s'.threads i).holds = some (some id)) (hk' : (s'.threads k).holds = some (some id)) :
      False := by
    rw [hother hk] at hk'
    rcases workerStep_holds h hi with hheld | ⟨-, hfree⟩
    · exact hk (hs.exclusive i k id hhome hheld hk').symm
    · have hbusy : s.busy (home i) (some id) = true := by
        simp only [State.busy, decide_eq_true_eq]
        exact ⟨k, hhome.symm, Worker.occupies_of_holds hk'⟩
      cases hfree.symm.trans hbusy
  constructor
  · rw [hrequired]
    exact hs.sole
  · intro a b id hhome ha hb
    by_cases hab : a = b
    · exact hab
    · by_cases hai : a = i
      · subst hai
        exact (hmoved (Ne.symm hab) hhome ha hb).elim
      · by_cases hbi : b = i
        · subst hbi
          exact (hmoved hab hhome.symm hb ha).elim
        · rw [hother hai] at ha
          rw [hother hbi] at hb
          exact hs.exclusive a b id hhome ha hb

theorem Calls.threads_cases (h : Calls s s') (k : Fin n) :
    s'.threads k = s.threads k ∨ (s'.threads k).holds = none := by
  cases h with
  | @spawn thread h hk =>
      by_cases heq : k = ⟨thread, hk⟩
      · subst heq
        exact Or.inr (congrArg Worker.holds setThread_self)
      · exact Or.inl (setThread_of_ne heq)
  | @join thread restart h hk hexited =>
      by_cases heq : k = ⟨thread, hk⟩
      · subst heq
        exact Or.inr (congrArg Worker.holds setThread_self)
      · exact Or.inl (setThread_of_ne heq)
  | _ => exact Or.inl rfl

theorem Serial.step (hs : Serial s) {move : Move m n} (h : step s move = some s') :
    Serial s' := by
  have hrequired := step_strandRequired h
  cases step_changes h with
  | start hidle => exact hs.of_threads hrequired fun _ => Or.inl rfl
  | stop hidle hcall => exact hs.of_threads hrequired fun _ => Or.inl rfl
  | caller hcalls => exact hs.of_threads hrequired hcalls.threads_cases
  | worker hworks => exact hs.worker h
  | submit hmove hsubmits =>
      exact hs.of_threads hrequired fun k => Or.inl (congrFun hsubmits.threads k)

/-! ## Runs -/

/--
In every run the threads of one `io_service` are, at any time, running at most one handler of
each strand, and at most one handler at all if the service requires no strand.
-/
theorem handlers_never_overlap (threads : Nat) (pool : Bool)
    (ms : List (Move (serviceCount threads pool) threads)) :
    ∀ s ∈ Steps.states Service.step (ofThreads threads pool) ms,
      ∀ j : Fin (serviceCount threads pool),
        (∀ id, (Finset.univ.filter fun i : Fin threads =>
          home i = j ∧ (s.threads i).holds = some (some id)).card ≤ 1) ∧
        (s.strandRequired = false → (Finset.univ.filter fun i : Fin threads =>
          home i = j ∧ (s.threads i).holds.isSome = true).card ≤ 1) := by
  intro s hs j
  have hserial : Serial s :=
    Steps.states_invariant (P := fun _ => True) (fun _ hpre hstep _ => hpre.step hstep)
      (serial_ofThreads threads pool) (fun _ _ => trivial) s hs
  refine ⟨fun id => ?_, fun hfree => ?_⟩
  · rw [Finset.card_le_one]
    intro a ha b hb
    rw [Finset.mem_filter] at ha hb
    exact hserial.exclusive a b id (ha.2.1.trans hb.2.1.symm) ha.2.2 hb.2.2
  · rw [Finset.card_le_one]
    intro a ha b hb
    rw [Finset.mem_filter] at ha hb
    exact hserial.sole hfree a b (ha.2.1.trans hb.2.1.symm)

def submitTwo : List (Move 1 2) :=
  startTwo (some 0) ++
    [.submit ⟨0, Nat.zero_lt_one⟩ (some 7), .submit ⟨0, Nat.zero_lt_one⟩ (some 7),
      .worker ⟨0, Nat.zero_lt_two⟩ (.take (some 7))]

theorem handlers_never_overlap_pooled :
    ∃ s, Steps.run Service.step (ofThreads 2 true) submitTwo = some s ∧
      (s.threads 0).holds = some (some 7) ∧ s.threads 1 = .serving false ∧
      (s.services 0).queue = [⟨some 7, .user⟩] ∧
      (Finset.univ.filter fun i : Fin 2 =>
        home i = (0 : Fin (serviceCount 2 true)) ∧
          (s.threads i).holds = some (some 7)).card ≤ 1 := by
  refine ⟨_, rfl, rfl, rfl, rfl, ?_⟩
  exact (handlers_never_overlap 2 true submitTwo _ (Steps.run_mem_states rfl) 0).1 7

end AsioWrapper.Service
