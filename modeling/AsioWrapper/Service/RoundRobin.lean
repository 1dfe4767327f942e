import AsioWrapper.Foundation.Rotation
import AsioWrapper.Service.Endpoints

/-!
# The order in which `io_service`s are handed out

The index is raised before it is used, and `Start` sets it to zero.  Between
two starts the results of the calls are consecutive numbers modulo the number
of `io_service`s, as long as the index does not wrap around.
-/

namespace AsioWrapper.Service

open AsioWrapper.Foundation
open State

variable {m n : Nat}

section Index

variable [NeZero m] {s s' : State m n} {i : Fin n}

@[simp]
theorem State.leave_roundRobinIndex : (s.leave i).roundRobinIndex = s.roundRobinIndex :=
  leave_field State.roundRobinIndex fun _ _ => rfl

theorem Works.roundRobinIndex_eq (h : Works s i s') :
    s'.roundRobinIndex = s.roundRobinIndex := by
  cases h with
  | ran h hstopped => exact leave_roundRobinIndex
  | quit h hstarted => exact leave_roundRobinIndex
  | fail h hjob => exact leave_roundRobinIndex
  | _ => rfl

/-- The step of `Start` behind its check. -/
def resets (t : Transition (State m n) (Move m n)) : Bool :=
  match t.move, t.pre.caller with
  | .caller, .start _ => !t.pre.started
  | _, _ => false

theorem Calls.roundRobinIndex_eq (h : Calls s s')
    (hstart : ∀ p, s.caller = .start p → s.started = true) :
    s'.roundRobinIndex = s.roundRobinIndex := by
  cases h with
  | prepare h hstarted => simp [hstart _ h] at hstarted
  | _ => rfl

theorem step_roundRobinIndex {move : Move m n} (h : step s move = some s')
    (hmove : move ≠ .getAsioService) (hresets : resets ⟨s, move, s'⟩ = false) :
    s'.roundRobinIndex = s.roundRobinIndex := by
  cases move with
  | call call =>
      cases step_changes h with
      | start hidle => rfl
      | stop hidle hcall => rfl
      | submit hcall _ => exact absurd rfl (hcall call)
  | caller =>
      refine (callerStep_calls h).roundRobinIndex_eq fun p hp => ?_
      simpa [resets, hp] using hresets
  | worker i turn => exact (workerStep_works h).roundRobinIndex_eq
  | submit j strand =>
      cases h
      rfl
  | initiate j =>
      cases h
      rfl
  | complete j strand =>
      simp only [step] at h
      split at h
      · cases h
      · cases h
        rfl
  | getAsioService => exact absurd rfl hmove

end Index

variable [NeZero m]

def served (s : State m n) (moves : List (Move m n)) : List Nat :=
  ((Steps.trace step s moves).filter fun t => t.move = .getAsioService).map
    fun t => (getAsioService t.pre).1

/-- The calls of a run take turns, whatever the service does in between. -/
private theorem served_eq_turns {s : State m n} {moves : List (Move m n)}
    (hresets : ∀ t ∈ Steps.trace step s moves, resets t = false)
    (hroom : s.roundRobinIndex + (served s moves).length < 2 ^ 64) :
    served s moves = turns m s.roundRobinIndex (served s moves).length := by
  induction moves generalizing s with
  | nil => rfl
  | cons move moves ih =>
      cases hstep : step s move with
      | none => simp [served, Steps.trace, hstep, turns]
      | some s' =>
          simp only [Steps.trace, hstep, List.forall_mem_cons] at hresets
          by_cases hmove : move = .getAsioService
          · subst hmove
            have hindex : s'.roundRobinIndex = (s.roundRobinIndex + 1) % 2 ^ 64 := by
              cases hstep
              rfl
            have hserved : served s (.getAsioService :: moves) =
                (s.roundRobinIndex + 1) % 2 ^ 64 % m :: served s' moves := by
              simp [served, Steps.trace, hstep, getAsioService]
            rw [hserved, List.length_cons] at hroom
            have hsmall : (s.roundRobinIndex + 1) % 2 ^ 64 = s.roundRobinIndex + 1 :=
              Nat.mod_eq_of_lt (by omega)
            rw [hsmall] at hserved hindex
            have hrest := ih hresets.2 (by omega)
            rw [hserved, List.length_cons, turns_succ, hrest, hindex, length_turns]
          · have hindex : s'.roundRobinIndex = s.roundRobinIndex :=
              step_roundRobinIndex hstep hmove hresets.1
            have hserved : served s (move :: moves) = served s' moves := by
              simp [served, Steps.trace, hstep, hmove]
            rw [hserved] at hroom ⊢
            have hrest := ih hresets.2 (by omega)
            rwa [hindex] at hrest

/--
Round robin is balanced.  From any state, over any run without an accepted `Start` and with
any steps of the service between the calls, every result is the index of an `io_service`,
any `m` consecutive calls return each of them once, and no one is returned twice more often
than another.
-/
theorem getAsioService_balanced (s : State m n) (moves : List (Move m n))
    (hresets : ∀ t ∈ Steps.trace step s moves, resets t = false)
    (hroom : s.roundRobinIndex + (served s moves).length < 2 ^ 64) :
    (∀ index ∈ served s moves, index < m) ∧
    (∀ i, i + m ≤ (served s moves).length → ∀ j < m,
      (((served s moves).drop i).take m).count j = 1) ∧
    ∀ j < m, ∀ j' < m, (served s moves).count j ≤ (served s moves).count j' + 1 := by
  have hturns := served_eq_turns hresets hroom
  generalize (served s moves).length = count at hturns
  rw [hturns]
  refine ⟨fun index hindex => ?_, fun i hi j hj => ?_, fun j hj j' hj' => ?_⟩
  · obtain ⟨i, -, rfl⟩ := List.mem_map.mp hindex
    exact Nat.mod_lt _ (Nat.pos_of_ne_zero (NeZero.ne m))
  · rw [take_drop_turns hi]
    exact count_turns_round _ hj
  · have hupper := (count_turns s.roundRobinIndex count hj).2
    have hlower := (count_turns s.roundRobinIndex count hj').1
    omega

theorem getAsioService_balanced_threeThreads :
    served (ofThreads 3 false) [.getAsioService, .getAsioService, .call (.start false),
        .getAsioService, .getAsioService, .getAsioService] = [1, 2, 0, 1, 2] ∧
      ∀ j < 3, ∀ j' < 3, List.count j [1, 2, 0, 1, 2] ≤ List.count j' [1, 2, 0, 1, 2] + 1 := by
  have hserved : served (ofThreads 3 false) [.getAsioService, .getAsioService,
      .call (.start false), .getAsioService, .getAsioService, .getAsioService] =
        [1, 2, 0, 1, 2] := by decide
  refine ⟨hserved, ?_⟩
  have hbalanced := getAsioService_balanced (ofThreads 3 false) [.getAsioService,
    .getAsioService, .call (.start false), .getAsioService, .getAsioService, .getAsioService]
    (by decide) (by rw [hserved]; decide)
  rw [hserved] at hbalanced
  exact hbalanced.2.2

end AsioWrapper.Service
