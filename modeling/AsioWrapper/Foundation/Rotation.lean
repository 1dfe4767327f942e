import Mathlib.Data.Fintype.EquivFin
import Mathlib.Data.List.Count
import Mathlib.Data.Nat.ModEq

/-!
# Taking turns

Consecutive numbers modulo `k` visit `k` places in turn.
-/

namespace AsioWrapper.Foundation

def turns (k r count : Nat) : List Nat := (List.range count).map fun i => (r + 1 + i) % k

theorem length_turns (k r count : Nat) : (turns k r count).length = count := by
  simp [turns]

theorem turns_succ (k r count : Nat) :
    turns k r (count + 1) = (r + 1) % k :: turns k (r + 1) count := by
  simp only [turns, List.range_succ_eq_map, List.map_cons, List.map_map, Nat.add_zero]
  refine congrArg (_ :: ·) (List.map_congr_left fun i _ => ?_)
  simp only [Function.comp_apply]
  congr 1
  omega

theorem turns_add (k r first second : Nat) :
    turns k r (first + second) = turns k r first ++ turns k (r + first) second := by
  induction first generalizing r with
  | zero => simp [turns]
  | succ first ih =>
      rw [show first + 1 + second = first + second + 1 by omega, turns_succ, turns_succ, ih,
        List.cons_append, show r + 1 + first = r + (first + 1) by omega]

/-- A whole round visits every residue once: the visits are different and there are enough. -/
theorem count_turns_round {k : Nat} (r : Nat) {j : Nat} (hj : j < k) :
    (turns k r k).count j = 1 := by
  have hinjective : Function.Injective fun i : Fin k =>
      (⟨(r + 1 + i) % k, Nat.mod_lt _ i.pos⟩ : Fin k) := by
    intro i i' heq
    have hmod : (r + 1 + i) % k = (r + 1 + i') % k := Fin.val_eq_of_eq heq
    have hcancel : (i : Nat) ≡ i' [MOD k] := Nat.ModEq.add_left_cancel' (r + 1) hmod
    exact Fin.ext (Nat.ModEq.eq_of_lt_of_lt hcancel i.isLt i'.isLt)
  have hnodup : (turns k r k).Nodup := by
    refine List.Nodup.map_on (fun i hi i' hi' heq => ?_) List.nodup_range
    have hi := List.mem_range.mp hi
    have hi' := List.mem_range.mp hi'
    exact Fin.val_eq_of_eq (@hinjective ⟨i, hi⟩ ⟨i', hi'⟩ (Fin.ext heq))
  obtain ⟨i, hi⟩ := Finite.injective_iff_surjective.mp hinjective ⟨j, hj⟩
  refine List.count_eq_one_of_mem hnodup (List.mem_map.mpr ⟨i, ?_, Fin.val_eq_of_eq hi⟩)
  exact List.mem_range.mpr i.isLt

theorem count_turns {k : Nat} (r count : Nat) {j : Nat} (hj : j < k) :
    count / k ≤ (turns k r count).count j ∧ (turns k r count).count j ≤ count / k + 1 := by
  induction count using Nat.strong_induction_on generalizing r with
  | _ count ih =>
      by_cases hshort : count < k
      · have hprefix : (turns k r count).count j ≤ (turns k r k).count j := by
          rw [show k = count + (k - count) by omega, turns_add, List.count_append]
          omega
        rw [count_turns_round r hj] at hprefix
        rw [Nat.div_eq_of_lt hshort]
        omega
      · obtain ⟨rest, rfl⟩ : ∃ rest, count = k + rest := ⟨count - k, by omega⟩
        have hrest := ih rest (by omega) (r + k)
        rw [turns_add, List.count_append, count_turns_round r hj,
          Nat.add_div_left rest (by omega)]
        omega

theorem take_drop_turns {k r count i : Nat} (hi : i + k ≤ count) :
    ((turns k r count).drop i).take k = turns k (r + i) k := by
  obtain ⟨rest, rfl⟩ : ∃ rest, count = i + (k + rest) := ⟨count - (i + k), by omega⟩
  rw [turns_add, turns_add, List.drop_left' (length_turns k r i),
    List.take_left' (length_turns k (r + i) k)]

end AsioWrapper.Foundation
