import AsioWrapper.Utils.Uuid

/-!
# The order of UUIDs and of their texts

Arrays of bytes and texts are both ordered by their first difference.  The
digits stand in the order of their values and the dashes at the same places of
every text, so printing is strictly monotone.
-/

namespace AsioWrapper.Utils

/-- The comparison of `std::array`, by the first difference. -/
instance : LT UUID := ⟨fun u v => u.data.toList < v.data.toList⟩

instance (u v : UUID) : Decidable (u < v) :=
  inferInstanceAs (Decidable (u.data.toList < v.data.toList))

theorem UUID.lt_def (u v : UUID) : u < v ↔ u.data.toList < v.data.toList := Iff.rfl

/-! ## Digits -/

theorem digit_lt_digit : ∀ m n : Fin 16,
    digit (UInt8.ofNat m) < digit (UInt8.ofNat n) ↔ (m : Nat) < n := by decide

theorem digit_eq_digit : ∀ m n : Fin 16,
    digit (UInt8.ofNat m) = digit (UInt8.ofNat n) ↔ (m : Nat) = n := by decide

private theorem highDigit_lt (x y : UInt8) :
    highDigit x < highDigit y ↔ x.toNat / 16 < y.toNat / 16 := by
  have hx := x.toNat_lt
  have hy := y.toNat_lt
  rw [highDigit_eq, highDigit_eq]
  exact digit_lt_digit ⟨x.toNat / 16, by omega⟩ ⟨y.toNat / 16, by omega⟩

theorem highDigit_inj (x y : UInt8) :
    highDigit x = highDigit y ↔ x.toNat / 16 = y.toNat / 16 := by
  have hx := x.toNat_lt
  have hy := y.toNat_lt
  rw [highDigit_eq, highDigit_eq]
  exact digit_eq_digit ⟨x.toNat / 16, by omega⟩ ⟨y.toNat / 16, by omega⟩

private theorem lowDigit_lt (x y : UInt8) :
    lowDigit x < lowDigit y ↔ x.toNat % 16 < y.toNat % 16 := by
  rw [lowDigit_eq, lowDigit_eq]
  exact digit_lt_digit ⟨x.toNat % 16, by omega⟩ ⟨y.toNat % 16, by omega⟩

private theorem lowDigit_inj (x y : UInt8) :
    lowDigit x = lowDigit y ↔ x.toNat % 16 = y.toNat % 16 := by
  rw [lowDigit_eq, lowDigit_eq]
  exact digit_eq_digit ⟨x.toNat % 16, by omega⟩ ⟨y.toNat % 16, by omega⟩

theorem digits_lt_iff (x y : UInt8) :
    x < y ↔ highDigit x < highDigit y ∨
      highDigit x = highDigit y ∧ lowDigit x < lowDigit y := by
  rw [UInt8.lt_iff_toNat_lt, highDigit_lt, highDigit_inj, lowDigit_lt]
  omega

theorem digits_eq_iff (x y : UInt8) :
    x = y ↔ highDigit x = highDigit y ∧ lowDigit x = lowDigit y := by
  rw [← UInt8.toNat_inj, highDigit_inj, lowDigit_inj]
  omega

/-! ## Texts -/

private theorem append_lt_append (front l₁ l₂ : List Char) :
    front ++ l₁ < front ++ l₂ ↔ l₁ < l₂ := by
  induction front with
  | nil => rfl
  | cons ch front ih =>
      rw [List.cons_append, List.cons_append, List.cons_lt_cons_iff, ih]
      simp

private theorem spell_lt_spell (k : Nat) {xs ys : List UInt8} (h : xs.length = ys.length) :
    spell k xs < spell k ys ↔ xs < ys := by
  induction xs generalizing k ys with
  | nil =>
      obtain rfl : ys = [] := List.length_eq_zero_iff.mp h.symm
      simp [spell]
  | cons x xs ih =>
      cases ys with
      | nil => cases h
      | cons y ys =>
          have hrest := ih (k + 1) (Nat.succ.inj h)
          rw [List.cons_lt_cons_iff, digits_lt_iff, digits_eq_iff, spell, spell,
            List.cons_lt_cons_iff, List.cons_lt_cons_iff, append_lt_append, hrest]
          tauto

theorem UUID.string_injective {u v : UUID} (h : u.string = v.string) : u = v := by
  have hread := UUID.ofText_string u
  rw [h, UUID.ofText_string] at hread
  exact (Except.ok.inj hread).symm

theorem UUID.lt_iff_string_lt (u v : UUID) : u < v ↔ u.string < v.string := by
  rw [UUID.string_eq, UUID.string_eq, spell_lt_spell 0 (by simp), UUID.lt_def]

/-- Comparing UUIDs is comparing their texts, so that sorting by either gives the same order. -/
theorem uuid_order_is_text_order :
    (∀ u v : UUID, (u < v ↔ u.string < v.string) ∧ (u = v ↔ u.string = v.string)) ∧
      ∀ uuids : List UUID, uuids.Pairwise (· < ·) ↔
        (uuids.map UUID.string).Pairwise (· < ·) := by
  refine ⟨fun u v => ⟨UUID.lt_iff_string_lt u v, congrArg UUID.string, UUID.string_injective⟩,
    fun uuids => ?_⟩
  rw [List.pairwise_map]
  simp only [UUID.lt_iff_string_lt]

end AsioWrapper.Utils
