import Mathlib.Data.List.Basic

/-!
# Folds that lose nothing

A fold whose step is injective in what has been folded so far is injective in
its start.  If the step is injective in the element as well, two lists that differ
in one place have different folds.
-/

namespace AsioWrapper.Foundation

variable {α β : Type} {f : β → α → β}

theorem foldl_injective (hf : ∀ a, Function.Injective fun b => f b a) (l : List α) :
    Function.Injective fun b => l.foldl f b := by
  induction l with
  | nil => exact fun b b' h => h
  | cons a l ih =>
      intro b b' h
      apply hf a
      apply ih
      exact h

theorem foldl_set_ne (hf : ∀ a, Function.Injective fun b => f b a)
    (hf' : ∀ b, Function.Injective (f b)) (b : β) {l : List α} {i : Nat} (hi : i < l.length)
    {a : α} (ha : a ≠ l[i]) : (l.set i a).foldl f b ≠ l.foldl f b := by
  induction l generalizing b i with
  | nil => simp at hi
  | cons first rest ih =>
      cases i with
      | zero =>
          intro heq
          apply ha
          apply hf' b
          apply foldl_injective hf rest
          exact heq
      | succ i =>
          simp only [List.length_cons, Nat.add_lt_add_iff_right] at hi
          exact ih (f b first) hi ha

theorem foldl_set_set_eq (b : β) {l : List α} {i : Nat} (hi : i + 1 < l.length) {a a' : α}
    (hpair : ∀ b, f (f b a) a' = f (f b (l[i])) (l[i + 1])) :
    ((l.set i a).set (i + 1) a').foldl f b = l.foldl f b := by
  induction l generalizing b i with
  | nil => simp at hi
  | cons first rest ih =>
      cases i with
      | zero =>
          cases rest with
          | nil => simp at hi
          | cons second rest =>
              change rest.foldl f (f (f b a) a') = rest.foldl f (f (f b first) second)
              rw [hpair b]
              rfl
      | succ i =>
          simp only [List.length_cons, Nat.add_lt_add_iff_right] at hi
          exact ih (f b first) hi hpair

end AsioWrapper.Foundation
