import AsioWrapper.Foundation.Steps

/-!
# Variants

A variant bounds what a system can do on its own.  A step that is idle need not
lower it, every other step of the system's own does; a run then makes at most
as many steps that are not idle as the variant counts at its beginning.  If the
system can always lower the variant until a goal is reached, some run of it
reaches the goal.
-/

namespace AsioWrapper.Foundation

namespace Steps

variable {σ α : Type} {f : σ → α → Option σ}

structure Variant (f : σ → α → Option σ) (I : σ → Prop) (own : α → Bool)
    (idle : Transition σ α → Bool) (μ : σ → Nat) : Prop where
  keeps : ∀ t : Transition σ α, I t.pre → f t.pre t.move = some t.post → own t.move = true →
    I t.post
  idles : ∀ t : Transition σ α, I t.pre → f t.pre t.move = some t.post → own t.move = true →
    idle t = true → μ t.post ≤ μ t.pre
  lowers : ∀ t : Transition σ α, I t.pre → f t.pre t.move = some t.post → own t.move = true →
    idle t = false → μ t.post < μ t.pre

namespace Variant

variable {I : σ → Prop} {own : α → Bool} {idle : Transition σ α → Bool} {μ : σ → Nat}

theorem bound (hV : Variant f I own idle μ) {s : σ} (h₀ : I s) {ms : List α}
    (hown : ∀ m ∈ ms, own m = true) :
    ((trace f s ms).filter fun t => !idle t).length ≤ μ s := by
  induction ms generalizing s with
  | nil => simp [trace]
  | cons m ms ih =>
      cases hm : f s m with
      | none => simp [trace, hm]
      | some next =>
          obtain ⟨hfirst, hrest⟩ := List.forall_mem_cons.mp hown
          have htail := ih (hV.keeps ⟨s, m, next⟩ h₀ hm hfirst) hrest
          simp only [trace, hm]
          cases hidle : idle ⟨s, m, next⟩ with
          | true =>
              rw [List.filter_cons_of_neg (by simp [hidle])]
              exact Nat.le_trans htail (hV.idles ⟨s, m, next⟩ h₀ hm hfirst hidle)
          | false =>
              rw [List.filter_cons_of_pos (by simp [hidle]), List.length_cons]
              exact Nat.lt_of_le_of_lt htail (hV.lowers ⟨s, m, next⟩ h₀ hm hfirst hidle)

theorem run_keeps (hV : Variant f I own idle μ) {s s' : σ} (h₀ : I s) {ms : List α}
    (hown : ∀ m ∈ ms, own m = true) (hrun : run f s ms = some s') : I s' :=
  states_invariant (P := fun t => own t.move = true) (fun t hpre hstep => hV.keeps t hpre hstep)
    h₀ (fun t ht => hown _ (trace_move_mem t ht)) s' (run_mem_states hrun)

theorem run_length (hV : Variant f I own idle μ) {s s' : σ} (h₀ : I s) {ms : List α}
    (hown : ∀ m ∈ ms, own m = true) (hbusy : ∀ t ∈ trace f s ms, idle t = false)
    (hrun : run f s ms = some s') : ms.length + μ s' ≤ μ s := by
  induction ms generalizing s with
  | nil =>
      cases hrun
      exact Nat.le_of_eq (Nat.zero_add _)
  | cons m ms ih =>
      obtain ⟨hfirst, hrest⟩ := List.forall_mem_cons.mp hown
      cases hm : f s m with
      | none => simp [run, hm] at hrun
      | some next =>
          simp only [run, hm] at hrun
          simp only [trace, hm] at hbusy
          obtain ⟨hbusy, hlater⟩ := List.forall_mem_cons.mp hbusy
          have hless : μ next < μ s := hV.lowers ⟨s, m, next⟩ h₀ hm hfirst hbusy
          have htail : ms.length + μ s' ≤ μ next :=
            ih (hV.keeps ⟨s, m, next⟩ h₀ hm hfirst) hrest hlater hrun
          rw [List.length_cons]
          omega

theorem reaches (hV : Variant f I own idle μ) {goal : σ → Prop}
    (hprogress : ∀ s, I s → ¬goal s → ∃ ms s', (∀ m ∈ ms, own m = true) ∧
      run f s ms = some s' ∧ μ s' < μ s) {s : σ} (h₀ : I s) :
    ∃ ms s', (∀ m ∈ ms, own m = true) ∧ run f s ms = some s' ∧ goal s' := by
  induction hμ : μ s using Nat.strongRecOn generalizing s with
  | ind k ih =>
      by_cases hgoal : goal s
      · exact ⟨[], s, by simp, rfl, hgoal⟩
      · obtain ⟨ms, next, hown, hrun, hless⟩ := hprogress s h₀ hgoal
        obtain ⟨ms', s', hown', hrun', hs'⟩ :=
          ih (μ next) (hμ ▸ hless) (hV.run_keeps h₀ hown hrun) rfl
        refine ⟨ms ++ ms', s', ?_, (run_append hrun).trans hrun', hs'⟩
        exact List.forall_mem_append.mpr ⟨hown, hown'⟩

end Variant

end Steps

end AsioWrapper.Foundation
