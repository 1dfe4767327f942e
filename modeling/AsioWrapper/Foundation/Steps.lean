import Mathlib.Data.List.Basic

/-!
# Runs of a transition function

A partial step function and a list of moves determine a run, which ends where
a move is not enabled.  An invariant of the steps is an invariant of the
run; the steps may be restricted by a side condition that every transition of
the run is known to meet.
-/

namespace AsioWrapper.Foundation

structure Transition (σ α : Type) where
  pre : σ
  move : α
  post : σ

namespace Steps

variable {σ α : Type} (f : σ → α → Option σ)

/-- The transitions of the run that tries the given moves in turn. -/
def trace (s : σ) : List α → List (Transition σ α)
  | [] => []
  | m :: ms =>
      match f s m with
      | some s' => ⟨s, m, s'⟩ :: trace s' ms
      | none => []

def run (s : σ) : List α → Option σ
  | [] => some s
  | m :: ms =>
      match f s m with
      | some s' => run s' ms
      | none => none

def states (s : σ) (ms : List α) : List σ :=
  s :: (trace f s ms).map Transition.post

variable {f}

/--
The run rule: an invariant that every admissible step keeps holds on both
sides of every transition of a run whose transitions are all admissible.
-/
theorem trace_invariant {I : σ → Prop} {P : Transition σ α → Prop}
    (hstep : ∀ t : Transition σ α, I t.pre → f t.pre t.move = some t.post → P t → I t.post)
    {s : σ} (h₀ : I s) {ms : List α} (hok : ∀ t ∈ trace f s ms, P t) :
    ∀ t ∈ trace f s ms, I t.pre ∧ f t.pre t.move = some t.post ∧ I t.post := by
  induction ms generalizing s with
  | nil => simp [trace]
  | cons m ms ih =>
      intro t ht
      cases hm : f s m with
      | none => simp [trace, hm] at ht
      | some s' =>
          simp only [trace, hm, List.mem_cons] at ht hok
          have hpost : I s' := hstep ⟨s, m, s'⟩ h₀ hm (hok _ (Or.inl rfl))
          rcases ht with rfl | ht
          · exact ⟨h₀, hm, hpost⟩
          · exact ih hpost (fun u hu => hok u (Or.inr hu)) t ht

theorem states_invariant {I : σ → Prop} {P : Transition σ α → Prop}
    (hstep : ∀ t : Transition σ α, I t.pre → f t.pre t.move = some t.post → P t → I t.post)
    {s : σ} (h₀ : I s) {ms : List α} (hok : ∀ t ∈ trace f s ms, P t) :
    ∀ s' ∈ states f s ms, I s' := by
  intro s' hs'
  rcases List.mem_cons.mp hs' with rfl | hs'
  · exact h₀
  · obtain ⟨t, ht, rfl⟩ := List.mem_map.mp hs'
    exact (trace_invariant hstep h₀ hok t ht).2.2

/--
The rule for an exact condition: the states of a run are all good if and only if its steps
all are, provided a good step keeps an invariant that makes states good and a bad one leads
to a state that is not.
-/
theorem states_iff_trace {I good : σ → Prop} {P fine : Transition σ α → Prop}
    (hgood : ∀ s, I s → good s)
    (hkeep : ∀ t : Transition σ α, I t.pre → f t.pre t.move = some t.post → P t → fine t →
      I t.post)
    (hspoil : ∀ t : Transition σ α, I t.pre → f t.pre t.move = some t.post → P t → ¬fine t →
      ¬good t.post)
    {s : σ} (h₀ : I s) {ms : List α} (hok : ∀ t ∈ trace f s ms, P t) :
    (∀ s' ∈ states f s ms, good s') ↔ ∀ t ∈ trace f s ms, fine t := by
  constructor
  · induction ms generalizing s with
    | nil => simp [trace]
    | cons m ms ih =>
        intro hstates t ht
        cases hm : f s m with
        | none => simp [trace, hm] at ht
        | some next =>
            simp only [states, trace, hm, List.map_cons, List.forall_mem_cons] at hstates hok
            -- the first step is fine, since the state after it is good
            have hfirst : fine ⟨s, m, next⟩ := by
              by_contra hbad
              exact hspoil ⟨s, m, next⟩ h₀ hm hok.1 hbad hstates.2.1
            simp only [trace, hm, List.mem_cons] at ht
            rcases ht with rfl | ht
            · exact hfirst
            · have hnext := hkeep ⟨s, m, next⟩ h₀ hm hok.1 hfirst
              exact ih hnext hok.2 (List.forall_mem_cons.mpr hstates.2) t ht
  · intro hfine s' hs'
    apply hgood
    exact states_invariant (P := fun t => P t ∧ fine t)
      (fun t hpre hstep h => hkeep t hpre hstep h.1 h.2) h₀
      (fun t ht => ⟨hok t ht, hfine t ht⟩) s' hs'

theorem trace_valid {s : σ} {ms : List α} :
    ∀ t ∈ trace f s ms, f t.pre t.move = some t.post := by
  intro t ht
  exact (trace_invariant (f := f) (I := fun _ => True) (P := fun _ => True)
    (fun _ _ _ _ => trivial) trivial (fun _ _ => trivial) t ht).2.1

theorem trace_move_mem {s : σ} {ms : List α} : ∀ t ∈ trace f s ms, t.move ∈ ms := by
  induction ms generalizing s with
  | nil => simp [trace]
  | cons m ms ih =>
      intro t ht
      cases hm : f s m with
      | none => simp [trace, hm] at ht
      | some s' =>
          simp only [trace, hm, List.mem_cons] at ht
          rcases ht with rfl | ht
          · simp
          · exact List.mem_cons_of_mem _ (ih t ht)

theorem states_pre {s : σ} {ms : List α} {t : Transition σ α} (ht : t ∈ trace f s ms) :
    t.pre ∈ states f s ms := by
  induction ms generalizing s with
  | nil => simp [trace] at ht
  | cons m ms ih =>
      cases hm : f s m with
      | none => simp [trace, hm] at ht
      | some s' =>
          simp only [trace, hm, List.mem_cons] at ht
          rcases ht with rfl | ht
          · exact List.mem_cons_self
          · have := ih ht
            simp only [states, trace, hm, List.map_cons] at this ⊢
            exact List.mem_cons_of_mem _ this

theorem states_post {s : σ} {ms : List α} {t : Transition σ α} (ht : t ∈ trace f s ms) :
    t.post ∈ states f s ms :=
  List.mem_cons_of_mem _ (List.mem_map_of_mem ht)

theorem run_mem_states {s s' : σ} {ms : List α} (h : run f s ms = some s') :
    s' ∈ states f s ms := by
  induction ms generalizing s with
  | nil =>
      cases h
      exact List.mem_cons_self
  | cons m ms ih =>
      simp only [run] at h
      split at h
      · rename_i next hm
        have := ih h
        simp only [states, trace, hm, List.map_cons] at this ⊢
        exact List.mem_cons_of_mem _ this
      · cases h

theorem run_and_states {P Q : σ → Prop} {s : σ} {ms : List α} (hall : ∀ s' ∈ states f s ms, Q s')
    (hend : ∃ s', run f s ms = some s' ∧ P s') : ∃ s', run f s ms = some s' ∧ P s' ∧ Q s' := by
  obtain ⟨s', hrun, hP⟩ := hend
  exact ⟨s', hrun, hP, hall s' (run_mem_states hrun)⟩

theorem run_append {s s' : σ} {ms ms' : List α} (h : run f s ms = some s') :
    run f s (ms ++ ms') = run f s' ms' := by
  induction ms generalizing s with
  | nil =>
      cases h
      rfl
  | cons m ms ih =>
      simp only [run, List.cons_append] at h ⊢
      split at h
      · exact ih h
      · cases h

theorem run_after {s s' : σ} {ms : List α} (h : run f s ms = some s') {t : Transition σ α}
    (ht : t ∈ trace f s ms) : ∃ rest, run f t.post rest = some s' := by
  induction ms generalizing s with
  | nil => simp [trace] at ht
  | cons m ms ih =>
      cases hm : f s m with
      | none => simp [trace, hm] at ht
      | some next =>
          simp only [run, hm] at h
          simp only [trace, hm, List.mem_cons] at ht
          rcases ht with rfl | ht
          · exact ⟨ms, h⟩
          · exact ih h ht

/-! ## Histories -/

theorem run_replicate_unique {s s' s'' : σ} {m : α} {n n' : Nat}
    (h : run f s (List.replicate n m) = some s') (hstuck : f s' m = none)
    (h' : run f s (List.replicate n' m) = some s'') (hstuck' : f s'' m = none) : s' = s'' := by
  induction n generalizing s n' with
  | zero =>
      cases h
      cases n' with
      | zero => exact Option.some.inj h'
      | succ n' => simp [List.replicate_succ, run, hstuck] at h'
  | succ n ih =>
      cases n' with
      | zero =>
          cases h'
          simp [List.replicate_succ, run, hstuck'] at h
      | succ n' =>
          cases hm : f s m with
          | none => simp [List.replicate_succ, run, hm] at h
          | some next =>
              simp only [List.replicate_succ, run, hm] at h h'
              exact ih h h'

theorem run_append_replicate_unique {s s' s'' : σ} {ms : List α} {m : α} {n n' : Nat}
    (h : run f s (ms ++ List.replicate n m) = some s') (hstuck : f s' m = none)
    (h' : run f s (ms ++ List.replicate n' m) = some s'') (hstuck' : f s'' m = none) :
    s' = s'' := by
  induction ms generalizing s with
  | nil => exact run_replicate_unique h hstuck h' hstuck'
  | cons first ms ih =>
      cases hm : f s first with
      | none => simp [run, hm] at h
      | some next =>
          simp only [List.cons_append, run, hm] at h h'
          exact ih h h'

theorem trace_concat {s s' s'' : σ} {ms : List α} {m : α} (h : run f s ms = some s')
    (hm : f s' m = some s'') : trace f s (ms ++ [m]) = trace f s ms ++ [⟨s', m, s''⟩] := by
  induction ms generalizing s with
  | nil =>
      cases h
      simp [trace, hm]
  | cons m' ms ih =>
      simp only [run] at h
      split at h
      · rename_i next hnext
        simp only [List.cons_append, trace, hnext, ih h]
      · cases h

theorem trace_mem_append {s : σ} {ms : List α} (ms' : List α) {t : Transition σ α}
    (ht : t ∈ trace f s ms) : t ∈ trace f s (ms ++ ms') := by
  induction ms generalizing s with
  | nil => simp [trace] at ht
  | cons m ms ih =>
      cases hm : f s m with
      | none => simp [trace, hm] at ht
      | some next =>
          simp only [List.cons_append, trace, hm, List.mem_cons] at ht ⊢
          exact ht.imp_right ih

theorem trace_split {s : σ} {ms : List α} {t : Transition σ α} (ht : t ∈ trace f s ms) :
    ∃ before after, ms = before ++ t.move :: after ∧ run f s before = some t.pre ∧
      f t.pre t.move = some t.post := by
  induction ms generalizing s with
  | nil => simp [trace] at ht
  | cons m ms ih =>
      cases hm : f s m with
      | none => simp [trace, hm] at ht
      | some next =>
          simp only [trace, hm, List.mem_cons] at ht
          rcases ht with rfl | ht
          · exact ⟨[], ms, rfl, rfl, hm⟩
          · obtain ⟨before, after, rfl, hrun, hstep⟩ := ih ht
            exact ⟨m :: before, after, rfl, by simp [run, hm, hrun], hstep⟩

/-- The run rule for a property of a state together with the transitions that led to it. -/
theorem run_history {J : List (Transition σ α) → σ → Prop} {P : Transition σ α → Prop}
    (hstep : ∀ ts t, J ts t.pre → f t.pre t.move = some t.post → P t → J (ts ++ [t]) t.post)
    {s s' : σ} (h₀ : J [] s) {ms : List α} (hrun : run f s ms = some s')
    (hok : ∀ t ∈ trace f s ms, P t) : J (trace f s ms) s' := by
  suffices ∀ past, J past s → J (past ++ trace f s ms) s' from this [] h₀
  clear h₀
  induction ms generalizing s with
  | nil =>
      intro past hpast
      cases hrun
      simpa [trace] using hpast
  | cons m ms ih =>
      intro past hpast
      simp only [run] at hrun
      split at hrun
      · rename_i next hm
        simp only [trace, hm, List.forall_mem_cons] at hok
        have hnext := hstep past ⟨s, m, next⟩ hpast hm hok.1
        have := ih hrun hok.2 (past ++ [⟨s, m, next⟩]) hnext
        simpa [trace, hm] using this
      · cases hrun

end Steps

end AsioWrapper.Foundation
