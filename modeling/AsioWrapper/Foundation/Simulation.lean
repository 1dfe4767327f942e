import AsioWrapper.Foundation.Machine

/-!
# Simulation

A system simulates another one if each step of the latter is matched by a run
of the former; whole runs are then matched as well.  A program whose callbacks
return at once is matched by a handler and the resumptions of its thread.
-/

namespace AsioWrapper.Foundation

namespace Steps

variable {σ τ α β : Type}

/-- Every step of `f` is matched by a run of `g` whose moves are in `P`. -/
def Simulates (f : σ → α → Option σ) (g : τ → β → Option τ) (P : β → Prop)
    (R : σ → τ → Prop) : Prop :=
  ∀ s m s' t, R s t → f s m = some s' →
    ∃ ms t', (∀ m' ∈ ms, P m') ∧ run g t ms = some t' ∧ R s' t'

theorem Simulates.run {f : σ → α → Option σ} {g : τ → β → Option τ} {P : β → Prop}
    {R : σ → τ → Prop} (h : Simulates f g P R) {s s' : σ} {t : τ} {ms : List α} (hst : R s t)
    (hrun : Steps.run f s ms = some s') :
    ∃ ms' t', (∀ m ∈ ms', P m) ∧ Steps.run g t ms' = some t' ∧ R s' t' := by
  induction ms generalizing s t with
  | nil =>
      cases hrun
      exact ⟨[], t, by simp, rfl, hst⟩
  | cons m ms ih =>
      cases hm : f s m with
      | none => simp [Steps.run, hm] at hrun
      | some s₁ =>
          simp only [Steps.run, hm] at hrun
          obtain ⟨first, t₁, hfirst, hrun₁, hst₁⟩ := h s m s₁ t hst hm
          obtain ⟨rest, t', hrest, hrun', hst'⟩ := ih hst₁ hrun
          refine ⟨first ++ rest, t', fun move hmove => ?_, ?_, hst'⟩
          · rcases List.mem_append.mp hmove with hmove | hmove
            · exact hfirst move hmove
            · exact hrest move hmove
          · rw [run_append hrun₁]
            exact hrun'

end Steps

variable {σ ε χ τ κ η ν : Type}

namespace Outcome

variable {α : Type} {T : Option ε → σ → Stop ε χ → σ → Prop} {Q : α → Option ε → σ → σ → Prop}

theorem unblocked_of_segments (hT : ∀ point start finish, ¬T point start .waiting finish)
    {o : Outcome σ ε χ α} {point : Option ε} {start : σ} (h : o.Segments T Q point start) :
    o.Unblocked := by
  induction o generalizing point start with
  | ret value s => trivial
  | throw error s => trivial
  | call event s resume ih => exact ih s (h.2 s)
  | wait ready s resume => exact hT _ _ _ h.1

theorem final_of_segments {R : σ → σ → Prop}
    (htrans : ∀ {s s' s''}, R s s' → R s' s'' → R s s'') {o : Outcome σ ε χ α}
    {point : Option ε} {start : σ}
    (h : o.Segments (fun _ start _ finish => R start finish)
      (fun _ _ start finish => R start finish) point start) : R start o.final := by
  induction o generalizing point start with
  | ret value s => exact h
  | throw error s => exact h
  | call event s resume ih => exact htrans h.1 (ih s (h.2 s))
  | wait ready s resume => exact h.1

theorem error_of_segments {P : σ → Prop} {o : Outcome σ ε χ α} {point : Option ε} {start : σ}
    {error : χ} (h : o.Segments (fun _ _ stop finish => ∀ error, stop = .threw error → P finish) Q
      point start) (herror : o.error = some error) : P o.final := by
  induction o generalizing point start with
  | ret value s => cases herror
  | throw error' s => exact h error' rfl
  | call event s resume ih => exact ih s (h.2 s) herror
  | wait ready s resume => cases herror

end Outcome

namespace System

variable {S : System σ ε χ τ κ η ν} {c : Config σ ε χ τ}

theorem handlersIdle_of_frames (hidle : c.frames = []) : c.handlersIdle = true := by
  rw [Config.handlersIdle, List.all_eq_true]
  intro stack hstack
  rw [List.flatten_eq_nil_iff.mp hidle stack hstack]
  rfl

theorem run_handler (hidle : c.frames = []) {h : η} {origin : τ} {program : Program σ ε χ Unit}
    (hfound : S.handler h c.world = some (origin, program))
    (hunblocked : (program c.world).Unblocked) :
    ∃ n c', S.run c (.handler h :: List.replicate n (.resume c.threads.length)) = some c' ∧
      c'.frames = [] ∧ c'.world = (program c.world).final := by
  obtain ⟨n, c', hrun, hdone⟩ := S.run_spawned hidle (some origin) hunblocked
  refine ⟨n, c', ?_, hdone⟩
  simp only [System.run, Steps.run, System.step, handlersIdle_of_frames hidle, hfound, if_true]
  exact hrun

theorem run_call (hidle : c.frames = []) {k : κ}
    (hunblocked : (S.call k false c.world).Unblocked) :
    ∃ n c', S.run c (.call k none :: List.replicate n (.resume c.threads.length)) = some c' ∧
      c'.frames = [] ∧ c'.world = (S.call k false c.world).final := by
  obtain ⟨n, c', hrun, hdone⟩ := S.run_spawned hidle none hunblocked
  exact ⟨n, c', hrun, hdone⟩

end System

end AsioWrapper.Foundation
