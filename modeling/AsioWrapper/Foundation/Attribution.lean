import AsioWrapper.Foundation.Machine

/-!
# Attributed callbacks

The machine does not tell on whose behalf a callback is invoked.  In the
attributed system every callback carries a cause: what the call that runs, or
the handler, was made for.  Nothing else is changed, so forgetting the causes
gives the runs of the system back.
-/

namespace AsioWrapper.Foundation

variable {σ ε ε' χ τ κ η ν ρ α : Type}

namespace Outcome

def mapEvent (f : ε → ε') : Outcome σ ε χ α → Outcome σ ε' χ α
  | ret value s => .ret value s
  | throw error s => .throw error s
  | call event s resume => .call (f event) s fun s' => (resume s').mapEvent f
  | wait ready s resume => .wait ready s fun s' => (resume s').mapEvent f

theorem mapEvent_attributed (cause : ρ) (o : Outcome σ ε χ α) :
    (o.mapEvent fun event => (event, cause)).mapEvent Prod.fst = o := by
  induction o with
  | ret value s => rfl
  | throw error s => rfl
  | call event s resume ih => simp only [mapEvent, ih]
  | wait ready s resume ih => simp only [mapEvent, ih]

end Outcome

def Stop.mapEvent (f : ε → ε') : Stop ε χ → Stop ε' χ
  | .returned => .returned
  | .threw error => .threw error
  | .called event => .called (f event)
  | .waiting => .waiting

/-- The system whose callbacks carry what the call or the handler invoking them is made for. -/
def System.attributed (S : System σ ε χ τ κ η ν) (ofCall : κ → σ → ρ) (ofHandler : τ → ρ) :
    System σ (ε × ρ) χ τ κ η ν where
  call k inside s := (S.call k inside s).mapEvent fun event => (event, ofCall k s)
  handler h s := (S.handler h s).map fun found =>
    (found.1, fun s' => (found.2 s').mapEvent fun event => (event, ofHandler found.1))
  environment := S.environment

def Attributes (T : Option τ → Option (ε × ρ) → σ → Stop (ε × ρ) χ → σ → Prop)
    (origin : Option τ) (cause : ρ) (point : Option ε) (s : σ) (stop : Stop ε χ) (s' : σ) : Prop :=
  T origin (point.map fun event => (event, cause)) s (stop.mapEvent fun event => (event, cause)) s'

theorem Outcome.segments_attributed {T : Option τ → Option (ε × ρ) → σ → Stop (ε × ρ) χ → σ → Prop}
    {origin : Option τ} (cause : ρ) {o : Outcome σ ε χ α} {point : Option ε} {start : σ}
    (h : o.Segments (Attributes T origin cause)
      (fun _ point start s => Attributes T origin cause point start .returned s) point start) :
    (o.mapEvent fun event => (event, cause)).Segments (T origin)
      (fun _ point start s => T origin point start .returned s)
      (point.map fun event => (event, cause)) start := by
  induction o generalizing point start with
  | ret value s => exact h
  | throw error s => exact h
  | call event s resume ih => exact ⟨h.1, fun s' => ih s' (h.2 s')⟩
  | wait ready s resume ih => exact ⟨h.1, fun s' hs' => ih s' (h.2 s' hs')⟩

variable {S : System σ ε χ τ κ η ν} {ofCall : κ → σ → ρ} {ofHandler : τ → ρ}

theorem System.attributed_obeys {okCall : κ → Prop} {okHandler : η → Prop}
    {T : Option τ → Option (ε × ρ) → σ → Stop (ε × ρ) χ → σ → Prop}
    (hcall : ∀ k inside s, okCall k →
      (S.call k inside).Segments (Attributes T none (ofCall k s))
        (fun _ point start s' => Attributes T none (ofCall k s) point start .returned s') none s s)
    (hhandler : ∀ h s origin program, okHandler h → S.handler h s = some (origin, program) →
      program.Segments (Attributes T (some origin) (ofHandler origin))
        (fun _ point start s' =>
          Attributes T (some origin) (ofHandler origin) point start .returned s') none s s) :
    (S.attributed ofCall ofHandler).Obeys okCall okHandler T where
  call k inside hk s := Outcome.segments_attributed _ (hcall k inside s hk)
  handler h s origin program hh hlookup := by
    obtain ⟨found, hfound, heq⟩ := Option.map_eq_some_iff.mp hlookup
    cases heq
    exact Outcome.segments_attributed _ (hhandler h s found.1 found.2 hh hfound)

/-! ## Forgetting the causes -/

def Frame.forget (f : Frame σ (ε × ρ) χ τ) : Frame σ ε χ τ :=
  ⟨f.origin, f.event.map Prod.fst, f.ready, fun s => (f.resume s).mapEvent Prod.fst⟩

def Config.forget (c : Config σ (ε × ρ) χ τ) : Config σ ε χ τ :=
  ⟨c.world, c.threads.map (List.map Frame.forget), c.escaped⟩

@[simp] theorem Config.forget_world (c : Config σ (ε × ρ) χ τ) : c.forget.world = c.world := rfl

theorem Config.forget_settle (c : Config σ (ε × ρ) χ τ) (i : Nat) (origin : Option τ)
    (rest : List (Frame σ (ε × ρ) χ τ)) (o : Outcome σ (ε × ρ) χ Unit) :
    (c.settle i origin rest o).forget =
      c.forget.settle i origin (rest.map Frame.forget) (o.mapEvent Prod.fst) := by
  cases o <;> simp [Config.settle, Config.forget, Outcome.mapEvent, Frame.forget, List.map_set]

theorem Config.forget_spawn (c : Config σ (ε × ρ) χ τ) (origin : Option τ)
    (o : Outcome σ (ε × ρ) χ Unit) :
    (c.spawn origin o).forget = c.forget.spawn origin (o.mapEvent Prod.fst) := by
  rw [Config.spawn, Config.forget_settle]
  simp [Config.spawn, Config.forget]

theorem Config.forget_stack (c : Config σ (ε × ρ) χ τ) (i : Nat) :
    c.forget.threads[i]? = (c.threads[i]?).map (List.map Frame.forget) := by
  simp [Config.forget]

theorem Config.forget_handlersIdle (c : Config σ (ε × ρ) χ τ) :
    c.forget.handlersIdle = c.handlersIdle := by
  simp [Config.handlersIdle, Config.forget, List.all_map, Frame.forget, Function.comp_def]

/-- Every step of the attributed system is one of the system, and the other way round. -/
theorem System.step_forget (S : System σ ε χ τ κ η ν) (ofCall : κ → σ → ρ) (ofHandler : τ → ρ)
    (c : Config σ (ε × ρ) χ τ) (m : Move κ η ν) :
    S.step c.forget m = ((S.attributed ofCall ofHandler).step c m).map Config.forget := by
  have hattributed (k : κ) (inside : Bool) (s : σ) :
      ((S.attributed ofCall ofHandler).call k inside s).mapEvent Prod.fst = S.call k inside s :=
    Outcome.mapEvent_attributed _ _
  cases m with
  | call k thread =>
      cases thread with
      | none =>
          simp only [System.step, Option.map_some, Config.forget_spawn, hattributed]
          rfl
      | some i =>
          simp only [System.step, Config.forget_stack]
          rcases c.threads[i]? with _ | _ | ⟨f, rest⟩
          · rfl
          · rfl
          · simp only [Option.map_some, List.map_cons, Frame.forget, Option.isSome_map]
            split
            · rw [Option.map_some, Config.forget_settle, hattributed]
              simp [Config.forget, Frame.forget, List.any_map, Function.comp_def]
            · rfl
  | handler h =>
      simp only [System.step, Config.forget_handlersIdle, Config.forget_world, System.attributed]
      split
      · cases S.handler h c.world with
        | none => rfl
        | some found =>
            simp only [Option.map_some, Config.forget_spawn, Outcome.mapEvent_attributed]
      · rfl
  | resume i =>
      simp only [System.step, Config.forget_stack]
      rcases c.threads[i]? with _ | _ | ⟨f, rest⟩
      · rfl
      · rfl
      · simp only [Option.map_some, List.map_cons, Frame.forget, Config.forget_world]
        by_cases hready : f.ready c.world = true
        · simp [hready, Config.forget_settle]
        · simp [hready]
  | unwind i =>
      simp only [System.step, Config.forget_stack]
      rcases c.threads[i]? with _ | _ | ⟨f, rest⟩
      · rfl
      · rfl
      · simp only [Option.map_some, List.map_cons, Frame.forget, Option.isSome_map]
        split
        · simp [Config.forget, List.map_set]
        · rfl
  | environment e =>
      simp only [System.step, System.attributed]
      cases hfound : S.environment e c.world with
      | none => simp [Config.forget, hfound]
      | some s => simp [Config.forget, hfound]

theorem System.run_forget (S : System σ ε χ τ κ η ν) (ofCall : κ → σ → ρ) (ofHandler : τ → ρ)
    (c : Config σ (ε × ρ) χ τ) (ms : List (Move κ η ν)) :
    S.run c.forget ms = ((S.attributed ofCall ofHandler).run c ms).map Config.forget := by
  induction ms generalizing c with
  | nil => rfl
  | cons m ms ih =>
      simp only [System.run, Steps.run] at ih ⊢
      rw [System.step_forget S ofCall ofHandler]
      cases (S.attributed ofCall ofHandler).step c m with
      | none => rfl
      | some c' => exact ih c'

end AsioWrapper.Foundation
