import AsioWrapper.Foundation.Outline

/-!
# Calls that block a handler

Handlers are serialized, so at most one is under way.  A call made from within
its callbacks that waits for something only handlers bring about waits for
ever: the handler below it does not end before the call returns, and until
then no other handler begins.
-/

namespace AsioWrapper.Foundation

variable {σ ε χ τ κ η ν : Type}

theorem System.Obeys.restrict {S : System σ ε χ τ κ η ν} {okCall okCall' : κ → Prop}
    {okHandler : η → Prop} {T : Option τ → Option ε → σ → Stop ε χ → σ → Prop}
    (h : ∀ k, okCall' k → okCall k) (hS : S.Obeys okCall okHandler T) :
    S.Obeys okCall' okHandler T :=
  ⟨fun k inside hk => hS.call k inside (h k hk), hS.handler⟩

/-! ## At most one handler is under way -/

section Sole

variable {S : System σ ε χ τ κ η ν} {c c' : Config σ ε χ τ} {o : Outcome σ ε χ Unit}

theorem Outcome.length_suspended_le (origin : Option τ) :
    (o.suspended origin).toList.length ≤ 1 := by
  cases o <;> simp [Outcome.suspended]

theorem mem_handlersOf {f : Frame σ ε χ τ} {stack : List (Frame σ ε χ τ)} :
    f ∈ handlersOf stack ↔ f ∈ stack ∧ f.origin.isSome = true := by
  simp [handlersOf]

theorem Config.sole_of_mem (hsole : c.handlers.length ≤ 1) {f : Frame σ ε χ τ}
    (hf : f ∈ c.frames) (horigin : f.origin.isSome = true) : c.handlers = [f] := by
  have hmem : f ∈ c.handlers := mem_handlersOf.mpr ⟨hf, horigin⟩
  obtain ⟨g, hg⟩ := List.length_eq_one_iff.mp
    (Nat.le_antisymm hsole (List.length_pos_of_mem hmem))
  rw [hg, List.mem_singleton] at hmem
  rw [hg, hmem]

theorem Config.handlersOf_other (hsole : c.handlers.length ≤ 1) {i j : Nat}
    {stack other : List (Frame σ ε χ τ)} (hstack : c.threads[i]? = some stack)
    (hhandler : handlersOf stack ≠ []) (hother : c.threads[j]? = some other) (hne : i ≠ j) :
    handlersOf other = [] := by
  obtain ⟨before, after, hold, hnew⟩ :=
    @handlers_settle _ _ _ _ c none (.ret () c.world) _ _ hstack []
  rw [hold, List.length_append, List.length_append] at hsole
  have hpos := List.length_pos_iff.mpr hhandler
  have hbefore : before = [] := List.eq_nil_of_length_eq_zero (by omega)
  have hafter : after = [] := List.eq_nil_of_length_eq_zero (by omega)
  refine List.eq_nil_iff_forall_not_mem.mpr fun f hf => ?_
  obtain ⟨hmem, horigin⟩ := mem_handlersOf.mp hf
  have hkept : other ∈ (c.settle i none [] (.ret () c.world)).threads := by
    rw [settle_threads]
    exact List.mem_of_getElem? ((List.getElem?_set_ne hne).trans hother)
  have hleft : f ∈ (c.settle i none [] (.ret () c.world)).handlers :=
    mem_handlersOf.mpr ⟨Config.mem_frames.mpr ⟨other, hkept, hmem⟩, horigin⟩
  rw [hnew, hbefore, hafter] at hleft
  cases hleft

theorem Config.handlers_unwind_le {i : Nat} {f : Frame σ ε χ τ} {rest : List (Frame σ ε χ τ)}
    (hstack : c.threads[i]? = some (f :: rest)) :
    ({ c with threads := c.threads.set i rest } : Config σ ε χ τ).handlers.length ≤
      c.handlers.length := by
  obtain ⟨before, after, hold, hnew⟩ :=
    @handlers_settle _ _ _ _ c none (.ret () c.world) _ _ hstack rest
  change (c.settle i none rest (.ret () c.world)).handlers.length ≤ _
  have hrest : (handlersOf rest).length ≤ (handlersOf (f :: rest)).length :=
    ((List.sublist_cons_self f rest).filter _).length_le
  rw [hnew, hold, handlersOf_suspended_none]
  simp only [List.length_append]
  omega

theorem System.sole_step (hsole : c.handlers.length ≤ 1) {m : Move κ η ν}
    (h : S.step c m = some c') : c'.handlers.length ≤ 1 := by
  cases System.stepped h with
  | call k => rwa [Config.handlers_spawn_none]
  | nested k hstack hevent => rwa [Config.handlers_settle_none hstack rfl]
  | @handler k origin program hidle hfound =>
      rw [Config.handlers_spawn_some origin hidle]
      exact Outcome.length_suspended_le _
  | @resume i f rest hstack hready =>
      cases horigin : f.origin with
      | none =>
          rw [Config.handlers_settle_none hstack (by simp [handlersOf, horigin])]
          exact hsole
      | some origin =>
          have hf : f ∈ c.frames :=
            Config.mem_frames.mpr ⟨_, List.mem_of_getElem? hstack, List.mem_cons_self⟩
          have hone := Config.sole_of_mem hsole hf (by simp [horigin])
          rw [Config.handlers_settle_some hstack hone horigin]
          exact Outcome.length_suspended_le _
  | unwind hstack hevent => exact Nat.le_trans (Config.handlers_unwind_le hstack) hsole
  | environment hs => exact hsole

theorem System.sole_run (hsole : c.handlers.length ≤ 1) (ms : List (Move κ η ν)) :
    ∀ c' ∈ S.states c ms, c'.handlers.length ≤ 1 :=
  Steps.states_invariant (P := fun _ => True)
    (fun _ hpre hstep _ => System.sole_step hpre hstep) hsole fun _ _ => trivial

end Sole

/-! ## Waiting above a handler -/

/-- Thread `i` waits above the handler it runs, and while `W` holds it goes on to wait. -/
structure Config.Blocked (W : σ → Prop) (i : Nat) (f : Frame σ ε χ τ)
    (rest : List (Frame σ ε χ τ)) (c : Config σ ε χ τ) : Prop where
  stack : c.threads[i]? = some (f :: rest)
  waits : f.event = none
  unready : ∀ s, W s → f.ready s = false
  above : handlersOf rest ≠ []
  sole : c.handlers.length ≤ 1
  world : W c.world

namespace Config.Blocked

variable {S : System σ ε χ τ κ η ν} {W : σ → Prop} {i : Nat} {f : Frame σ ε χ τ}
  {rest : List (Frame σ ε χ τ)} {c c' : Config σ ε χ τ}

theorem busy (h : c.Blocked W i f rest) : c.handlersIdle = false := by
  rw [← Bool.not_eq_true]
  intro hidle
  obtain ⟨g, hg⟩ := List.exists_mem_of_ne_nil _ h.above
  obtain ⟨hmem, horigin⟩ := mem_handlersOf.mp hg
  have hframe : g ∈ c.frames :=
    Config.mem_frames.mpr ⟨_, List.mem_of_getElem? h.stack, List.mem_cons_of_mem f hmem⟩
  rw [Config.origin_of_handlersIdle hidle g hframe] at horigin
  cases horigin

theorem no_handler (h : c.Blocked W i f rest) (k : η) : S.step c (.handler k) = none := by
  simp [System.step, h.busy]

theorem no_resume (h : c.Blocked W i f rest) : S.step c (.resume i) = none := by
  simp [System.step, h.stack, h.unready _ h.world]

theorem origin_eq_none (h : c.Blocked W i f rest) {j : Nat} {g : Frame σ ε χ τ}
    {other : List (Frame σ ε χ τ)} (hother : c.threads[j]? = some (g :: other)) (hne : i ≠ j) :
    g.origin = none := by
  have habove : handlersOf (f :: rest) ≠ [] := by
    obtain ⟨k, hk⟩ := List.exists_mem_of_ne_nil _ h.above
    obtain ⟨hmem, horigin⟩ := mem_handlersOf.mp hk
    exact List.ne_nil_of_mem (mem_handlersOf.mpr ⟨List.mem_cons_of_mem f hmem, horigin⟩)
  have hnone := Config.handlersOf_other h.sole h.stack habove hother hne
  rw [← Option.not_isSome_iff_eq_none]
  intro horigin
  have hg : g ∈ handlersOf (g :: other) := mem_handlersOf.mpr ⟨List.mem_cons_self, horigin⟩
  rw [hnone] at hg
  cases hg

theorem of_call {stack : List (Frame σ ε χ τ)} (hstack : c.threads[i]? = some stack)
    (habove : handlersOf stack ≠ []) (hsole : c.handlers.length ≤ 1) {k : κ}
    (hcall : S.step c (.call k (some i)) = some c')
    (hwait : ∀ inside, ∃ ready s resume, S.call k inside c.world = .wait ready s resume ∧
      W s ∧ ∀ s', W s' → ready s' = false) :
    ∃ f, c'.Blocked W i f stack := by
  have hsole' := System.sole_step hsole hcall
  cases System.stepped hcall with
  | @nested _ _ g rest hthread hevent =>
      obtain rfl : stack = g :: rest := Option.some.inj (hstack.symm.trans hthread)
      obtain ⟨ready, s, resume, hcode, hs, hready⟩ :=
        hwait ((g :: rest).any fun f => f.origin.isSome)
      rw [hcode] at hsole' ⊢
      refine ⟨⟨none, none, ready, resume⟩, ?_, rfl, hready, habove, hsole', hs⟩
      rw [Config.settle_threads,
        List.getElem?_set_self (List.getElem?_eq_some_iff.mp hstack).1]
      rfl

theorem of_step (h : c.Blocked W i f rest) {m : Move κ η ν} (hstep : S.step c m = some c')
    (hstack : c'.threads[i]? = some (f :: rest)) (hworld : W c'.world) :
    c'.Blocked W i f rest :=
  ⟨hstack, h.waits, h.unready, h.above, System.sole_step h.sole hstep, hworld⟩

theorem step (h : c.Blocked W i f rest)
    {T : Option τ → Option ε → σ → Stop ε χ → σ → Prop} {okCall : κ → Prop}
    {okHandler : η → Prop} (hS : S.Obeys okCall okHandler T) (hc : ∀ f ∈ c.frames, f.Obeys T)
    (hkeep : ∀ point s stop s', T none point s stop s' → W s → W s')
    (henv : ∀ e s s', S.environment e s = some s' → W s → W s')
    {m : Move κ η ν} (hm : m.Admitted okCall okHandler) (hstep : S.step c m = some c') :
    c'.Blocked W i f rest := by
  have hi : i < c.threads.length := (List.getElem?_eq_some_iff.mp h.stack).1
  have hreached {o : Outcome σ ε χ Unit} {point : Option ε}
      (ho : o.Segments (T none) (fun _ point start s => T none point start .returned s)
        point c.world) : W o.reached := by
    obtain ⟨stop, hstop⟩ := Outcome.segments_reached ho
    exact hkeep _ _ _ _ hstop h.world
  cases System.stepped hstep with
  | call k =>
      refine h.of_step hstep ?_ ?_
      · rw [Config.spawn_threads, List.getElem?_append_left hi]
        exact h.stack
      · rw [Config.spawn_world]
        exact hreached (hS.call k false hm c.world)
  | @nested k j g other hstack hevent =>
      have hne : j ≠ i := by
        rintro rfl
        rw [h.stack] at hstack
        cases hstack
        rw [h.waits] at hevent
        cases hevent
      refine h.of_step hstep ?_ ?_
      · rw [Config.settle_threads, List.getElem?_set_ne hne]
        exact h.stack
      · rw [Config.settle_world]
        exact hreached (hS.call k _ hm c.world)
  | handler hidle hfound => cases h.busy.symm.trans hidle
  | @resume j g other hstack hready =>
      have hne : j ≠ i := by
        rintro rfl
        rw [h.stack] at hstack
        cases hstack
        cases (h.unready _ h.world).symm.trans hready
      have hg : g ∈ c.frames :=
        Config.mem_frames.mpr ⟨_, List.mem_of_getElem? hstack, List.mem_cons_self⟩
      have horigin := h.origin_eq_none hstack hne.symm
      refine h.of_step hstep ?_ ?_
      · rw [Config.settle_threads, List.getElem?_set_ne hne]
        exact h.stack
      · have hobeys := hc g hg c.world hready
        rw [horigin] at hobeys
        rw [Config.settle_world]
        exact hreached hobeys
  | @unwind j g other hstack hevent =>
      have hne : j ≠ i := by
        rintro rfl
        rw [h.stack] at hstack
        cases hstack
        rw [h.waits] at hevent
        cases hevent
      exact h.of_step hstep ((List.getElem?_set_ne hne).trans h.stack) h.world
  | environment hs => exact h.of_step hstep h.stack (henv _ _ _ hs h.world)

theorem run (h : c.Blocked W i f rest)
    {T : Option τ → Option ε → σ → Stop ε χ → σ → Prop} {okCall : κ → Prop}
    {okHandler : η → Prop} (hS : S.Obeys okCall okHandler T) (hc : ∀ f ∈ c.frames, f.Obeys T)
    (hkeep : ∀ point s stop s', T none point s stop s' → W s → W s')
    (henv : ∀ e s s', S.environment e s = some s' → W s → W s')
    {ms : List (Move κ η ν)} (hms : ∀ m ∈ ms, m.Admitted okCall okHandler) :
    ∀ c' ∈ S.states c ms, c'.Blocked W i f rest := by
  have hboth : ∀ c' ∈ S.states c ms, (∀ f ∈ c'.frames, f.Obeys T) ∧ c'.Blocked W i f rest := by
    refine Steps.states_invariant (P := fun t => t.move ∈ ms) (fun t hpre hstep ht => ?_) ⟨hc, h⟩
      Steps.trace_move_mem
    have hadmitted := hms _ ht
    exact ⟨(System.step_cases hS hpre.1 hadmitted hstep).1,
      hpre.2.step hS hpre.1 hkeep henv hadmitted hstep⟩
  exact fun c' hc' => (hboth c' hc').2

end Config.Blocked

/--
A call that waits for the handlers, made inside one of them, stays on top of its thread in
every continuation of the run.  The moves are admitted ones from a time on at which no code was
under way.
-/
theorem System.blocked_forever {S : System σ ε χ τ κ η ν}
    {T : Option τ → Option ε → σ → Stop ε χ → σ → Prop} {okCall : κ → Prop}
    {okHandler : η → Prop} (hS : S.Obeys okCall okHandler T) {W : σ → Prop}
    (hkeep : ∀ point s stop s', T none point s stop s' → W s → W s')
    (henv : ∀ e s s', S.environment e s = some s' → W s → W s')
    {c₀ c c' : Config σ ε χ τ} (hidle : c₀.frames = []) {ms : List (Move κ η ν)}
    (hms : ∀ m ∈ ms, m.Admitted okCall okHandler) (hc : c ∈ S.states c₀ ms) {i : Nat}
    {stack : List (Frame σ ε χ τ)} (hstack : c.threads[i]? = some stack)
    (habove : handlersOf stack ≠ []) {k : κ} (hk : okCall k)
    (hcall : S.step c (.call k (some i)) = some c')
    (hwait : ∀ inside, ∃ ready s resume, S.call k inside c.world = .wait ready s resume ∧
      W s ∧ ∀ s', W s' → ready s' = false) :
    ∃ f, c'.threads[i]? = some (f :: stack) ∧
      ∀ ms' : List (Move κ η ν), (∀ m ∈ ms', m.Admitted okCall okHandler) →
        ∀ d ∈ S.states c' ms', d.Blocked W i f stack := by
  have hframes : ∀ c ∈ S.states c₀ ms, ∀ f ∈ c.frames, f.Obeys T := by
    refine Steps.states_invariant (P := fun t => t.move ∈ ms) (fun t hpre hstep ht => ?_) ?_
      Steps.trace_move_mem
    · exact (System.step_cases hS hpre (hms _ ht) hstep).1
    · simp [hidle]
  have hempty : c₀.handlers.length ≤ 1 := by
    simp [Config.handlers, handlersOf, hidle]
  have hsole : c.handlers.length ≤ 1 := System.sole_run hempty ms c hc
  obtain ⟨f, hblocked⟩ := Config.Blocked.of_call hstack habove hsole hcall hwait
  have hframes' : ∀ f ∈ c'.frames, f.Obeys T :=
    (System.step_cases hS (hframes c hc) (m := .call k (some i)) hk hcall).1
  exact ⟨f, hblocked.stack, fun ms' hms' => hblocked.run hS hframes' hkeep henv hms'⟩

end AsioWrapper.Foundation
