import AsioWrapper.Foundation.Outline

/-!
# Derived classes

A derived class has members of its own beside those of its base, and overrides
some of the virtual functions its base calls.  Code of the base runs in an
object of the derived class as it is written, on the part of the state that is
the base; where it invokes a callback the override is executed before it goes
on.
-/

namespace AsioWrapper.Foundation

variable {τ σ ε φ χ α β γ : Type}

structure Base (τ σ : Type) where
  get : τ → σ
  set : σ → τ → τ
  get_set : ∀ s t, get (set s t) = s
  set_get : ∀ t, set (get t) t = t
  set_set : ∀ s s' t, set s (set s' t) = set s t

/--
Code of the base class, begun in the state `t` of the whole object.  The object
is suspended before the override begins, so that other threads may come first.
-/
def Outcome.derive (V : Base τ σ) (label : ε → φ) (override : ε → Program τ φ χ Unit) :
    Outcome σ ε χ α → τ → Outcome τ φ χ α
  | ret value s, t => .ret value (V.set s t)
  | throw error s, t => .throw error (V.set s t)
  | call event s resume, t =>
      .call (label event) (V.set s t) fun t' =>
        (override event t').bind fun _ t'' => (resume (V.get t'')).derive V label override t''
  | wait ready s resume, t =>
      .wait (fun t' => ready (V.get t')) (V.set s t) fun t' =>
        (resume (V.get t')).derive V label override t'

theorem Outcome.bind_assoc (o : Outcome σ ε χ α) (f : α → σ → Outcome σ ε χ β)
    (g : β → σ → Outcome σ ε χ γ) :
    (o.bind f).bind g = o.bind fun value s => (f value s).bind g := by
  induction o with
  | ret value s => rfl
  | throw error s => rfl
  | call event s resume ih => simp only [bind, ih]
  | wait ready s resume ih => simp only [bind, ih]

theorem Outcome.bind_ret (o : Outcome σ ε χ α) : o.bind .ret = o := by
  induction o with
  | ret value s => rfl
  | throw error s => rfl
  | call event s resume ih => simp only [bind, ih]
  | wait ready s resume ih => simp only [bind, ih]

namespace Program

def derive (V : Base τ σ) (label : ε → φ) (override : ε → Program τ φ χ Unit)
    (m : Program σ ε χ α) : Program τ φ χ α :=
  fun t => (m (V.get t)).derive V label override t

def base (V : Base τ σ) : Program τ φ χ σ := fun t => .ret (V.get t) t

section Structure

variable (V : Base τ σ) (label : ε → φ) (override : ε → Program τ φ χ Unit)

theorem derive_bind (m : Program σ ε χ α) (f : α → Program σ ε χ β) :
    (m >>= f).derive V label override =
      m.derive V label override >>= fun value => (f value).derive V label override := by
  suffices ∀ (o : Outcome σ ε χ α) (t : τ), (o.bind f).derive V label override t =
      (o.derive V label override t).bind fun value => (f value).derive V label override from
    funext fun t => this (m (V.get t)) t
  intro o
  -- only where the first program returns does the state of the second one matter
  induction o with
  | ret value s =>
      intro t
      have hrest : ∀ o : Outcome σ ε χ β, o.derive V label override t =
          o.derive V label override (V.set s t) := by
        intro o
        cases o <;> simp only [Outcome.derive, V.set_set]
      simp only [Outcome.bind, Outcome.derive, derive, V.get_set]
      exact hrest _
  | throw error s => exact fun t => rfl
  | call event s resume ih =>
      intro t
      simp only [Outcome.bind, Outcome.derive, ih]
      exact congrArg (Outcome.call _ _) (funext fun t' => (Outcome.bind_assoc _ _ _).symm)
  | wait ready s resume ih =>
      intro t
      simp only [Outcome.bind, Outcome.derive, ih]

theorem derive_pure (value : α) :
    (pure value : Program σ ε χ α).derive V label override = pure value :=
  funext fun t => congrArg (Outcome.ret value) (V.set_get t)

theorem derive_state : (state : Program σ ε χ σ).derive V label override = base V :=
  funext fun t => congrArg (Outcome.ret (V.get t)) (V.set_get t)

theorem derive_throw (error : χ) :
    (throw error : Program σ ε χ α).derive V label override = throw error :=
  funext fun t => congrArg (Outcome.throw error) (V.set_get t)

theorem derive_callback (event : ε) :
    (callback event : Program σ ε χ Unit).derive V label override =
      callback (label event) >>= fun _ => override event := by
  funext t
  simp only [derive, callback, Outcome.derive, bind_apply, Outcome.bind, V.set_get]
  exact congrArg (Outcome.call _ _) (funext fun t' => Outcome.bind_ret _)

theorem derive_ite (c : Prop) [Decidable c] (m m' : Program σ ε χ α) :
    (if c then m else m').derive V label override =
      if c then m.derive V label override else m'.derive V label override := by
  split <;> rfl

theorem derive_discard (m : Program σ ε χ α) :
    (Functor.discard m).derive V label override =
      Functor.discard (m.derive V label override) := by
  refine (derive_bind V label override m fun _ => pure ()).trans ?_
  simp only [derive_pure]
  rfl

end Structure

def Derives (V : Base τ σ) (label : ε → φ) (override : ε → Program τ φ χ Unit)
    (K : Option φ → τ → Prop) (A : τ → Prop) (m : Program σ ε χ α) (B : α → τ → Prop) : Prop :=
  Holds K A (m.derive V label override) B

namespace Derives

variable {V : Base τ σ} {label : ε → φ} {override : ε → Program τ φ χ Unit}
  {K : Option φ → τ → Prop} {A A' : τ → Prop} {B B' : α → τ → Prop} {D : β → τ → Prop}

theorem bind {m : Program σ ε χ α} {f : α → Program σ ε χ β}
    (hm : Derives V label override K A m B)
    (hf : ∀ value, Derives V label override K (B value) (f value) D) :
    Derives V label override K A (m >>= f) D := by
  unfold Derives
  rw [derive_bind]
  exact Holds.bind hm hf

theorem weaken {m : Program σ ε χ α} (hm : Derives V label override K A m B)
    (hA : ∀ t, A' t → A t) (hB : ∀ value t, B value t → B' value t) :
    Derives V label override K A' m B' :=
  Holds.weaken hm hA hB

theorem pure {value : α} (h : ∀ t, A t → B value t) :
    Derives V label override K A (Pure.pure value : Program σ ε χ α) B := by
  unfold Derives
  rw [derive_pure]
  exact Holds.pure h

theorem discard {m : Program σ ε χ α} {E : τ → Prop}
    (hm : Derives V label override K A m fun _ => E) :
    Derives V label override K A (Functor.discard m) fun _ => E := by
  unfold Derives
  rw [derive_discard]
  exact Holds.discard hm

theorem state {f : σ → Program σ ε χ β}
    (hf : ∀ t, Derives V label override K (fun t' => t' = t ∧ A t) (f (V.get t)) D) :
    Derives V label override K A (Program.state >>= f) D := by
  unfold Derives
  rw [derive_bind, derive_state]
  exact fun point start t hA => hf t point start t fun hK => ⟨rfl, hA hK⟩

theorem update {f : σ → σ} {B : Unit → τ → Prop} (h : ∀ t, A t → B () (V.set (f (V.get t)) t)) :
    Derives V label override K A (Program.update f : Program σ ε χ Unit) B :=
  Holds.update h

theorem updated {f : σ → σ} {m : Program σ ε χ β}
    (hm : Derives V label override K (fun t => ∃ t₀, A t₀ ∧ t = V.set (f (V.get t₀)) t₀) m D) :
    Derives V label override K A (Program.update f >>= fun _ => m) D :=
  bind (update fun t ht => ⟨t, ht, rfl⟩) fun _ => hm

theorem throw {error : χ} (h : ∀ t, A t → K none t) :
    Derives V label override K A (Program.throw error : Program σ ε χ α) B := by
  unfold Derives
  rw [derive_throw]
  exact Holds.throw h

theorem callback {event : ε} {B : Unit → τ → Prop} (h : ∀ t, A t → K (some (label event)) t)
    (hoverride : Holds K (K (some (label event))) (override event) B) :
    Derives V label override K A (Program.callback event : Program σ ε χ Unit) B := by
  unfold Derives
  rw [derive_callback]
  exact (Holds.callback h fun _ h => h).bind fun _ => hoverride

theorem ite {c : Prop} [Decidable c] {m m' : Program σ ε χ α}
    (hm : c → Derives V label override K A m B) (hm' : ¬c → Derives V label override K A m' B) :
    Derives V label override K A (if c then m else m') B := by
  unfold Derives
  rw [derive_ite]
  exact Holds.ite hm hm'

/--
An assertion that is the same everywhere.  It is enough that the base does to the
subobject what keeps it, and that the overrides do.
-/
theorem of_obeys {I : τ → Prop} {Q : σ → σ → Prop} {m : Program σ ε χ α}
    (hm : m.Obeys fun _ start _ finish => Q start finish) (hnone : ∀ t, K none t ↔ I t)
    (hlabel : ∀ event t, I t → K (some (label event)) t)
    (hset : ∀ t s, I t → Q (V.get t) s → I (V.set s t))
    (hoverride : ∀ event, Holds K (K (some (label event))) (override event) fun _ => I) :
    Derives V label override K I m fun _ => I := by
  intro point start t ht
  suffices ∀ (o : Outcome σ ε χ α) (p : Option ε) (point : Option φ) (start t : τ),
      (K point start → I t) →
      o.Segments (fun _ start _ finish => Q start finish) (fun _ _ start finish => Q start finish)
        p (V.get t) →
      (o.derive V label override t).Segments (Outlined K)
        (fun _ point start t => K point start → I t) point start from
    this (m (V.get t)) none point start t ht (hm (V.get t))
  intro o
  induction o with
  | ret value s =>
      intro p point start t ht ho hK
      exact hset t s (ht hK) ho
  | throw error s =>
      intro p point start t ht ho hK
      exact (hnone _).mpr (hset t s (ht hK) ho)
  | call event s resume ih =>
      intro p point start t ht ho
      refine ⟨fun hK => hlabel event _ (hset t s (ht hK) ho.1), fun t' => ?_⟩
      rw [Outcome.segments_bind]
      refine segments_mono (fun _ _ _ _ h => h) ?_ (hoverride event (some _) t' t' id)
      intro _ point start t'' ht''
      exact ih (V.get t'') _ point start t'' ht'' (ho.2 (V.get t''))
  | wait ready s resume ih =>
      intro p point start t ht ho
      refine ⟨fun hK => (hnone _).mpr (hset t s (ht hK) ho.1), fun t' hready => ?_⟩
      exact ih (V.get t') _ none t' t' (hnone t').mp (ho.2 (V.get t') hready)

end Derives

end Program

/-! ## Relations kept by the code of the base class -/

abbrev Program.Relates (R : τ → τ → Prop) (m : Program τ φ χ α) : Prop :=
  m.Triple (fun _ start _ finish => R start finish) (fun _ start t => R start t)
    (fun _ => True) fun _ _ => True

namespace Program.Relates

variable {R : τ → τ → Prop}

theorem obeys {m : Program τ φ χ α} (hm : Relates R m) (hrefl : ∀ t, R t t) :
    m.Obeys fun _ start _ finish => R start finish :=
  fun t =>
    segments_mono (fun _ _ _ _ h => h) (fun _ _ _ _ h => h.1) (hm none t t (hrefl t) trivial)

theorem callback (hrefl : ∀ t, R t t) (event : φ) :
    Relates R (Program.callback event : Program τ φ χ Unit) :=
  fun _ _ _ ht _ => ⟨ht, fun t' => ⟨hrefl t', trivial⟩⟩

theorem waitUntil (hrefl : ∀ t, R t t) (ready : τ → Bool) :
    Relates R (Program.waitUntil ready : Program τ φ χ Unit) :=
  fun _ _ _ ht _ => ⟨ht, fun t' _ => ⟨hrefl t', trivial⟩⟩

theorem state {f : τ → Program τ φ χ β} (hf : ∀ t, Relates R (f t)) :
    Relates R (Program.state >>= f) :=
  Triple.state fun t => (hf t).weaken (fun _ _ => trivial) fun _ _ h => h

/--
What a function of the base class does to the base it does to the subobject.  `Q` is
what it does there, and the overrides have to keep to `R` on their own.
-/
theorem derive {V : Base τ σ} {label : ε → φ} {override : ε → Program τ φ χ Unit}
    {Q : σ → σ → Prop} (hrefl : ∀ t, R t t) (htrans : ∀ t t' t'', R t t' → R t' t'' → R t t'')
    (hset : ∀ t s, Q (V.get t) s → R t (V.set s t))
    (hoverride : ∀ event, Relates R (override event)) {m : Program σ ε χ α}
    (hm : m.Obeys fun _ start _ finish => Q start finish) :
    Relates R (m.derive V label override) := by
  intro point start t ht _
  -- `t` is where the code of the base was resumed, `start` where the segment began
  suffices ∀ (o : Outcome σ ε χ α) (p : Option ε) (point : Option φ) (start t : τ), R start t →
      o.Segments (fun _ start _ finish => Q start finish) (fun _ _ start finish => Q start finish)
        p (V.get t) →
      (o.derive V label override t).Segments (fun _ start _ finish => R start finish)
        (fun _ _ start t => R start t ∧ True) point start from
    this (m (V.get t)) none point start t ht (hm (V.get t))
  intro o
  induction o with
  | ret value s =>
      intro p point start t ht ho
      exact ⟨htrans _ _ _ ht (hset t s ho), trivial⟩
  | throw error s =>
      intro p point start t ht ho
      exact htrans _ _ _ ht (hset t s ho)
  | call event s resume ih =>
      intro p point start t ht ho
      refine ⟨htrans _ _ _ ht (hset t s ho.1), fun t' => ?_⟩
      rw [Outcome.segments_bind]
      refine segments_mono (fun _ _ _ _ h => h) ?_
        (hoverride event (some _) t' t' (hrefl t') trivial)
      intro _ point start t'' ht''
      exact ih (V.get t'') _ point start t'' ht''.1 (ho.2 (V.get t''))
  | wait ready s resume ih =>
      intro p point start t ht ho
      refine ⟨htrans _ _ _ ht (hset t s ho.1), fun t' hready => ?_⟩
      exact ih (V.get t') _ none t' t' (hrefl t') (ho.2 (V.get t') hready)

end Program.Relates

end AsioWrapper.Foundation
