import Mathlib.Logic.Basic

/-!
# Resumable programs

A program over a shared state runs in segments.  A segment ends when the
program returns, throws, hands control to foreign code through a callback, or
blocks until the state satisfies a condition.  While a program is suspended
the shared state may change arbitrarily, so the rest of the program is a
function of whatever state it is resumed in.

`Program.Segments` is the weakest-precondition calculus used to reason about
such programs: it asks that every segment, from whatever state it starts,
relates its start to its end as prescribed.
-/

namespace AsioWrapper.Foundation

/-- How the execution of a program from some state goes on. -/
inductive Outcome (σ ε χ α : Type) where
  | ret (value : α) (state : σ)
  | throw (error : χ) (state : σ)
  | call (event : ε) (state : σ) (resume : σ → Outcome σ ε χ α)
  | wait (ready : σ → Bool) (state : σ) (resume : σ → Outcome σ ε χ α)

inductive Stop (ε χ : Type) where
  | returned
  | threw (error : χ)
  | called (event : ε)
  | waiting
  deriving DecidableEq, Repr

namespace Outcome

variable {σ ε χ α β : Type}

def bind : Outcome σ ε χ α → (α → σ → Outcome σ ε χ β) → Outcome σ ε χ β
  | ret value state, next => next value state
  | throw error state, _ => throw error state
  | call event state resume, next => call event state fun s => (resume s).bind next
  | wait ready state resume, next => wait ready state fun s => (resume s).bind next

/--
Every segment of the outcome is a `T`-step: `T point start stop finish`
relates the callback the segment was resumed from (`none` at the beginning
and after a wait), the state it started in, the way it stopped and the state
it stopped in.  `Q` takes over where the program returns.
-/
def Segments (T : Option ε → σ → Stop ε χ → σ → Prop)
    (Q : α → Option ε → σ → σ → Prop) (point : Option ε) (start : σ) :
    Outcome σ ε χ α → Prop
  | ret value state => Q value point start state
  | throw error state => T point start (.threw error) state
  | call event state resume =>
      T point start (.called event) state ∧
        ∀ s, Segments T Q (some event) s (resume s)
  | wait ready state resume =>
      T point start .waiting state ∧
        ∀ s, ready s = true → Segments T Q none s (resume s)

theorem segments_bind (T : Option ε → σ → Stop ε χ → σ → Prop)
    (Q : β → Option ε → σ → σ → Prop) (o : Outcome σ ε χ α)
    (next : α → σ → Outcome σ ε χ β) (point : Option ε) (start : σ) :
    (o.bind next).Segments T Q point start ↔
      o.Segments T
        (fun value point start state => (next value state).Segments T Q point start)
        point start := by
  induction o generalizing point start with
  | ret value state => rfl
  | throw error state => rfl
  | call event state resume ih =>
      simp only [bind, Segments, ih]
  | wait ready state resume ih =>
      simp only [bind, Segments, ih]

def reached : Outcome σ ε χ α → σ
  | ret _ state | throw _ state | call _ state _ | wait _ state _ => state

theorem segments_reached {T : Option ε → σ → Stop ε χ → σ → Prop} {o : Outcome σ ε χ α}
    {point : Option ε} {start : σ}
    (h : o.Segments T (fun _ point start state => T point start .returned state) point start) :
    ∃ stop, T point start stop o.reached := by
  cases o with
  | ret value state => exact ⟨_, h⟩
  | throw error state => exact ⟨_, h⟩
  | call event state resume => exact ⟨_, h.1⟩
  | wait ready state resume => exact ⟨_, h.1⟩

theorem segments_mono {T T' : Option ε → σ → Stop ε χ → σ → Prop}
    {Q Q' : α → Option ε → σ → σ → Prop}
    (hT : ∀ point start stop finish,
      T point start stop finish → T' point start stop finish)
    (hQ : ∀ value point start state,
      Q value point start state → Q' value point start state)
    {o : Outcome σ ε χ α} {point : Option ε} {start : σ}
    (h : o.Segments T Q point start) : o.Segments T' Q' point start := by
  induction o generalizing point start with
  | ret value state => exact hQ _ _ _ _ h
  | throw error state => exact hT _ _ _ _ h
  | call event state resume ih =>
      exact ⟨hT _ _ _ _ h.1, fun s => ih s (h.2 s)⟩
  | wait ready state resume ih =>
      exact ⟨hT _ _ _ _ h.1, fun s hs => ih s (h.2 s hs)⟩

theorem segments_and {T T' : Option ε → σ → Stop ε χ → σ → Prop}
    {Q Q' : α → Option ε → σ → σ → Prop} {o : Outcome σ ε χ α} {point : Option ε} {start : σ}
    (h : o.Segments T Q point start) (h' : o.Segments T' Q' point start) :
    o.Segments (fun point start stop finish =>
        T point start stop finish ∧ T' point start stop finish)
      (fun value point start state => Q value point start state ∧ Q' value point start state)
      point start := by
  induction o generalizing point start with
  | ret value state => exact ⟨h, h'⟩
  | throw error state => exact ⟨h, h'⟩
  | call event state resume ih => exact ⟨⟨h.1, h'.1⟩, fun s => ih s (h.2 s) (h'.2 s)⟩
  | wait ready state resume ih =>
      exact ⟨⟨h.1, h'.1⟩, fun s hs => ih s (h.2 s hs) (h'.2 s hs)⟩

def Calls (p : ε → Prop) (o : Outcome σ ε χ α) (point : Option ε) (start : σ) : Prop :=
  o.Segments (fun _ _ stop _ => ∀ event, stop = .called event → p event)
    (fun _ _ _ _ => True) point start

/--
Where the segments resumed from the callbacks in `p` and those after a wait are free,
only the first segment of an outcome that invokes no other callback is left to check.
-/
theorem segments_of_calls {p : ε → Prop} {T : Option ε → σ → Stop ε χ → σ → Prop}
    {o : Outcome σ ε χ α} {point : Option ε} {start : σ} (hcalls : o.Calls p point start)
    (hresumed : ∀ event start stop finish, p event → T (some event) start stop finish)
    (hwaited : ∀ start stop finish, T none start stop finish)
    (hfirst : ∀ stop, T point start stop o.reached) :
    o.Segments T (fun _ point start state => T point start .returned state) point start := by
  induction o generalizing point start with
  | ret value state => exact hfirst .returned
  | throw error state => exact hfirst _
  | call event state resume ih =>
      refine ⟨hfirst _, fun s => ih s (hcalls.2 s) fun stop => ?_⟩
      exact hresumed event _ _ _ (hcalls.1 event rfl)
  | wait ready state resume ih =>
      exact ⟨hfirst _, fun s hs => ih s (hcalls.2 s hs) fun stop => hwaited _ _ _⟩

theorem segments_of_forall {T : Option ε → σ → Stop ε χ → σ → Prop}
    {Q : α → Option ε → σ → σ → Prop} (hT : ∀ point start stop finish, T point start stop finish)
    (hQ : ∀ value point start state, Q value point start state) (o : Outcome σ ε χ α)
    (point : Option ε) (start : σ) : o.Segments T Q point start := by
  induction o generalizing point start with
  | ret value state => exact hQ _ _ _ _
  | throw error state => exact hT _ _ _ _
  | call event state resume ih => exact ⟨hT _ _ _ _, fun s => ih s _ _⟩
  | wait ready state resume ih => exact ⟨hT _ _ _ _, fun s _ => ih s _ _⟩

end Outcome

def Program (σ ε χ α : Type) : Type := σ → Outcome σ ε χ α

namespace Program

variable {σ ε χ α β : Type}

instance : Monad (Program σ ε χ) where
  pure value := fun s => .ret value s
  bind m f := fun s => (m s).bind f

theorem bind_apply (m : Program σ ε χ α) (f : α → Program σ ε χ β) (s : σ) :
    (m >>= f) s = (m s).bind f := rfl

theorem discard_apply (m : Program σ ε χ α) (s : σ) :
    (Functor.discard m : Program σ ε χ Unit) s = (m s).bind fun _ s => .ret () s := rfl

def state : Program σ ε χ σ := fun s => .ret s s

def update (f : σ → σ) : Program σ ε χ Unit := fun s => .ret () (f s)

def throw (error : χ) : Program σ ε χ α := fun s => .throw error s

def callback (event : ε) : Program σ ε χ Unit :=
  fun s => .call event s fun s' => .ret () s'

def waitUntil (ready : σ → Bool) : Program σ ε χ Unit :=
  fun s => .wait ready s fun s' => .ret () s'

def whenever (c : Bool) (m : Program σ ε χ Unit) : Program σ ε χ Unit :=
  if c then m else pure ()

def Segments (m : Program σ ε χ α) (T : Option ε → σ → Stop ε χ → σ → Prop)
    (Q : α → Option ε → σ → σ → Prop) (point : Option ε) (start s : σ) : Prop :=
  (m s).Segments T Q point start

variable {T : Option ε → σ → Stop ε χ → σ → Prop}
  {point : Option ε} {start s : σ}

@[simp] theorem segments_pure (value : α) {Q : α → Option ε → σ → σ → Prop} :
    (pure value : Program σ ε χ α).Segments T Q point start s ↔
      Q value point start s := Iff.rfl

@[simp] theorem segments_bind (m : Program σ ε χ α) (f : α → Program σ ε χ β)
    {Q : β → Option ε → σ → σ → Prop} :
    (m >>= f).Segments T Q point start s ↔
      m.Segments T (fun value => (f value).Segments T Q) point start s :=
  Outcome.segments_bind T Q (m s) f point start

@[simp] theorem segments_discard (m : Program σ ε χ α)
    {Q : Unit → Option ε → σ → σ → Prop} :
    (Functor.discard m).Segments T Q point start s ↔
      m.Segments T (fun _ => Q ()) point start s :=
  Outcome.segments_bind T Q (m s) (fun _ s => .ret () s) point start

@[simp] theorem segments_state {Q : σ → Option ε → σ → σ → Prop} :
    (state : Program σ ε χ σ).Segments T Q point start s ↔
      Q s point start s := Iff.rfl

@[simp] theorem segments_update (f : σ → σ) {Q : Unit → Option ε → σ → σ → Prop} :
    (update f : Program σ ε χ Unit).Segments T Q point start s ↔
      Q () point start (f s) := Iff.rfl

@[simp] theorem segments_throw (error : χ) {Q : α → Option ε → σ → σ → Prop} :
    (throw error : Program σ ε χ α).Segments T Q point start s ↔
      T point start (.threw error) s := Iff.rfl

@[simp] theorem segments_callback (event : ε)
    {Q : Unit → Option ε → σ → σ → Prop} :
    (callback event : Program σ ε χ Unit).Segments T Q point start s ↔
      T point start (.called event) s ∧ ∀ s', Q () (some event) s' s' := Iff.rfl

@[simp] theorem segments_waitUntil (ready : σ → Bool)
    {Q : Unit → Option ε → σ → σ → Prop} :
    (waitUntil ready : Program σ ε χ Unit).Segments T Q point start s ↔
      T point start .waiting s ∧ ∀ s', ready s' = true → Q () none s' s' := Iff.rfl

@[simp] theorem segments_ite (c : Prop) [Decidable c] (m m' : Program σ ε χ α)
    {Q : α → Option ε → σ → σ → Prop} :
    (if c then m else m').Segments T Q point start s ↔
      if c then m.Segments T Q point start s
      else m'.Segments T Q point start s := by
  split <;> rfl

theorem segments_mono {T' : Option ε → σ → Stop ε χ → σ → Prop}
    {Q Q' : α → Option ε → σ → σ → Prop}
    (hT : ∀ point start stop finish,
      T point start stop finish → T' point start stop finish)
    (hQ : ∀ value point start state,
      Q value point start state → Q' value point start state)
    {m : Program σ ε χ α} (h : m.Segments T Q point start s) :
    m.Segments T' Q' point start s :=
  Outcome.segments_mono hT hQ h

def Obeys (m : Program σ ε χ α) (T : Option ε → σ → Stop ε χ → σ → Prop) : Prop :=
  ∀ s, m.Segments T (fun _ point start state => T point start .returned state)
    none s s

/-! ## Triples -/

/--
From a state that satisfies `A` and is related by `R` to the state its segment started in,
every segment of `m` is a `T`-step, and where `m` returns the state is again so related
and satisfies `B`.
-/
def Triple (T : Option ε → σ → Stop ε χ → σ → Prop) (R : Option ε → σ → σ → Prop)
    (A : σ → Prop) (m : Program σ ε χ α) (B : α → σ → Prop) : Prop :=
  ∀ point start s, R point start s → A s →
    m.Segments T (fun value point start s => R point start s ∧ B value s) point start s

namespace Triple

variable {R : Option ε → σ → σ → Prop} {A A' : σ → Prop} {B B' : α → σ → Prop}
  {D : β → σ → Prop}

theorem bind {m : Program σ ε χ α} {f : α → Program σ ε χ β} (hm : Triple T R A m B)
    (hf : ∀ value, Triple T R (B value) (f value) D) : Triple T R A (m >>= f) D := by
  intro point start s hR hA
  rw [segments_bind]
  refine segments_mono (fun _ _ _ _ h => h) ?_ (hm point start s hR hA)
  intro value point start s h
  exact hf value point start s h.1 h.2

theorem weaken {m : Program σ ε χ α} (hm : Triple T R A m B) (hA : ∀ s, A' s → A s)
    (hB : ∀ value s, B value s → B' value s) : Triple T R A' m B' := by
  intro point start s hR h
  refine segments_mono (fun _ _ _ _ h => h) ?_ (hm point start s hR (hA s h))
  intro value point start s hvalue
  exact ⟨hvalue.1, hB value s hvalue.2⟩

theorem pure (value : α) : Triple T R A (Pure.pure value) (fun _ _ => True) := by
  intro point start s hR _
  exact ⟨hR, trivial⟩

theorem discard {m : Program σ ε χ α} (hm : Triple T R A m B) :
    Triple T R A (Functor.discard m) (fun _ _ => True) :=
  hm.bind fun _ => Triple.pure ()

theorem state {f : σ → Program σ ε χ β} (hf : ∀ s, Triple T R (fun s' => s' = s ∧ A s) (f s) D) :
    Triple T R A (Program.state >>= f) D := by
  intro point start s hR hA
  exact hf s point start s hR ⟨rfl, hA⟩

theorem update {f : σ → σ} (h : ∀ point start s, R point start s → A s → R point start (f s)) :
    Triple T R A (Program.update f) (fun _ _ => True) := by
  intro point start s hR hA
  exact ⟨h point start s hR hA, trivial⟩

theorem ite {c : Prop} [Decidable c] {m m' : Program σ ε χ α}
    (hm : c → Triple T R A m B) (hm' : ¬c → Triple T R A m' B) :
    Triple T R A (if c then m else m') B := by
  split
  · exact hm ‹_›
  · exact hm' ‹_›

end Triple

end Program

end AsioWrapper.Foundation
