import AsioWrapper.Foundation.Program
import AsioWrapper.Foundation.Steps

/-!
# Interleaved threads of resumable programs

A configuration holds the shared state and, for every thread, the stack of
its suspended programs.  A thread is opened by an outside call or by a
pending handler; a call made by foreign code inside a callback goes on top of
the stack of the thread that runs the callback.  Any thread may take the next
segment, so a run is an arbitrary interleaving of segments.  Only handlers are
serialized: none begins while the code of another is unfinished.  That is an
`io_service` that one thread runs; where several threads run it, this holds of
handlers that share a strand, and the handlers of a call with a timeout use none.
-/

namespace AsioWrapper.Foundation

structure Frame (σ ε χ τ : Type) where
  origin : Option τ
  event : Option ε
  ready : σ → Bool
  resume : σ → Outcome σ ε χ Unit

structure Config (σ ε χ τ : Type) where
  world : σ
  threads : List (List (Frame σ ε χ τ))
  escaped : List (Option τ × χ)

/--
The code a machine executes.  A call learns whether it is made from within a
handler; a handler that is not pending in the current state has no program.
-/
structure System (σ ε χ τ κ η ν : Type) where
  call : κ → Bool → Program σ ε χ Unit
  handler : η → σ → Option (τ × Program σ ε χ Unit)
  environment : ν → σ → Option σ

inductive Move (κ η ν : Type) where
  | call (call : κ) (thread : Option Nat)
  | handler (handler : η)
  | resume (thread : Nat)
  | unwind (thread : Nat)
  | environment (event : ν)
  deriving DecidableEq, Repr

variable {σ ε χ τ κ η ν : Type}

namespace Frame

def stop (f : Frame σ ε χ τ) : Stop ε χ :=
  match f.event with
  | some event => .called event
  | none => .waiting

theorem event_of_called {f : Frame σ ε χ τ} {event : ε} (h : f.stop = .called event) :
    f.event = some event := by
  unfold stop at h
  split at h <;> cases h
  assumption

theorem waiting_of_not_called {f : Frame σ ε χ τ} (h : ∀ event, f.stop ≠ .called event) :
    f.event = none ∧ f.stop = .waiting := by
  unfold stop at h ⊢
  cases hevent : f.event with
  | none => exact ⟨rfl, rfl⟩
  | some event => exact (h event (by rw [hevent])).elim

end Frame

namespace Stop

def escaped (origin : Option τ) : Stop ε χ → List (Option τ × χ)
  | .threw error => [(origin, error)]
  | _ => []

end Stop

namespace Config

def initial (world : σ) : Config σ ε χ τ := ⟨world, [], []⟩

def frames (c : Config σ ε χ τ) : List (Frame σ ε χ τ) := c.threads.flatten

def handlersIdle (c : Config σ ε χ τ) : Bool :=
  c.threads.all fun stack => stack.all fun f => f.origin.isNone

def settle (c : Config σ ε χ τ) (i : Nat) (origin : Option τ)
    (rest : List (Frame σ ε χ τ)) : Outcome σ ε χ Unit → Config σ ε χ τ
  | .ret _ s => { c with world := s, threads := c.threads.set i rest }
  | .throw error s =>
      { world := s
        threads := c.threads.set i rest
        escaped := c.escaped ++ [(origin, error)] }
  | .call event s resume =>
      { c with
        world := s
        threads := c.threads.set i (⟨origin, some event, fun _ => true, resume⟩ :: rest) }
  | .wait ready s resume =>
      { c with
        world := s
        threads := c.threads.set i (⟨origin, none, ready, resume⟩ :: rest) }

def spawn (c : Config σ ε χ τ) (origin : Option τ)
    (o : Outcome σ ε χ Unit) : Config σ ε χ τ :=
  { c with threads := c.threads ++ [[]] }.settle c.threads.length origin [] o

@[simp] theorem settle_world (c : Config σ ε χ τ) (i : Nat) (origin : Option τ)
    (rest : List (Frame σ ε χ τ)) (o : Outcome σ ε χ Unit) :
    (c.settle i origin rest o).world = o.reached := by
  cases o <;> rfl

@[simp] theorem spawn_world (c : Config σ ε χ τ) (origin : Option τ)
    (o : Outcome σ ε χ Unit) : (c.spawn origin o).world = o.reached :=
  settle_world _ _ _ _ _

end Config

namespace System

variable (S : System σ ε χ τ κ η ν)

def step (c : Config σ ε χ τ) : Move κ η ν → Option (Config σ ε χ τ)
  | .call k none => some (c.spawn none (S.call k false c.world))
  | .call k (some i) =>
      match c.threads[i]? with
      | some (f :: rest) =>
          if f.event.isSome then
            some (c.settle i none (f :: rest)
              (S.call k ((f :: rest).any fun g => g.origin.isSome) c.world))
          else none
      | _ => none
  | .handler h =>
      if c.handlersIdle then
        match S.handler h c.world with
        | some (origin, program) => some (c.spawn (some origin) (program c.world))
        | none => none
      else none
  | .resume i =>
      match c.threads[i]? with
      | some (f :: rest) =>
          if f.ready c.world then some (c.settle i f.origin rest (f.resume c.world))
          else none
      | _ => none
  | .unwind i =>
      -- the foreign code of a callback threw: the program under it is abandoned
      match c.threads[i]? with
      | some (f :: rest) =>
          if f.event.isSome then some { c with threads := c.threads.set i rest }
          else none
      | _ => none
  | .environment e =>
      match S.environment e c.world with
      | some s => some { c with world := s }
      | none => none

inductive Stepped (c : Config σ ε χ τ) : Move κ η ν → Config σ ε χ τ → Prop where
  | call (k : κ) : Stepped c (.call k none) (c.spawn none (S.call k false c.world))
  | nested (k : κ) {i : Nat} {f : Frame σ ε χ τ} {rest : List (Frame σ ε χ τ)}
      (hstack : c.threads[i]? = some (f :: rest)) (hevent : f.event.isSome = true) :
      Stepped c (.call k (some i))
        (c.settle i none (f :: rest)
          (S.call k ((f :: rest).any fun g => g.origin.isSome) c.world))
  | handler {h : η} {origin : τ} {program : Program σ ε χ Unit} (hidle : c.handlersIdle = true)
      (hfound : S.handler h c.world = some (origin, program)) :
      Stepped c (.handler h) (c.spawn (some origin) (program c.world))
  | resume {i : Nat} {f : Frame σ ε χ τ} {rest : List (Frame σ ε χ τ)}
      (hstack : c.threads[i]? = some (f :: rest)) (hready : f.ready c.world = true) :
      Stepped c (.resume i) (c.settle i f.origin rest (f.resume c.world))
  | unwind {i : Nat} {f : Frame σ ε χ τ} {rest : List (Frame σ ε χ τ)}
      (hstack : c.threads[i]? = some (f :: rest)) (hevent : f.event.isSome = true) :
      Stepped c (.unwind i) { c with threads := c.threads.set i rest }
  | environment {e : ν} {s : σ} (hs : S.environment e c.world = some s) :
      Stepped c (.environment e) { c with world := s }

variable {S}

theorem stepped {c c' : Config σ ε χ τ} {m : Move κ η ν} (h : S.step c m = some c') :
    S.Stepped c m c' := by
  cases m with
  | call k thread =>
      cases thread with
      | none =>
          cases h
          exact .call k
      | some i =>
          simp only [step] at h
          split at h
          · rename_i f rest hstack
            split at h
            · cases h
              exact .nested k hstack ‹_›
            · cases h
          · cases h
  | handler k =>
      simp only [step] at h
      split at h
      · rename_i hidle
        split at h
        · cases h
          exact .handler hidle ‹_›
        · cases h
      · cases h
  | resume i =>
      simp only [step] at h
      split at h
      · rename_i f rest hstack
        split at h
        · cases h
          exact .resume hstack ‹_›
        · cases h
      · cases h
  | unwind i =>
      simp only [step] at h
      split at h
      · rename_i f rest hstack
        split at h
        · cases h
          exact .unwind hstack ‹_›
        · cases h
      · cases h
  | environment e =>
      simp only [step] at h
      split at h
      · cases h
        exact .environment ‹_›
      · cases h

theorem step_call {c c' : Config σ ε χ τ} {k : κ} {thread : Option Nat}
    (h : S.step c (.call k thread) = some c') :
    ∃ inside, c'.world = (S.call k inside c.world).reached := by
  cases stepped h with
  | call => exact ⟨false, Config.spawn_world _ _ _⟩
  | nested _ hstack hevent => exact ⟨_, Config.settle_world _ _ _ _ _⟩

theorem step_call_settle {c c' : Config σ ε χ τ} {k : κ} {thread : Option Nat}
    (h : S.step c (.call k thread) = some c') :
    ∃ n i rest inside, (c.threads ++ List.replicate n [])[i]? = some rest ∧
      c' = Config.settle { c with threads := c.threads ++ List.replicate n [] } i none rest
        (S.call k inside c.world) := by
  cases stepped h with
  | call => exact ⟨1, c.threads.length, [], false, by simp, rfl⟩
  | @nested _ i f rest hstack hevent =>
      refine ⟨0, i, f :: rest, (f :: rest).any fun g => g.origin.isSome, ?_, ?_⟩
      · simpa using hstack
      · rw [List.replicate_zero, List.append_nil]

theorem step_handler {c c' : Config σ ε χ τ} {h : η} (hstep : S.step c (.handler h) = some c') :
    ∃ origin program, S.handler h c.world = some (origin, program) ∧
      c'.world = (program c.world).reached := by
  cases stepped hstep with
  | handler hidle hfound => exact ⟨_, _, hfound, Config.spawn_world _ _ _⟩

theorem step_resume {c c' : Config σ ε χ τ} {i : Nat} (h : S.step c (.resume i) = some c') :
    ∃ f rest, c.threads[i]? = some (f :: rest) ∧ f.ready c.world = true ∧
      c'.world = (f.resume c.world).reached := by
  cases stepped h with
  | resume hstack hready => exact ⟨_, _, hstack, hready, Config.settle_world _ _ _ _ _⟩

variable (S)

/-- The code a move executes: whose it is and from which callback it resumes. -/
def segment (c : Config σ ε χ τ) : Move κ η ν → Option (Option τ × Option ε)
  | .call _ _ => some (none, none)
  | .handler h => (S.handler h c.world).map fun found => (some found.1, none)
  | .resume i =>
      match c.threads[i]? with
      | some (f :: _) => some (f.origin, f.event)
      | _ => none
  | _ => none

end System

abbrev System.trace (S : System σ ε χ τ κ η ν) (c : Config σ ε χ τ) (ms : List (Move κ η ν)) :
    List (Transition (Config σ ε χ τ) (Move κ η ν)) :=
  Steps.trace S.step c ms

abbrev System.run (S : System σ ε χ τ κ η ν) (c : Config σ ε χ τ) (ms : List (Move κ η ν)) :
    Option (Config σ ε χ τ) :=
  Steps.run S.step c ms

abbrev System.states (S : System σ ε χ τ κ η ν) (c : Config σ ε χ τ)
    (ms : List (Move κ η ν)) : List (Config σ ε χ τ) :=
  Steps.states S.step c ms

/-! ## What a step can do -/

def Frame.Obeys (T : Option τ → Option ε → σ → Stop ε χ → σ → Prop)
    (f : Frame σ ε χ τ) : Prop :=
  ∀ s, f.ready s = true →
    (f.resume s).Segments (T f.origin)
      (fun _ point start state => T f.origin point start .returned state) f.event s

/-- Every segment of the admitted calls and handlers is a `T`-step. -/
structure System.Obeys (S : System σ ε χ τ κ η ν) (okCall : κ → Prop)
    (okHandler : η → Prop)
    (T : Option τ → Option ε → σ → Stop ε χ → σ → Prop) : Prop where
  call : ∀ k inside, okCall k → (S.call k inside).Obeys (T none)
  handler : ∀ h s origin program, okHandler h →
    S.handler h s = some (origin, program) →
    program.Segments (T (some origin))
      (fun _ point start state => T (some origin) point start .returned state) none s s

theorem System.Obeys.mono {S : System σ ε χ τ κ η ν} {okCall : κ → Prop}
    {okHandler : η → Prop} {T T' : Option τ → Option ε → σ → Stop ε χ → σ → Prop}
    (h : ∀ origin point s stop s', T origin point s stop s' → T' origin point s stop s')
    (hS : S.Obeys okCall okHandler T) : S.Obeys okCall okHandler T' where
  call k inside hk s :=
    Outcome.segments_mono (h none) (fun _ _ _ _ hr => h _ _ _ _ _ hr) (hS.call k inside hk s)
  handler k s origin program hk hlookup :=
    Outcome.segments_mono (h (some origin)) (fun _ _ _ _ hr => h _ _ _ _ _ hr)
      (hS.handler k s origin program hk hlookup)

theorem System.Obeys.and {S : System σ ε χ τ κ η ν} {okCall : κ → Prop}
    {okHandler : η → Prop} {T T' : Option τ → Option ε → σ → Stop ε χ → σ → Prop}
    (hS : S.Obeys okCall okHandler T) (hS' : S.Obeys okCall okHandler T') :
    S.Obeys okCall okHandler fun origin point s stop s' =>
      T origin point s stop s' ∧ T' origin point s stop s' where
  call k inside hk s := Outcome.segments_and (hS.call k inside hk s) (hS'.call k inside hk s)
  handler k s origin program hk hlookup :=
    Outcome.segments_and (hS.handler k s origin program hk hlookup)
      (hS'.handler k s origin program hk hlookup)

def Move.Admitted (okCall : κ → Prop) (okHandler : η → Prop) : Move κ η ν → Prop
  | .call k _ => okCall k
  | .handler h => okHandler h
  | _ => True

section Inversion

variable {S : System σ ε χ τ κ η ν}
  {T : Option τ → Option ε → σ → Stop ε χ → σ → Prop}
  {c c' : Config σ ε χ τ}

theorem Config.mem_frames {f : Frame σ ε χ τ} :
    f ∈ c.frames ↔ ∃ stack ∈ c.threads, f ∈ stack := by
  simp [Config.frames]

theorem System.segment_cases {m : Move κ η ν} {origin : Option τ} {point : Option ε}
    (h : S.segment c m = some (origin, point)) :
    (origin = none ∧ point = none) ∨ (∃ k, m = .handler k ∧ point = none) ∨
      ∃ f ∈ c.frames, f.origin = origin ∧ f.event = point := by
  cases m with
  | call k thread =>
      cases h
      exact Or.inl ⟨rfl, rfl⟩
  | handler k =>
      simp only [System.segment, Option.map_eq_some_iff, Prod.mk.injEq] at h
      obtain ⟨found, -, -, hpoint⟩ := h
      exact Or.inr (Or.inl ⟨k, rfl, hpoint.symm⟩)
  | resume i =>
      simp only [System.segment] at h
      split at h
      · rename_i f rest hstack
        cases h
        refine Or.inr (Or.inr ⟨f, ?_, rfl, rfl⟩)
        exact Config.mem_frames.mpr ⟨_, List.mem_of_getElem? hstack, List.mem_cons_self⟩
      · cases h
  | unwind i => cases h
  | environment e => cases h

private theorem mem_frames_set {f : Frame σ ε χ τ} {i : Nat}
    {threads : List (List (Frame σ ε χ τ))} {stack : List (Frame σ ε χ τ)}
    (h : f ∈ (threads.set i stack).flatten) : f ∈ threads.flatten ∨ f ∈ stack := by
  obtain ⟨other, hother, hf⟩ := List.mem_flatten.mp h
  rcases List.mem_or_eq_of_mem_set hother with hmem | rfl
  · exact Or.inl (List.mem_flatten.mpr ⟨other, hmem, hf⟩)
  · exact Or.inr hf

private theorem settle_segment {origin : Option τ} {point : Option ε} (i : Nat)
    (rest : List (Frame σ ε χ τ)) {o : Outcome σ ε χ Unit} {start : σ}
    (hrest : ∀ f ∈ rest, f ∈ c.frames) (hc : ∀ f ∈ c.frames, f.Obeys T)
    (ho : o.Segments (T origin)
      (fun _ point start state => T origin point start .returned state) point start) :
    (∀ f ∈ (c.settle i origin rest o).frames, f.Obeys T) ∧
      ∃ stop, T origin point start stop (c.settle i origin rest o).world ∧
        (∀ f ∈ (c.settle i origin rest o).frames,
          f ∈ c.frames ∨ f.origin = origin ∧ f.stop = stop) ∧
        (c.settle i origin rest o).escaped = c.escaped ++ stop.escaped origin := by
  have keep : ∀ f ∈ (c.threads.set i rest).flatten, f ∈ c.frames := by
    intro f hf
    rcases mem_frames_set hf with h | h
    · exact h
    · exact hrest f h
  have push : ∀ (g : Frame σ ε χ τ), ∀ f ∈ (c.threads.set i (g :: rest)).flatten,
      f ∈ c.frames ∨ f = g := by
    intro g f hf
    rcases mem_frames_set hf with h | h
    · exact Or.inl h
    · rcases List.mem_cons.mp h with rfl | h
      · exact Or.inr rfl
      · exact Or.inl (hrest f h)
  cases o with
  | ret value s =>
      refine ⟨fun f hf => hc f (keep f hf), .returned, ho, fun f hf => ?_, ?_⟩
      · exact Or.inl (keep f hf)
      · simp [Config.settle, Stop.escaped]
  | throw error s =>
      refine ⟨fun f hf => hc f (keep f hf), .threw error, ho, fun f hf => ?_, ?_⟩
      · exact Or.inl (keep f hf)
      · simp [Config.settle, Stop.escaped]
  | call event s resume =>
      refine ⟨fun f hf => ?_, .called event, ho.1, fun f hf => ?_, ?_⟩
      · rcases push _ f hf with h | rfl
        · exact hc f h
        · exact fun s _ => ho.2 s
      · rcases push _ f hf with h | rfl
        · exact Or.inl h
        · exact Or.inr ⟨rfl, rfl⟩
      · simp [Config.settle, Stop.escaped]
  | wait ready s resume =>
      refine ⟨fun f hf => ?_, .waiting, ho.1, fun f hf => ?_, ?_⟩
      · rcases push _ f hf with h | rfl
        · exact hc f h
        · exact fun s hs => ho.2 s hs
      · rcases push _ f hf with h | rfl
        · exact Or.inl h
        · exact Or.inr ⟨rfl, rfl⟩
      · simp [Config.settle, Stop.escaped]

private theorem spawn_segment {origin : Option τ} {o : Outcome σ ε χ Unit} {start : σ}
    (hc : ∀ f ∈ c.frames, f.Obeys T)
    (ho : o.Segments (T origin)
      (fun _ point start state => T origin point start .returned state) none start) :
    (∀ f ∈ (c.spawn origin o).frames, f.Obeys T) ∧
      ∃ stop, T origin none start stop (c.spawn origin o).world ∧
        (∀ f ∈ (c.spawn origin o).frames,
          f ∈ c.frames ∨ f.origin = origin ∧ f.stop = stop) ∧
        (c.spawn origin o).escaped = c.escaped ++ stop.escaped origin := by
  have same : ({ c with threads := c.threads ++ [[]] } : Config σ ε χ τ).frames =
      c.frames := by
    simp [Config.frames]
  have key := settle_segment (T := T) (c := { c with threads := c.threads ++ [[]] })
    c.threads.length [] (by simp) (by rw [same]; exact hc) ho
  rw [same] at key
  exact key

structure Executed (T : Option τ → Option ε → σ → Stop ε χ → σ → Prop)
    (origin : Option τ) (point : Option ε) (stop : Stop ε χ)
    (c c' : Config σ ε χ τ) : Prop where
  world : T origin point c.world stop c'.world
  frames : ∀ f ∈ c'.frames, f ∈ c.frames ∨ f.origin = origin ∧ f.stop = stop
  escaped : c'.escaped = c.escaped ++ stop.escaped origin

structure Undisturbed (S : System σ ε χ τ κ η ν) (m : Move κ η ν)
    (c c' : Config σ ε χ τ) : Prop where
  world : c'.world = c.world ∨
    ∃ e, m = .environment e ∧ S.environment e c.world = some c'.world
  frames : ∀ f ∈ c'.frames, f ∈ c.frames
  escaped : c'.escaped = c.escaped

/--
The inversion every invariant proof starts from: a step either executes one
`T`-segment of the code `segment` names, or it executes no code at all.
-/
theorem System.step_cases {okCall : κ → Prop} {okHandler : η → Prop}
    (hS : S.Obeys okCall okHandler T) (hc : ∀ f ∈ c.frames, f.Obeys T)
    {m : Move κ η ν} (hm : m.Admitted okCall okHandler)
    (h : S.step c m = some c') :
    (∀ f ∈ c'.frames, f.Obeys T) ∧
      ((∃ origin point stop, S.segment c m = some (origin, point) ∧
          Executed T origin point stop c c') ∨
        S.segment c m = none ∧ Undisturbed S m c c') := by
  have hmem {i : Nat} {stack : List (Frame σ ε χ τ)} (hstack : c.threads[i]? = some stack) :
      ∀ g ∈ stack, g ∈ c.frames := fun g hg =>
    Config.mem_frames.mpr ⟨_, List.mem_of_getElem? hstack, hg⟩
  cases System.stepped h with
  | call k =>
      obtain ⟨hframes, stop, hT, hnew, hesc⟩ :=
        spawn_segment (T := T) hc (hS.call k false hm c.world)
      exact ⟨hframes, Or.inl ⟨none, none, stop, rfl, hT, hnew, hesc⟩⟩
  | nested k hstack hevent =>
      obtain ⟨hframes, stop, hT, hnew, hesc⟩ :=
        settle_segment (T := T) _ _ (hmem hstack) hc (hS.call k _ hm c.world)
      exact ⟨hframes, Or.inl ⟨none, none, stop, rfl, hT, hnew, hesc⟩⟩
  | @handler k origin program hidle hfound =>
      obtain ⟨hframes, stop, hT, hnew, hesc⟩ :=
        spawn_segment (T := T) hc (hS.handler k c.world origin program hm hfound)
      exact ⟨hframes, Or.inl ⟨some origin, none, stop,
        by simp [System.segment, hfound], hT, hnew, hesc⟩⟩
  | @resume i f rest hstack hready =>
      obtain ⟨hf, hrest⟩ := List.forall_mem_cons.mp (hmem hstack)
      obtain ⟨hframes, stop, hT, hnew, hesc⟩ :=
        settle_segment (T := T) i rest hrest hc (hc f hf c.world hready)
      exact ⟨hframes, Or.inl ⟨f.origin, f.event, stop,
        by simp [System.segment, hstack], hT, hnew, hesc⟩⟩
  | @unwind i f rest hstack hevent =>
      obtain ⟨-, hrest⟩ := List.forall_mem_cons.mp (hmem hstack)
      have keep : ∀ g ∈ (c.threads.set i rest).flatten, g ∈ c.frames := by
        intro g hg
        rcases mem_frames_set hg with hg | hg
        · exact hg
        · exact hrest g hg
      exact ⟨fun g hg => hc g (keep g hg), Or.inr ⟨rfl, Or.inl rfl, keep, rfl⟩⟩
  | @environment e s hs =>
      exact ⟨hc, Or.inr ⟨rfl, Or.inr ⟨e, rfl, hs⟩, fun f hf => hf, rfl⟩⟩

/-! ## Invariants of the suspended programs -/

def Outcome.Suspends (G : Frame σ ε χ τ → Prop) (origin : Option τ) :
    Outcome σ ε χ Unit → Prop
  | .call event _ resume => G ⟨origin, some event, fun _ => true, resume⟩
  | .wait ready _ resume => G ⟨origin, none, ready, resume⟩
  | _ => True

theorem Outcome.Suspends.imp {G G' : Frame σ ε χ τ → Prop} {origin : Option τ}
    {o : Outcome σ ε χ Unit} (h : o.Suspends G origin) (hG : ∀ f, G f → G' f) :
    o.Suspends G' origin := by
  cases o with
  | ret value s => trivial
  | throw error s => trivial
  | call event s resume => exact hG _ h
  | wait ready s resume => exact hG _ h

theorem Outcome.Suspends.of_forall {G : Frame σ ε χ τ → Prop} {origin : Option τ}
    {o : Outcome σ ε χ Unit} (hG : ∀ f, G f) : o.Suspends G origin := by
  cases o with
  | ret value s => trivial
  | throw error s => trivial
  | call event s resume => exact hG _
  | wait ready s resume => exact hG _

theorem Outcome.Suspends.forall {ι : Type} {G : ι → Frame σ ε χ τ → Prop} {origin : Option τ}
    {o : Outcome σ ε χ Unit} (h : ∀ i, o.Suspends (G i) origin) :
    o.Suspends (fun f => ∀ i, G i f) origin := by
  cases o with
  | ret value s => trivial
  | throw error s => trivial
  | call event s resume => exact h
  | wait ready s resume => exact h

def Config.Threads (G : Nat → Frame σ ε χ τ → Prop) (c : Config σ ε χ τ) : Prop :=
  ∀ i stack, c.threads[i]? = some stack → ∀ f ∈ stack, G i f

theorem Config.threads_const {G : Frame σ ε χ τ → Prop} :
    c.Threads (fun _ => G) ↔ ∀ f ∈ c.frames, G f := by
  constructor
  · intro h f hf
    obtain ⟨stack, hstack, hmem⟩ := Config.mem_frames.mp hf
    obtain ⟨i, hi⟩ := List.mem_iff_getElem?.mp hstack
    exact h i stack hi f hmem
  · intro h i stack hi f hf
    exact h f (Config.mem_frames.mpr ⟨stack, List.mem_of_getElem? hi, hf⟩)

section Threads

variable {G : Nat → Frame σ ε χ τ → Prop}

theorem Config.Threads.set (hc : c.Threads G) {i : Nat} {stack : List (Frame σ ε χ τ)}
    (hstack : ∀ f ∈ stack, G i f) :
    ({ c with threads := c.threads.set i stack } : Config σ ε χ τ).Threads G := by
  intro j other hother f hf
  simp only [List.getElem?_set] at hother
  split at hother
  · rename_i heq
    subst heq
    split at hother
    · cases hother
      exact hstack f hf
    · cases hother
  · exact hc j other hother f hf

theorem Config.Threads.settle (hc : c.Threads G) {i : Nat} {rest : List (Frame σ ε χ τ)}
    (hrest : ∀ f ∈ rest, G i f) {origin : Option τ} {o : Outcome σ ε χ Unit}
    (ho : o.Suspends (G i) origin) : (c.settle i origin rest o).Threads G := by
  cases o with
  | ret value s => exact hc.set hrest
  | throw error s => exact hc.set hrest
  | call event s resume => exact hc.set (List.forall_mem_cons.mpr ⟨ho, hrest⟩)
  | wait ready s resume => exact hc.set (List.forall_mem_cons.mpr ⟨ho, hrest⟩)

theorem Config.Threads.spawn (hc : c.Threads G) {origin : Option τ} {o : Outcome σ ε χ Unit}
    (ho : o.Suspends (G c.threads.length) origin) : (c.spawn origin o).Threads G := by
  refine Config.Threads.settle ?_ (fun _ h => absurd h List.not_mem_nil) ho
  intro i stack hstack f hf
  by_cases hi : i < c.threads.length
  · rw [List.getElem?_append_left hi] at hstack
    exact hc i stack hstack f hf
  · rw [List.getElem?_append_right (Nat.le_of_not_lt hi)] at hstack
    rw [List.mem_singleton.mp (List.mem_of_getElem? hstack)] at hf
    cases hf

theorem System.threads_of_step {m : Move κ η ν}
    (hcall : ∀ k thread inside, m = .call k thread →
      (S.call k inside c.world).Suspends (G (thread.getD c.threads.length)) none)
    (hhandler : ∀ h origin program, m = .handler h → c.handlersIdle = true →
      S.handler h c.world = some (origin, program) →
      (program c.world).Suspends (G c.threads.length) (some origin))
    (hresume : ∀ (i : Nat) (f : Frame σ ε χ τ) (rest : List (Frame σ ε χ τ)),
      c.threads[i]? = some (f :: rest) → f.ready c.world = true →
      (f.resume c.world).Suspends (G i) f.origin)
    (hc : c.Threads G) (h : S.step c m = some c') : c'.Threads G := by
  cases System.stepped h with
  | call k => exact hc.spawn (hcall k none false rfl)
  | nested k hstack hevent => exact hc.settle (hc _ _ hstack) (hcall k _ _ rfl)
  | @handler k origin program hidle hfound =>
      exact hc.spawn (hhandler k origin program rfl hidle hfound)
  | @resume i f rest hstack hready =>
      obtain ⟨-, hrest⟩ := List.forall_mem_cons.mp (hc i _ hstack)
      exact hc.settle hrest (hresume i f rest hstack hready)
  | unwind hstack hevent =>
      obtain ⟨-, hrest⟩ := List.forall_mem_cons.mp (hc _ _ hstack)
      exact hc.set hrest
  | environment hs => exact hc

end Threads

theorem System.frames_of_step {G : Frame σ ε χ τ → Prop} {m : Move κ η ν}
    (hcall : ∀ k thread inside, m = .call k thread → (S.call k inside c.world).Suspends G none)
    (hhandler : ∀ h origin program, m = .handler h → c.handlersIdle = true →
      S.handler h c.world = some (origin, program) →
      (program c.world).Suspends G (some origin))
    (hresume : ∀ f ∈ c.frames, f.ready c.world = true →
      (f.resume c.world).Suspends G f.origin)
    (hc : ∀ f ∈ c.frames, G f) (h : S.step c m = some c') : ∀ f ∈ c'.frames, G f := by
  rw [← Config.threads_const] at hc ⊢
  apply System.threads_of_step hcall hhandler _ hc h
  intro i f rest hstack hready
  apply hresume f _ hready
  exact Config.mem_frames.mpr ⟨_, List.mem_of_getElem? hstack, List.mem_cons_self⟩

theorem System.frames_step {G : Frame σ ε χ τ → Prop}
    (hcall : ∀ k inside s, (S.call k inside s).Suspends G none)
    (hhandler : ∀ h s origin program, S.handler h s = some (origin, program) →
      (program s).Suspends G (some origin))
    (hresume : ∀ f s, G f → f.ready s = true → (f.resume s).Suspends G f.origin)
    (hc : ∀ f ∈ c.frames, G f) {m : Move κ η ν} (h : S.step c m = some c') :
    ∀ f ∈ c'.frames, G f :=
  System.frames_of_step (fun k _ inside _ => hcall k inside c.world)
    (fun k origin program _ _ => hhandler k c.world origin program)
    (fun f hf => hresume f c.world (hc f hf)) hc h

theorem Outcome.suspends_obeys {origin : Option τ} {o : Outcome σ ε χ Unit} {point : Option ε}
    {start : σ}
    (h : o.Segments (T origin) (fun _ point start s => T origin point start .returned s)
      point start) :
    o.Suspends (Frame.Obeys T) origin := by
  cases o with
  | ret value s => trivial
  | throw error s => trivial
  | call event s resume => exact fun s' _ => h.2 s'
  | wait ready s resume => exact h.2

theorem System.frames_of_call {G : Frame σ ε χ τ → Prop} {k : κ} {thread : Option Nat}
    (hcall : ∀ inside, (S.call k inside c.world).Suspends G none) (hc : ∀ f ∈ c.frames, G f)
    (h : S.step c (.call k thread) = some c') : ∀ f ∈ c'.frames, G f := by
  rw [← Config.threads_const] at hc ⊢
  cases System.stepped h with
  | call => exact hc.spawn (hcall false)
  | nested _ hstack hevent => exact hc.settle (hc _ _ hstack) (hcall _)

/-- The inversion for runs that also make calls whose first segment is no `T`-step, while the
code they leave suspended is as all other code. -/
theorem System.step_cases_or_call {okCall : κ → Prop} {okHandler : η → Prop}
    (hS : S.Obeys okCall okHandler T)
    (hother : ∀ k inside s, ¬okCall k → (S.call k inside s).Suspends (Frame.Obeys T) none)
    (hc : ∀ f ∈ c.frames, f.Obeys T) {m : Move κ η ν}
    (hm : m.Admitted (fun _ => True) okHandler) (h : S.step c m = some c') :
    (∀ f ∈ c'.frames, f.Obeys T) ∧
      (m.Admitted okCall okHandler ∧
          ((∃ origin point stop, S.segment c m = some (origin, point) ∧
            Executed T origin point stop c c') ∨ S.segment c m = none ∧ Undisturbed S m c c') ∨
        ∃ k thread inside, m = .call k thread ∧ ¬okCall k ∧
          c'.world = (S.call k inside c.world).reached) := by
  by_cases hadmitted : m.Admitted okCall okHandler
  · obtain ⟨hframes, hcases⟩ := System.step_cases hS hc hadmitted h
    exact ⟨hframes, Or.inl ⟨hadmitted, hcases⟩⟩
  · cases m with
    | call k thread =>
        refine ⟨?_, Or.inr ?_⟩
        · exact System.frames_of_call (fun inside => hother k inside c.world hadmitted) hc h
        · obtain ⟨inside, hworld⟩ := System.step_call h
          exact ⟨k, thread, inside, rfl, hadmitted, hworld⟩
    | handler k => exact absurd hm hadmitted
    | resume i => exact absurd trivial hadmitted
    | unwind i => exact absurd trivial hadmitted
    | environment e => exact absurd trivial hadmitted

theorem System.invokes_of_step {okCall : κ → Prop} {okHandler : η → Prop}
    (hS : S.Obeys okCall okHandler T) (hc : ∀ f ∈ c.frames, f.Obeys T) {m : Move κ η ν}
    (hm : m.Admitted okCall okHandler) (h : S.step c m = some c') {origin : Option τ}
    {point : Option ε} (hsegment : S.segment c m = some (origin, point)) {p : ε → Prop}
    (hcalls : ∀ stop s, T origin point c.world stop s → ∃ event, stop = .called event ∧ p event) :
    ∃ f ∈ c'.frames, ∃ event, f.event = some event ∧ p event := by
  have hsettle {d : Config σ ε χ τ} {i : Nat} {rest : List (Frame σ ε χ τ)}
      (hi : i < d.threads.length) {o : Outcome σ ε χ Unit}
      (ho : o.Segments (T origin) (fun _ point start s => T origin point start .returned s)
        point c.world) :
      ∃ f ∈ (d.settle i origin rest o).frames, ∃ event, f.event = some event ∧ p event := by
    cases o with
    | call event s resume =>
        obtain ⟨_, ⟨rfl⟩, hp⟩ := hcalls _ _ ho.1
        let left : Frame σ ε χ τ := ⟨origin, some event, fun _ => true, resume⟩
        have hstack : left :: rest ∈ d.threads.set i (left :: rest) :=
          List.mem_iff_getElem?.mpr ⟨i, List.getElem?_set_self hi⟩
        refine ⟨left, Config.mem_frames.mpr ⟨left :: rest, hstack, List.mem_cons_self⟩, ?_⟩
        exact ⟨event, rfl, hp⟩
    | ret value s =>
        obtain ⟨_, ⟨⟩, _⟩ := hcalls _ _ ho
    | throw error s =>
        obtain ⟨_, ⟨⟩, _⟩ := hcalls _ _ ho
    | wait ready s resume =>
        obtain ⟨_, ⟨⟩, _⟩ := hcalls _ _ ho.1
  cases System.stepped h with
  | call k =>
      cases hsegment
      exact hsettle (by simp) (hS.call k false hm c.world)
  | nested k hstack hevent =>
      cases hsegment
      exact hsettle (List.getElem?_eq_some_iff.mp hstack).1 (hS.call k _ hm c.world)
  | @handler k origin' program hidle hfound =>
      simp only [System.segment, hfound, Option.map_some] at hsegment
      cases hsegment
      exact hsettle (by simp) (hS.handler k c.world origin' program hm hfound)
  | @resume i f rest hstack hready =>
      simp only [System.segment, hstack] at hsegment
      cases hsegment
      refine hsettle (List.getElem?_eq_some_iff.mp hstack).1 (hc f ?_ c.world hready)
      exact Config.mem_frames.mpr ⟨_, List.mem_of_getElem? hstack, List.mem_cons_self⟩
  | unwind hstack hevent => cases hsegment
  | environment hs => cases hsegment

@[simp] theorem Config.settle_length (c : Config σ ε χ τ) (i : Nat) (origin : Option τ)
    (rest : List (Frame σ ε χ τ)) (o : Outcome σ ε χ Unit) :
    (c.settle i origin rest o).threads.length = c.threads.length := by
  cases o <;> simp [Config.settle]

@[simp] theorem Config.spawn_length (c : Config σ ε χ τ) (origin : Option τ)
    (o : Outcome σ ε χ Unit) : (c.spawn origin o).threads.length = c.threads.length + 1 := by
  simp [Config.spawn]

theorem System.step_length {m : Move κ η ν} (h : S.step c m = some c') :
    c.threads.length ≤ c'.threads.length := by
  cases System.stepped h <;> simp

theorem Config.origin_of_handlersIdle (hidle : c.handlersIdle = true) :
    ∀ f ∈ c.frames, f.origin = none := by
  intro f hf
  obtain ⟨stack, hstack, hmem⟩ := Config.mem_frames.mp hf
  simp only [Config.handlersIdle, List.all_eq_true, Option.isNone_iff_eq_none] at hidle
  exact hidle stack hstack f hmem

end Inversion

/-! ## Invariants of the shared state -/

def Keeps (I : σ → Prop) (_ : Option τ) (_ : Option ε) (start : σ)
    (_ : Stop ε χ) (finish : σ) : Prop :=
  I start → I finish

theorem System.states_keep {S : System σ ε χ τ κ η ν} {I : σ → Prop}
    {okCall : κ → Prop} {okHandler : η → Prop}
    (hS : S.Obeys okCall okHandler (Keeps I))
    (henv : ∀ e s s', S.environment e s = some s' → I s → I s')
    {world : σ} (h₀ : I world) {ms : List (Move κ η ν)}
    (hms : ∀ m ∈ ms, m.Admitted okCall okHandler) :
    ∀ c ∈ S.states (.initial world) ms, I c.world := by
  have key := Steps.states_invariant (f := S.step)
    (I := fun c => (∀ f ∈ c.frames, f.Obeys (Keeps I)) ∧ I c.world)
    (P := fun t => t.move.Admitted okCall okHandler)
    (fun t hpre hstep hok => by
      obtain ⟨hframes, hcase⟩ := System.step_cases hS hpre.1 hok hstep
      refine ⟨hframes, ?_⟩
      rcases hcase with ⟨origin, point, stop, -, hexec⟩ | ⟨-, hidle⟩
      · exact hexec.world hpre.2
      · rcases hidle.world with h | ⟨e, -, h⟩
        · rw [h]
          exact hpre.2
        · exact henv e _ _ h hpre.2)
    (s := .initial world) ⟨by simp [Config.frames, Config.initial], h₀⟩
    (fun t ht => hms _ (Steps.trace_move_mem t ht))
  exact fun c hc => (key c hc).2

/-! ## A thread left to itself -/

namespace Outcome

variable {α β : Type}

def final : Outcome σ ε χ α → σ
  | ret _ s | throw _ s => s
  | call _ s resume => (resume s).final
  | wait _ s _ => s

def error : Outcome σ ε χ α → Option χ
  | throw error _ => some error
  | call _ s resume => (resume s).error
  | ret _ _ | wait _ _ _ => none

def Unblocked : Outcome σ ε χ α → Prop
  | ret _ _ | throw _ _ => True
  | call _ s resume => (resume s).Unblocked
  | wait _ _ _ => False

theorem final_bind_congr {γ : Type} {o : Outcome σ ε χ α} {next : α → σ → Outcome σ ε χ β}
    {next' : α → σ → Outcome σ ε χ γ}
    (h : ∀ value s, (next value s).final = (next' value s).final) :
    (o.bind next).final = (o.bind next').final := by
  induction o with
  | ret value s => exact h value s
  | throw error s => rfl
  | call event s resume ih => exact ih s
  | wait ready s resume => rfl

theorem final_bind_ret {o : Outcome σ ε χ α} {next : α → σ → Outcome σ ε χ β}
    (h : ∀ value s, (next value s).final = s) : (o.bind next).final = o.final := by
  induction o with
  | ret value s => exact h value s
  | throw error s => rfl
  | call event s resume ih => exact ih s
  | wait ready s resume => rfl

end Outcome

theorem System.resume_idle (S : System σ ε χ τ κ η ν) {c : Config σ ε χ τ}
    (hidle : c.frames = []) (i : Nat) : S.step c (.resume i) = none := by
  simp only [System.step]
  split
  · rename_i f rest hstack
    have hmem : f ∈ c.frames :=
      Config.mem_frames.mpr ⟨_, List.mem_of_getElem? hstack, List.mem_cons_self⟩
    rw [hidle] at hmem
    cases hmem
  · rfl

theorem System.run_settled (S : System σ ε χ τ κ η ν) {c : Config σ ε χ τ} {i : Nat}
    (hi : i < c.threads.length) (hidle : (c.threads.set i []).flatten = [])
    (origin : Option τ) {o : Outcome σ ε χ Unit} (ho : o.Unblocked) :
    ∃ n c', S.run (c.settle i origin [] o) (List.replicate n (.resume i)) = some c' ∧
      c'.frames = [] ∧ c'.world = o.final := by
  induction o generalizing c with
  | ret value s => exact ⟨0, _, rfl, hidle, rfl⟩
  | throw error s => exact ⟨0, _, rfl, hidle, rfl⟩
  | call event s resume ih =>
      let suspended : Config σ ε χ τ := c.settle i origin [] (.call event s resume)
      have hthreads : suspended.threads =
          c.threads.set i [⟨origin, some event, fun _ => true, resume⟩] := rfl
      obtain ⟨n, c', hrun, hdone⟩ := ih s (c := suspended) (by simpa [hthreads] using hi)
        (by simpa [hthreads, List.set_set] using hidle) ho
      refine ⟨n + 1, c', ?_, hdone⟩
      have hresume : S.step suspended (.resume i) =
          some (suspended.settle i origin [] (resume s)) := by
        simp only [System.step, hthreads, List.getElem?_set_self hi]
        rfl
      rw [List.replicate_succ, System.run, Steps.run, hresume]
      exact hrun
  | wait ready s resume => exact ho.elim

theorem System.run_spawned (S : System σ ε χ τ κ η ν) {c : Config σ ε χ τ}
    (hidle : c.frames = []) (origin : Option τ) {o : Outcome σ ε χ Unit} (ho : o.Unblocked) :
    ∃ n c', S.run (c.spawn origin o) (List.replicate n (.resume c.threads.length)) = some c' ∧
      c'.frames = [] ∧ c'.world = o.final := by
  refine S.run_settled (by simp) ?_ origin ho
  simpa [Config.frames] using hidle

end AsioWrapper.Foundation
