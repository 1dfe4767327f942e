import AsioWrapper.Foundation.Machine

/-!
# Proof outlines

An outline attaches an assertion to every callback a handler can be suspended
in, and one to the states in which no handler has code left to run.  Each
segment of a handler may assume the assertion it starts from and has to
establish the one it stops at; every other code has to keep all of them.  As
handlers do not overlap, the assertion of the handler under way then holds
in every state of a run.
-/

namespace AsioWrapper.Foundation

variable {σ ε χ τ κ η ν α β : Type}

def Stop.point : Stop ε χ → Option ε
  | called event => some event
  | _ => none

def Outlined (K : Option ε → σ → Prop) (point : Option ε) (start : σ) (stop : Stop ε χ)
    (finish : σ) : Prop :=
  K point start → K stop.point finish

namespace Program

def Holds (K : Option ε → σ → Prop) (A : σ → Prop) (m : Program σ ε χ α)
    (B : α → σ → Prop) : Prop :=
  ∀ point start s, (K point start → A s) →
    m.Segments (Outlined K) (fun value point start s => K point start → B value s) point start s

namespace Holds

variable {K : Option ε → σ → Prop} {A A' : σ → Prop} {B B' : α → σ → Prop} {D : β → σ → Prop}

theorem bind {m : Program σ ε χ α} {f : α → Program σ ε χ β} (hm : Holds K A m B)
    (hf : ∀ value, Holds K (B value) (f value) D) : Holds K A (m >>= f) D := by
  intro point start s hA
  rw [segments_bind]
  exact segments_mono (fun _ _ _ _ h => h) (fun value point start s => hf value point start s)
    (hm point start s hA)

theorem weaken {m : Program σ ε χ α} (hm : Holds K A m B) (hA : ∀ s, A' s → A s)
    (hB : ∀ value s, B value s → B' value s) : Holds K A' m B' := by
  intro point start s h
  refine segments_mono (fun _ _ _ _ h => h) ?_ (hm point start s fun hK => hA s (h hK))
  intro value point start s hvalue hK
  exact hB value s (hvalue hK)

theorem pure {value : α} (h : ∀ s, A s → B value s) :
    Holds K A (Pure.pure value : Program σ ε χ α) B :=
  fun _ _ s hA hK => h s (hA hK)

theorem discard {m : Program σ ε χ α} {E : σ → Prop} (hm : Holds K A m fun _ => E) :
    Holds K A (Functor.discard m) fun _ => E :=
  hm.bind fun _ => Holds.pure fun _ h => h

theorem state {f : σ → Program σ ε χ β} (hf : ∀ s, Holds K (fun s' => s' = s ∧ A s) (f s) D) :
    Holds K A (Program.state >>= f) D :=
  fun point start s hA => hf s point start s fun hK => ⟨rfl, hA hK⟩

theorem update {f : σ → σ} {B : Unit → σ → Prop} (h : ∀ s, A s → B () (f s)) :
    Holds K A (Program.update f : Program σ ε χ Unit) B :=
  fun _ _ s hA hK => h s (hA hK)

theorem throw {error : χ} (h : ∀ s, A s → K none s) :
    Holds K A (Program.throw error : Program σ ε χ α) B :=
  fun _ _ s hA hK => h s (hA hK)

theorem callback {event : ε} {B : Unit → σ → Prop} (h : ∀ s, A s → K (some event) s)
    (h' : ∀ s, K (some event) s → B () s) :
    Holds K A (Program.callback event : Program σ ε χ Unit) B :=
  fun _ _ s hA => ⟨fun hK => h s (hA hK), fun s' hK => h' s' hK⟩

theorem ite {c : Prop} [Decidable c] {m m' : Program σ ε χ α}
    (hm : c → Holds K A m B) (hm' : ¬c → Holds K A m' B) :
    Holds K A (if c then m else m') B := by
  split
  · exact hm ‹_›
  · exact hm' ‹_›

end Holds

end Program

/-! ## The handlers under way -/

def Outcome.suspended (origin : Option τ) : Outcome σ ε χ Unit → Option (Frame σ ε χ τ)
  | ret _ _ | throw _ _ => none
  | call event _ resume => some ⟨origin, some event, fun _ => true, resume⟩
  | wait ready _ resume => some ⟨origin, none, ready, resume⟩

def handlersOf (stack : List (Frame σ ε χ τ)) : List (Frame σ ε χ τ) :=
  stack.filter fun f => f.origin.isSome

def Config.handlers (c : Config σ ε χ τ) : List (Frame σ ε χ τ) := handlersOf c.frames

section Handlers

variable {c : Config σ ε χ τ} {origin : Option τ} {o : Outcome σ ε χ Unit}

theorem Config.settle_threads (c : Config σ ε χ τ) (i : Nat) (rest : List (Frame σ ε χ τ)) :
    (c.settle i origin rest o).threads =
      c.threads.set i ((o.suspended origin).toList ++ rest) := by
  cases o <;> rfl

theorem Config.spawn_threads (c : Config σ ε χ τ) :
    (c.spawn origin o).threads = c.threads ++ [(o.suspended origin).toList] := by
  rw [spawn, settle_threads, List.append_nil]
  simp

theorem Config.handlers_settle {i : Nat} {stack : List (Frame σ ε χ τ)}
    (hstack : c.threads[i]? = some stack) (rest : List (Frame σ ε χ τ)) :
    ∃ before after, c.handlers = before ++ handlersOf stack ++ after ∧
      (c.settle i origin rest o).handlers =
        before ++ handlersOf ((o.suspended origin).toList ++ rest) ++ after := by
  obtain ⟨hi, hget⟩ := List.getElem?_eq_some_iff.mp hstack
  refine ⟨handlersOf (c.threads.take i).flatten, handlersOf (c.threads.drop (i + 1)).flatten,
    ?_, ?_⟩
  · have hsplit : c.threads = c.threads.take i ++ stack :: c.threads.drop (i + 1) := by
      rw [← hget, List.getElem_cons_drop, List.take_append_drop]
    conv_lhs => rw [handlers, frames, hsplit]
    simp [handlersOf]
  · rw [handlers, frames, settle_threads, List.set_eq_take_append_cons_drop, if_pos hi]
    simp [handlersOf]

theorem handlersOf_suspended_none (rest : List (Frame σ ε χ τ)) :
    handlersOf ((o.suspended none).toList ++ rest) = handlersOf rest := by
  cases o <;> simp [Outcome.suspended, handlersOf]

theorem handlersOf_suspended_some (origin : τ) {rest : List (Frame σ ε χ τ)}
    (hrest : handlersOf rest = []) :
    handlersOf ((o.suspended (some origin)).toList ++ rest) =
      (o.suspended (some origin)).toList := by
  cases o <;> simp_all [Outcome.suspended, handlersOf]

theorem Config.handlers_settle_none {i : Nat} {stack rest : List (Frame σ ε χ τ)}
    (hstack : c.threads[i]? = some stack) (hrest : handlersOf rest = handlersOf stack) :
    (c.settle i none rest o).handlers = c.handlers := by
  obtain ⟨before, after, hold, hnew⟩ := @handlers_settle _ _ _ _ c none o _ _ hstack rest
  rw [hnew, hold, handlersOf_suspended_none, hrest]

theorem Config.handlers_extend :
    ({ c with threads := c.threads ++ [[]] } : Config σ ε χ τ).handlers = c.handlers := by
  simp [handlers, frames]

theorem Config.handlers_spawn_none : (c.spawn none o).handlers = c.handlers := by
  have hstack : (c.threads ++ [[]])[c.threads.length]? = some [] := by simp
  exact (handlers_settle_none (c := { c with threads := c.threads ++ [[]] }) hstack rfl).trans
    handlers_extend

theorem Config.handlers_of_idle (hidle : c.handlersIdle = true) : c.handlers = [] := by
  refine List.filter_eq_nil_iff.mpr fun f hf => ?_
  simp [Config.origin_of_handlersIdle hidle f hf]

end Handlers

/-! ## Systems that follow an outline -/

/-- A segment of a handler owes the outline its own assertions, other code every one. -/
def Follows (K : Option ε → σ → Prop) :
    Option τ → Option ε → σ → Stop ε χ → σ → Prop
  | none, _, start, _, finish => ∀ p, K p start → K p finish
  | some _, point, start, stop, finish => Outlined K point start stop finish

structure System.Outlines (S : System σ ε χ τ κ η ν) (okCall : κ → Prop) (okHandler : η → Prop)
    (I : σ → Prop) (K : Option ε → σ → Prop) : Prop where
  call : ∀ k inside, okCall k →
    (S.call k inside).Obeys fun _ start _ finish => ∀ p, K p start → K p finish
  handler : ∀ h s origin program, okHandler h → I s → S.handler h s = some (origin, program) →
    Program.Holds K (fun t => t = s ∧ K none s) program fun _ => K none
  environment : ∀ e s s', S.environment e s = some s' → ∀ p, K p s → K p s'

/-- The handler under way, if there is one, has established the assertion it is suspended at. -/
structure Config.Outlined (K : Option ε → σ → Prop) (c : Config σ ε χ τ) : Prop where
  frames : ∀ f ∈ c.frames, f.Obeys (Follows K)
  holds : (c.handlers = [] ∧ K none c.world) ∨ ∃ f, c.handlers = [f] ∧ K f.event c.world

section Rule

variable {S : System σ ε χ τ κ η ν} {okCall : κ → Prop} {okHandler : η → Prop}
  {I : σ → Prop} {K : Option ε → σ → Prop} {c c' : Config σ ε χ τ} {o : Outcome σ ε χ Unit}

theorem System.Outlines.handler_follows (hS : S.Outlines okCall okHandler I K) {h : η} {s : σ}
    {origin : τ} {program : Program σ ε χ Unit} (hh : okHandler h) (hs : I s)
    (hfound : S.handler h s = some (origin, program)) :
    program.Segments (Follows K (some origin))
      (fun _ point start s => Follows K (some origin) point start (.returned : Stop ε χ) s)
      none s s :=
  hS.handler h s origin program hh hs hfound none s s fun hK => ⟨rfl, hK⟩

theorem Config.outlined_initial {world : σ} (h : K none world) :
    (initial world : Config σ ε χ τ).Outlined K where
  frames := by simp [Config.frames, initial]
  holds := Or.inl ⟨rfl, h⟩

theorem Config.Outlined.of_idle (h : c.Outlined K) (hidle : c.handlersIdle = true) :
    K none c.world := by
  rcases h.holds with ⟨-, hK⟩ | ⟨f, hf, -⟩
  · exact hK
  · rw [handlers_of_idle hidle] at hf
    cases hf

theorem Config.Outlined.carry (h : c.Outlined K) (hhandlers : c'.handlers = c.handlers)
    (hworld : ∀ p, K p c.world → K p c'.world) :
    (c'.handlers = [] ∧ K none c'.world) ∨ ∃ f, c'.handlers = [f] ∧ K f.event c'.world := by
  rw [hhandlers]
  exact h.holds.imp (And.imp_right (hworld none)) fun ⟨f, hf, hK⟩ => ⟨f, hf, hworld _ hK⟩

theorem Outcome.reached_of_follows {point : Option ε} {start : σ}
    (h : o.Segments (fun _ start _ finish => ∀ p, K p start → K p finish)
      (fun _ _ start finish => ∀ p, K p start → K p finish) point start) :
    ∀ p, K p start → K p o.reached := by
  obtain ⟨stop, h⟩ := Outcome.segments_reached h
  exact h

theorem Outcome.reached_of_outlined (origin : τ) {point : Option ε} {start : σ}
    (h : o.Segments (Follows K (some origin))
      (fun _ point start s => Follows K (some origin) point start (.returned : Stop ε χ) s)
      point start)
    (hK : K point start) :
    ((o.suspended (some origin)).toList = [] ∧ K none o.reached) ∨
      ∃ f, (o.suspended (some origin)).toList = [f] ∧ K f.event o.reached := by
  cases o with
  | ret value s => exact Or.inl ⟨rfl, h hK⟩
  | throw error s => exact Or.inl ⟨rfl, h hK⟩
  | call event s resume => exact Or.inr ⟨_, rfl, h.1 hK⟩
  | wait ready s resume => exact Or.inr ⟨_, rfl, h.1 hK⟩

theorem Config.Outlined.under_way (h : c.Outlined K) {f : Frame σ ε χ τ} (hf : f ∈ c.frames)
    {origin : τ} (horigin : f.origin = some origin) : c.handlers = [f] ∧ K f.event c.world := by
  have hmem : f ∈ c.handlers := List.mem_filter.mpr ⟨hf, by simp [horigin]⟩
  rcases h.holds with ⟨hnone, -⟩ | ⟨g, hg, hK⟩
  · rw [hnone] at hmem
    cases hmem
  · rw [hg] at hmem
    obtain rfl := List.mem_singleton.mp hmem
    exact ⟨hg, hK⟩

theorem Config.handlers_settle_some {i : Nat} {f : Frame σ ε χ τ} {rest : List (Frame σ ε χ τ)}
    {origin : τ} (hstack : c.threads[i]? = some (f :: rest)) (hsole : c.handlers = [f])
    (horigin : f.origin = some origin) :
    (c.settle i (some origin) rest o).handlers = (o.suspended (some origin)).toList := by
  obtain ⟨before, after, hold, hnew⟩ :=
    @handlers_settle _ _ _ _ c (some origin) o _ _ hstack rest
  have hcons : handlersOf (f :: rest) = f :: handlersOf rest := by simp [handlersOf, horigin]
  rw [hsole, hcons] at hold
  have hlength := congrArg List.length hold
  simp only [List.length_append, List.length_cons, List.length_nil] at hlength
  have hbefore : before = [] := List.eq_nil_of_length_eq_zero (by omega)
  have hrest : handlersOf rest = [] := List.eq_nil_of_length_eq_zero (by omega)
  have hafter : after = [] := List.eq_nil_of_length_eq_zero (by omega)
  rw [hnew, hbefore, hafter, handlersOf_suspended_some origin hrest]
  simp

theorem Config.handlers_spawn_some (origin : τ) (hidle : c.handlersIdle = true) :
    (c.spawn (some origin) o).handlers = (o.suspended (some origin)).toList := by
  have hstack : (c.threads ++ [[]])[c.threads.length]? = some [] := by simp
  obtain ⟨before, after, hold, hnew⟩ :=
    @handlers_settle _ _ _ _ { c with threads := c.threads ++ [[]] } (some origin) o _ _ hstack []
  rw [handlers_extend, handlers_of_idle hidle] at hold
  obtain ⟨hbefore, hafter⟩ := List.append_eq_nil_iff.mp hold.symm
  rw [spawn, hnew, (List.append_eq_nil_iff.mp hbefore).1, hafter,
    handlersOf_suspended_some origin rfl]
  simp

theorem Config.Outlined.settle_none (h : c.Outlined K) {i : Nat}
    {stack rest : List (Frame σ ε χ τ)} (hstack : c.threads[i]? = some stack)
    (hrest : handlersOf rest = handlersOf stack) (ho : ∀ p, K p c.world → K p o.reached) :
    ((c.settle i none rest o).handlers = [] ∧ K none (c.settle i none rest o).world) ∨
      ∃ f, (c.settle i none rest o).handlers = [f] ∧
        K f.event (c.settle i none rest o).world := by
  refine h.carry (handlers_settle_none hstack hrest) fun p hp => ?_
  rw [settle_world]
  exact ho p hp

theorem System.Outlines.frames_step (hS : S.Outlines okCall okHandler I K)
    (hc : ∀ f ∈ c.frames, f.Obeys (Follows K)) (hI : c.handlersIdle = true → I c.world)
    {m : Move κ η ν} (hm : m.Admitted okCall okHandler) (h : S.step c m = some c') :
    ∀ f ∈ c'.frames, f.Obeys (Follows K) := by
  apply System.frames_of_step (fun k thread inside hcall => ?_)
    (fun k origin program hhandler hidle hfound => ?_) (fun f hf hready => ?_) hc h
  · subst hcall
    exact Outcome.suspends_obeys (T := Follows K) (hS.call k inside hm c.world)
  · subst hhandler
    exact Outcome.suspends_obeys (hS.handler_follows hm (hI hidle) hfound)
  · exact Outcome.suspends_obeys (hc f hf c.world hready)

/--
One step of a system that follows the outline.  A callback whose foreign code throws
abandons the handler wherever it is, so these moves are left out.
-/
theorem System.Outlines.step (hS : S.Outlines okCall okHandler I K)
    (hI : c.handlersIdle = true → I c.world) (hc : c.Outlined K) {m : Move κ η ν}
    (hm : m.Admitted okCall okHandler) (hunwind : ∀ i, m ≠ .unwind i)
    (h : S.step c m = some c') : c'.Outlined K := by
  refine ⟨hS.frames_step hc.frames hI hm h, ?_⟩
  cases System.stepped h with
  | call k =>
      refine hc.carry Config.handlers_spawn_none fun p hp => ?_
      rw [Config.spawn_world]
      exact Outcome.reached_of_follows (hS.call k false hm c.world) p hp
  | nested k hstack hevent =>
      refine hc.settle_none hstack rfl ?_
      exact Outcome.reached_of_follows (hS.call k _ hm c.world)
  | @handler k origin program hidle hfound =>
      rw [Config.handlers_spawn_some origin hidle, Config.spawn_world]
      exact Outcome.reached_of_outlined origin (hS.handler_follows hm (hI hidle) hfound)
        (hc.of_idle hidle)
  | @resume i f rest hstack hready =>
      have hf : f ∈ c.frames :=
        Config.mem_frames.mpr ⟨_, List.mem_of_getElem? hstack, List.mem_cons_self⟩
      have hobeys := hc.frames f hf c.world hready
      cases horigin : f.origin with
      | none =>
          rw [horigin] at hobeys
          refine hc.settle_none hstack ?_ (Outcome.reached_of_follows hobeys)
          simp [handlersOf, horigin]
      | some origin =>
          rw [horigin] at hobeys
          obtain ⟨hsole, hK⟩ := hc.under_way hf horigin
          rw [Config.handlers_settle_some hstack hsole horigin, Config.settle_world]
          exact Outcome.reached_of_outlined origin hobeys hK
  | @unwind i f rest hstack hevent => exact absurd rfl (hunwind i)
  | @environment e s hs => exact hc.carry rfl fun p hp => hS.environment e _ _ hs p hp

/-- The run rule for an outline that says itself what its handlers begin from. -/
theorem System.Outlines.states (hS : S.Outlines okCall okHandler (K none) K)
    (hc : c.Outlined K) {ms : List (Move κ η ν)} (hms : ∀ m ∈ ms, m.Admitted okCall okHandler)
    (hunwind : ∀ m ∈ ms, ∀ i, m ≠ .unwind i) : ∀ c' ∈ S.states c ms, c'.Outlined K :=
  Steps.states_invariant (P := fun t => t.move ∈ ms)
    (fun _ hpre hstep ht => hS.step hpre.of_idle hpre (hms _ ht) (hunwind _ ht) hstep) hc
    Steps.trace_move_mem

end Rule

end AsioWrapper.Foundation
