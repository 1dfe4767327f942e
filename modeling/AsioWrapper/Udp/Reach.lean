import AsioWrapper.Udp.ClientEffect
import AsioWrapper.Udp.ServerEffect

/-!
# Invariants of the reachable states

A property of the shared state is an invariant of every run if the changes of
`Effect` and those of the environment keep it.
-/

namespace AsioWrapper.Udp

open AsioWrapper.Asio
open AsioWrapper.Foundation

variable {δ : Type}

/-! ## The environment -/

inductive Stirred : Peer δ → Peer δ → Prop where
  | complete {s : Peer δ} {op : Operation} (hmem : op ∈ s.operations)
      (hpending : op.result = none) (completion : Completion) :
      Stirred s (s.complete op completion)
  | expire {s : Peer δ} (id : Nat) (harmed : (s.timedCall id).timer = .armed) :
      Stirred s (s.modifyTimed id fun call => { call with timer := .fired .success })

theorem pendingOperation_eq_some {s : Peer δ} {id : Nat} {op : Operation}
    (h : s.pendingOperation id = some op) :
    op ∈ s.operations ∧ op.id = id ∧ op.result = none := by
  have hop := List.find?_some h
  simp only [Bool.and_eq_true, beq_iff_eq, Operation.pending,
    Option.isNone_iff_eq_none] at hop
  exact ⟨List.mem_of_find?_eq_some h, hop.1, hop.2⟩

theorem stimulate_stirred {s s' : Peer δ} {stimulus : Stimulus}
    (h : stimulate s stimulus = some s') : Stirred s s' := by
  cases stimulus with
  | complete id completion =>
      simp only [stimulate] at h
      split at h
      · rename_i op hop
        cases h
        obtain ⟨hmem, _, hpending⟩ := pendingOperation_eq_some hop
        exact .complete hmem hpending completion
      · cases h
  | expire id =>
      simp only [stimulate] at h
      split at h
      · rename_i harmed
        cases h
        exact .expire id harmed.1
      · cases h

/-! ## Stable properties -/

structure Stable (P : Profile δ) (I : Peer δ → Prop) : Prop where
  quiet : ∀ {scope : Scope} {s s' : Peer δ}, Quiet P scope s s' → I s → I s'
  fires : ∀ {event : Event} {s s' : Peer δ}, Fires P event s s' → I s → I s'
  fails : ∀ {ec : ErrorCode} {s s' : Peer δ}, Fails ec s s' → I s → I s'
  stirred : ∀ {s s' : Peer δ}, Stirred s s' → I s → I s'

section Keep

variable {P : Profile δ} {I : Peer δ → Prop}

theorem Stable.quietly (hI : Stable P I) {scope : Scope} {s s' : Peer δ}
    (h : Quietly P scope s s') (hs : I s) : I s' := by
  induction h with
  | refl => exact hs
  | tail _ hstep ih => exact hI.quiet hstep ih

theorem Stable.effect (hI : Stable P I) {scope : Option Event → Scope}
    {point : Option Event} {s s' : Peer δ} {stop : Stop Event ErrorCode}
    (h : Effect P scope point s stop s') (hs : I s) : I s' := by
  obtain ⟨middle, hquiet, hends⟩ := h
  have hmiddle := hI.quietly hquiet hs
  cases hends with
  | returned => exact hmiddle
  | waiting => exact hmiddle
  | called h => exact hI.fires h hmiddle
  | threw h => exact hI.fails h hmiddle

end Keep

/-! ## Runs of a peer -/

section Runs

variable {π κ η ν : Type}

abbrev PeerSystem (δ π κ η ν : Type) : Type :=
  System (Peer δ) Event ErrorCode (Origin π) κ η ν

abbrev PeerConfig (δ π : Type) : Type := Config (Peer δ) Event ErrorCode (Origin π)

abbrev PeerTransition (δ π κ η ν : Type) : Type :=
  Transition (PeerConfig δ π) (Move κ η ν)

/-- All code of the system has the effects of its profile. -/
structure Modelled (S : PeerSystem δ π κ η ν) (P : Profile δ) : Prop where
  obeys : S.Obeys (fun _ => True) (fun _ => True) fun origin => Effect P (scopeOf origin)
  environment : ∀ e s s', S.environment e s = some s' → Stirred s s' ∨ P.special s s'

def Untouched (P : Profile δ) (s s' : Peer δ) : Prop :=
  s' = s ∨ Stirred s s' ∨ P.special s s'

theorem Stable.untouched {P : Profile δ} {I : Peer δ → Prop} (hI : Stable P I) {s s' : Peer δ}
    (h : Untouched P s s') (hs : I s) : I s' := by
  rcases h with rfl | h | h
  · exact hs
  · exact hI.stirred h hs
  · have hquiet : Quiet P ⟨none, false⟩ s s' := .special h
    exact hI.quiet hquiet hs

variable {S : PeerSystem δ π κ η ν} {P : Profile δ}

def Known (P : Profile δ)
    (T : Option (Origin π) → Option Event → Peer δ → Stop Event ErrorCode → Peer δ → Prop)
    (origin : Option (Origin π)) (point : Option Event) (s : Peer δ)
    (stop : Stop Event ErrorCode) (s' : Peer δ) : Prop :=
  Effect P (scopeOf origin) point s stop s' ∧ T origin point s stop s'

variable {T : Option (Origin π) → Option Event → Peer δ → Stop Event ErrorCode → Peer δ → Prop}

theorem admitted_all (m : Move κ η ν) : m.Admitted (fun _ => True) (fun _ => True) := by
  cases m <;> trivial

theorem Modelled.step (hM : Modelled S P)
    (hT : S.Obeys (fun _ => True) (fun _ => True) T) {c c' : PeerConfig δ π}
    (hc : ∀ f ∈ c.frames, f.Obeys (Known P T)) {m : Move κ η ν}
    (hstep : S.step c m = some c') :
    (∀ f ∈ c'.frames, f.Obeys (Known P T)) ∧
      ((∃ origin point stop, S.segment c m = some (origin, point) ∧
          Executed (Known P T) origin point stop c c') ∨
        S.segment c m = none ∧ (∀ f ∈ c'.frames, f ∈ c.frames) ∧
          c'.escaped = c.escaped ∧ Untouched P c.world c'.world) := by
  obtain ⟨hframes, hcases⟩ := System.step_cases (hM.obeys.and hT) hc (admitted_all m) hstep
  refine ⟨hframes, hcases.imp_right fun ⟨hsegment, hidle⟩ => ?_⟩
  refine ⟨hsegment, hidle.frames, hidle.escaped, ?_⟩
  rcases hidle.world with h | ⟨e, -, h⟩
  · exact Or.inl h
  · exact Or.inr (hM.environment e _ _ h)

theorem Stable.step {I : Peer δ → Prop} (hI : Stable P I) {c c' : PeerConfig δ π}
    {m : Move κ η ν}
    (h : (∃ origin point stop, S.segment c m = some (origin, point) ∧
        Executed (Known P T) origin point stop c c') ∨
      S.segment c m = none ∧ (∀ f ∈ c'.frames, f ∈ c.frames) ∧
        c'.escaped = c.escaped ∧ Untouched P c.world c'.world)
    (hc : I c.world) : I c'.world := by
  rcases h with ⟨origin, point, stop, -, hexec⟩ | ⟨-, -, -, hidle⟩
  · exact hI.effect hexec.world.1 hc
  · exact hI.untouched hidle hc

theorem Modelled.states_keep (hM : Modelled S P) {I : Peer δ → Prop} (hI : Stable P I)
    {s₀ : Peer δ} (h₀ : I s₀) (ms : List (Move κ η ν)) :
    ∀ c ∈ S.states (.initial s₀) ms, I c.world := by
  refine System.states_keep (hM.obeys.mono ?_) ?_ h₀ fun m _ => admitted_all m
  · intro origin point s stop s' heffect
    exact hI.effect heffect
  · intro e s s' henv hs
    exact hI.untouched (Or.inr (hM.environment e s s' henv)) hs

end Runs

/-! ## The two classes -/

def Net.loopback : Net :=
  ⟨fun text => if text = "127.0.0.1" then some (.v4 0x7f000001) else none⟩

namespace Client

inductive Constructed : Client → Prop where
  | ofAddressPort (address : String) (port : Int) : Constructed (ofAddressPort address port)
  | ofAddressScheme (address scheme : String) : Constructed (ofAddressScheme address scheme)
  | ofEndpoint (text : Endpoint → String) (endpoint : Endpoint) :
      Constructed (ofEndpoint text endpoint)

theorem Constructed.fresh {s : Client} (h : Constructed s) :
    ∃ endpoint own, s = .fresh endpoint own ∧ own.posted = [] ∧ own.resolves = [] := by
  cases h <;> exact ⟨_, _, rfl, rfl, rfl⟩

theorem environment_cases {s s' : Client} {stimulus : Stimulus}
    (h : environment stimulus s = some s') : Stirred s s' ∨ Special s s' := by
  cases stimulus with
  | socket stimulus => exact Or.inl (stimulate_stirred h)
  | resolve index resolution =>
      simp only [environment] at h
      split at h
      · cases h
        exact Or.inr (.setResolves _)
      · cases h

theorem modelled (net : Net) : Modelled (system net) (profile False) where
  obeys := ⟨fun k inside _ => (system_obeys False net).call k inside fun h => h.elim,
    fun h s origin program _ => (system_obeys False net).handler h s origin program
      fun h => h.elim⟩
  environment _ _ _ h := environment_cases h

end Client

namespace Server

inductive Constructed (net : Net) : Server → Prop where
  | ofPort (port : Int) (protocol : InternetProtocol) : Constructed net (ofPort port protocol)
  | ofAddress (address : String) (port : Int) {s : Server}
      (h : ofAddress net address port = some s) : Constructed net s
  | ofEndpoint (text : Endpoint → String) (endpoint : Endpoint) :
      Constructed net (ofEndpoint text endpoint)

theorem Constructed.fresh {net : Net} {s : Server} (h : Constructed net s) :
    ∃ endpoint own, s = .fresh endpoint own ∧ own.posted = [] := by
  cases h with
  | ofPort port protocol => exact ⟨_, _, rfl, rfl⟩
  | ofAddress address port h =>
      simp only [Server.ofAddress, Option.map_eq_some_iff] at h
      obtain ⟨parsed, _, rfl⟩ := h
      exact ⟨_, _, rfl, rfl⟩
  | ofEndpoint text endpoint => exact ⟨_, _, rfl, rfl⟩

theorem modelled (net : Net) : Modelled (system net) profile where
  obeys := system_obeys net
  environment _ _ _ h := Or.inl (stimulate_stirred h)

end Server

end AsioWrapper.Udp
