import AsioWrapper.Udp.Neutral
import AsioWrapper.Udp.Statistics

/-!
# Resolves in flight

`_resolving` is set by the handler that starts a resolve and cleared by the
handler of its completion, but also by `DisconnectInternal`, which does not
cancel the resolve.
-/

namespace AsioWrapper.Udp

open AsioWrapper.Asio
open AsioWrapper.Foundation
open AsioWrapper.Foundation.Program

namespace Client

inductive Resolves (s s' : Client) : Prop where
  | kept (hrun : s.running = true → s'.running = true)
      (hresolving : s'.own.resolving = s.own.resolving)
      (hresolves : s'.own.resolves.length = s.own.resolves.length)
  | started (query : Resolve) (hrun : s.running = true → s'.running = true)
      (hidle : s.own.resolving = false) (hresolving : s'.own.resolving = true)
      (hresolves : s'.own.resolves = s.own.resolves ++ [query])
  | finished (index : Nat) (hindex : index < s.own.resolves.length)
      (hrun : s.running = true → s'.running = true) (hresolving : s'.own.resolving = false)
      (hresolves : s'.own.resolves = s.own.resolves.eraseIdx index)
  | closed (hrun : s.running = true) (hrun' : s'.running = false)
      (hresolving : s'.own.resolving = false) (hresolves : s'.own.resolves = s.own.resolves)

abbrev ResolveSteps (_ : Option (Origin Handler)) (_ : Option Event) (s : Client)
    (_ : Stop Event ErrorCode) (s' : Client) : Prop :=
  Resolves s s'

def Untried (_ : Option Event) (start s : Client) : Prop :=
  s.running = start.running ∧ s.own.resolving = start.own.resolving ∧
    s.own.resolves = start.own.resolves

theorem Untried.rfl {point : Option Event} {s : Client} : Untried point s s :=
  ⟨Eq.refl _, Eq.refl _, Eq.refl _⟩

theorem Untried.kept {point : Option Event} {start s : Client} (h : Untried point start s) :
    Resolves start s :=
  .kept (fun hrun => h.1.trans hrun) h.2.1 (congrArg List.length h.2.2)

variable {origin : Option (Origin Handler)}

theorem untried_neutral : Neutral (ResolveSteps origin) Untried where
  keep h hown hrun := by
    unfold Untried
    rw [hown, hrun]
    exact h
  ends stop h hown hrun := by
    refine .kept (fun hstart => hrun (h.1.trans hstart)) ?_ ?_
    · rw [hown, h.2.1]
    · rw [hown, h.2.2]
  resume _ _ := .rfl

abbrev Tries (origin : Option (Origin Handler)) {α : Type} (m : Code α) : Prop :=
  Leaves (ResolveSteps origin) Untried m

section Code

theorem Tries.update {f : Client → Client} (hrun : ∀ s, (f s).running = s.running)
    (hresolving : ∀ s, (f s).own.resolving = s.own.resolving)
    (hresolves : ∀ s, (f s).own.resolves = s.own.resolves) :
    Tries origin (Program.update f) :=
  Triple.update fun _ _ s hs _ =>
    ⟨(hrun s).trans hs.1, (hresolving s).trans hs.2.1, (hresolves s).trans hs.2.2⟩

theorem post_tries (handler : Handler) : Tries origin (post handler) :=
  Tries.update (fun _ => rfl) (fun _ => rfl) fun _ => rfl

theorem openAt_tries {α : Type} (endpoint : Endpoint) (answers : SocketAnswers) (value : α) :
    Tries origin
      (do setEndpoint endpoint; openSession answers bindTo .onConnected; pure value) := by
  refine Triple.bind (untried_neutral.update (fun _ => rfl) fun _ => rfl) fun _ => ?_
  exact (untried_neutral.openSession answers bindTo _).bind fun _ => Triple.pure value

theorem connect_tries (net : Net) (answers : SocketAnswers) :
    Tries origin (connect net answers) := by
  refine Leaves.state fun s => Triple.ite (fun _ => Triple.pure false) fun _ => ?_
  refine Triple.ite (fun _ => Triple.pure false) fun _ => ?_
  refine Triple.ite (fun _ => Triple.pure false) fun _ => ?_
  exact (untried_neutral.makeAddress net _).bind fun _ => openAt_tries _ answers true

theorem connectVia_tries (resolver : Bool) (resolution : ErrorCode × Endpoint)
    (answers : SocketAnswers) : Tries origin (connectVia resolver resolution answers) := by
  refine Leaves.state fun s => Triple.ite (fun _ => Triple.pure false) fun _ => ?_
  refine Triple.ite (fun _ => Triple.pure false) fun _ => ?_
  refine Triple.ite (fun _ => Triple.pure false) fun _ => ?_
  refine Triple.ite (fun _ => Triple.pure false) fun _ => ?_
  refine Triple.ite (fun _ => ?_) fun _ => openAt_tries _ answers true
  refine (untried_neutral.sendError _).bind fun _ => ?_
  exact (untried_neutral.fire _).bind fun _ => Triple.pure false

/-- The flag is cleared, and the resolve it stood for stays in flight. -/
theorem disconnectInternal_tries : Tries origin disconnectInternal := by
  intro point start s hs _
  simp only [disconnectInternal, setResolving, fire, segments_bind, segments_state,
    segments_ite, segments_pure, segments_update, segments_callback]
  split_ifs with hrun
  · exact ⟨hs, trivial⟩
  · simp only [Bool.not_eq_true', Bool.not_eq_false] at hrun
    exact ⟨.closed (hs.1.symm.trans hrun) rfl rfl hs.2.2, fun s' => ⟨.rfl, trivial⟩⟩

theorem connectAsync_tries : Tries origin connectAsync :=
  Leaves.state fun _ => Triple.ite (fun _ => Triple.pure false) fun _ =>
    (post_tries .connect).bind fun _ => Triple.pure true

theorem connectAsyncVia_tries (resolver : Bool) : Tries origin (connectAsyncVia resolver) :=
  Leaves.state fun _ => Triple.ite (fun _ => Triple.pure false) fun _ =>
    Triple.ite (fun _ => Triple.pure false) fun _ =>
      (post_tries .connectVia).bind fun _ => Triple.pure true

theorem disconnectInternalAsync_tries (dispatch : Bool) :
    Tries origin (disconnectInternalAsync dispatch) := by
  refine Leaves.state fun s => Triple.ite (fun _ => Triple.pure false) fun _ => ?_
  refine Triple.bind (untried_neutral.update ?_ ?_) fun _ => ?_
  · intro s
    split <;> rfl
  · intro s
    split <;> rfl
  · refine Triple.ite (fun _ => ?_) fun _ => ?_
    · exact disconnectInternal_tries.discard.bind fun _ => Triple.pure true
    · exact (post_tries _).bind fun _ => Triple.pure true

theorem reconnectAsync_tries : Tries origin reconnectAsync :=
  (disconnectInternalAsync_tries false).bind fun _ =>
    Triple.ite (fun _ => Triple.pure false) fun _ =>
      (untried_neutral.waitUntil (fun _ => .rfl) _).bind fun _ => connectAsync_tries

theorem group_tries (net : Net) (address : String) (answer : ErrorCode) (event : Event) :
    Tries origin
      (do
        let s ← state
        if !s.running then return ()
        let _ ← makeAddress net address
        if answer.failed then throw answer
        fire event) := by
  refine Leaves.state fun s => Triple.ite (fun _ => Triple.pure ()) fun _ => ?_
  refine (untried_neutral.makeAddress net address).bind fun _ => ?_
  exact Triple.ite (fun _ => untried_neutral.throw answer) fun _ => untried_neutral.fire event

theorem syncFailed_tries (ec : ErrorCode) : Tries origin (syncFailed ec) :=
  (untried_neutral.sendError ec).bind fun _ => disconnectInternal_tries.discard

theorem asyncFailed_tries (ec : ErrorCode) : Tries origin (asyncFailed ec) :=
  (untried_neutral.sendError ec).bind fun _ => (disconnectInternalAsync_tries true).discard

theorem call_tries (net : Net) (inside : Bool) (k : Call) : Tries none (call net inside k) := by
  cases k with
  | connect answers => exact (connect_tries net answers).discard
  | connectVia resolver resolution answers =>
      exact (connectVia_tries resolver resolution answers).discard
  | disconnect => exact disconnectInternal_tries.discard
  | reconnect answers =>
      exact (disconnectInternal_tries.bind fun _ =>
        Triple.ite (fun _ => Triple.pure false) fun _ => connect_tries net answers).discard
  | connectAsync => exact connectAsync_tries.discard
  | connectAsyncVia resolver => exact (connectAsyncVia_tries resolver).discard
  | disconnectAsync => exact (disconnectInternalAsync_tries false).discard
  | reconnectAsync => exact reconnectAsync_tries.discard
  | joinMulticastGroup address answer => exact group_tries net address answer _
  | leaveMulticastGroup address answer => exact group_tries net address answer _
  | joinMulticastGroupAsync address answer =>
      exact Leaves.state fun _ => Triple.ite (fun _ => Triple.pure ()) fun _ =>
        Triple.ite (fun _ => group_tries net address answer _) fun _ => post_tries _
  | leaveMulticastGroupAsync address answer =>
      exact Leaves.state fun _ => Triple.ite (fun _ => Triple.pure ()) fun _ =>
        Triple.ite (fun _ => group_tries net address answer _) fun _ => post_tries _
  | send endpoint buffer answer =>
      exact Leaves.state fun _ =>
        (untried_neutral.send syncFailed_tries _ buffer answer).discard
  | sendTimed endpoint buffer =>
      refine Leaves.state fun _ => ?_
      exact (untried_neutral.sendTimed (fun _ => .rfl) syncFailed_tries _ buffer).discard
  | sendAsync endpoint buffer =>
      exact Leaves.state fun _ =>
        (untried_neutral.sendAsync (Triple.pure ()) _ buffer).discard
  | receive buffer answer =>
      exact (untried_neutral.receive syncFailed_tries buffer answer).discard
  | receiveTimed endpoint buffer =>
      exact (untried_neutral.receiveTimed (fun _ => .rfl) syncFailed_tries endpoint buffer).discard
  | receiveAsync => exact untried_neutral.tryReceive
  | setupReuseAddress enable => exact untried_neutral.update (fun _ => rfl) fun _ => rfl
  | setupReusePort enable => exact untried_neutral.update (fun _ => rfl) fun _ => rfl
  | setupMulticast enable => exact Tries.update (fun _ => rfl) (fun _ => rfl) fun _ => rfl

theorem completionHandler_tries (op : Operation) (completion : Completion) :
    Tries origin (completionHandler op completion) :=
  completionHandler_cases (motive := Tries origin) completion
    (fun _ => untried_neutral.asyncSendToHandler asyncFailed_tries op completion)
    (fun _ => untried_neutral.asyncReceiveHandler asyncFailed_tries op completion)
    fun _ => untried_neutral.timedSocketHandler op completion

theorem Tries.steps {m : Code Unit} (hm : Tries origin m) {point : Option Event}
    {start s : Client} (hs : Untried point start s) :
    m.Segments (ResolveSteps origin) (fun _ _ start s => Resolves start s) point start s :=
  segments_mono (fun _ _ _ _ h => h) (fun _ _ _ _ h => h.1.kept) (hm point start s hs trivial)

private theorem connectViaHandler_resolves {start s : Client} (hs : Untried none start s) :
    connectViaHandler.Segments (ResolveSteps origin) (fun _ _ start s => Resolves start s) none
      start s := by
  rw [connectViaHandler, segments_bind, segments_state, segments_ite]
  by_cases hbusy : (s.running || s.own.resolving) = true
  · rw [if_pos hbusy]
    exact hs.kept
  · rw [if_neg hbusy]
    simp only [Bool.or_eq_true, not_or, Bool.not_eq_true] at hbusy
    exact .started _ (fun hrun => hs.1.trans hrun) (hs.2.1.symm.trans hbusy.2) rfl
      (congrArg (· ++ _) hs.2.2)

def Taken (index : Nat) (point : Option Event) (start s : Client) : Prop :=
  match point with
  | none => index < start.own.resolves.length ∧ s.running = start.running ∧
      s.own.resolving = false ∧ s.own.resolves = start.own.resolves.eraseIdx index
  | some event => Untried (some event) start s

theorem Taken.resolves {index : Nat} {point : Option Event} {start s : Client}
    (h : Taken index point start s) : Resolves start s := by
  cases point with
  | none => exact .finished index h.1 (fun hrun => h.2.1.trans hrun) h.2.2.1 h.2.2.2
  | some event =>
      have h : Untried (some event) start s := h
      exact h.kept

private theorem taken_neutral (index : Nat) : Neutral (ResolveSteps origin) (Taken index) where
  keep {point start s s'} h hown hrun := by
    cases point with
    | none =>
        unfold Taken at h ⊢
        rw [hown, hrun]
        exact h
    | some event =>
        have h : Untried (some event) start s := h
        exact (@untried_neutral origin).keep h hown hrun
  ends {point start s s'} stop h hown hrun := by
    cases point with
    | none =>
        refine .finished index h.1 (fun hstart => hrun (h.2.1.trans hstart)) ?_ ?_
        · rw [hown, h.2.2.1]
        · rw [hown, h.2.2.2]
    | some event =>
        have h : Untried (some event) start s := h
        exact untried_neutral.ends stop h hown hrun
  resume event s := (Untried.rfl : Untried (some event) s s)

private theorem asyncResolveHandler_resolves {index : Nat} (resolution : ErrorCode × Endpoint)
    (answers : SocketAnswers) {s : Client} (hindex : index < s.own.resolves.length) :
    (asyncResolveHandler index resolution answers).Segments (ResolveSteps origin)
      (fun _ _ start s => Resolves start s) none s s := by
  have hN : Neutral (ResolveSteps origin) (Taken index) := taken_neutral index
  have hrest : Leaves (ResolveSteps origin) (Taken index) (do
      let s ← state
      if s.running || s.own.resolving then return ()
      if !resolution.1.failed then
        setEndpoint resolution.2
        openSession answers bindTo .onConnected
      else
        sendError resolution.1
        fire .onDisconnected : Code Unit) := by
    refine Leaves.state fun s => Triple.ite (fun _ => Triple.pure ()) fun _ => ?_
    refine Triple.ite (fun _ => ?_) fun _ => ?_
    · refine Triple.bind (hN.update (fun _ => rfl) fun _ => rfl) fun _ => ?_
      exact hN.openSession answers bindTo _
    · exact (hN.sendError _).bind fun _ => hN.fire _
  rw [asyncResolveHandler, segments_bind, segments_update, setResolving, segments_bind,
    segments_update]
  exact segments_mono (fun _ _ _ _ h => h) (fun _ _ _ _ h => h.1.resolves)
    (hrest none s _ ⟨hindex, rfl, rfl, rfl⟩ trivial)

end Code

private theorem lt_of_resolved {net : Net} {index : Nat} {answers : SocketAnswers} {s : Client}
    {found : Origin Handler × Code Unit}
    (h : (system net).handler (.resolved index answers) s = some found) :
    index < s.own.resolves.length := by
  simp only [system, handler] at h
  split at h
  · exact (List.getElem?_eq_some_iff.mp ‹_›).1
  · cases h

theorem system_resolves (net : Net) :
    (system net).Obeys (fun _ => True) (fun _ => True) ResolveSteps where
  call k inside _ s := (call_tries net inside k).steps .rfl
  handler h s origin program _ hlookup := by
    cases runnable_of_handler hlookup with
    | completion hmem hresult => exact (completionHandler_tries _ _).steps .rfl
    | timer hfired => exact Tries.steps (untried_neutral.timedTimerHandler _ _) .rfl
    | @posted index handler answers hposted =>
        rw [segments_bind]
        have hs : Untried none s { s with
            own := { s.own with posted := s.own.posted.eraseIdx index } } := ⟨rfl, rfl, rfl⟩
        cases handler with
        | connect => exact Tries.steps (connect_tries net answers).discard hs
        | connectVia => exact connectViaHandler_resolves hs
        | disconnect session => exact Tries.steps disconnectInternal_tries.discard hs
        | joinMulticastGroup address => exact (group_tries net address _ _).steps hs
        | leaveMulticastGroup address => exact (group_tries net address _ _).steps hs
        | asyncResolve => exact hs.kept
    | resolved index answers resolution =>
        exact asyncResolveHandler_resolves resolution answers (lt_of_resolved hlookup)

private theorem environment_kept {stimulus : Stimulus} {s s' : Client}
    (h : environment stimulus s = some s') : Resolves s s' := by
  cases stimulus with
  | socket stimulus => cases stimulate_stirred h <;> exact .kept id rfl rfl
  | resolve index resolution =>
      simp only [environment] at h
      split at h
      · cases h
        exact .kept id rfl (List.length_set ..)
      · cases h

/-! ## Runs -/

def Disconnects (t : PeerTransition Members Handler Call Pending Stimulus) : Prop :=
  t.pre.world.running = true ∧ t.post.world.running = false

/-- Of the first `n` resolves in flight none leads to a connection.  Later ones come after
them, so that a completed one leaves one of the first fewer. -/
def noneConnects : Nat → List (PeerTransition Members Handler Call Pending Stimulus) → Prop
  | _, [] => True
  | n, t :: ts =>
      match t.move with
      | .handler (.resolved index _) =>
          if index < n then ¬Logs t .onConnected ∧ noneConnects (n - 1) ts
          else noneConnects n ts
      | _ => noneConnects n ts

/-- `_resolving` tells whether a resolve is in flight, and there is never a second. -/
def ResolvesExact (s : Client) : Prop :=
  (s.own.resolving = true ↔ s.own.resolves.length = 1) ∧ s.own.resolves.length ≤ 1

structure ResolvesOnce (net : Net) (s₀ : Client) (ms : List (Move Call Pending Stimulus)) :
    Prop where
  exact : ∀ c ∈ (system net).states (.initial s₀) ms, ResolvesExact c.world
  abandoned : ∀ before t after, (system net).trace (.initial s₀) ms = before ++ t :: after →
    Disconnects t → noneConnects t.post.world.own.resolves.length after

private theorem noneConnects_zero
    (ts : List (PeerTransition Members Handler Call Pending Stimulus)) : noneConnects 0 ts := by
  induction ts with
  | nil => trivial
  | cons t ts ih =>
      unfold noneConnects
      split
      · rw [if_neg (Nat.not_lt_zero _)]
        exact ih
      · exact ih

theorem ResolvesExact.step_iff {s s' : Client} (h : Resolves s s') (hs : ResolvesExact s) :
    ResolvesExact s' ↔ (s.running = true → s'.running = false → s.own.resolves = []) := by
  obtain ⟨hflag, hone⟩ := hs
  unfold ResolvesExact
  cases h with
  | kept hrun hresolving hresolves =>
      rw [hresolving, hresolves]
      refine iff_of_true ⟨hflag, hone⟩ fun hs hs' => ?_
      rw [hrun hs] at hs'
      cases hs'
  | started query hrun hidle hresolving hresolves =>
      have hnone : s.own.resolves.length ≠ 1 := fun h => by
        rw [hflag.mpr h] at hidle
        cases hidle
      have hlength : s'.own.resolves.length = 1 := by
        rw [hresolves, List.length_append, List.length_singleton]
        omega
      refine iff_of_true ⟨iff_of_true hresolving hlength, by omega⟩ fun hs hs' => ?_
      rw [hrun hs] at hs'
      cases hs'
  | finished index hindex hrun hresolving hresolves =>
      have hlength : s'.own.resolves.length = 0 := by
        rw [hresolves, List.length_eraseIdx, if_pos hindex]
        omega
      refine iff_of_true ⟨?_, by omega⟩ fun hs hs' => ?_
      · rw [hresolving, hlength]
        decide
      · rw [hrun hs] at hs'
        cases hs'
  | closed hrun hrun' hresolving hresolves =>
      rw [hresolving, hresolves, ← List.length_eq_zero_iff]
      constructor
      · rintro ⟨hnone, -⟩ - -
        have : s.own.resolves.length ≠ 1 := fun h => by cases hnone.mpr h
        omega
      · intro hempty
        have hlength := hempty hrun hrun'
        rw [hlength]
        decide

theorem step_resolves {net : Net} {c c' : PeerConfig Members Handler}
    {m : Move Call Pending Stimulus} (hc : ∀ f ∈ c.frames, f.Obeys ResolveSteps)
    (hstep : (system net).step c m = some c') :
    (∀ f ∈ c'.frames, f.Obeys ResolveSteps) ∧ Resolves c.world c'.world := by
  obtain ⟨hframes, hcases⟩ := System.step_cases (system_resolves net) hc (admitted_all m) hstep
  refine ⟨hframes, ?_⟩
  rcases hcases with ⟨origin, point, stop, -, hexec⟩ | ⟨-, hidle⟩
  · exact hexec.world
  · rcases hidle.world with h | ⟨e, -, h⟩
    · rw [h]
      exact (Untried.rfl : Untried none _ _).kept
    · exact environment_kept h

private theorem resolvesExact_constructed {s₀ : Client} (hs₀ : Constructed s₀) :
    ResolvesExact s₀ := by
  cases hs₀ <;> exact ⟨⟨fun h => (by cases h), fun h => (by cases h)⟩, Nat.zero_le 1⟩

/--
A client keeps its promise about resolves in a run if and only if the run never ends a
session while a resolve is in flight.
-/
theorem resolves_once_iff (net : Net) {s₀ : Client} (hs₀ : Constructed s₀)
    (ms : List (Move Call Pending Stimulus)) :
    ResolvesOnce net s₀ ms ↔
      ∀ t ∈ (system net).trace (.initial s₀) ms,
        Disconnects t → t.pre.world.own.resolves = [] := by
  have hframes : ∀ c ∈ (system net).states (.initial s₀) ms,
      ∀ f ∈ c.frames, f.Obeys ResolveSteps :=
    Steps.states_invariant (P := fun _ => True) (fun t hpre hstep _ => (step_resolves hpre hstep).1)
      (by simp [Config.frames, Config.initial]) fun _ _ => trivial
  have hresolves {t : PeerTransition Members Handler Call Pending Stimulus}
      (ht : t ∈ (system net).trace (.initial s₀) ms) : Resolves t.pre.world t.post.world :=
    (step_resolves (hframes _ (Steps.states_pre ht)) (Steps.trace_valid t ht)).2
  have hexact : (∀ c ∈ (system net).states (.initial s₀) ms, ResolvesExact c.world) ↔
      ∀ t ∈ (system net).trace (.initial s₀) ms,
        Disconnects t → t.pre.world.own.resolves = [] := by
    refine Steps.states_iff_trace
      (I := fun c : PeerConfig Members Handler =>
        (∀ f ∈ c.frames, f.Obeys ResolveSteps) ∧ ResolvesExact c.world)
      (P := fun _ => True) (fun c hc => hc.2) (fun t hpre hstep _ hfine => ?_)
      (fun t hpre hstep _ hspoils hpost => hspoils ?_)
      ⟨by simp [Config.frames, Config.initial], resolvesExact_constructed hs₀⟩ fun _ _ => trivial
    · obtain ⟨hframes, hstep⟩ := step_resolves hpre.1 hstep
      refine ⟨hframes, (ResolvesExact.step_iff hstep hpre.2).mpr ?_⟩
      exact fun hrun hrun' => hfine ⟨hrun, hrun'⟩
    · intro hdisconnects
      exact (ResolvesExact.step_iff (step_resolves hpre.1 hstep).2 hpre.2).mp hpost
        hdisconnects.1 hdisconnects.2
  constructor
  · exact fun honce => hexact.mp honce.exact
  · intro hfine
    refine ⟨hexact.mpr hfine, fun before t after htrace hdisconnects => ?_⟩
    have ht : t ∈ (system net).trace (.initial s₀) ms := by
      rw [htrace]
      simp
    have hnone := hfine t ht hdisconnects
    cases hresolves ht with
    | closed hrun hrun' hresolving hresolves =>
        rw [hresolves, hnone]
        exact noneConnects_zero after
    | kept hrun => exact absurd (hrun hdisconnects.1) (by simp [hdisconnects.2])
    | started query hrun => exact absurd (hrun hdisconnects.1) (by simp [hdisconnects.2])
    | finished index hindex hrun => exact absurd (hrun hdisconnects.1) (by simp [hdisconnects.2])

/-- `Connect` and `Disconnect` while a resolve is in flight, and a second resolve is started.
The first then connects the client. -/
theorem resolves_twice_after_disconnect :
    ∃ ms c, (system .loopback).run (.initial (ofAddressPort "127.0.0.1" 5000)) ms = some c ∧
      c.world.own.resolving = true ∧ c.world.own.resolves.length = 2 ∧
      ∃ ms' c', (system .loopback).run (.initial (ofAddressPort "127.0.0.1" 5000)) (ms ++ ms') =
          some c' ∧
        c'.world.log = [.onConnected, .onDisconnected, .onConnected] ∧
        c'.world.own.resolving = false ∧ c'.world.own.resolves.length = 1 ∧
        ¬ResolvesOnce .loopback (ofAddressPort "127.0.0.1" 5000) (ms ++ ms') := by
  refine ⟨[.call (.connectAsyncVia true) none, .handler (.posted 0 (.clean 4)),
    .call (.connect (.clean 4)) none, .resume 2, .call .disconnect none, .resume 3,
    .call (.connectAsyncVia true) none, .handler (.posted 0 (.clean 4))], _, rfl, rfl, rfl,
    [.environment (.resolve 0 (.success, default)), .handler (.resolved 0 (.clean 4))], _, rfl,
    rfl, rfl, rfl, fun honce => ?_⟩
  have hexact := honce.exact _ (Steps.run_mem_states rfl)
  have hflag : false = true ↔ (1 : Nat) = 1 := hexact.1
  cases hflag.mpr rfl

theorem resolves_once_iff_resolved :
    ∃ c, (system .loopback).run (.initial (ofAddressPort "127.0.0.1" 5000))
        [.call (.connectAsyncVia true) none, .handler (.posted 0 (.clean 4)),
          .environment (.resolve 0 (.success, default)), .handler (.resolved 0 (.clean 4)),
          .resume 2, .call .disconnect none] = some c ∧
      c.world.log = [.onConnected, .onDisconnected] ∧
      ResolvesOnce .loopback (ofAddressPort "127.0.0.1" 5000)
        [.call (.connectAsyncVia true) none, .handler (.posted 0 (.clean 4)),
          .environment (.resolve 0 (.success, default)), .handler (.resolved 0 (.clean 4)),
          .resume 2, .call .disconnect none] := by
  refine ⟨_, rfl, rfl, ?_⟩
  refine (resolves_once_iff .loopback (.ofAddressPort "127.0.0.1" 5000) _).mpr ?_
  have hall : ((system .loopback).trace (.initial (ofAddressPort "127.0.0.1" 5000))
      [.call (.connectAsyncVia true) none, .handler (.posted 0 (.clean 4)),
        .environment (.resolve 0 (.success, default)), .handler (.resolved 0 (.clean 4)),
        .resume 2, .call .disconnect none]).all (fun t =>
          !t.pre.world.running || t.post.world.running || t.pre.world.own.resolves.isEmpty) =
      true := rfl
  intro t ht hdisconnects
  have hone := List.all_eq_true.mp hall t ht
  rw [hdisconnects.1, hdisconnects.2] at hone
  simpa using hone

end Client

end AsioWrapper.Udp
