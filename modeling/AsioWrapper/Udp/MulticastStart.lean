import AsioWrapper.Udp.Watch

/-!
# Refused multicast starts

The overloads of `Start` that take a multicast endpoint store it before `Start`
decides.  A call refused because the server is running has then replaced the
endpoint the running session multicasts to.
-/

namespace AsioWrapper.Udp

open AsioWrapper.Asio
open AsioWrapper.Foundation
open AsioWrapper.Foundation.Program

namespace Server

def multicastStart (net : Net) : Call → Option (Code Bool)
  | .startMulticastAt address port => some (startMulticastAt net address port)
  | .startMulticast endpoint => some (startMulticast endpoint)
  | _ => none

def offered (net : Net) : Call → Option Endpoint
  | .startMulticastAt address port =>
      (net.makeAddress address).map fun parsed => ⟨parsed, toPort port⟩
  | .startMulticast endpoint => some endpoint
  | _ => none

def returned : Outcome Server Event ErrorCode Bool → Option Bool
  | .ret value _ => some value
  | _ => none

def Accepted (net : Net) (k : Call) (s : Server) : Prop :=
  (multicastStart net k).any (fun start => returned (start s) == some true) = true

def Refused (net : Net) (k : Call) (s : Server) : Prop :=
  (multicastStart net k).any (fun start => returned (start s) != some true) = true

instance (net : Net) (k : Call) (s : Server) : Decidable (Accepted net k s) :=
  inferInstanceAs (Decidable (_ = true))

instance (net : Net) (k : Call) (s : Server) : Decidable (Refused net k s) :=
  inferInstanceAs (Decidable (_ = true))

/-- The server is not running, or the call brings no other endpoint than the one in place. -/
def Harmless (net : Net) (k : Call) (s : Server) : Prop :=
  s.running = false ∨ ∀ endpoint, offered net k = some endpoint →
    endpoint = s.own.multicastEndpoint

/-! ## One call -/

theorem start_apply (s : Server) :
    start s = if s.running then .ret false s
      else .ret true { s with own := { s.own with posted := s.own.posted ++ [.start] } } := by
  simp only [start, bind_apply, state, Outcome.bind, post]
  split <;> rfl

private theorem startMulticast_apply (endpoint : Endpoint) (s : Server) :
    startMulticast endpoint s =
      start { s with own := { s.own with multicastEndpoint := endpoint } } := rfl

private theorem startMulticastAt_apply (net : Net) (address : String) (port : Int) (s : Server) :
    startMulticastAt net address port s =
      match net.makeAddress address with
      | some parsed => startMulticast ⟨parsed, toPort port⟩ s
      | none => .throw .invalidArgument s := by
  simp only [startMulticastAt, bind_apply, makeAddress]
  cases net.makeAddress address <;> rfl

theorem multicastStart_cases {net : Net} {k : Call} {start : Code Bool}
    (h : multicastStart net k = some start) (s : Server) :
    (offered net k = none ∧ start s = .throw .invalidArgument s) ∨
      ∃ endpoint, offered net k = some endpoint ∧
        start s = Server.start { s with own := { s.own with multicastEndpoint := endpoint } } := by
  cases k with
  | startMulticastAt address port =>
      cases h
      rw [startMulticastAt_apply, offered]
      cases net.makeAddress address with
      | none => exact Or.inl ⟨rfl, rfl⟩
      | some parsed => exact Or.inr ⟨_, rfl, startMulticast_apply _ s⟩
  | startMulticast endpoint =>
      cases h
      exact Or.inr ⟨endpoint, rfl, startMulticast_apply endpoint s⟩
  | _ => cases h

theorem call_eq {net : Net} {k : Call} {start : Code Bool}
    (h : multicastStart net k = some start) : call net k = Functor.discard start := by
  cases k <;> cases h <;> rfl

theorem call_reached {net : Net} {k : Call} {start : Code Bool}
    (h : multicastStart net k = some start) (s : Server) :
    (call net k s).reached = (start s).reached := by
  rw [call_eq h, discard_apply]
  cases start s <;> rfl

theorem accepted_iff {net : Net} {k : Call} {s : Server} :
    Accepted net k s ↔ s.running = false ∧ (offered net k).isSome = true := by
  unfold Accepted
  cases hstart : multicastStart net k with
  | none => cases k <;> simp [multicastStart, offered] at hstart ⊢
  | some start =>
      rcases multicastStart_cases hstart s with ⟨hnone, hthrow⟩ | ⟨endpoint, hsome, hret⟩
      · simp [hnone, hthrow, returned]
      · rw [hsome, Option.any_some, hret, start_apply]
        cases hrun : s.running <;> simp [returned]

theorem refused_iff {net : Net} {k : Call} {s : Server} :
    Refused net k s ↔ (multicastStart net k).isSome = true ∧ ¬Accepted net k s := by
  unfold Refused Accepted
  cases multicastStart net k <;> simp

theorem call_multicastEndpoint (net : Net) {k : Call} (s : Server)
    (h : (multicastStart net k).isSome = true) :
    (call net k s).reached.own.multicastEndpoint =
      (offered net k).getD s.own.multicastEndpoint := by
  obtain ⟨start, hstart⟩ := Option.isSome_iff_exists.mp h
  rw [call_reached hstart]
  rcases multicastStart_cases hstart s with ⟨hnone, hthrow⟩ | ⟨endpoint, hsome, hret⟩
  · rw [hnone, hthrow]
    rfl
  · rw [hsome, hret, start_apply]
    split <;> rfl

private theorem call_running (net : Net) {k : Call} (s : Server)
    (h : (multicastStart net k).isSome = true) :
    (call net k s).reached.running = s.running := by
  obtain ⟨start, hstart⟩ := Option.isSome_iff_exists.mp h
  rw [call_reached hstart]
  rcases multicastStart_cases hstart s with ⟨hnone, hthrow⟩ | ⟨endpoint, hsome, hret⟩
  · rw [hthrow]
    rfl
  · rw [hret, start_apply]
    split <;> rfl

theorem refused_unchanged_iff (net : Net) (k : Call) (s : Server) :
    (Refused net k s → (call net k s).reached = s) ↔ Harmless net k s := by
  constructor
  · intro h
    by_cases hrun : s.running = false
    · exact Or.inl hrun
    · refine Or.inr fun endpoint hoffered => ?_
      have hstart : (multicastStart net k).isSome = true := by
        cases k <;> simp [multicastStart, offered] at hoffered ⊢
      have hrefused : Refused net k s := by
        rw [refused_iff, accepted_iff]
        exact ⟨hstart, fun haccepted => hrun haccepted.1⟩
      have hendpoint := call_multicastEndpoint net s hstart
      rw [h hrefused, hoffered] at hendpoint
      exact hendpoint.symm
  · intro h hrefused
    obtain ⟨hsome, hnot⟩ := refused_iff.mp hrefused
    obtain ⟨start, hstart⟩ := Option.isSome_iff_exists.mp hsome
    rw [call_reached hstart]
    rcases multicastStart_cases hstart s with ⟨hnone, hthrow⟩ | ⟨endpoint, hoffered, hret⟩
    · rw [hthrow]
      rfl
    · have hrun : s.running = true := by
        by_contra hidle
        simp only [Bool.not_eq_true] at hidle
        exact hnot (accepted_iff.mpr ⟨hidle, by rw [hoffered]; rfl⟩)
      have hplace : endpoint = s.own.multicastEndpoint := by
        rcases h with hidle | hplace
        · rw [hrun] at hidle
          cases hidle
        · exact hplace endpoint hoffered
      rw [hret, start_apply, hplace, if_pos hrun]
      rfl

/-! ## Where a multicast goes -/

/-- Each of the `Multicast` methods is the send to the endpoint. -/
structure MulticastsTo (net : Net) (s : Server) (endpoint : Endpoint) : Prop where
  send : ∀ buffer answer, call net (.send none buffer answer) s =
    call net (.send (some endpoint) buffer answer) s
  sendTimed : ∀ buffer, call net (.sendTimed none buffer) s =
    call net (.sendTimed (some endpoint) buffer) s
  sendAsync : ∀ buffer, call net (.sendAsync none buffer) s =
    call net (.sendAsync (some endpoint) buffer) s

private theorem multicastsTo_self (net : Net) (s : Server) :
    MulticastsTo net s s.own.multicastEndpoint :=
  ⟨fun _ _ => rfl, fun _ => rfl, fun _ => rfl⟩

def firstEvent : Outcome Server Event ErrorCode Unit → Option Event
  | .call event _ _ => some event
  | _ => none

/-- In a session the endpoint can be told from the datagrams: a byte that is sent is
reported to `onSent` with it. -/
theorem multicastsTo_iff {net : Net} {s : Server} (hrun : s.running = true)
    {endpoint : Endpoint} : MulticastsTo net s endpoint ↔ s.own.multicastEndpoint = endpoint := by
  constructor
  · intro h
    have hfirst (target : Option Endpoint) :
        firstEvent (call net (.send target (.bytes [0]) ⟨.success, 1, default⟩) s) =
          some (.onSent (target.getD s.own.multicastEndpoint) 1) := by
      simp only [call, bind_apply, state, Outcome.bind, discard_apply, Server.send, Udp.send, hrun]
      rfl
    have hboth := hfirst none
    rw [h.send, hfirst (some endpoint)] at hboth
    simpa using hboth.symm
  · rintro rfl
    exact multicastsTo_self net s

/-! ## Runs -/

abbrev Step : Type := PeerTransition Members Handler Call Pending Stimulus

def acceptedEndpoint (net : Net) (t : Step) : Option Endpoint :=
  match t.move with
  | .call k _ => if Accepted net k t.pre.world then offered net k else none
  | _ => none

/-- The endpoint of the last multicast start that was accepted, and the one of the
construction before the first. -/
def lastAccepted (net : Net) (ts : List Step) : Endpoint :=
  ts.foldl (fun endpoint t => (acceptedEndpoint net t).getD endpoint) default

theorem lastAccepted_concat (net : Net) (ts : List Step) (t : Step) :
    lastAccepted net (ts ++ [t]) = (acceptedEndpoint net t).getD (lastAccepted net ts) := by
  simp [lastAccepted]

def EndpointKept (_ : Option (Origin Handler)) (_ : Option Event) (s : Server)
    (_ : Stop Event ErrorCode) (s' : Server) : Prop :=
  s'.own.multicastEndpoint = s.own.multicastEndpoint

private theorem watches_multicastEndpoint (origin : Option (Origin Handler)) :
    Watches true Aside (Same fun s => s.own.multicastEndpoint) (EndpointKept origin) :=
  Watches.of_view (fun h => by cases h <;> rfl) (fun h => by cases h <;> rfl) (fun _ h => h)
    (fun _ h _ => h) fun _ h _ => h

theorem system_endpointKept (net : Net) :
    (system net).Obeys (fun k => multicastStart net k = none) (fun _ => True) EndpointKept := by
  refine system_viewed net (fun _ => rfl) (fun origin _ => watches_multicastEndpoint origin) ?_ ?_
  · intro k hk hplain
    have hT := watches_multicastEndpoint none
    cases k with
    | startMulticastAt address port => cases hk
    | startMulticast endpoint => cases hk
    | sendAsync endpoint buffer =>
        refine hT.obeys (fun _ => rfl) (Viewed.state fun s => ?_)
        exact (hT.sendAsync (fun _ _ _ _ _ h => h) (Viewed.state fun _ => hT.fire _) _ _).discard
    | _ => cases hplain
  · intro s op completion hmem hsend
    have hT := watches_multicastEndpoint (some (.completion op completion))
    rw [completionHandler, completionHandler_send _ hsend]
    exact hT.obeys (fun _ => rfl) (hT.asyncSendToHandler (sendFailed_viewed hT)
      (fun _ _ _ _ h => h) (fun _ _ _ _ h => h) op completion) s

private theorem multicastStart_suspends {G : Frame Server Event ErrorCode (Origin Handler) → Prop}
    (net : Net) (k : Call) (inside : Bool) (s : Server) (hk : ¬multicastStart net k = none) :
    ((system net).call k inside s).Suspends G none := by
  obtain ⟨start, hstart⟩ := Option.ne_none_iff_exists'.mp hk
  rw [show (system net).call k inside s = call net k s from rfl, call_eq hstart, discard_apply]
  rcases multicastStart_cases hstart s with ⟨-, hthrow⟩ | ⟨endpoint, -, hret⟩
  · rw [hthrow]
    trivial
  · rw [hret, start_apply]
    split <;> trivial

def brought (net : Net) : Move Call Pending Stimulus → Option Endpoint
  | .call k _ => offered net k
  | _ => none

private theorem brought_of_admitted {net : Net} {m : Move Call Pending Stimulus}
    (hm : m.Admitted (fun k => multicastStart net k = none) (fun _ => True)) :
    brought net m = none := by
  cases m with
  | call k thread => cases k <;> simp [Move.Admitted, multicastStart, brought, offered] at hm ⊢
  | _ => rfl

theorem step_multicastEndpoint {net : Net} {c c' : PeerConfig Members Handler}
    (hc : ∀ f ∈ c.frames, f.Obeys EndpointKept) {m : Move Call Pending Stimulus}
    (hstep : (system net).step c m = some c') :
    (∀ f ∈ c'.frames, f.Obeys EndpointKept) ∧
      c'.world.own.multicastEndpoint =
        (brought net m).getD c.world.own.multicastEndpoint := by
  obtain ⟨hframes, hcases⟩ := System.step_cases_or_call (system_endpointKept net)
    (multicastStart_suspends net) hc (admitted_all m) hstep
  refine ⟨hframes, ?_⟩
  rcases hcases with ⟨hadmitted, hcode | hidle⟩ | ⟨k, thread, inside, rfl, hk, hworld⟩
  · obtain ⟨origin, point, stop, -, hexec⟩ := hcode
    rw [brought_of_admitted hadmitted]
    exact hexec.world
  · rw [brought_of_admitted hadmitted, Option.getD_none]
    rcases hidle.2.world with h | ⟨e, -, h⟩
    · rw [h]
    · generalize c'.world = s' at h
      cases stimulate_stirred h <;> rfl
  · rw [hworld]
    exact call_multicastEndpoint net _ (Option.isSome_iff_ne_none.mpr hk)

def HarmlessStep (net : Net) (t : Step) : Prop :=
  ∀ k thread, t.move = .call k thread → Harmless net k t.pre.world

theorem lastAccepted_step {net : Net} {c c' : PeerConfig Members Handler}
    {m : Move Call Pending Stimulus} {ts : List Step}
    (hpre : c.world.own.multicastEndpoint = lastAccepted net ts)
    (hok : HarmlessStep net ⟨c, m, c'⟩) :
    (brought net m).getD c.world.own.multicastEndpoint =
      lastAccepted net (ts ++ [⟨c, m, c'⟩]) := by
  rw [lastAccepted_concat, ← hpre]
  cases m with
  | call k thread =>
      simp only [brought, acceptedEndpoint, accepted_iff]
      cases hoffered : offered net k with
      | none => simp
      | some endpoint =>
          rcases hok k thread rfl with hidle | hplace
          · have hrun : c.world.running = false := hidle
            simp [hrun]
          · rw [hplace endpoint hoffered]
            split <;> rfl
  | _ => rfl

private theorem run_lastAccepted {net : Net} {s₀ : Server} (h₀ : s₀.own.multicastEndpoint = default)
    {ms : List (Move Call Pending Stimulus)} {c : PeerConfig Members Handler}
    (hrun : (system net).run (.initial s₀) ms = some c)
    (hok : ∀ t ∈ (system net).trace (.initial s₀) ms, HarmlessStep net t) :
    c.world.own.multicastEndpoint = lastAccepted net ((system net).trace (.initial s₀) ms) := by
  refine (Steps.run_history (f := (system net).step) (P := HarmlessStep net)
    (J := fun ts c => (∀ f ∈ c.frames, f.Obeys EndpointKept) ∧
      c.world.own.multicastEndpoint = lastAccepted net ts) ?_ ?_ hrun hok).2
  · rintro ts ⟨c, m, c'⟩ ⟨hframes, hpre⟩ hstep hstepOk
    obtain ⟨hframes', hpost⟩ := step_multicastEndpoint hframes hstep
    exact ⟨hframes', hpost.trans (lastAccepted_step hpre hstepOk)⟩
  · exact ⟨by simp [Config.frames, Config.initial], h₀⟩

theorem Constructed.multicastEndpoint {net : Net} {s : Server} (h : Constructed net s) :
    s.own.multicastEndpoint = default := by
  cases h with
  | ofPort port protocol => rfl
  | ofAddress address port h =>
      simp only [Server.ofAddress, Option.map_eq_some_iff] at h
      obtain ⟨parsed, _, rfl⟩ := h
      rfl
  | ofEndpoint text endpoint => rfl

/-- In a session of the run every multicast goes to the endpoint of the last start accepted. -/
def MulticastsToAccepted (net : Net) (s₀ : Server) (ms : List (Move Call Pending Stimulus)) :
    Prop :=
  ∀ before c, before <+: ms → (system net).run (.initial s₀) before = some c →
    c.world.running = true →
    MulticastsTo net c.world (lastAccepted net ((system net).trace (.initial s₀) before))

private theorem harmless_of_multicastsToAccepted {net : Net} {s₀ : Server}
    {ms : List (Move Call Pending Stimulus)} (h : MulticastsToAccepted net s₀ ms) :
    ∀ t ∈ (system net).trace (.initial s₀) ms, HarmlessStep net t := by
  intro t ht k thread hmove
  obtain ⟨before, after, rfl, hrun, hstep⟩ := Steps.trace_split ht
  obtain ⟨c, m, c'⟩ := t
  cases hmove
  by_cases hrunning : c.world.running = true
  · refine Or.inr fun endpoint hoffered => ?_
    obtain ⟨inside, hworld⟩ := System.step_call hstep
    have hsome : (multicastStart net k).isSome = true := by
      cases k <;> simp [multicastStart, offered] at hoffered ⊢
    -- the session goes on, with the endpoint of the refused call
    have hrunning' : c'.world.running = true := by
      rw [hworld]
      exact (call_running net _ hsome).trans hrunning
    have hendpoint : c'.world.own.multicastEndpoint = endpoint := by
      rw [hworld]
      exact (call_multicastEndpoint net _ hsome).trans (by rw [hoffered]; rfl)
    have hbefore := (multicastsTo_iff hrunning).mp
      (h before c (List.prefix_append _ _) hrun hrunning)
    have hrun' : (system net).run (.initial s₀) (before ++ [.call k thread]) = some c' := by
      rw [System.run, Steps.run_append hrun]
      simp [Steps.run, hstep]
    have hafter := (multicastsTo_iff hrunning').mp
      (h (before ++ [.call k thread]) c' ⟨after, by simp⟩ hrun' hrunning')
    rw [System.trace, Steps.trace_concat hrun hstep, lastAccepted_concat] at hafter
    simp only [acceptedEndpoint, accepted_iff, hrunning] at hafter
    rw [← hendpoint, hafter, hbefore]
    rfl
  · exact Or.inl (by simpa using hrunning)

/--
A refused multicast start leaves the server as it was exactly if the endpoint it brings is
the one in place (or its address does not parse); a start that finds the server not
running is not refused.  In every run the sessions multicast to the endpoint of the last
start that was accepted exactly if all refused starts of the run are of this kind.
-/
theorem multicast_start_refused_iff (net : Net) :
    (∀ k s, (Refused net k s → (call net k s).reached = s) ↔ Harmless net k s) ∧
    ∀ s₀, Constructed net s₀ → ∀ ms, MulticastsToAccepted net s₀ ms ↔
      ∀ t ∈ (system net).trace (.initial s₀) ms, HarmlessStep net t := by
  refine ⟨refused_unchanged_iff net, fun s₀ hs₀ ms => ⟨harmless_of_multicastsToAccepted, ?_⟩⟩
  intro hok before c hbefore hrun hrunning
  obtain ⟨after, rfl⟩ := hbefore
  rw [multicastsTo_iff hrunning]
  apply run_lastAccepted hs₀.multicastEndpoint hrun
  intro t ht
  exact hok t (Steps.trace_mem_append after ht)

theorem multicast_start_refused_iff_repeated :
    ∃ c, (system .loopback).run (.initial (ofPort 5000 .ipv4))
        [.call (.startMulticast ⟨.v4 0xe0000001, 7000⟩) none, .handler (.posted 0 (.clean 4)),
          .resume 1, .call (.startMulticast ⟨.v4 0xe0000001, 7000⟩) none] = some c ∧
      c.world.running = true ∧ MulticastsTo .loopback c.world ⟨.v4 0xe0000001, 7000⟩ := by
  refine ⟨_, rfl, rfl, ?_⟩
  refine (((multicast_start_refused_iff .loopback).2 _ (.ofPort 5000 .ipv4)
    [.call (.startMulticast ⟨.v4 0xe0000001, 7000⟩) none, .handler (.posted 0 (.clean 4)),
      .resume 1, .call (.startMulticast ⟨.v4 0xe0000001, 7000⟩) none]).mpr ?_) _ _
    (List.prefix_refl _) rfl rfl
  refine List.forall_mem_cons.mpr ⟨?accepted, List.forall_mem_cons.mpr ⟨?opened,
    List.forall_mem_cons.mpr ⟨?announced, List.forall_mem_cons.mpr ⟨?refused, ?done⟩⟩⟩⟩
  case accepted => exact fun k thread _ => Or.inl rfl
  case opened => exact fun k thread h => (by cases h)
  case announced => exact fun k thread h => (by cases h)
  case refused =>
    intro k thread h
    cases h
    exact Or.inr fun endpoint hoffered => (Option.some.inj hoffered).symm
  case done => exact fun t ht => (by cases ht)

/-- A second start is refused in a running session, which then multicasts to its endpoint. -/
theorem multicast_start_refused_replaces :
    ∃ c c', (system .loopback).run (.initial (ofPort 5000 .ipv4))
        [.call (.startMulticast ⟨.v4 0xe0000001, 7000⟩) none, .handler (.posted 0 (.clean 4)),
          .resume 1] = some c ∧
      Accepted .loopback (.startMulticast ⟨.v4 0xe0000001, 7000⟩) (ofPort 5000 .ipv4) ∧
      Refused .loopback (.startMulticast ⟨.v4 0xe0000002, 7000⟩) c.world ∧
      (call .loopback (.startMulticast ⟨.v4 0xe0000002, 7000⟩) c.world).reached ≠ c.world ∧
      (system .loopback).run c
        [.call (.startMulticast ⟨.v4 0xe0000002, 7000⟩) none,
          .call (.sendAsync none (.bytes [1])) none] = some c' ∧
      c'.world.operations.map Operation.purpose =
        [.sendAsync [1] ⟨.v4 0xe0000002, 7000⟩] := by
  refine ⟨_, _, rfl, by decide, by decide, ?_, rfl, by decide⟩
  intro h
  have hendpoint := congrArg (fun s => s.own.multicastEndpoint) h
  revert hendpoint
  decide

end Server

end AsioWrapper.Udp
