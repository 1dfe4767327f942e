import AsioWrapper.Udp.Reach

/-!
# When the socket is open

Opening and closing a session keeps the socket and the running flag together.
The flag is set only after the last of the throwing calls, so a call that
fails after `open` leaves a socket nobody closes: closing is guarded by the
flag, and every later `open` fails with `already_open`.
-/

namespace AsioWrapper.Udp

open AsioWrapper.Asio
open AsioWrapper.Foundation
open AsioWrapper.Foundation.Program

variable {δ : Type}

/-- A throwing socket call other than `open` has failed. -/
def Peer.LateFailure (s : Peer δ) : Prop :=
  ∃ failure ∈ s.failures, failure.1 ≠ SocketCall.open

instance (s : Peer δ) : Decidable s.LateFailure := by
  unfold Peer.LateFailure
  infer_instance

theorem lateFailure_noteFailure {s : Peer δ} {call : SocketCall} {ec : ErrorCode} :
    (s.noteFailure call ec).LateFailure ↔ s.LateFailure ∨ call ≠ .open := by
  simp [Peer.LateFailure, Peer.noteFailure, or_and_right, exists_or]

structure SocketOwned (s : Peer δ) : Prop where
  running : s.running = true → s.socket.isOpen = true
  stuck : s.LateFailure → s.socket.isOpen = true ∧ s.running = false
  owned : s.socket.isOpen = true → s.running = true ∨ s.LateFailure

private theorem socketOwned_core {s : Peer δ} : SocketOwned s.core ↔ SocketOwned s :=
  ⟨fun h => ⟨h.running, h.stuck, h.owned⟩, fun h => ⟨h.running, h.stuck, h.owned⟩⟩

theorem socketOwned_fresh (endpoint : Endpoint) (own : δ) :
    SocketOwned (Peer.fresh endpoint own) where
  running h := by simp [Peer.fresh] at h
  stuck h := by simp [Peer.LateFailure, Peer.fresh] at h
  owned h := by simp [Peer.fresh, Socket.fresh] at h

theorem socketOwned_stable (P : Profile δ) : Stable P SocketOwned where
  quiet h hs := by
    cases h with
    | special h =>
        rw [← socketOwned_core, P.inert _ _ h]
        exact socketOwned_core.mpr hs
    | _ => exact ⟨hs.running, hs.stuck, hs.owned⟩
  fires h hs := by
    cases h with
    | opened socket size hrun hclosed hopen hgeneration =>
        have hfailure : ¬Peer.LateFailure _ := fun h => by
          rw [(hs.stuck h).1] at hclosed
          contradiction
        exact ⟨fun _ => hopen, fun h => (hfailure h).elim, fun _ => Or.inl rfl⟩
    | closed hrun =>
        have hfailure : ¬Peer.LateFailure _ := fun h => by
          rw [(hs.stuck h).2] at hrun
          contradiction
        split
        · exact ⟨nofun, fun h => (hfailure h).elim, nofun⟩
        · exact ⟨nofun, fun h => (hfailure h).elim, nofun⟩
    | _ => exact ⟨hs.running, hs.stuck, hs.owned⟩
  fails h hs := by
    cases h with
    | refused => exact hs
    | unopened =>
        refine ⟨hs.running, fun h => hs.stuck ?_, fun h => (hs.owned h).imp_right fun h => ?_⟩
        · simpa [lateFailure_noteFailure] using h
        · simpa [lateFailure_noteFailure] using h
    | halfOpened call ec socket hclosed hrun hcall hopen hgeneration =>
        refine ⟨fun _ => hopen, fun _ => ⟨hopen, hrun⟩, fun _ => Or.inr ?_⟩
        exact lateFailure_noteFailure.mpr (Or.inr hcall)
  stirred h hs := by
    cases h with
    | complete hmem hpending completion => exact ⟨hs.running, hs.stuck, hs.owned⟩
    | expire id harmed => exact ⟨hs.running, hs.stuck, hs.owned⟩

theorem SocketOwned.open_iff_running {s : Peer δ} (hs : SocketOwned s) :
    (s.socket.isOpen = true ↔ s.running = true) ↔ ¬s.LateFailure := by
  constructor
  · intro hiff hfailure
    obtain ⟨hopen, hrun⟩ := hs.stuck hfailure
    rw [hiff.mp hopen] at hrun
    contradiction
  · intro hfailure
    exact ⟨fun hopen => (hs.owned hopen).resolve_right hfailure, hs.running⟩

theorem SocketOwned.closed_iff {s : Peer δ} (hs : SocketOwned s) (hrun : s.running = false) :
    s.socket.isOpen = false ↔ ¬s.LateFailure := by
  rw [← hs.open_iff_running, hrun]
  simp

/-! ## Retrying -/

def Reopens (point : Option Event) (start : Peer δ) (_ : Stop Event ErrorCode)
    (finish : Peer δ) : Prop :=
  point = none → (finish.running = true ↔ start.socket.isOpen = false)

theorem openSession_reopens {start s : Peer δ} (hsocket : s.socket = start.socket)
    (hrun : s.running = false) (n : Nat) (bindTo : Peer δ → Endpoint) (announce : Event) :
    (openSession (.clean n) bindTo announce).Segments Reopens
      (fun _ point _ _ => point ≠ none) none start s := by
  simp only [openSession, segments_bind, segments_state, attempt_segments]
  cases hopen : s.socket.isOpen with
  | true =>
      rw [hsocket] at hopen
      rw [if_pos rfl]
      intro _
      simp [Peer.noteFailure, hrun, hopen]
  | false =>
      rw [hsocket] at hopen
      cases s.optionReuseAddress <;> cases s.optionReusePort <;>
        exact ⟨fun _ => ⟨fun _ => hopen, fun _ => rfl⟩, fun _ h => by cases h⟩

private theorem reopens_of_segments {m : Proc δ Unit} {s : Peer δ}
    (h : m.Segments Reopens (fun _ point _ _ => point ≠ none) none s s) :
    (m s).reached.running = true ↔ s.socket.isOpen = false := by
  obtain ⟨stop, hstop⟩ := Outcome.segments_reached
    (segments_mono (fun _ _ _ _ h => h) (fun _ _ _ _ hpoint h => absurd h hpoint) h)
  exact hstop rfl

namespace Client

variable {net : Net}

def Targeted (s : Client) : Prop := s.own.address.isEmpty = false ∧ 0 < s.own.port

def Addressed (net : Net) (s : Client) : Prop :=
  Targeted s ∧ (net.makeAddress s.own.address).isSome

inductive Attempt (net : Net) (s : Client) : Move Call Pending Stimulus → Prop where
  | connect (n : Nat) (thread : Option Nat) (haddressed : Addressed net s) :
      Attempt net s (.call (.connect (.clean n)) thread)
  | connectVia (n : Nat) (thread : Option Nat) (endpoint : Endpoint) (htargeted : Targeted s) :
      Attempt net s (.call (.connectVia true (.success, endpoint) (.clean n)) thread)
  | posted (n index : Nat) (hposted : s.own.posted[index]? = some .connect)
      (haddressed : Addressed net s) :
      Attempt net s (.handler (.posted index (.clean n)))
  | resolved (n index : Nat) {host service : String} {endpoint : Endpoint}
      (hresolved : s.own.resolves[index]? = some ⟨host, service, some (.success, endpoint)⟩) :
      Attempt net s (.handler (.resolved index (.clean n)))

private theorem connect_reopens {start s : Client} (haddressed : Addressed net s)
    (hsocket : s.socket = start.socket) (hrun : s.running = false) (n : Nat) :
    (discard (connect net (.clean n))).Segments Reopens (fun _ point _ _ => point ≠ none)
      none start s := by
  obtain ⟨⟨haddress, hport⟩, hparse⟩ := haddressed
  obtain ⟨address, hparse⟩ := Option.isSome_iff_exists.mp hparse
  have hport : ¬s.own.port ≤ 0 := by omega
  simp only [connect, setEndpoint, segments_discard, segments_bind, segments_state,
    segments_update, segments_pure, haddress, hport, hrun, makeAddress, hparse,
    Bool.false_eq_true, if_false]
  refine openSession_reopens ?_ ?_ n bindTo .onConnected
  · exact hsocket
  · rfl

private theorem connectVia_reopens {s : Client} (htargeted : Targeted s) (hrun : s.running = false)
    (n : Nat) (endpoint : Endpoint) :
    (discard (connectVia true (.success, endpoint) (.clean n))).Segments Reopens
      (fun _ point _ _ => point ≠ none) none s s := by
  obtain ⟨haddress, hport⟩ := htargeted
  have hport : ¬s.own.port ≤ 0 := by omega
  simp only [connectVia, setEndpoint, segments_discard, segments_bind, segments_state,
    segments_update, haddress, hport, hrun, ErrorCode.failed_success, Bool.not_true,
    Bool.false_eq_true, if_false]
  refine openSession_reopens ?_ ?_ n bindTo .onConnected <;> rfl

private theorem asyncResolveHandler_reopens {s : Client} (hrun : s.running = false) (n index : Nat)
    (endpoint : Endpoint) :
    (asyncResolveHandler index (.success, endpoint) (.clean n)).Segments Reopens
      (fun _ point _ _ => point ≠ none) none s s := by
  simp only [asyncResolveHandler, setResolving, setEndpoint, segments_bind, segments_state,
    segments_update, hrun, ErrorCode.failed_success, Bool.or_self, Bool.not_false,
    Bool.false_eq_true, if_false, if_true]
  refine openSession_reopens ?_ ?_ n bindTo .onConnected <;> rfl

theorem attempt_reopens {c c' : Config Client Event ErrorCode (Origin Handler)}
    {m : Move Call Pending Stimulus} (hattempt : Attempt net c.world m)
    (hrun : c.world.running = false) (hstep : (system net).step c m = some c') :
    c'.world.running = true ↔ c.world.socket.isOpen = false := by
  cases hattempt with
  | connect n thread haddressed =>
      obtain ⟨inside, hworld⟩ := System.step_call hstep
      rw [hworld]
      exact reopens_of_segments (connect_reopens haddressed rfl hrun n)
  | connectVia n thread endpoint htargeted =>
      obtain ⟨inside, hworld⟩ := System.step_call hstep
      rw [hworld]
      exact reopens_of_segments (connectVia_reopens htargeted hrun n endpoint)
  | posted n index hposted haddressed =>
      obtain ⟨origin, program, hlookup, hworld⟩ := System.step_handler hstep
      simp only [system, handler, hposted] at hlookup
      cases hlookup
      rw [hworld]
      refine reopens_of_segments ?_
      rw [unpost, segments_bind, segments_update]
      refine connect_reopens ?_ ?_ ?_ n
      · exact haddressed
      · rfl
      · exact hrun
  | resolved n index hresolved =>
      obtain ⟨origin, program, hlookup, hworld⟩ := System.step_handler hstep
      simp only [system, handler, hresolved] at hlookup
      cases hlookup
      rw [hworld]
      exact reopens_of_segments (asyncResolveHandler_reopens hrun n index _)

end Client

namespace Server

inductive Attempt (s : Server) : Move Call Pending Udp.Stimulus → Prop where
  | posted (n index : Nat) (hposted : s.own.posted[index]? = some .start) :
      Attempt s (.handler (.posted index (.clean n)))

theorem attempt_reopens {net : Net} {c c' : Config Server Event ErrorCode (Origin Handler)}
    {m : Move Call Pending Udp.Stimulus} (hattempt : Attempt c.world m)
    (hrun : c.world.running = false) (hstep : (system net).step c m = some c') :
    c'.world.running = true ↔ c.world.socket.isOpen = false := by
  obtain ⟨n, index, hposted⟩ := hattempt
  obtain ⟨origin, program, hlookup, hworld⟩ := System.step_handler hstep
  simp only [system, handler, hposted] at hlookup
  cases hlookup
  rw [hworld]
  refine reopens_of_segments ?_
  simp only [postedHandler, startHandler, unpost, segments_bind, segments_update,
    segments_state, hrun, Bool.false_eq_true, if_false]
  refine openSession_reopens ?_ ?_ n (fun s => s.endpoint) .onStarted <;> rfl

end Server

/-! ## The law -/

/--
In every reachable state the socket is open exactly while the object runs, unless
a socket call after `open` has failed.  From then on it stays open with the object
not running, and no attempt to open a session succeeds any more, even if all its
calls would.
-/
theorem socket_open_iff_running (net : Net) :
    (∀ s₀, Client.Constructed s₀ → ∀ ms,
      ∀ c ∈ (Client.system net).states (.initial s₀) ms,
        ((c.world.socket.isOpen = true ↔ c.world.running = true) ↔ ¬c.world.LateFailure) ∧
        (c.world.running = false → ∀ m c', Client.Attempt net c.world m →
          (Client.system net).step c m = some c' →
          (c'.world.running = true ↔ ¬c.world.LateFailure))) ∧
    (∀ s₀, Server.Constructed net s₀ → ∀ ms,
      ∀ c ∈ (Server.system net).states (.initial s₀) ms,
        ((c.world.socket.isOpen = true ↔ c.world.running = true) ↔ ¬c.world.LateFailure) ∧
        (c.world.running = false → ∀ m c', Server.Attempt c.world m →
          (Server.system net).step c m = some c' →
          (c'.world.running = true ↔ ¬c.world.LateFailure))) := by
  constructor
  · intro s₀ hs₀ ms c hc
    have howned : SocketOwned c.world := by
      obtain ⟨endpoint, own, rfl, -⟩ := hs₀.fresh
      exact (Client.modelled net).states_keep (socketOwned_stable _)
        (socketOwned_fresh endpoint own) ms c hc
    refine ⟨howned.open_iff_running, fun hrun m c' hattempt hstep => ?_⟩
    rw [Client.attempt_reopens hattempt hrun hstep, howned.closed_iff hrun]
  · intro s₀ hs₀ ms c hc
    have howned : SocketOwned c.world := by
      obtain ⟨endpoint, own, rfl, -⟩ := hs₀.fresh
      exact (Server.modelled net).states_keep (socketOwned_stable _)
        (socketOwned_fresh endpoint own) ms c hc
    refine ⟨howned.open_iff_running, fun hrun m c' hattempt hstep => ?_⟩
    rw [Server.attempt_reopens hattempt hrun hstep, howned.closed_iff hrun]

theorem socket_open_iff_running_connected :
    (∃ c, (Client.system .loopback).run (.initial (Client.ofAddressPort "127.0.0.1" 5000))
        [.call (.connect (.clean 4)) none] = some c ∧ c.world.running = true ∧
      (c.world.socket.isOpen = true ↔ c.world.running = true)) ∧
    (∃ c, (Server.system .loopback).run (.initial (Server.ofPort 5000 .ipv4))
        [.call .start none, .handler (.posted 0 (.clean 4))] = some c ∧
      c.world.running = true ∧ (c.world.socket.isOpen = true ↔ c.world.running = true)) := by
  refine ⟨⟨_, rfl, rfl, ?_⟩, _, rfl, rfl, ?_⟩
  · exact ((socket_open_iff_running .loopback).1 _ (.ofAddressPort "127.0.0.1" 5000)
      [.call (.connect (.clean 4)) none] _ (Steps.run_mem_states rfl)).1.mpr (by decide)
  · exact ((socket_open_iff_running .loopback).2 _ (.ofPort 5000 .ipv4)
      [.call .start none, .handler (.posted 0 (.clean 4))] _
      (Steps.run_mem_states rfl)).1.mpr (by decide)

theorem socket_left_open_by_failed_bind :
    (((Client.system .loopback).run (.initial (Client.ofAddressPort "127.0.0.1" 5000))
        [.call (.connect { SocketAnswers.clean 4 with binding := .addressInUse }) none,
          .call (.connect (.clean 4)) none]).map
      fun c => (c.world.socket.isOpen, c.world.running, c.escaped.map Prod.snd)) =
        some (true, false, [.addressInUse, .alreadyOpen]) ∧
    (((Server.system .loopback).run (.initial (Server.ofPort 5000 .ipv4))
        [.call .start none,
          .handler (.posted 0 { SocketAnswers.clean 4 with binding := .addressInUse }),
          .call .start none, .handler (.posted 0 (.clean 4))]).map
      fun c => (c.world.socket.isOpen, c.world.running, c.escaped.map Prod.snd)) =
        some (true, false, [.addressInUse, .alreadyOpen]) := by
  exact ⟨rfl, rfl⟩

end AsioWrapper.Udp
