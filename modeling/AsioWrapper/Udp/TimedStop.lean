import AsioWrapper.Udp.TimedCalls

/-!
# Stopping during a timed call

The first handler of a timed call throws into the loop if the session was
closed while the call was waiting.  Nothing else makes a handler of a timed
call throw, and the caller is released either way.
-/

namespace AsioWrapper.Udp

open AsioWrapper.Asio
open AsioWrapper.Foundation

variable {δ π κ η ν : Type}

/-- An exception of a timed call's handler has reached the loop that runs the handlers. -/
def TimedHandlerThrew (c : PeerConfig δ π) : Prop :=
  ∃ o ec, (some o, ec) ∈ c.escaped ∧ o.isTimed = true

def cancelsClosed (S : PeerSystem δ π κ η ν) (t : PeerTransition δ π κ η ν) : Bool :=
  match S.segment t.pre t.move with
  | some (some o, _) =>
      match o.timedCall with
      | some id => (t.pre.world.timedCall id).done == 0 && !t.pre.world.socket.isOpen
      | none => false
  | _ => false

section Runs

variable {S : PeerSystem δ π κ η ν} {P : Profile δ}

theorem cancelsClosed_iff {t : PeerTransition δ π κ η ν} :
    cancelsClosed S t = true ↔
      ∃ o point id, S.segment t.pre t.move = some (some o, point) ∧ o.timedCall = some id ∧
        (t.pre.world.timedCall id).done = 0 ∧ t.pre.world.socket.isOpen = false := by
  unfold cancelsClosed
  constructor
  · intro h
    split at h
    · rename_i o point hsegment
      split at h
      · rename_i id hid
        simp only [Bool.and_eq_true, beq_iff_eq, Bool.not_eq_true'] at h
        exact ⟨o, point, id, hsegment, hid, h.1, h.2⟩
      · cases h
    · cases h
  · rintro ⟨o, point, id, hsegment, hid, hfirst, hclosed⟩
    simp [hsegment, hid, hfirst, hclosed]

variable (hM : Modelled S P) (hT : S.Obeys (fun _ => True) (fun _ => True) TimedExact)

include hM hT

theorem not_threw_step {t : PeerTransition δ π κ η ν} (hpre : Watched P t.pre)
    (hquiet : ¬TimedHandlerThrew t.pre) (hstep : S.step t.pre t.move = some t.post)
    (hopen : cancelsClosed S t = false) : ¬TimedHandlerThrew t.post := by
  rintro ⟨o, ec, hmem, htimed⟩
  rcases (hM.step hT hpre.frames hstep).2 with
    ⟨origin, point, stop, hsegment, hexec⟩ | ⟨-, -, hescaped, -⟩
  · rw [hexec.escaped, List.mem_append] at hmem
    rcases hmem with hmem | hmem
    · exact hquiet ⟨o, ec, hmem, htimed⟩
    · cases stop with
      | threw error =>
          obtain ⟨rfl, rfl⟩ : some o = origin ∧ ec = error := by
            simpa [Stop.escaped] using hmem
          cases hid : o.timedCall with
          | none =>
              rw [Origin.isTimed_of_timedCall_none hid] at htimed
              cases htimed
          | some id =>
              have hthrew := (hexec.world.2 o id rfl hid).threw.mp ⟨_, rfl⟩
              have hcancels := cancelsClosed_iff.mpr ⟨o, point, id, hsegment, hid, hthrew⟩
              rw [hopen] at hcancels
              cases hcancels
      | returned => simp [Stop.escaped] at hmem
      | called event => simp [Stop.escaped] at hmem
      | waiting => simp [Stop.escaped] at hmem
  · rw [hescaped] at hmem
    exact hquiet ⟨o, ec, hmem, htimed⟩

private theorem threw_of_cancelsClosed {t : PeerTransition δ π κ η ν} (hpre : Watched P t.pre)
    (hstep : S.step t.pre t.move = some t.post) (h : cancelsClosed S t = true) :
    TimedHandlerThrew t.post := by
  obtain ⟨o, point, id, hsegment, hid, hclosed⟩ := cancelsClosed_iff.mp h
  rcases (hM.step hT hpre.frames hstep).2 with
    ⟨origin, point', stop, hsegment', hexec⟩ | ⟨hnone, -⟩
  · rw [hsegment] at hsegment'
    cases hsegment'
    obtain ⟨ec, rfl⟩ := (hexec.world.2 o id rfl hid).threw.mpr hclosed
    refine ⟨o, ec, ?_, Origin.isTimed_of_timedCall hid⟩
    rw [hexec.escaped]
    exact List.mem_append_right _ (List.mem_singleton.mpr rfl)
  · rw [hsegment] at hnone
    cases hnone

theorem timed_handlers_run (endpoint : Endpoint) (own : δ) (ms : List (Move κ η ν)) :
    ((∀ c ∈ S.states (.initial (.fresh endpoint own)) ms, ¬TimedHandlerThrew c) ↔
        ∀ t ∈ S.trace (.initial (.fresh endpoint own)) ms, cancelsClosed S t = false) ∧
      ∀ c ∈ S.states (.initial (.fresh endpoint own)) ms, Released c.world := by
  have hstart := watched_initial (P := P) (π := π) endpoint own
  have hquiet : ¬TimedHandlerThrew (.initial (.fresh endpoint own) : PeerConfig δ π) := by
    rintro ⟨o, ec, hmem, -⟩
    simp [Config.initial] at hmem
  refine ⟨Steps.states_iff_trace (I := fun c => Watched P c ∧ ¬TimedHandlerThrew c)
    (P := fun _ => True) (fun c hc => hc.2) (fun t hpre hstep _ hopen => ?kept)
    (fun t hpre hstep _ hcancels => ?thrown) ⟨hstart, hquiet⟩ fun _ _ => trivial, fun c hc => ?_⟩
  case kept =>
    exact ⟨watched_step hM hT t hpre.1 hstep, not_threw_step hM hT hpre.1 hpre.2 hstep hopen⟩
  case thrown =>
    apply not_not.mpr
    exact threw_of_cancelsClosed hM hT hpre.1 hstep (by simpa using hcancels)
  · exact (Steps.states_invariant (f := S.step) (P := fun _ => True)
      (fun t hpre hstep _ => watched_step hM hT t hpre hstep) hstart
      (fun _ _ => trivial) c hc).accounted.released

end Runs

/--
No handler of a timed call throws, in any state of a run, exactly if none of them that
is the first of its call runs while the socket is closed.  In all runs a call whose two
handlers have run is released.
-/
theorem timed_handlers_safe_iff (net : Net) :
    (∀ s₀, Client.Constructed s₀ → ∀ ms,
      ((∀ c ∈ (Client.system net).states (.initial s₀) ms, ¬TimedHandlerThrew c) ↔
        ∀ t ∈ (Client.system net).trace (.initial s₀) ms,
          cancelsClosed (Client.system net) t = false) ∧
      ∀ c ∈ (Client.system net).states (.initial s₀) ms, Released c.world) ∧
    (∀ s₀, Server.Constructed net s₀ → ∀ ms,
      ((∀ c ∈ (Server.system net).states (.initial s₀) ms, ¬TimedHandlerThrew c) ↔
        ∀ t ∈ (Server.system net).trace (.initial s₀) ms,
          cancelsClosed (Server.system net) t = false) ∧
      ∀ c ∈ (Server.system net).states (.initial s₀) ms, Released c.world) := by
  constructor
  · intro s₀ hs₀ ms
    obtain ⟨endpoint, own, rfl, -⟩ := hs₀.fresh
    exact timed_handlers_run (Client.modelled net) (Client.system_timed net) endpoint own ms
  · intro s₀ hs₀ ms
    obtain ⟨endpoint, own, rfl, -⟩ := hs₀.fresh
    exact timed_handlers_run (Server.modelled net) (Server.system_timed net) endpoint own ms

def Client.receivedInTime : List (Move Client.Call Pending Client.Stimulus) :=
  [.call (.connect (.clean 4)) none, .call (.receiveTimed default (.bytes [0])) none,
    .environment (.socket (.complete 0 ⟨.success, 1, default⟩)), .handler (.completion 0),
    .handler (.timer 0)]

def Server.receiveExpired : List (Move Server.Call Pending Stimulus) :=
  [.call .start none, .handler (.posted 0 (.clean 4)), .resume 1,
    .call (.receiveTimed default (.bytes [0])) none, .environment (.expire 0), .handler (.timer 0),
    .handler (.completion 0)]

theorem timed_handlers_safe_iff_undisturbed :
    (∃ c, (Client.system .loopback).run (.initial (Client.ofAddressPort "127.0.0.1" 5000))
        Client.receivedInTime = some c ∧
      c.world.timedCalls = [⟨0, 2, .success, 1, default, .handled⟩] ∧
      ¬TimedHandlerThrew c ∧ Released c.world) ∧
    (∃ c, (Server.system .loopback).run (.initial (Server.ofPort 5000 .ipv4))
        Server.receiveExpired = some c ∧
      c.world.timedCalls = [⟨0, 2, .timedOut, 0, default, .handled⟩] ∧
      ¬TimedHandlerThrew c ∧ Released c.world) := by
  obtain ⟨hclient, hreleased⟩ := (timed_handlers_safe_iff .loopback).1 _
    (.ofAddressPort "127.0.0.1" 5000) Client.receivedInTime
  obtain ⟨hserver, hreleased'⟩ := (timed_handlers_safe_iff .loopback).2 _
    (.ofPort 5000 .ipv4) Server.receiveExpired
  refine ⟨⟨_, rfl, rfl, ?_, hreleased _ (Steps.run_mem_states rfl)⟩,
    _, rfl, rfl, ?_, hreleased' _ (Steps.run_mem_states rfl)⟩
  · refine hclient.mpr (fun t ht => ?_) _ (Steps.run_mem_states rfl)
    have hall : ((Client.system .loopback).trace
        (.initial (Client.ofAddressPort "127.0.0.1" 5000)) Client.receivedInTime).all
          (fun t => !cancelsClosed (Client.system .loopback) t) = true := rfl
    simpa using List.all_eq_true.mp hall t ht
  · refine hserver.mpr (fun t ht => ?_) _ (Steps.run_mem_states rfl)
    have hall : ((Server.system .loopback).trace (.initial (Server.ofPort 5000 .ipv4))
        Server.receiveExpired).all
          (fun t => !cancelsClosed (Server.system .loopback) t) = true := rfl
    simpa using List.all_eq_true.mp hall t ht

/--
`Disconnect`, or the handler of `Stop`, closes the socket under a waiting call: the
handler of the aborted operation throws `bad_descriptor`.
-/
theorem timed_handler_throws_after_close :
    (∃ c op, (Client.system .loopback).run (.initial (Client.ofAddressPort "127.0.0.1" 5000))
        [.call (.connect (.clean 4)) none, .call (.receiveTimed default (.bytes [0])) none,
          .call .disconnect none, .handler (.completion 0)] = some c ∧
      c.escaped = [(some (.completion op .aborted), .badDescriptor)] ∧ op.isTimed = true) ∧
    (∃ c op, (Server.system .loopback).run (.initial (Server.ofPort 5000 .ipv4))
        [.call .start none, .handler (.posted 0 (.clean 4)), .resume 1,
          .call (.sendTimed none (.bytes [0])) none, .call .stop none,
          .handler (.posted 0 (.clean 4)), .resume 4, .handler (.completion 0)] = some c ∧
      c.escaped = [(some (.completion op .aborted), .badDescriptor)] ∧ op.isTimed = true) :=
  ⟨⟨_, _, rfl, rfl, rfl⟩, _, _, rfl, rfl, rfl⟩

end AsioWrapper.Udp
