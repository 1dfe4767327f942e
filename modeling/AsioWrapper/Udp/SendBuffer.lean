import AsioWrapper.Udp.Reach

/-!
# The send buffer within a session

A single buffer is shared by all calls of `SendAsync`.  Within the first
session of an object the `_sending` flag protects it: it is set exactly while
the operation that reads the buffer has not completed.  A second session may
begin before the aborted send of the first has completed, so the invariant
below is about the first session only.
-/

namespace AsioWrapper.Udp

open AsioWrapper.Asio
open AsioWrapper.Foundation

variable {δ : Type}

def Peer.sends (s : Peer δ) : List Operation := s.operations.filter Operation.isSend

/-- How the flag, the send in flight and what it reads belong together. -/
inductive SendIntact (s : Peer δ) : Prop where
  | free (hsending : s.sending = false) (hsends : s.sends = [])
  | busy (hsending : s.sending = true) (op : Operation) (hsends : s.sends = [op])
      (hpurpose : op.purpose = .sendAsync s.sendBuffer s.sendEndpoint)

/-! ## How the operations of one kind change -/

section Kind

variable {p : Operation → Bool} {operations : List Operation} {op : Operation}

theorem filter_append_other (h : p op = false) :
    (operations ++ [op]).filter p = operations.filter p := by
  simp [h]

theorem filter_remove :
    (operations.filter fun other => other ≠ op).filter p =
      (operations.filter p).filter fun other => other ≠ op := by
  rw [List.filter_filter, List.filter_filter]
  exact List.filter_congr fun other _ => Bool.and_comm _ _

theorem filter_remove_other (h : p op = false) :
    (operations.filter fun other => other ≠ op).filter p = operations.filter p := by
  rw [filter_remove]
  refine List.filter_eq_self.mpr fun other hother => ?_
  have hkind := (List.mem_filter.mp hother).2
  simp only [ne_eq, decide_not, Bool.not_eq_true', decide_eq_false_iff_not]
  rintro rfl
  cases h.symm.trans hkind

theorem filter_map_of_purpose {f : Operation → Operation}
    (hp : ∀ {op op' : Operation}, op'.purpose = op.purpose → p op' = p op)
    (hf : ∀ op ∈ operations, (f op).purpose = op.purpose) :
    (operations.map f).filter p = (operations.filter p).map f := by
  rw [List.filter_map]
  congr 1
  exact List.filter_congr fun op hop => hp (hf op hop)

end Kind

theorem isSend_of_purpose {op op' : Operation} (h : op'.purpose = op.purpose) :
    op'.isSend = op.isSend := by
  simp [Operation.isSend, h]

section SendIntact

variable {s s' : Peer δ}

theorem SendIntact.of_sends_eq {δ' : Type} {s' : Peer δ'} (h : SendIntact s)
    (hsending : s'.sending = s.sending) (hbuffer : s'.sendBuffer = s.sendBuffer)
    (hendpoint : s'.sendEndpoint = s.sendEndpoint) (hsends : s'.sends = s.sends) :
    SendIntact s' := by
  cases h with
  | free hfree hnone => exact .free (hsending.trans hfree) (hsends.trans hnone)
  | busy hbusy op hone hpurpose =>
      refine .busy (hsending.trans hbusy) op (hsends.trans hone) ?_
      rw [hpurpose, hbuffer, hendpoint]

theorem SendIntact.of_map (h : SendIntact s) {f : Operation → Operation}
    (hf : ∀ op ∈ s.operations, (f op).purpose = op.purpose)
    (hsending : s'.sending = s.sending) (hbuffer : s'.sendBuffer = s.sendBuffer)
    (hendpoint : s'.sendEndpoint = s.sendEndpoint)
    (hoperations : s'.operations = s.operations.map f) : SendIntact s' := by
  have hsends : s'.sends = s.sends.map f := by
    rw [Peer.sends, hoperations, filter_map_of_purpose isSend_of_purpose hf]
    rfl
  cases h with
  | free hfree hnone => exact .free (hsending.trans hfree) (by simp [hsends, hnone])
  | busy hbusy op hone hpurpose =>
      have hop : op ∈ s.operations := by
        have : op ∈ s.sends := by simp [hone]
        exact (List.mem_filter.mp this).1
      refine .busy (hsending.trans hbusy) (f op) (by simp [hsends, hone]) ?_
      rw [hf op hop, hpurpose, hbuffer, hendpoint]

theorem SendIntact.startSend (h : SendIntact s) (hfree : s.sending = false)
    (data : List UInt8) (endpoint : Endpoint) : SendIntact (s.startSend data endpoint) := by
  cases h with
  | busy hbusy =>
      rw [hfree] at hbusy
      contradiction
  | free _ hnone =>
      unfold Peer.sends at hnone
      refine .busy rfl ⟨s.issued, .sendAsync data endpoint, s.socket.generation, s.session,
        none⟩ ?_ rfl
      simp [Peer.sends, Peer.startSend, Peer.startOperation, hnone, Operation.isSend]

theorem SendIntact.finishSend (h : SendIntact s) {op : Operation} (hmem : op ∈ s.operations)
    (hsend : op.isSend = true) : SendIntact (s.finishSend op) := by
  have hop : op ∈ s.sends := List.mem_filter.mpr ⟨hmem, hsend⟩
  have hsends : (s.finishSend op).sends = s.sends.filter fun other => other ≠ op :=
    filter_remove
  refine .free rfl ?_
  cases h with
  | free _ hnone =>
      rw [hnone] at hop
      cases hop
  | busy _ other hone _ =>
      rw [hone, List.mem_singleton] at hop
      rw [hsends, hone, hop]
      simp

end SendIntact

/-! ## The first session -/

structure FirstSession (s : Peer δ) : Prop where
  started : s.running = true → 0 < s.session
  before : s.session = 0 → s.sending = false ∧ s.sends = []
  during : s.session = 1 → s.running = true → SendIntact s

theorem firstSession_fresh (endpoint : Endpoint) (own : δ) :
    FirstSession (Peer.fresh endpoint own) where
  started h := by cases h
  before _ := ⟨rfl, rfl⟩
  during h := by cases h

theorem FirstSession.of_intact {s s' : Peer δ} (h : FirstSession s)
    (hrun : s'.running = s.running) (hsession : s'.session = s.session)
    (hbefore : s.sends = [] → s.running = false → s'.sending = s.sending ∧ s'.sends = [])
    (hintact : SendIntact s → s.running = true → SendIntact s') : FirstSession s' where
  started hs' := by
    rw [hsession]
    exact h.started (hrun ▸ hs')
  before hs' := by
    rw [hsession] at hs'
    obtain ⟨hfree, hnone⟩ := h.before hs'
    have hidle : s.running = false := by
      cases hrunning : s.running with
      | false => rfl
      | true =>
          have := h.started hrunning
          omega
    obtain ⟨hsending, hsends⟩ := hbefore hnone hidle
    exact ⟨hsending.trans hfree, hsends⟩
  during hs' hr' := by
    rw [hrun] at hr'
    exact hintact (h.during (hsession ▸ hs') hr') hr'

private theorem firstSession_core {s : Peer δ} : FirstSession s.core ↔ FirstSession s := by
  have hintact : SendIntact s.core ↔ SendIntact s := by
    constructor <;> intro h <;> exact h.of_sends_eq rfl rfl rfl rfl
  constructor <;> intro h
  · exact ⟨h.started, h.before, fun hs hr => hintact.mp (h.during hs hr)⟩
  · exact ⟨h.started, h.before, fun hs hr => hintact.mpr (h.during hs hr)⟩

private theorem firstSession_quiet {P : Profile δ} {scope : Scope} {s s' : Peer δ}
    (h : Quiet P scope s s') (hs : FirstSession s) : FirstSession s' := by
  cases h with
  | special h =>
      rw [← firstSession_core, P.inert _ _ h]
      exact firstSession_core.mpr hs
  | startSend data endpoint hrun hfree =>
      refine hs.of_intact rfl rfl (fun _ hidle => ?_) fun h _ => h.startSend hfree data endpoint
      rw [hrun] at hidle
      contradiction
  | startReceive hrun hfree =>
      refine hs.of_intact rfl rfl (fun h _ => ⟨rfl, ?_⟩) fun h _ => h.of_sends_eq rfl rfl rfl ?_
      · rw [← h]
        exact filter_append_other rfl
      · exact filter_append_other rfl
  | @startTimed endpoint purpose hrun htimed =>
      have hsends : (s.startTimed purpose endpoint).sends = s.sends := by
        refine filter_append_other ?_
        rcases htimed with rfl | rfl <;> rfl
      refine hs.of_intact rfl rfl (fun h _ => ⟨rfl, hsends.trans h⟩) fun h _ => ?_
      exact h.of_sends_eq rfl rfl rfl hsends
  | finishSend hmem hdone hsend =>
      refine hs.of_intact rfl rfl (fun h _ => ?_) fun h _ => h.finishSend hmem hsend
      have := List.mem_filter.mpr ⟨hmem, hsend⟩
      rw [Peer.sends] at h
      rw [h] at this
      cases this
  | finishReceive hmem hdone hreceive =>
      have hsends : (s.finishReceive _).sends = s.sends :=
        filter_remove_other (Operation.isSend_of_isReceive hreceive)
      refine hs.of_intact rfl rfl (fun h _ => ⟨rfl, hsends.trans h⟩) fun h _ => ?_
      exact h.of_sends_eq rfl rfl rfl hsends
  | finishTimed hscope hmem hdone htimed =>
      have hsends : (s.removeOperation _).sends = s.sends :=
        filter_remove_other (Operation.isSend_of_isTimed htimed)
      refine hs.of_intact rfl rfl (fun h _ => ⟨rfl, hsends.trans h⟩) fun h _ => ?_
      exact h.of_sends_eq rfl rfl rfl hsends
  | modifyTimed hscope id f =>
      exact hs.of_intact rfl rfl (fun h _ => ⟨rfl, h⟩) fun h _ => h.of_sends_eq rfl rfl rfl rfl
  | cancel hopen =>
      have hf : ∀ op ∈ s.operations, op.abort.purpose = op.purpose := fun op _ => by simp
      refine hs.of_intact rfl rfl (fun h _ => ⟨rfl, ?_⟩) fun h _ => h.of_map hf rfl rfl rfl rfl
      rw [Peer.sends, Peer.abortOperations, filter_map_of_purpose isSend_of_purpose hf]
      rw [Peer.sends] at h
      rw [h]
      rfl
  | grow htail hfull hlimit =>
      exact hs.of_intact rfl rfl (fun h _ => ⟨rfl, h⟩) fun h _ => h.of_sends_eq rfl rfl rfl rfl

private theorem firstSession_fires {P : Profile δ} {event : Event} {s s' : Peer δ}
    (h : Fires P event s s') (hs : FirstSession s) : FirstSession s' := by
  cases h with
  | opened socket size hrun hclosed hopen hgeneration =>
      refine ⟨fun _ => Nat.succ_pos _, fun h => absurd h (Nat.succ_ne_zero _), fun h _ => ?_⟩
      have hzero : s.session = 0 := Nat.succ.inj h
      obtain ⟨hfree, hnone⟩ := hs.before hzero
      exact .free hfree hnone
  | closed hrun =>
      have hpos := hs.started hrun
      -- the session stays the current one, but is not running any more
      split
      · exact ⟨nofun, fun h => absurd h (Nat.ne_of_gt hpos), fun _ => nofun⟩
      · exact ⟨nofun, fun h => absurd h (Nat.ne_of_gt hpos), fun _ => nofun⟩
  | sentAsync sent hrun hfree =>
      refine hs.of_intact rfl rfl (fun h _ => ⟨rfl, h⟩) fun h _ => ?_
      cases h with
      | free _ hnone => exact .free hfree hnone
      | busy hbusy =>
          rw [hfree] at hbusy
          contradiction
  | _ => exact hs.of_intact rfl rfl (fun h _ => ⟨rfl, h⟩) fun h _ => h.of_sends_eq rfl rfl rfl rfl

private theorem firstSession_stable (P : Profile δ) : Stable P FirstSession where
  quiet := firstSession_quiet
  fires := firstSession_fires
  fails h hs := by
    cases h with
    | refused => exact hs
    | _ =>
        exact hs.of_intact rfl rfl (fun h _ => ⟨rfl, h⟩) fun h _ => h.of_sends_eq rfl rfl rfl rfl
  stirred h hs := by
    cases h with
    | complete hmem hpending completion =>
        refine hs.of_intact rfl rfl (fun h _ => ⟨rfl, ?_⟩) fun h _ =>
          h.of_map (fun other _ => Operation.completedBy_purpose _ other completion)
            rfl rfl rfl rfl
        rw [Peer.sends, Peer.complete,
          filter_map_of_purpose isSend_of_purpose fun other _ => by simp]
        rw [Peer.sends] at h
        rw [h]
        rfl
    | expire id harmed =>
        exact hs.of_intact rfl rfl (fun h _ => ⟨rfl, h⟩) fun h _ => h.of_sends_eq rfl rfl rfl rfl

/-! ## The law -/

def InFirstSession (s : Peer δ) : Prop :=
  s.session = 0 ∨ s.session = 1 ∧ s.running = true

theorem FirstSession.intact {s : Peer δ} (h : FirstSession s) (hs : InFirstSession s) :
    SendIntact s := by
  rcases hs with hzero | ⟨hone, hrun⟩
  · obtain ⟨hfree, hnone⟩ := h.before hzero
    exact .free hfree hnone
  · exact h.during hone hrun

/--
Up to the end of the first session of a client or a server, at most one send is in
flight, `_sending` tells whether there is one, and the buffer and the endpoint are
those of the `SendAsync` that started it.
-/
theorem send_buffer_intact (net : Net) :
    (∀ s₀, Client.Constructed s₀ → ∀ ms,
      ∀ c ∈ (Client.system net).states (.initial s₀) ms,
        InFirstSession c.world → SendIntact c.world) ∧
    (∀ s₀, Server.Constructed net s₀ → ∀ ms,
      ∀ c ∈ (Server.system net).states (.initial s₀) ms,
        InFirstSession c.world → SendIntact c.world) := by
  constructor
  · intro s₀ hs₀ ms c hc hsession
    obtain ⟨endpoint, own, rfl, -⟩ := hs₀.fresh
    exact ((Client.modelled net).states_keep (firstSession_stable _)
      (firstSession_fresh endpoint own) ms c hc).intact hsession
  · intro s₀ hs₀ ms c hc hsession
    obtain ⟨endpoint, own, rfl, -⟩ := hs₀.fresh
    exact ((Server.modelled net).states_keep (firstSession_stable _)
      (firstSession_fresh endpoint own) ms c hc).intact hsession

theorem send_buffer_intact_reentrant :
    (∃ c, (Client.system .loopback).run (.initial (Client.ofAddressPort "127.0.0.1" 5000))
        [.call (.connect (.clean 4)) none, .call (.sendAsync none (.bytes [1, 2])) none,
          .environment (.socket (.complete 0 ⟨.success, 2, default⟩)),
          .handler (.completion 0), .call (.sendAsync none (.bytes [3])) (some 2)] = some c ∧
      c.world.sending = true ∧ SendIntact c.world) ∧
    (∃ c, (Server.system .loopback).run (.initial (Server.ofPort 5000 .ipv4))
        [.call .start none, .handler (.posted 0 (.clean 4)), .resume 1,
          .call (.sendAsync none (.bytes [1, 2])) none,
          .environment (.complete 0 ⟨.noBufferSpace, 0, default⟩),
          .handler (.completion 0), .call (.sendAsync none (.bytes [3])) (some 3)] = some c ∧
      c.world.sending = true ∧ SendIntact c.world) := by
  refine ⟨⟨_, rfl, rfl, ?_⟩, _, rfl, rfl, ?_⟩
  · exact (send_buffer_intact .loopback).1 _ (.ofAddressPort "127.0.0.1" 5000)
      [.call (.connect (.clean 4)) none, .call (.sendAsync none (.bytes [1, 2])) none,
        .environment (.socket (.complete 0 ⟨.success, 2, default⟩)),
        .handler (.completion 0), .call (.sendAsync none (.bytes [3])) (some 2)] _
      (Steps.run_mem_states rfl) (Or.inr ⟨rfl, rfl⟩)
  · exact (send_buffer_intact .loopback).2 _ (.ofPort 5000 .ipv4)
      [.call .start none, .handler (.posted 0 (.clean 4)), .resume 1,
        .call (.sendAsync none (.bytes [1, 2])) none,
        .environment (.complete 0 ⟨.noBufferSpace, 0, default⟩),
        .handler (.completion 0), .call (.sendAsync none (.bytes [3])) (some 3)] _
      (Steps.run_mem_states rfl) (Or.inr ⟨rfl, rfl⟩)

end AsioWrapper.Udp
