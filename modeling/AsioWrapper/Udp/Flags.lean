import AsioWrapper.Udp.SendBuffer
import AsioWrapper.Udp.Bookkeeping

/-!
# The flags of the asynchronous operations

`_sending` and `_receiving` are to tell whether an operation of `SendAsync` or of
`TryReceive` is outstanding.  The end of a session clears them while the aborted
operation still waits for its handler, so they can only be right in the next
session if the handler has run before it begins.  They are right in every
session of a run in which this is so.
-/

namespace AsioWrapper.Udp

open AsioWrapper.Asio
open AsioWrapper.Foundation

variable {δ π κ η ν : Type}

inductive Flag where
  | sending
  | receiving
  deriving DecidableEq, Repr

namespace Flag

def value : Flag → Peer δ → Bool
  | sending => Peer.sending
  | receiving => Peer.receiving

def covers : Flag → Operation → Bool
  | sending => Operation.isSend
  | receiving => Operation.isReceive

def outstanding (flag : Flag) (s : Peer δ) : List Operation := s.operations.filter flag.covers

def Intact (s : Peer δ) (op : Operation) : Flag → Prop
  | sending => op.purpose = .sendAsync s.sendBuffer s.sendEndpoint
  | receiving => True

/-- The flag tells of the only operation outstanding, which belongs to the present session. -/
inductive Exact (flag : Flag) (s : Peer δ) : Prop where
  | clear (hvalue : flag.value s = false) (hnone : flag.outstanding s = [])
  | set (hvalue : flag.value s = true) (op : Operation) (hone : flag.outstanding s = [op])
      (hsession : op.session = s.session) (hintact : flag.Intact s op)

/-! ## The operations a flag stands for -/

variable {flag : Flag} {s s' : Peer δ}

private theorem covers_of_purpose {op op' : Operation} (h : op'.purpose = op.purpose) :
    flag.covers op' = flag.covers op := by
  cases flag <;> simp [covers, Operation.isSend, Operation.isReceive, h]

theorem outstanding_map {f : Operation → Operation} (hf : ∀ op, Follows op (f op))
    (h : s'.operations = s.operations.map f) :
    flag.outstanding s' = (flag.outstanding s).map f := by
  rw [outstanding, h, filter_map_of_purpose covers_of_purpose fun op _ => (hf op).purpose]
  rfl

/-! ## The invariant -/

structure Kept (flag : Flag) (s : Peer δ) : Prop where
  running : s.running = true → flag.Exact s
  stopped : s.running = false → flag.value s = false ∧ (flag.outstanding s).length ≤ 1

theorem Exact.length_le (h : flag.Exact s) : (flag.outstanding s).length ≤ 1 := by
  cases h with
  | clear _ hnone => simp [hnone]
  | set _ op hone => simp [hone]

theorem Kept.length_le (h : flag.Kept s) : (flag.outstanding s).length ≤ 1 := by
  cases hrun : s.running with
  | true => exact (h.running hrun).length_le
  | false => exact (h.stopped hrun).2

theorem kept_fresh (flag : Flag) (endpoint : Endpoint) (own : δ) :
    flag.Kept (Peer.fresh endpoint own) where
  running h := by cases h
  stopped _ := by cases flag <;> exact ⟨rfl, Nat.zero_le _⟩

theorem Kept.of_map (h : flag.Kept s) {f : Operation → Operation}
    (hf : ∀ op, Follows op (f op)) (hrun : s'.running = s.running)
    (hsession : s'.session = s.session) (hvalue : flag.value s' = flag.value s)
    (hout : flag.outstanding s' = (flag.outstanding s).map f)
    (hintact : ∀ op, flag.value s = true → flag.Intact s op → flag.Intact s' (f op)) :
    flag.Kept s' where
  running hs' := by
    rw [hrun] at hs'
    cases h.running hs' with
    | clear hclear hnone => exact .clear (hvalue.trans hclear) (by rw [hout, hnone]; rfl)
    | set hset op hone hop hdata =>
        refine .set (hvalue.trans hset) (f op) (by rw [hout, hone]; rfl) ?_ (hintact op hset hdata)
        rw [(hf op).session, hop, hsession]
  stopped hs' := by
    rw [hrun] at hs'
    rw [hvalue, hout, List.length_map]
    exact h.stopped hs'

theorem Kept.of_eq (h : flag.Kept s) (hrun : s'.running = s.running)
    (hsession : s'.session = s.session) (hvalue : flag.value s' = flag.value s)
    (hout : flag.outstanding s' = flag.outstanding s)
    (hintact : ∀ op, flag.value s = true → flag.Intact s op → flag.Intact s' op) :
    flag.Kept s' :=
  h.of_map (f := fun op => op) (fun op => ⟨rfl, rfl, rfl, rfl, fun _ => rfl⟩) hrun hsession hvalue
    (by rw [hout, List.map_id']) hintact

theorem Kept.start (h : flag.Kept s) (hrun : s.running = true) (hfree : flag.value s = false)
    {op : Operation} (hop : flag.covers op = true) (hopsession : op.session = s.session)
    (hrun' : s'.running = s.running) (hsession : s'.session = s.session)
    (hvalue : flag.value s' = true) (hoperations : s'.operations = s.operations ++ [op])
    (hintact : flag.Intact s' op) : flag.Kept s' where
  running _ := by
    refine .set hvalue op ?_ (hopsession.trans hsession.symm) hintact
    cases h.running hrun with
    | clear _ hnone =>
        rw [outstanding] at hnone
        simp [outstanding, hoperations, hnone, hop]
    | set hset => cases hfree.symm.trans hset
  stopped hs' := by cases (hrun'.trans hrun).symm.trans hs'

theorem Kept.finish (h : flag.Kept s) {op : Operation} (hmem : op ∈ s.operations)
    (hop : flag.covers op = true) (hvalue : flag.value s' = false)
    (hoperations : s'.operations = s.operations.filter fun other => other ≠ op) :
    flag.Kept s' := by
  have hone : flag.outstanding s = [op] := by
    have hmem' : op ∈ flag.outstanding s := List.mem_filter.mpr ⟨hmem, hop⟩
    obtain ⟨other, hother⟩ := List.length_eq_one_iff.mp
      (Nat.le_antisymm h.length_le (List.length_pos_of_mem hmem'))
    rw [hother, List.mem_singleton] at hmem'
    rw [hother, hmem']
  have hnone : flag.outstanding s' = [] := by
    rw [outstanding, hoperations, filter_remove, ← outstanding, hone]
    simp
  refine ⟨fun _ => .clear hvalue hnone, fun _ => ⟨hvalue, ?_⟩⟩
  simp [hnone]

/-! ## The steps -/

variable {P : Profile δ}

theorem Kept.remove_other (h : flag.Kept s) {op : Operation} (hop : flag.covers op = false)
    (hrun : s'.running = s.running) (hsession : s'.session = s.session)
    (hvalue : flag.value s' = flag.value s)
    (hoperations : s'.operations = s.operations.filter fun other => other ≠ op)
    (hintact : ∀ op, flag.value s = true → flag.Intact s op → flag.Intact s' op) :
    flag.Kept s' := by
  refine h.of_eq hrun hsession hvalue ?_ hintact
  rw [outstanding, hoperations, filter_remove_other hop, outstanding]

theorem Kept.append_other (h : flag.Kept s) {op : Operation} (hop : flag.covers op = false)
    (hrun : s'.running = s.running) (hsession : s'.session = s.session)
    (hvalue : flag.value s' = flag.value s) (hoperations : s'.operations = s.operations ++ [op])
    (hintact : ∀ op, flag.value s = true → flag.Intact s op → flag.Intact s' op) :
    flag.Kept s' := by
  refine h.of_eq hrun hsession hvalue ?_ hintact
  rw [outstanding, hoperations, filter_append_other hop, outstanding]

theorem kept_quiet {scope : Scope} (h : Quiet P scope s s') (hs : flag.Kept s) :
    flag.Kept s' := by
  cases h with
  | special h =>
      have hvalue : flag.value s' = flag.value s := by
        cases flag with
        | sending => exact P.inert_field h Peer.sending
        | receiving => exact P.inert_field h Peer.receiving
      refine hs.of_eq (P.inert_field h Peer.running) (P.inert_field h Peer.session) hvalue ?_
        fun op _ hop => ?_
      · rw [outstanding, outstanding, show s'.operations = s.operations from
          P.inert_field h Peer.operations]
      · cases flag with
        | sending =>
            have hbuffer : s'.sendBuffer = s.sendBuffer := P.inert_field h Peer.sendBuffer
            have hendpoint : s'.sendEndpoint = s.sendEndpoint := P.inert_field h Peer.sendEndpoint
            change op.purpose = .sendAsync s'.sendBuffer s'.sendEndpoint
            rw [hbuffer, hendpoint]
            exact hop
        | receiving => trivial
  | startSend data endpoint hrun hfree =>
      cases flag with
      | sending => exact hs.start hrun hfree rfl rfl rfl rfl rfl rfl rfl
      | receiving => exact hs.append_other rfl rfl rfl rfl rfl fun _ _ _ => trivial
  | startReceive hrun hfree =>
      cases flag with
      | sending => exact hs.append_other rfl rfl rfl rfl rfl fun _ _ h => h
      | receiving => exact hs.start hrun hfree rfl rfl rfl rfl rfl rfl trivial
  | startTimed purpose hrun htimed =>
      have hother : flag.covers ⟨s.issued, purpose, s.socket.generation, s.session, none⟩ =
          false := by
        rcases htimed with rfl | rfl <;> cases flag <;> rfl
      exact hs.append_other hother rfl rfl (by cases flag <;> rfl) rfl
        fun op _ h => by cases flag <;> exact h
  | @finishSend op hmem hdone hsend =>
      cases flag with
      | sending => exact hs.finish hmem hsend rfl rfl
      | receiving =>
          have hother : op.isReceive = false := by
            by_contra hreceive
            rw [Bool.not_eq_false] at hreceive
            cases (Operation.isSend_of_isReceive hreceive).symm.trans hsend
          exact hs.remove_other hother rfl rfl rfl rfl fun _ _ _ => trivial
  | finishReceive hmem hdone hreceive =>
      cases flag with
      | sending =>
          exact hs.remove_other (Operation.isSend_of_isReceive hreceive) rfl rfl rfl rfl
            fun _ _ h => h
      | receiving => exact hs.finish hmem hreceive rfl rfl
  | finishTimed hscope hmem hdone htimed =>
      cases flag with
      | sending =>
          exact hs.remove_other (Operation.isSend_of_isTimed htimed) rfl rfl rfl rfl fun _ _ h => h
      | receiving =>
          exact hs.remove_other (Operation.isReceive_of_isTimed htimed) rfl rfl rfl rfl
            fun _ _ _ => trivial
  | modifyTimed hscope id f =>
      exact hs.of_eq rfl rfl (by cases flag <;> rfl) rfl fun op _ h => by cases flag <;> exact h
  | cancel hopen =>
      refine hs.of_map follows_abort rfl rfl (by cases flag <;> rfl)
        (outstanding_map follows_abort rfl) fun op _ h => ?_
      cases flag with
      | sending => exact (op.abort_purpose).trans h
      | receiving => trivial
  | grow htail hfull hlimit =>
      exact hs.of_eq rfl rfl (by cases flag <;> rfl) rfl fun op _ h => by cases flag <;> exact h

/-- A session begins with no operation of an earlier one outstanding. -/
private theorem kept_opened (hs : flag.Kept s) (hrun : s.running = false)
    (hnone : flag.outstanding s = []) (socket : Socket) (size : Nat) (event : Event) :
    flag.Kept ((((s.withSocket fun _ => socket).resizeReceiveBuffer size).enterSession).logged
      event) where
  running _ := by
    refine .clear ?_ hnone
    cases flag <;> exact (hs.stopped hrun).1
  stopped h := by cases h

private theorem kept_closed (hs : flag.Kept s) (clears : Bool) (event : Event) :
    flag.Kept ((if clears then s.closeSocket.leaveSession.clearBuffers
      else s.closeSocket.leaveSession).logged event) := by
  have hout : (flag.outstanding s.closeSocket.leaveSession).length ≤ 1 := by
    rw [outstanding_map (s := s) follows_abort rfl, List.length_map]
    exact hs.length_le
  split
  · refine ⟨fun h => (by cases h), fun _ => ⟨?_, hout⟩⟩
    cases flag <;> rfl
  · refine ⟨fun h => (by cases h), fun _ => ⟨?_, hout⟩⟩
    cases flag <;> rfl

private theorem kept_fires {event : Event} (h : Fires P event s s') (hs : flag.Kept s)
    (hclean : s.running = false → s'.running = true → flag.outstanding s = []) :
    flag.Kept s' := by
  cases h with
  | opened socket size hrun hclosed hopen hgeneration =>
      exact kept_opened hs hrun (hclean hrun rfl) socket size _
  | closed hrun => exact kept_closed hs _ _
  | sentAsync sent hrun hfree =>
      refine hs.of_eq rfl rfl (by cases flag <;> rfl) rfl fun op hvalue h => ?_
      cases flag with
      | sending => cases hfree.symm.trans hvalue
      | receiving => trivial
  | _ => exact hs.of_eq rfl rfl (by cases flag <;> rfl) rfl fun op _ h => by cases flag <;> exact h

private theorem kept_fails {ec : ErrorCode} (h : Fails ec s s') (hs : flag.Kept s) :
    flag.Kept s' := by
  cases h with
  | refused => exact hs
  | _ => exact hs.of_eq rfl rfl (by cases flag <;> rfl) rfl fun op _ h => by cases flag <;> exact h

private theorem kept_stirred (h : Stirred s s') (hs : flag.Kept s) : flag.Kept s' := by
  cases h with
  | @complete op hmem hpending completion =>
      have hfollows := fun other => follows_completedBy op other completion
      refine hs.of_map hfollows rfl rfl (by cases flag <;> rfl) (outstanding_map hfollows rfl)
        fun other _ h => ?_
      cases flag with
      | sending => exact (Operation.completedBy_purpose op other completion).trans h
      | receiving => trivial
  | expire id harmed =>
      exact hs.of_eq rfl rfl (by cases flag <;> rfl) rfl fun op _ h => by cases flag <;> exact h

private theorem kept_quietly {scope : Scope} (h : Quietly P scope s s') (hs : flag.Kept s) :
    flag.Kept s' := by
  induction h with
  | refl => exact hs
  | tail _ hstep ih => exact kept_quiet hstep ih

private theorem outstanding_quietly {scope : Scope} (h : Quietly P scope s s')
    (hrun : s.running = false) (hnone : flag.outstanding s = []) : flag.outstanding s' = [] := by
  induction h with
  | refl => exact hnone
  | tail hquiet hstep ih =>
      rename_i middle last
      have hidle : middle.running = false := by rw [(Quietly.socket_eq hquiet).2.2, hrun]
      cases hstep.operationsStep with
      | kept _ h => rw [outstanding, h]; exact ih
      | mapped _ f hf h => rw [outstanding_map hf h, ih]; rfl
      | removed _ op _ _ h => rw [outstanding, h, filter_remove, ← outstanding, ih]; rfl
      | added _ hadded => cases hidle.symm.trans hadded

private theorem kept_effect {scope : Option Event → Scope} {point : Option Event}
    {stop : Stop Event ErrorCode} (h : Effect P scope point s stop s') (hs : flag.Kept s)
    (hclean : s.running = false → s'.running = true → flag.outstanding s = []) :
    flag.Kept s' := by
  obtain ⟨middle, hquiet, hends⟩ := h
  have hmiddle := kept_quietly hquiet hs
  have hrun : middle.running = s.running := (Quietly.socket_eq hquiet).2.2
  cases hends with
  | returned => exact hmiddle
  | waiting => exact hmiddle
  | called h =>
      refine kept_fires h hmiddle fun hidle hopened => ?_
      rw [hrun] at hidle
      exact outstanding_quietly hquiet hidle (hclean hidle hopened)
  | threw h => exact kept_fails h hmiddle

/-! ## Runs -/

/-- No session begins while the handler of an operation of an earlier one has yet to run. -/
def Settled (flag : Flag) (t : PeerTransition δ π κ η ν) : Prop :=
  t.pre.world.running = false → t.post.world.running = true → flag.outstanding t.pre.world = []

instance (flag : Flag) (t : PeerTransition δ π κ η ν) : Decidable (flag.Settled t) :=
  inferInstanceAs (Decidable (_ → _))

structure Upheld (P : Profile δ) (flag : Flag) (c : PeerConfig δ π) : Prop where
  frames : ∀ f ∈ c.frames, f.Obeys fun origin => Effect P (scopeOf origin)
  kept : flag.Kept c.world

theorem upheld_initial (P : Profile δ) (flag : Flag) (endpoint : Endpoint) (own : δ) :
    Upheld P flag (.initial (.fresh endpoint own) : PeerConfig δ π) where
  frames := by simp [Config.frames, Config.initial]
  kept := kept_fresh flag endpoint own

theorem Upheld.step {S : PeerSystem δ π κ η ν} (hM : Modelled S P)
    {t : PeerTransition δ π κ η ν} (hpre : Upheld P flag t.pre)
    (hstep : S.step t.pre t.move = some t.post) (hsettled : flag.Settled t) :
    Upheld P flag t.post := by
  obtain ⟨hframes, hcases⟩ := System.step_cases hM.obeys hpre.frames (admitted_all _) hstep
  refine ⟨hframes, ?_⟩
  rcases hcases with ⟨origin, point, stop, -, hexec⟩ | ⟨-, hidle⟩
  · exact kept_effect hexec.world hpre.kept hsettled
  · rcases hidle.world with h | ⟨e, -, h⟩
    · rw [h]
      exact hpre.kept
    · rcases hM.environment e _ _ h with h | h
      · exact kept_stirred h hpre.kept
      · have hquiet : Quiet P ⟨none, false⟩ t.pre.world t.post.world := .special h
        exact kept_quiet hquiet hpre.kept

theorem kept_states {S : PeerSystem δ π κ η ν} (hM : Modelled S P) (endpoint : Endpoint) (own : δ)
    {ms : List (Move κ η ν)}
    (hsettled : ∀ t ∈ S.trace (.initial (.fresh endpoint own)) ms, flag.Settled t) :
    ∀ c ∈ S.states (.initial (.fresh endpoint own)) ms, flag.Kept c.world :=
  fun c hc => (Steps.states_invariant (fun _ hpre hstep hok => Upheld.step hM hpre hstep hok)
    (upheld_initial P flag endpoint own) hsettled c hc).kept

end Flag

/--
In every session of a run in which no session begins before the handlers of the earlier
operations have run, each flag tells exactly whether an operation is outstanding.  There is one
at most, it belongs to the session, and a send reads the datagram it was started with.  Between
the sessions the flags are clear.
-/
theorem flags_exact (net : Net) (flag : Flag) :
    (∀ s₀, Client.Constructed s₀ → ∀ ms,
      (∀ t ∈ (Client.system net).trace (.initial s₀) ms, flag.Settled t) →
      ∀ c ∈ (Client.system net).states (.initial s₀) ms,
        (c.world.running = true → flag.Exact c.world) ∧
        (c.world.running = false → flag.value c.world = false)) ∧
    ∀ s₀, Server.Constructed net s₀ → ∀ ms,
      (∀ t ∈ (Server.system net).trace (.initial s₀) ms, flag.Settled t) →
      ∀ c ∈ (Server.system net).states (.initial s₀) ms,
        (c.world.running = true → flag.Exact c.world) ∧
        (c.world.running = false → flag.value c.world = false) := by
  constructor
  · intro s₀ hs₀ ms hsettled c hc
    obtain ⟨endpoint, own, rfl, -⟩ := hs₀.fresh
    have hkept := Flag.kept_states (Client.modelled net) endpoint own hsettled c hc
    exact ⟨hkept.running, fun hrun => (hkept.stopped hrun).1⟩
  · intro s₀ hs₀ ms hsettled c hc
    obtain ⟨endpoint, own, rfl, -⟩ := hs₀.fresh
    have hkept := Flag.kept_states (Server.modelled net) endpoint own hsettled c hc
    exact ⟨hkept.running, fun hrun => (hkept.stopped hrun).1⟩

def sendTwice : List (Move Client.Call Pending Client.Stimulus) :=
  [.call (.connect (.clean 4)) none, .call (.sendAsync none (.bytes [1, 2])) none,
    .call .disconnect none, .handler (.completion 0), .call (.connect (.clean 4)) none,
    .call (.sendAsync none (.bytes [3])) none]

theorem flags_exact_twoSessions :
    ∃ c, (Client.system .loopback).run (.initial (Client.ofAddressPort "127.0.0.1" 5000))
        sendTwice = some c ∧
      (c.world.session = 2 ∧ c.world.sending = true ∧ c.world.running = true) ∧
      Flag.sending.Exact c.world := by
  have hsettled : ∀ t ∈ (Client.system .loopback).trace
      (.initial (Client.ofAddressPort "127.0.0.1" 5000)) sendTwice, Flag.sending.Settled t :=
    by decide
  have hflags := (flags_exact .loopback .sending).1 _ (.ofAddressPort "127.0.0.1" 5000) sendTwice
    hsettled
  refine ⟨_, rfl, ⟨rfl, rfl, rfl⟩, (hflags _ (Steps.run_mem_states rfl)).1 rfl⟩

end AsioWrapper.Udp
