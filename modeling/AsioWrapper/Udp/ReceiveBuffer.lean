import AsioWrapper.Udp.Bookkeeping

/-!
# The receive buffer under an outstanding receive

The handler of a receive re-reads the buffer's size after `onReceived` has
returned and doubles the buffer if the datagram filled it.  If the callback,
or any other code that ran meanwhile, has started the next receive, that
operation keeps writing to the memory the buffer had before.
-/

namespace AsioWrapper.Udp

open AsioWrapper.Asio
open AsioWrapper.Foundation
open AsioWrapper.Foundation.Program

variable {δ π : Type}

/-- Operation `op` is a receive of `TryReceive` the open socket has not completed. -/
structure Receiving (s : Peer δ) (op : Operation) : Prop where
  mem : op ∈ s.operations
  isReceive : op.isReceive = true
  pending : op.result = none
  generation : op.generation = s.socket.generation
  isOpen : s.socket.isOpen = true

def BufferStable (s : Peer δ) : Prop :=
  ∀ op, Receiving s op → op.purpose = .receiveAsync s.receiveBuffer

def Doubles (s : Peer δ) (size : Nat) : Prop :=
  s.receiveBuffer = size ∧ ¬(doubled size > s.receiveBufferLimit ∧ s.receiveBufferLimit > 0)

instance (s : Peer δ) (size : Nat) : Decidable (Doubles s size) := by
  unfold Doubles
  infer_instance

private theorem doubled_ne {size : Nat} (h : size ≠ 0) : doubled size ≠ size := by
  unfold doubled
  omega

/-! ## The code after `onReceived` -/

def TailExact (origin : Option (Origin π)) (point : Option Event) (s : Peer δ)
    (_ : Stop Event ErrorCode) (s' : Peer δ) : Prop :=
  ∀ size, tailOf origin point = some size → size ≠ 0 →
    if Doubles s size then s' = s.resizeReceiveBuffer (doubled size)
    else s'.receiveBuffer = s.receiveBuffer ∧ s'.operations = s.operations ∧
      s'.socket = s.socket

theorem tailOf_none (origin : Option (Origin π)) : tailOf origin none = none := by
  unfold tailOf
  split <;> simp_all

theorem tailOf_eq_some {origin : Option (Origin π)} {point : Option Event} {size : Nat}
    (h : tailOf origin point = some size) :
    ∃ op completion endpoint, origin = some (.completion op completion) ∧
      point = some (.onReceived endpoint size) ∧ op.isReceive = true ∧
      completion.size = size := by
  unfold tailOf at h
  split at h
  · split at h
    · rename_i op completion endpoint size' hcond
      cases h
      exact ⟨op, completion, endpoint, rfl, rfl, hcond.1, hcond.2.symm⟩
    · cases h
  · cases h

private theorem tailExact_of_tailOf_none {origin : Option (Origin π)} {point : Option Event}
    (h : tailOf origin point = none) (s : Peer δ) (stop : Stop Event ErrorCode)
    (s' : Peer δ) : TailExact origin point s stop s' := by
  intro size hsize
  rw [h] at hsize
  cases hsize

def Reports : Event → Prop
  | .onReceived _ size => size = 0
  | _ => True

private theorem tailExact_of_reports {origin : Option (Origin π)} {event : Event}
    (h : Reports event) (s : Peer δ) (stop : Stop Event ErrorCode) (s' : Peer δ) :
    TailExact origin (some event) s stop s' := by
  intro size hsize hne
  obtain ⟨_, _, endpoint, _, hpoint, _⟩ := tailOf_eq_some hsize
  cases hpoint
  exact absurd h hne

theorem asyncReceiveHandler_tail {failed : ErrorCode → Proc δ Unit}
    (hcalls : ∀ ec point start s, (failed ec s).Calls Reports point start)
    (hreport : ∀ s, (failed .noBufferSpace s).reached = s.logged (.onError .noBufferSpace))
    (op : Operation) (completion : Completion) (s : Peer δ) :
    (asyncReceiveHandler failed op completion).Segments
      (TailExact (some (.completion op completion : Origin π)))
      (fun _ point start state => TailExact (some (.completion op completion : Origin π))
        point start .returned state) none s s := by
  have hnone (start : Peer δ) (stop : Stop Event ErrorCode) (finish : Peer δ) :
      TailExact (some (.completion op completion : Origin π)) none start stop finish :=
    tailExact_of_tailOf_none (tailOf_none _) _ _ _
  simp only [asyncReceiveHandler, fire, segments_bind, segments_state, segments_ite,
    segments_pure, segments_update, segments_callback]
  split_ifs with hrun herror
  · exact hnone _ _ _
  · exact Outcome.segments_of_calls (hcalls _ _ _ _)
      (fun event start stop finish h => tailExact_of_reports h _ _ _) hnone fun _ => hnone _ _ _
  · refine ⟨hnone _ _ _, fun s' => ?_⟩
    split_ifs with hfull hlimit
    · refine Outcome.segments_of_calls (hcalls _ _ _ _)
        (fun event start stop finish h => tailExact_of_reports h _ _ _) hnone fun stop => ?_
      intro size hsize _
      obtain ⟨_, _, _, horigin, _, _, rfl⟩ := tailOf_eq_some hsize
      cases horigin
      rw [if_neg fun h => h.2 hlimit, hreport]
      exact ⟨rfl, rfl, rfl⟩
    · intro size hsize _
      obtain ⟨_, _, _, horigin, _, _, rfl⟩ := tailOf_eq_some hsize
      cases horigin
      rw [if_pos ⟨hfull, hlimit⟩]
    · intro size hsize _
      obtain ⟨_, _, _, horigin, _, _, rfl⟩ := tailOf_eq_some hsize
      cases horigin
      rw [if_neg fun h => hfull h.1]
      exact ⟨rfl, rfl, rfl⟩

theorem sendError_calls (ec : ErrorCode) (point : Option Event) (start s : Peer δ) :
    (sendError ec s).Calls Reports point start := by
  change (sendError ec).Segments _ _ point start s
  unfold sendError
  split
  · trivial
  · exact ⟨fun _ h => by cases h; trivial, fun _ => trivial⟩

theorem Client.asyncFailed_calls (ec : ErrorCode) (point : Option Event) (start s : Client) :
    (Client.asyncFailed ec s).Calls Reports point start := by
  change (Client.asyncFailed ec).Segments _ _ point start s
  rw [Client.asyncFailed, segments_bind]
  refine segments_mono (fun _ _ _ _ h => h) ?_ (sendError_calls ec point start s)
  intro _ point start s _
  simp only [Client.disconnectInternalAsync, Client.disconnectInternal, Client.setResolving,
    fire, segments_discard, segments_bind, segments_state, segments_ite, segments_pure,
    segments_update, segments_callback, if_true]
  split_ifs <;> simp [Reports]

theorem Server.receiveFailed_calls (ec : ErrorCode) (point : Option Event) (start s : Server) :
    (Server.receiveFailed ec s).Calls Reports point start := by
  change (Server.receiveFailed ec).Segments _ _ point start s
  rw [Server.receiveFailed, segments_bind]
  refine segments_mono (fun _ _ _ _ h => h) ?_ (sendError_calls ec point start s)
  intro _ point start s _
  exact ⟨fun _ h => by cases h; rfl, fun _ => trivial⟩

def Origin.isReceive : Origin π → Bool
  | .completion op _ => op.isReceive
  | _ => false

theorem tailExact_of_other {origin : Option (Origin π)}
    (h : origin.any Origin.isReceive = false) (point : Option Event) (s : Peer δ)
    (stop : Stop Event ErrorCode) (s' : Peer δ) : TailExact origin point s stop s' := by
  intro size hsize
  obtain ⟨op, completion, _, rfl, _, hreceive, _⟩ := tailOf_eq_some hsize
  simp [Origin.isReceive, hreceive] at h

/-- A relation that is free for all other code has to be checked for the receive handlers. -/
theorem obeys_of_receives {S : PeerSystem δ π κ η ν}
    {sendFailed receiveFailed : ErrorCode → Proc δ Unit}
    {T : Option (Origin π) → Option Event → Peer δ → Stop Event ErrorCode → Peer δ → Prop}
    (hhandler : ∀ h s op completion program,
      S.handler h s = some (.completion op completion, program) →
      program = completionHandler sendFailed receiveFailed op completion)
    (hfree : ∀ origin, origin.any Origin.isReceive = false →
      ∀ point s stop s', T origin point s stop s')
    (hreceive : ∀ op completion s,
      (asyncReceiveHandler receiveFailed op completion).Segments
        (T (some (.completion op completion)))
        (fun _ point start s' => T (some (.completion op completion)) point start .returned s')
        none s s) :
    S.Obeys (fun _ => True) (fun _ => True) T := by
  have hother {origin : Option (Origin π)} (h : origin.any Origin.isReceive = false)
      (m : Proc δ Unit) (s : Peer δ) :
      m.Segments (T origin) (fun _ point start s' => T origin point start .returned s') none s s :=
    Outcome.segments_of_forall (hfree origin h) (fun _ _ _ _ => hfree origin h _ _ _ _) _ _ _
  refine ⟨fun k inside _ s => hother rfl _ s, fun h s origin program _ hlookup => ?_⟩
  cases horigin : origin.isReceive with
  | false => exact hother (show (some origin).any Origin.isReceive = false from horigin) _ s
  | true =>
      cases origin with
      | completion op completion =>
          rw [hhandler h s op completion program hlookup, completionHandler_receive _ horigin]
          exact hreceive op completion s
      | timer id => cases horigin
      | posted handler => cases horigin

theorem Client.completion_of_handler (net : Net) (pending : Pending) (s : Client)
    (op : Operation) (completion : Completion) (program : Code Unit)
    (h : (system net).handler pending s = some (.completion op completion, program)) :
    program = completionHandler op completion := by
  cases runnable_of_handler h with
  | completion hmem hresult => rfl

theorem Server.completion_of_handler (net : Net) (pending : Pending) (s : Server)
    (op : Operation) (completion : Completion) (program : Code Unit)
    (h : (system net).handler pending s = some (.completion op completion, program)) :
    program = completionHandler op completion := by
  cases runnable_of_handler h with
  | completion hmem hresult => rfl

theorem Client.system_tail (net : Net) :
    (Client.system net).Obeys (fun _ => True) (fun _ => True) TailExact :=
  obeys_of_receives (Client.completion_of_handler net) (fun _ => tailExact_of_other)
    fun op completion s =>
      asyncReceiveHandler_tail Client.asyncFailed_calls (fun _ => rfl) op completion s

theorem Server.system_tail (net : Net) :
    (Server.system net).Obeys (fun _ => True) (fun _ => True) TailExact :=
  obeys_of_receives (Server.completion_of_handler net) (fun _ => tailExact_of_other)
    fun op completion s =>
      asyncReceiveHandler_tail Server.receiveFailed_calls (fun _ => rfl) op completion s

/-! ## All other code -/

section Changes

variable {P : Profile δ} {s s' : Peer δ}

theorem BufferStable.of_step (hs : BufferStable s) (h : OperationsStep s s')
    (hissued : s'.issued = s.issued) (hsocket : s'.socket = s.socket)
    (hbuffer : s'.receiveBuffer = s.receiveBuffer) : BufferStable s' := by
  intro op' hop'
  rw [hbuffer]
  rcases h.mem hop'.mem with ⟨op, hop, hfollows⟩ | ⟨_, hissued', _⟩
  · obtain rfl := hfollows.result hop'.pending
    exact hs op' ⟨hop, hop'.isReceive, hop'.pending, hsocket ▸ hop'.generation,
      hsocket ▸ hop'.isOpen⟩
  · omega

theorem bufferStable_of_idle (h : ∀ op ∈ s.operations, op.result ≠ none) : BufferStable s :=
  fun op hop => absurd hop.pending (h op hop.mem)

theorem BufferStable.startOperation (hs : BufferStable s) {purpose : Purpose}
    (hsocket : s'.socket = s.socket) (hbuffer : s'.receiveBuffer = s.receiveBuffer)
    (hoperations : s'.operations = s.operations ++
      [⟨s.issued, purpose, s.socket.generation, s.session, none⟩])
    (hpurpose : purpose = .receiveAsync s.receiveBuffer ∨
      ∀ length, purpose ≠ .receiveAsync length) :
    BufferStable s' := by
  intro op hop
  have hmem := hop.mem
  rw [hoperations, List.mem_append, List.mem_singleton] at hmem
  rw [hbuffer]
  rcases hmem with hmem | rfl
  · exact hs op ⟨hmem, hop.isReceive, hop.pending, hsocket ▸ hop.generation,
      hsocket ▸ hop.isOpen⟩
  · rcases hpurpose with h | h
    · exact h
    · have hreceive := hop.isReceive
      unfold Operation.isReceive at hreceive
      split at hreceive
      · rename_i length hlength
        exact absurd hlength (h length)
      · cases hreceive

theorem bufferStable_quiet {scope : Scope} (hscope : ∀ size, scope.tail = some size → size = 0)
    (h : Quiet P scope s s') (hs : BufferStable s) : BufferStable s' := by
  have hstep := h.operationsStep
  cases h with
  | special h =>
      exact hs.of_step hstep (P.inert_field h Peer.issued) (P.inert_field h Peer.socket)
        (P.inert_field h Peer.receiveBuffer)
  | startSend data endpoint hrun hfree => exact hs.startOperation rfl rfl rfl (Or.inr nofun)
  | startReceive hrun hfree => exact hs.startOperation rfl rfl rfl (Or.inl rfl)
  | startTimed purpose hrun htimed =>
      refine hs.startOperation rfl rfl rfl (Or.inr fun length hlength => ?_)
      subst hlength
      rcases htimed with h | h <;> cases h
  | grow htail hfull hlimit =>
      obtain rfl := hscope _ htail
      exact hs.of_step hstep rfl rfl hfull.symm
  | _ => exact hs.of_step hstep rfl rfl rfl

private theorem bufferStable_fires {event : Event} (htidy : Tidy s) (h : Fires P event s s')
    (hs : BufferStable s) : BufferStable s' := by
  have hstep := h.operationsStep
  cases h with
  | opened socket size hrun hclosed hopen hgeneration =>
      exact bufferStable_of_idle (htidy.idle_of_closed hclosed)
  | closed hrun =>
      split <;> exact fun op h => absurd h.isOpen Bool.false_ne_true
  | _ => exact hs.of_step hstep rfl rfl rfl

private theorem bufferStable_fails {ec : ErrorCode} (htidy : Tidy s) (h : Fails ec s s')
    (hs : BufferStable s) : BufferStable s' := by
  have hstep := h.operationsStep
  cases h with
  | halfOpened call ec socket hclosed hrun hcall hopen hgeneration =>
      exact bufferStable_of_idle (htidy.idle_of_closed hclosed)
  | _ => exact hs.of_step hstep rfl rfl rfl

private theorem bufferStable_stirred (h : Stirred s s') (hs : BufferStable s) :
    BufferStable s' := by
  have hstep := h.operationsStep
  cases h <;> exact hs.of_step hstep rfl rfl rfl

private theorem bufferStable_effect {scope : Option Event → Scope} {point : Option Event}
    {stop : Stop Event ErrorCode} (hscope : ∀ size, (scope point).tail = some size → size = 0)
    (htidy : Tidy s) (h : Effect P scope point s stop s') (hs : BufferStable s) :
    BufferStable s' := by
  obtain ⟨middle, hquiet, hends⟩ := h
  have hmiddle : BufferStable middle := by
    clear hends
    induction hquiet with
    | refl => exact hs
    | tail _ hstep ih => exact bufferStable_quiet hscope hstep ih
  have htidy := (tidy_stable P).quietly hquiet htidy
  cases hends with
  | returned => exact hmiddle
  | waiting => exact hmiddle
  | called h => exact bufferStable_fires htidy h hmiddle
  | threw h => exact bufferStable_fails htidy h hmiddle

end Changes

/-! ## Runs -/

section Runs

variable {κ η ν : Type} {S : PeerSystem δ π κ η ν} {P : Profile δ}

/--
The step resumes a receive handler from its `onReceived` after a datagram that fills
the buffer and may still be doubled, while another receive is outstanding.
-/
def DoublesUnderReceive (S : PeerSystem δ π κ η ν) (t : PeerTransition δ π κ η ν) : Prop :=
  ∃ origin point size, S.segment t.pre t.move = some (origin, point) ∧
    tailOf origin point = some size ∧ size ≠ 0 ∧ Doubles t.pre.world size ∧
    ∃ op, Receiving t.pre.world op

private theorem resume_of_doublesUnderReceive {t : PeerTransition δ π κ η ν}
    (h : DoublesUnderReceive S t) : ∃ i, t.move = .resume i := by
  obtain ⟨origin, point, size, hsegment, hsize, -⟩ := h
  have hpoint : point ≠ none := by
    rintro rfl
    rw [tailOf_none] at hsize
    cases hsize
  cases hmove : t.move with
  | resume i => exact ⟨i, rfl⟩
  | call k thread =>
      rw [hmove] at hsegment
      cases hsegment
      exact absurd rfl hpoint
  | handler h =>
      rw [hmove] at hsegment
      obtain ⟨found, _, hfound⟩ := Option.map_eq_some_iff.mp hsegment
      cases hfound
      exact absurd rfl hpoint
  | unwind i =>
      rw [hmove] at hsegment
      cases hsegment
  | environment e =>
      rw [hmove] at hsegment
      cases hsegment

structure Steady (P : Profile δ) (c : PeerConfig δ π) : Prop where
  frames : ∀ f ∈ c.frames, f.Obeys (Known P TailExact)
  tidy : Tidy c.world
  stable : BufferStable c.world

theorem steady_initial (endpoint : Endpoint) (own : δ) :
    Steady P (.initial (.fresh endpoint own) : PeerConfig δ π) where
  frames := by simp [Config.frames, Config.initial]
  tidy := tidy_fresh endpoint own
  stable := bufferStable_of_idle fun op hop => by cases hop

variable (hM : Modelled S P) (hT : S.Obeys (fun _ => True) (fun _ => True) TailExact)

include hM hT

theorem steady_step (t : PeerTransition δ π κ η ν) (hpre : Steady P t.pre)
    (hstep : S.step t.pre t.move = some t.post) (hsafe : ¬DoublesUnderReceive S t) :
    Steady P t.post := by
  obtain ⟨hframes, hcases⟩ := hM.step hT hpre.frames hstep
  refine ⟨hframes, (tidy_stable P).step hcases hpre.tidy, ?_⟩
  rcases hcases with ⟨origin, point, stop, hsegment, hexec⟩ | ⟨_, _, _, hidle⟩
  · obtain ⟨heffect, htail⟩ := hexec.world
    by_cases hsize : ∃ size, tailOf origin point = some size ∧ size ≠ 0
    · obtain ⟨size, hsize, hne⟩ := hsize
      have hexact := htail size hsize hne
      split at hexact
      · -- the buffer is doubled, so no receive may be outstanding
        rename_i hdoubles
        rw [hexact]
        intro op hop
        exact absurd ⟨origin, point, size, hsegment, hsize, hne, hdoubles, op,
          ⟨hop.mem, hop.isReceive, hop.pending, hop.generation, hop.isOpen⟩⟩ hsafe
      · obtain ⟨hbuffer, hoperations, hsocket⟩ := hexact
        intro op hop
        rw [hbuffer]
        exact hpre.stable op ⟨hoperations ▸ hop.mem, hop.isReceive, hop.pending,
          hsocket ▸ hop.generation, hsocket ▸ hop.isOpen⟩
    · refine bufferStable_effect (fun size h => ?_) hpre.tidy heffect hpre.stable
      by_contra hne
      exact hsize ⟨size, h, hne⟩
  · rcases hidle with h | h | h
    · rw [h]
      exact hpre.stable
    · exact bufferStable_stirred h hpre.stable
    · have hquiet : Quiet P ⟨none, false⟩ t.pre.world t.post.world := .special h
      exact bufferStable_quiet (by simp) hquiet hpre.stable

private theorem not_stable_of_doubles {c c' : PeerConfig δ π} {m : Move κ η ν}
    (hframes : ∀ f ∈ c.frames, f.Obeys (Known P TailExact))
    (hstep : S.step c m = some c') (hdoubles : DoublesUnderReceive S ⟨c, m, c'⟩)
    (hstable : BufferStable c.world) : ¬BufferStable c'.world := by
  obtain ⟨origin, point, size, hsegment, hsize, hne, hdouble, op, hop⟩ := hdoubles
  rcases (hM.step hT hframes hstep).2 with ⟨origin', point', stop, hsegment', hexec⟩ | ⟨h, _⟩
  · rw [hsegment] at hsegment'
    cases hsegment'
    have hexact := hexec.world.2 size hsize hne
    rw [if_pos hdouble] at hexact
    intro hstable'
    have hbefore := hstable op hop
    have hafter := hstable' op (by
      rw [hexact]
      exact ⟨hop.mem, hop.isReceive, hop.pending, hop.generation, hop.isOpen⟩)
    rw [hbefore, hexact, hdouble.1] at hafter
    exact doubled_ne hne (Purpose.receiveAsync.inj hafter).symm
  · rw [hsegment] at h
    cases h

theorem receive_buffer_stable_iff_run (endpoint : Endpoint) (own : δ)
    (ms : List (Move κ η ν)) :
    (∀ c ∈ S.states (.initial (.fresh endpoint own)) ms, BufferStable c.world) ↔
      ∀ t ∈ S.trace (.initial (.fresh endpoint own)) ms, ¬DoublesUnderReceive S t := by
  refine Steps.states_iff_trace (P := fun _ => True) (fun c hc => hc.stable)
    (fun t hpre hstep _ hfine => steady_step hM hT t hpre hstep hfine)
    (fun t hpre hstep _ hbad => ?_) (steady_initial endpoint own) fun _ _ => trivial
  exact not_stable_of_doubles hM hT hpre.frames hstep (not_not.mp hbad) hpre.stable

end Runs

/--
In a run of a client or a server the buffer keeps the length handed to every receive
that is outstanding, in every state, exactly if no receive handler resumed from
`onReceived` finds the buffer full, within its limit, and the next receive already
outstanding.
-/
theorem receive_buffer_stable_iff (net : Net) :
    (∀ s₀, Client.Constructed s₀ → ∀ ms,
      ((∀ c ∈ (Client.system net).states (.initial s₀) ms, BufferStable c.world) ↔
        ∀ t ∈ (Client.system net).trace (.initial s₀) ms,
          ¬DoublesUnderReceive (Client.system net) t)) ∧
    (∀ s₀, Server.Constructed net s₀ → ∀ ms,
      ((∀ c ∈ (Server.system net).states (.initial s₀) ms, BufferStable c.world) ↔
        ∀ t ∈ (Server.system net).trace (.initial s₀) ms,
          ¬DoublesUnderReceive (Server.system net) t)) := by
  constructor
  · intro s₀ hs₀ ms
    obtain ⟨endpoint, own, rfl, -⟩ := hs₀.fresh
    exact receive_buffer_stable_iff_run (Client.modelled net) (Client.system_tail net) endpoint
      own ms
  · intro s₀ hs₀ ms
    obtain ⟨endpoint, own, rfl, -⟩ := hs₀.fresh
    exact receive_buffer_stable_iff_run (Server.modelled net) (Server.system_tail net) endpoint
      own ms

theorem receive_buffer_stable_iff_receiving :
    (∃ c, (Client.system .loopback).run (.initial (Client.ofAddressPort "127.0.0.1" 5000))
        [.call (.connect (.clean 4)) none, .call .receiveAsync none] = some c ∧
      c.world.receiving = true ∧ BufferStable c.world) ∧
    (∃ c, (Server.system .loopback).run (.initial (Server.ofPort 5000 .ipv4))
        [.call .start none, .handler (.posted 0 (.clean 4)), .call .receiveAsync none] =
          some c ∧
      c.world.receiving = true ∧ BufferStable c.world) := by
  refine ⟨⟨_, rfl, rfl, ?_⟩, _, rfl, rfl, ?_⟩
  · refine ((receive_buffer_stable_iff .loopback).1 _ (.ofAddressPort "127.0.0.1" 5000)
      [.call (.connect (.clean 4)) none, .call .receiveAsync none]).mpr ?_ _
      (Steps.run_mem_states rfl)
    intro t ht hdoubles
    obtain ⟨i, hmove⟩ := resume_of_doublesUnderReceive hdoubles
    have hmem := Steps.trace_move_mem t ht
    simp [hmove] at hmem
  · refine ((receive_buffer_stable_iff .loopback).2 _ (.ofPort 5000 .ipv4)
      [.call .start none, .handler (.posted 0 (.clean 4)), .call .receiveAsync none]).mpr ?_ _
      (Steps.run_mem_states rfl)
    intro t ht hdoubles
    obtain ⟨i, hmove⟩ := resume_of_doublesUnderReceive hdoubles
    have hmem := Steps.trace_move_mem t ht
    simp [hmove] at hmem

/-- `ReceiveAsync` from inside `onReceived`, after a datagram that fills the buffer. -/
theorem receive_buffer_doubled_under_receive :
    (∃ c, (Client.system .loopback).run (.initial (Client.ofAddressPort "127.0.0.1" 5000))
        [.call (.connect (.clean 4)) none, .call .receiveAsync none,
          .environment (.socket (.complete 0 ⟨.success, 4, default⟩)),
          .handler (.completion 0), .call .receiveAsync (some 2), .resume 2] = some c ∧
      c.world.receiveBuffer = 8 ∧ Receiving c.world ⟨1, .receiveAsync 4, 1, 1, none⟩ ∧
      ¬BufferStable c.world) ∧
    (∃ c, (Server.system .loopback).run (.initial (Server.ofPort 5000 .ipv4))
        [.call .start none, .handler (.posted 0 (.clean 4)), .resume 1,
          .call .receiveAsync none, .environment (.complete 0 ⟨.success, 4, default⟩),
          .handler (.completion 0), .call .receiveAsync (some 3), .resume 3] = some c ∧
      c.world.receiveBuffer = 8 ∧ Receiving c.world ⟨1, .receiveAsync 4, 1, 1, none⟩ ∧
      ¬BufferStable c.world) := by
  have hreceiving {δ : Type} {s : Peer δ} (h : s.receiveBuffer = 8)
      (hop : Receiving s ⟨1, .receiveAsync 4, 1, 1, none⟩) : ¬BufferStable s := by
    intro hstable
    have hlength := hstable _ hop
    rw [h] at hlength
    cases hlength
  refine ⟨⟨_, rfl, rfl, ?_, ?_⟩, _, rfl, rfl, ?_, ?_⟩
  · exact ⟨List.mem_singleton.mpr rfl, rfl, rfl, rfl, rfl⟩
  · exact hreceiving rfl ⟨List.mem_singleton.mpr rfl, rfl, rfl, rfl, rfl⟩
  · exact ⟨List.mem_singleton.mpr rfl, rfl, rfl, rfl, rfl⟩
  · exact hreceiving rfl ⟨List.mem_singleton.mpr rfl, rfl, rfl, rfl, rfl⟩

end AsioWrapper.Udp
