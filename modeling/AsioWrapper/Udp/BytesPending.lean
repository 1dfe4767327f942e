import AsioWrapper.Udp.SendBuffer
import AsioWrapper.Udp.Watch

/-!
# The bytes of the pending send

`bytes_pending` is set when `SendAsync` starts an operation and reset when its
handler has delivered the datagram.  It is also reset when a session begins
and, by the server only, when one ends; a send that fails, that reports no
bytes or that is handled after the end of its session leaves it as it is.

What matters for it are the books below: whether a session is open, the flag
that admits one send at a time, the counter, and the datagrams of the sends
whose handler has not run.
-/

namespace AsioWrapper.Udp

open AsioWrapper.Asio
open AsioWrapper.Foundation
open AsioWrapper.Foundation.Program

variable {δ π κ η ν : Type}

def datagram (op : Operation) : List UInt8 :=
  match op.purpose with
  | .sendAsync data _ => data
  | _ => []

def Peer.bytesPending (s : Peer δ) : UInt64 := s.bytesSending

/-- The counter is the size of the datagram whose send is not completed, and zero if there is
none. -/
structure PendingExact (s : Peer δ) : Prop where
  idle : s.sends = [] → s.bytesPending = 0
  busy : ∀ op ∈ s.sends, s.bytesPending.toNat = (datagram op).length

/-! ## The books -/

structure SendBooks where
  running : Bool
  sending : Bool
  bytes : UInt64
  datagrams : List (List UInt8)

namespace SendBooks

def opened (b : SendBooks) : SendBooks := { b with running := true, bytes := 0 }

def closed (clears : Bool) (b : SendBooks) : SendBooks :=
  { b with running := false, sending := false, bytes := if clears then 0 else b.bytes }

def started (data : List UInt8) (b : SendBooks) : SendBooks :=
  { b with
    sending := true
    bytes := UInt64.ofNat data.length
    datagrams := b.datagrams ++ [data] }

inductive Step (clears : Bool) : SendBooks → SendBooks → Prop where
  | kept {b : SendBooks} : Step clears b b
  | started {b : SendBooks} (data : List UInt8) (hrun : b.running = true)
      (hfree : b.sending = false) (hdata : data ≠ []) (hsize : data.length < 2 ^ 64) :
      Step clears b (b.started data)
  | opened {b : SendBooks} (hrun : b.running = false) : Step clears b b.opened
  | closed {b : SendBooks} (hrun : b.running = true) : Step clears b (b.closed clears)

structure Settled (delivered : Bool) (b b' : SendBooks) : Prop where
  busy : b.datagrams ≠ []
  done : b.datagrams.length = 1 → b'.datagrams = []
  bytes : b'.bytes = if delivered then 0 else b.bytes

structure Exact (b : SendBooks) : Prop where
  idle : b.datagrams = [] → b.bytes = 0
  busy : ∀ data ∈ b.datagrams, b.bytes.toNat = data.length

structure Accounted (b : SendBooks) : Prop extends Exact b where
  single : b.datagrams.length ≤ 1
  free : b.running = true → b.sending = false → b.datagrams = []
  nonempty : ∀ data ∈ b.datagrams, data ≠ []

def Disrupts (clears : Bool) (b b' : SendBooks) : Prop :=
  b.datagrams ≠ [] ∧ (b.running = false ∧ b'.running = true ∨
    clears = true ∧ b.running = true ∧ b'.running = false)

theorem Accounted.not_exact_of_zero {b b' : SendBooks} (h : b.Accounted) (hne : b.datagrams ≠ [])
    (hsame : b'.datagrams = b.datagrams) (hzero : b'.bytes = 0) : ¬b'.Exact := by
  intro hexact
  obtain ⟨data, rest, hdata⟩ := List.exists_cons_of_ne_nil hne
  have hmem : data ∈ b.datagrams := by simp [hdata]
  have hlength := hexact.busy data (hsame ▸ hmem)
  rw [hzero] at hlength
  exact h.nonempty data hmem (List.length_eq_zero_iff.mp hlength.symm)

theorem Step.accounted {clears : Bool} {b b' : SendBooks} (h : Step clears b b')
    (hb : b.Accounted) (hok : ¬Disrupts clears b b') : b'.Accounted := by
  cases h with
  | kept => exact hb
  | started data hrun hfree hdata hsize =>
      -- the flag admits the send only if there is no other
      have hnone := hb.free hrun hfree
      refine ⟨⟨fun h => (by simp [SendBooks.started] at h), ?_⟩, ?_, fun _ h => (by cases h), ?_⟩
      · intro other hother
        simp only [SendBooks.started, hnone, List.nil_append, List.mem_singleton] at hother
        rw [hother, SendBooks.started, UInt64.toNat_ofNat_of_lt' hsize]
      · simp [SendBooks.started, hnone]
      · intro other hother
        simp only [SendBooks.started, hnone, List.nil_append, List.mem_singleton] at hother
        rw [hother]
        exact hdata
  | opened hrun =>
      have hnone : b.datagrams = [] := by
        by_contra hne
        exact hok ⟨hne, Or.inl ⟨hrun, rfl⟩⟩
      refine ⟨⟨fun _ => rfl, fun data hdata => ?_⟩, hb.single, fun _ _ => hnone, hb.nonempty⟩
      rw [SendBooks.opened, hnone] at hdata
      cases hdata
  | closed hrun =>
      refine ⟨⟨fun hnone => ?_, fun data hdata => ?_⟩, hb.single, fun h => (by cases h),
        hb.nonempty⟩
      · cases clears with
        | true => rfl
        | false => exact hb.idle hnone
      · cases clears with
        | true =>
            -- the pending send would be left with a counter of zero
            have hne : b.datagrams ≠ [] := List.ne_nil_of_mem hdata
            exact absurd ⟨hne, Or.inr ⟨rfl, hrun, rfl⟩⟩ hok
        | false => exact hb.busy data hdata

theorem Step.not_exact {clears : Bool} {b b' : SendBooks} (h : Step clears b b')
    (hb : b.Accounted) (hbad : Disrupts clears b b') : ¬b'.Exact := by
  obtain ⟨hne, hsession⟩ := hbad
  cases h with
  | kept =>
      rcases hsession with ⟨hidle, hrun⟩ | ⟨-, hrun, hidle⟩ <;>
        · rw [hrun] at hidle
          cases hidle
  | started data hrun hfree hdata hsize => exact absurd (hb.free hrun hfree) hne
  | opened hrun => exact hb.not_exact_of_zero hne rfl rfl
  | closed hrun =>
      rcases hsession with ⟨hidle, -⟩ | ⟨rfl, -, -⟩
      · rw [hrun] at hidle
        cases hidle
      · exact hb.not_exact_of_zero hne rfl rfl

theorem Settled.empty {delivered : Bool} {b b' : SendBooks} (h : Settled delivered b b')
    (hb : b.Accounted) : b'.datagrams = [] := by
  apply h.done
  have hpos := List.length_pos_iff.mpr h.busy
  have hsingle := hb.single
  omega

theorem Settled.accounted {b b' : SendBooks} (h : Settled true b b') (hb : b.Accounted) :
    b'.Accounted := by
  have hnone := h.empty hb
  refine ⟨⟨fun _ => h.bytes, ?_⟩, by simp [hnone], fun _ _ => hnone, ?_⟩ <;>
    simp [hnone]

theorem Settled.not_exact {b b' : SendBooks} (h : Settled false b b') (hb : b.Accounted) :
    ¬b'.Exact := by
  intro hexact
  have hzero := hexact.idle (h.empty hb)
  rw [h.bytes] at hzero
  exact hb.not_exact_of_zero h.busy rfl hzero hb.toExact

end SendBooks

/-! ## The books of a peer -/

def Peer.sendBooks (s : Peer δ) : SendBooks :=
  ⟨s.running, s.sending, s.bytesSending, s.sends.map datagram⟩

theorem pendingExact_iff {s : Peer δ} : PendingExact s ↔ s.sendBooks.Exact := by
  constructor
  · intro h
    refine ⟨fun hnone => h.idle (List.map_eq_nil_iff.mp hnone), fun data hdata => ?_⟩
    obtain ⟨op, hop, rfl⟩ := List.mem_map.mp hdata
    exact h.busy op hop
  · intro h
    refine ⟨fun hnone => h.idle (List.map_eq_nil_iff.mpr hnone), fun op hop => ?_⟩
    exact h.busy (datagram op) (List.mem_map_of_mem hop)

section PeerSends

variable {s s' : Peer δ}

private theorem sendBooks_of_sends (hrun : s'.running = s.running)
    (hsending : s'.sending = s.sending) (hbytes : s'.bytesSending = s.bytesSending)
    (hsends : s'.sends = s.sends) :
    s'.sendBooks = s.sendBooks := by
  simp only [Peer.sendBooks, hrun, hsending, hbytes, hsends]

theorem datagrams_map (operations : List Operation) {f : Operation → Operation}
    (hf : ∀ op ∈ operations, (f op).purpose = op.purpose) :
    ((operations.map f).filter Operation.isSend).map datagram =
      (operations.filter Operation.isSend).map datagram := by
  rw [filter_map_of_purpose isSend_of_purpose hf, List.map_map]
  refine List.map_congr_left fun op hop => ?_
  simp [datagram, hf op (List.mem_filter.mp hop).1]

theorem Minor.sendBooks (h : Minor s s') : s'.sendBooks = s.sendBooks := by
  cases h with
  | startReceive => exact sendBooks_of_sends rfl rfl rfl (filter_append_other rfl)
  | startTimed purpose htimed =>
      refine sendBooks_of_sends rfl rfl rfl (filter_append_other ?_)
      rcases htimed with rfl | rfl <;> rfl
  | finishReceive hreceive =>
      exact sendBooks_of_sends rfl rfl rfl
        (filter_remove_other (Operation.isSend_of_isReceive hreceive))
  | finishTimed htimed =>
      exact sendBooks_of_sends rfl rfl rfl
        (filter_remove_other (Operation.isSend_of_isTimed htimed))
  | abortOperations =>
      exact congrArg (SendBooks.mk s.running s.sending s.bytesSending)
        (datagrams_map s.operations fun op _ => Operation.abort_purpose op)
  | _ => rfl

theorem Stirred.sendBooks (h : Stirred s s') : s'.sendBooks = s.sendBooks := by
  cases h with
  | complete hmem hpending completion =>
      exact congrArg (SendBooks.mk s.running s.sending s.bytesSending)
        (datagrams_map s.operations
          fun other _ => Operation.completedBy_purpose _ other completion)
  | expire id harmed => rfl

theorem sendBooks_closing (clears : Bool) (s : Peer δ) :
    (s.closing clears).sendBooks = s.sendBooks.closed clears := by
  have hdatagrams := datagrams_map s.operations fun op _ => Operation.abort_purpose op
  cases clears with
  | true => exact congrArg (SendBooks.mk false false 0) hdatagrams
  | false => exact congrArg (SendBooks.mk false false s.bytesSending) hdatagrams

private theorem sendBooks_startSend (s : Peer δ) (data : List UInt8) (endpoint : Endpoint) :
    (s.startSend data endpoint).sendBooks = s.sendBooks.started data := by
  have hsends : (s.startSend data endpoint).sends =
      s.sends ++ [⟨s.issued, .sendAsync data endpoint, s.socket.generation, s.session, none⟩] :=
    List.filter_append _ _
  rw [Peer.sendBooks, hsends, List.map_append]
  rfl

private theorem settled_finishSend {op : Operation} (hmem : op ∈ s.operations)
    (hsend : op.isSend = true) :
    s.sendBooks.datagrams ≠ [] ∧
      (s.sendBooks.datagrams.length = 1 → (s.finishSend op).sendBooks.datagrams = []) := by
  have hop : op ∈ s.sends := List.mem_filter.mpr ⟨hmem, hsend⟩
  refine ⟨fun h => ?_, fun h => ?_⟩
  · rw [List.map_eq_nil_iff.mp h] at hop
    cases hop
  · have hsends : (s.finishSend op).sends = s.sends.filter fun other => other ≠ op := by
      simp only [Peer.sends, Peer.finishSend, Peer.removeOperation, List.filter_filter]
      exact List.filter_congr fun other _ => Bool.and_comm _ _
    obtain ⟨other, hone⟩ := List.length_eq_one_iff.mp ((List.length_map _).symm.trans h)
    rw [hone, List.mem_singleton] at hop
    rw [Peer.sendBooks, hsends, hone, hop]
    simp

end PeerSends

/-! ## What a segment enters -/

def delivers (s : Peer δ) (completion : Completion) : Bool :=
  s.running && !completion.error.failed && decide (0 < completion.size)

def settling (origin : Option (Origin π)) (point : Option Event) : Option Completion :=
  match origin, point with
  | some (.completion op completion), none => if op.isSend then some completion else none
  | _, _ => none

def SendEntered (clears : Bool) (origin : Option (Origin π)) (point : Option Event) (s : Peer δ)
    (_ : Stop Event ErrorCode) (s' : Peer δ) : Prop :=
  match settling origin point with
  | some completion => s.sendBooks.Settled (delivers s completion) s'.sendBooks
  | none => SendBooks.Step clears s.sendBooks s'.sendBooks

private theorem settling_other {origin : Option (Origin π)} (h : origin.any Origin.isSend = false)
    (point : Option Event) : settling origin point = none := by
  unfold settling
  split
  · rename_i op completion
    rw [if_neg]
    simpa [Origin.isSend] using h
  · rfl

theorem settling_resumed (origin : Option (Origin π)) (event : Event) :
    settling origin (some event) = none := by
  unfold settling
  split <;> simp_all

section Entries

variable {clears : Bool} {origin : Option (Origin π)} {point : Option Event}
  {start s : Peer δ} {stop : Stop Event ErrorCode}

theorem entered_kept (hpoint : settling origin point = none) (hs : s.sendBooks = start.sendBooks) :
    SendEntered clears origin point start stop s := by
  rw [SendEntered, hpoint, hs]
  exact .kept

theorem entered_opened (hpoint : settling origin point = none) (hs : s.sendBooks = start.sendBooks)
    (hrun : s.running = false) (event : Event) :
    SendEntered clears origin point start stop (s.enterSession.logged event) := by
  have hbooks : (s.enterSession.logged event).sendBooks = start.sendBooks.opened :=
    congrArg SendBooks.opened hs
  rw [SendEntered, hpoint, hbooks]
  exact .opened ((congrArg SendBooks.running hs).symm.trans hrun)

theorem entered_closed (hpoint : settling origin point = none) (hs : s.sendBooks = start.sendBooks)
    (hrun : s.running = true) (event : Event) :
    SendEntered clears origin point start stop ((s.closing clears).logged event) := by
  have hbooks : ((s.closing clears).logged event).sendBooks = start.sendBooks.closed clears :=
    (sendBooks_closing clears s).trans (congrArg (SendBooks.closed clears) hs)
  rw [SendEntered, hpoint, hbooks]
  exact .closed ((congrArg SendBooks.running hs).symm.trans hrun)

theorem watches_sendBooks (horigin : origin.any Origin.isSend = false)
    {aside : Peer δ → Peer δ → Prop} (haside : ∀ {s s'}, aside s s' → s'.sendBooks = s.sendBooks) :
    Watches clears aside (Same Peer.sendBooks) (SendEntered clears origin) :=
  Watches.of_view Minor.sendBooks haside
    (fun _ hs => entered_kept (settling_other horigin _) hs)
    (fun event hs hrun => entered_opened (settling_other horigin _) hs hrun event)
    fun event hs hrun => entered_closed (settling_other horigin _) hs hrun event

theorem sendAsync_entered {aside : Peer δ → Peer δ → Prop}
    (hT : Watches clears aside (Same Peer.sendBooks)
      (SendEntered clears (none : Option (Origin π))))
    {rejected : Proc δ Unit}
    (hrejected : Viewed (Same Peer.sendBooks) (SendEntered clears (none : Option (Origin π)))
      rejected)
    (endpoint : Endpoint) {buffer : Buffer} (hsize : buffer.size < 2 ^ 64) (s : Peer δ) :
    (sendAsync rejected endpoint buffer).Segments (SendEntered clears (none : Option (Origin π)))
      (fun _ point start s => SendEntered clears (none : Option (Origin π)) point start .returned s)
      none s s := by
  unfold Program.Segments
  rcases sendAsync_cases rejected endpoint buffer s with
    ⟨haccepts, heq⟩ | ⟨-, ⟨value, heq⟩ | heq⟩
  · obtain ⟨hfree, hrun, hne, hnull, -⟩ := haccepts
    have hlength : buffer.data.length = buffer.size := by
      cases buffer with
      | null size => cases hnull
      | bytes data => rfl
    rw [heq]
    show SendBooks.Step clears s.sendBooks (s.startSend buffer.data endpoint).sendBooks
    rw [sendBooks_startSend]
    refine .started _ hrun hfree (fun hnil => hne ?_) (by omega)
    rw [← hlength, hnil]
    rfl
  · have hpoint : settling (none : Option (Origin π)) none = none := rfl
    have hkept : SendEntered clears none none s .returned s := entered_kept hpoint rfl
    rw [heq]
    exact hkept
  · rw [heq]
    exact hT.returns ((hT.fire _).bind fun _ => hrejected.bind fun _ => Triple.pure _) rfl

end Entries

/-! ## The handler of a send -/

section Handler

variable {clears : Bool} {op : Operation} {completion : Completion} {s : Peer δ}

theorem entered_first (hmem : op ∈ s.operations) (hsend : op.isSend = true) {s' : Peer δ}
    {stop : Stop Event ErrorCode}
    (hdatagrams : s'.sendBooks.datagrams = (s.finishSend op).sendBooks.datagrams)
    (hbytes : s'.bytesSending = if delivers s completion then 0 else s.bytesSending) :
    SendEntered clears (some (.completion op completion : Origin π)) none s stop s' := by
  have hsettling : settling (some (.completion op completion : Origin π)) none =
      some completion := if_pos hsend
  obtain ⟨hbusy, hdone⟩ := settled_finishSend hmem hsend
  rw [SendEntered, hsettling]
  exact ⟨hbusy, fun h => hdatagrams.trans (hdone h), hbytes⟩

theorem asyncSendToHandler_entered {failed : ErrorCode → Proc δ Unit}
    (hmem : op ∈ s.operations) (hsend : op.isSend = true)
    (hfailed : completion.error.failed = true → s.running = true →
      (failed completion.error).Segments
        (SendEntered clears (some (.completion op completion : Origin π)))
        (fun _ point start s => SendEntered clears (some (.completion op completion : Origin π))
          point start .returned s) none s (s.finishSend op)) :
    (asyncSendToHandler failed op completion).Segments
      (SendEntered clears (some (.completion op completion : Origin π)))
      (fun _ point start s => SendEntered clears (some (.completion op completion : Origin π))
        point start .returned s) none s s := by
  have hleft (h : delivers s completion = false) :
      SendEntered clears (some (.completion op completion : Origin π)) none s .returned
        (s.finishSend op) :=
    entered_first hmem hsend rfl (by rw [h]; rfl)
  rw [asyncSendToHandler, segments_bind, segments_update, segments_bind, segments_state,
    segments_ite]
  cases hrun : s.running with
  | false =>
      rw [if_pos (by simp [Peer.finishSend, Peer.removeOperation, hrun])]
      exact hleft (by simp [delivers, hrun])
  | true =>
      rw [if_neg (by simp [Peer.finishSend, Peer.removeOperation, hrun]), segments_ite]
      cases herror : completion.error.failed with
      | true =>
          rw [if_pos rfl, segments_bind]
          exact hfailed herror hrun
      | false =>
          rw [if_neg Bool.false_ne_true, segments_ite]
          by_cases hsent : completion.size > 0
          · have hdelivers : delivers s completion = true := by
              simp [delivers, hrun, herror, hsent]
            rw [if_pos hsent, segments_bind, segments_update, segments_bind, segments_state,
              fire, segments_bind, segments_update, segments_callback]
            refine ⟨entered_first hmem hsend rfl (by rw [hdelivers]; rfl), ?_⟩
            exact fun s' => entered_kept (settling_resumed _ _) rfl
          · rw [if_neg hsent]
            exact hleft (by simp [delivers, hsent])

def Undelivered (op : Operation) (point : Option Event) (start s : Peer δ) : Prop :=
  match point with
  | none => op ∈ start.operations ∧ s.running = true ∧
      s.sendBooks = (start.finishSend op).sendBooks
  | some _ => s.sendBooks = start.sendBooks

private theorem watches_undelivered {aside : Peer δ → Peer δ → Prop}
    (haside : ∀ {s s'}, aside s s' → s'.sendBooks = s.sendBooks) (hsend : op.isSend = true)
    (hfailed : completion.error.failed = true) :
    Watches false aside (Undelivered op)
      (SendEntered false (some (.completion op completion : Origin π))) := by
  have hdelivers (start : Peer δ) : delivers start completion = false := by
    simp [delivers, hfailed]
  have hsame {point : Option Event} {start s s' : Peer δ} (hs : s'.sendBooks = s.sendBooks)
      (h : Undelivered op point start s) : Undelivered op point start s' := by
    cases point with
    | none =>
        obtain ⟨hmem, hrun, hbooks⟩ := h
        exact ⟨hmem, (congrArg SendBooks.running hs).trans hrun, hs.trans hbooks⟩
    | some event => exact hs.trans h
  constructor
  case resumed => exact fun event s => rfl
  case minor => exact fun h => hsame (Minor.sendBooks h)
  case aside => exact fun h => hsame (haside h)
  case kept =>
    intro point start s stop h
    cases point with
    | none =>
        obtain ⟨hmem, -, hbooks⟩ := h
        refine entered_first hmem hsend (congrArg SendBooks.datagrams hbooks) ?_
        rw [hdelivers]
        exact congrArg SendBooks.bytes hbooks
    | some event => exact entered_kept (settling_resumed _ _) h
  case opened =>
    intro point start s event h hclosed
    cases point with
    | none =>
        -- the handler goes on to its error path in an open session only
        obtain ⟨-, hrun, -⟩ := h
        simp [hrun] at hclosed
    | some event' => exact entered_opened (settling_resumed _ _) h hclosed event
  case closed =>
    intro point start s event h hrun
    cases point with
    | none =>
        obtain ⟨hmem, -, hbooks⟩ := h
        have hclosed : ((s.closing false).logged event).sendBooks =
            (start.finishSend op).sendBooks.closed false :=
          (sendBooks_closing false s).trans (congrArg (SendBooks.closed false) hbooks)
        have hdatagrams := congrArg SendBooks.datagrams hclosed
        refine entered_first hmem hsend hdatagrams ?_
        rw [hdelivers]
        exact congrArg SendBooks.bytes hclosed
    | some event' => exact entered_closed (settling_resumed _ _) h hrun event

end Handler

/-! ## Runs -/

def begun (S : PeerSystem δ π κ η ν) (c : PeerConfig δ π) (m : Move κ η ν) : Option Completion :=
  (S.segment c m).bind fun code => settling code.1 code.2

/-- With a send uncompleted a session begins, or one ends and its end clears the counter. -/
def interrupts (clears : Bool) (t : PeerTransition δ π κ η ν) : Bool :=
  !t.pre.world.sends.isEmpty &&
    (!t.pre.world.running && t.post.world.running ||
      clears && (t.pre.world.running && !t.post.world.running))

/-- The step begins the handler of a send that does not deliver, or interrupts a send. -/
def unsettles (S : PeerSystem δ π κ η ν) (clears : Bool) (t : PeerTransition δ π κ η ν) : Bool :=
  match begun S t.pre t.move with
  | some completion => !delivers t.pre.world completion
  | none => interrupts clears t

theorem interrupts_iff {clears : Bool} {t : PeerTransition δ π κ η ν} :
    interrupts clears t = true ↔
      SendBooks.Disrupts clears t.pre.world.sendBooks t.post.world.sendBooks := by
  simp [interrupts, SendBooks.Disrupts, Peer.sendBooks]

structure SendBooked (S : PeerSystem δ π κ η ν) (okCall : κ → Prop) (clears : Bool) : Prop where
  obeys : S.Obeys okCall (fun _ => True) (SendEntered clears)
  environment : ∀ e s s', S.environment e s = some s' → s'.sendBooks = s.sendBooks

section Runs

variable {S : PeerSystem δ π κ η ν} {okCall : κ → Prop} {clears : Bool}
  {t : PeerTransition δ π κ η ν}

theorem SendBooked.step (hS : SendBooked S okCall clears)
    (hc : ∀ f ∈ t.pre.frames, f.Obeys (SendEntered clears))
    (hm : t.move.Admitted okCall fun _ => True) (hstep : S.step t.pre t.move = some t.post) :
    (∀ f ∈ t.post.frames, f.Obeys (SendEntered clears)) ∧
      match begun S t.pre t.move with
      | some completion =>
          t.pre.world.sendBooks.Settled (delivers t.pre.world completion) t.post.world.sendBooks
      | none => SendBooks.Step clears t.pre.world.sendBooks t.post.world.sendBooks := by
  obtain ⟨hframes, hcases⟩ := System.step_cases hS.obeys hc hm hstep
  refine ⟨hframes, ?_⟩
  rcases hcases with ⟨origin, point, stop, hsegment, hexec⟩ | ⟨hsegment, hidle⟩
  · rw [show begun S t.pre t.move = settling origin point by simp [begun, hsegment]]
    exact hexec.world
  · have hbooks : t.post.world.sendBooks = t.pre.world.sendBooks := by
      rcases hidle.world with h | ⟨e, -, h⟩
      · rw [h]
      · exact hS.environment e _ _ h
    rw [show begun S t.pre t.move = none by simp [begun, hsegment], hbooks]
    exact .kept

def InOrder (clears : Bool) (c : PeerConfig δ π) : Prop :=
  (∀ f ∈ c.frames, f.Obeys (SendEntered clears)) ∧ c.world.sendBooks.Accounted

theorem SendBooked.inOrder (hS : SendBooked S okCall clears) (hc : InOrder clears t.pre)
    (hm : t.move.Admitted okCall fun _ => True) (hstep : S.step t.pre t.move = some t.post)
    (hfine : unsettles S clears t = false) : InOrder clears t.post := by
  obtain ⟨hframes, hbooks⟩ := hS.step hc.1 hm hstep
  refine ⟨hframes, ?_⟩
  unfold unsettles at hfine
  split at hfine
  · rename_i completion hbegun
    have hdelivers : delivers t.pre.world completion = true := by simpa using hfine
    simp only [hbegun, hdelivers] at hbooks
    exact hbooks.accounted hc.2
  · rename_i hbegun
    rw [hbegun] at hbooks
    refine hbooks.accounted hc.2 fun h => ?_
    rw [interrupts_iff.mpr h] at hfine
    cases hfine

theorem SendBooked.not_pendingExact (hS : SendBooked S okCall clears) (hc : InOrder clears t.pre)
    (hm : t.move.Admitted okCall fun _ => True) (hstep : S.step t.pre t.move = some t.post)
    (hbad : unsettles S clears t = true) : ¬PendingExact t.post.world := by
  have hbooks := (hS.step hc.1 hm hstep).2
  rw [pendingExact_iff]
  unfold unsettles at hbad
  split at hbad
  · rename_i completion hbegun
    have hdelivers : delivers t.pre.world completion = false := by simpa using hbad
    simp only [hbegun, hdelivers] at hbooks
    exact hbooks.not_exact hc.2
  · rename_i hbegun
    rw [hbegun] at hbooks
    exact hbooks.not_exact hc.2 (interrupts_iff.mp hbad)

theorem inOrder_initial (endpoint : Endpoint) (own : δ) :
    InOrder clears (.initial (.fresh endpoint own) : PeerConfig δ π) := by
  refine ⟨by simp [Config.frames, Config.initial], ⟨⟨fun _ => rfl, ?_⟩, ?_, ?_, ?_⟩⟩ <;>
    simp [Config.initial, Peer.sendBooks, Peer.sends, Peer.fresh]

theorem SendBooked.exact_iff (hS : SendBooked S okCall clears) (endpoint : Endpoint) (own : δ)
    {ms : List (Move κ η ν)} (hms : ∀ m ∈ ms, m.Admitted okCall fun _ => True) :
    (∀ c ∈ S.states (.initial (.fresh endpoint own)) ms, PendingExact c.world) ↔
      ∀ t ∈ S.trace (.initial (.fresh endpoint own)) ms, unsettles S clears t = false := by
  refine Steps.states_iff_trace (I := InOrder clears)
    (P := fun t => t.move.Admitted okCall fun _ => True) (fun c hc => ?_)
    (fun t hc hstep hm hfine => hS.inOrder hc hm hstep hfine)
    (fun t hc hstep hm hbad => ?_) (inOrder_initial endpoint own)
    fun t ht => hms t.move (Steps.trace_move_mem t ht)
  · exact pendingExact_iff.mpr hc.2.toExact
  · exact hS.not_pendingExact hc hm hstep (by simpa using hbad)

end Runs

/-! ## The two classes -/

namespace Client

theorem special_sendBooks {s s' : Client} (h : Special s s') : s'.sendBooks = s.sendBooks := by
  cases h <;> rfl

def Call.isSized : Call → Prop
  | .sendAsync _ buffer => buffer.size < 2 ^ 64
  | _ => True

theorem completionHandler_entered {op : Operation} {completion : Completion} {s : Client}
    (hmem : op ∈ s.operations) (hsend : op.isSend = true) :
    (completionHandler op completion).Segments
      (SendEntered false (some (.completion op completion : Origin Handler)))
      (fun _ point start s' => SendEntered false (some (.completion op completion : Origin Handler))
        point start .returned s') none s s := by
  rw [completionHandler, completionHandler_send _ hsend]
  refine asyncSendToHandler_entered hmem hsend fun hfailed hrun => ?_
  have hT := watches_undelivered (π := Handler) special_sendBooks hsend hfailed
  exact hT.returns (asyncFailed_viewed hT completion.error) ⟨hmem, hrun, rfl⟩

theorem system_entered (net : Net) :
    (system net).Obeys Call.isSized (fun _ => True) (SendEntered false) := by
  refine system_viewed net (fun _ => rfl)
    (fun origin horigin => watches_sendBooks horigin special_sendBooks)
    ?_ fun s op completion => completionHandler_entered
  intro k inside hk hplain s
  have hT : Watches false Special (Same Peer.sendBooks)
      (SendEntered false (none : Option (Origin Handler))) :=
    watches_sendBooks rfl special_sendBooks
  cases k with
  | sendAsync endpoint buffer =>
      rw [call, segments_bind, segments_state, segments_discard]
      exact sendAsync_entered hT (Triple.pure _) _ hk s
  | _ => cases hplain

theorem kept (net : Net) : SendBooked (system net) Call.isSized false where
  obeys := system_entered net
  environment e s s' h := by
    cases environment_cases h with
    | inl h => exact h.sendBooks
    | inr h => exact special_sendBooks h

end Client

namespace Server

private theorem aside_sendBooks {s s' : Server} (h : Aside s s') : s'.sendBooks = s.sendBooks := by
  cases h <;> rfl

def Call.isSized : Call → Prop
  | .sendAsync _ buffer => buffer.size < 2 ^ 64
  | _ => True

theorem completionHandler_entered {op : Operation} {completion : Completion} {s : Server}
    (hmem : op ∈ s.operations) (hsend : op.isSend = true) :
    (completionHandler op completion).Segments
      (SendEntered true (some (.completion op completion : Origin Handler)))
      (fun _ point start s' => SendEntered true (some (.completion op completion : Origin Handler))
        point start .returned s') none s s := by
  rw [completionHandler, completionHandler_send _ hsend]
  refine asyncSendToHandler_entered hmem hsend fun hfailed hrun => ?_
  have hfirst (event : Event) :
      SendEntered true (some (.completion op completion : Origin Handler)) none s
        (.called event) ((s.finishSend op).logged event) :=
    entered_first hmem hsend rfl (by simp [delivers, hfailed]; rfl)
  have hresumed (event : Event) (stop : Stop Event ErrorCode) {start s' : Server}
      (hs : s'.sendBooks = start.sendBooks) :
      SendEntered true (some (.completion op completion : Origin Handler)) (some event) start
        stop s' :=
    entered_kept (settling_resumed _ _) hs
  simp only [sendFailed, sendError, fire, segments_bind, segments_ite, segments_pure,
    segments_state, segments_update, segments_callback]
  split
  · exact ⟨hfirst _, fun s' => hresumed _ _ rfl⟩
  · exact ⟨hfirst _, fun s' => ⟨hresumed _ _ rfl, fun s'' => hresumed _ _ rfl⟩⟩

theorem system_entered (net : Net) :
    (system net).Obeys Call.isSized (fun _ => True) (SendEntered true) := by
  refine system_viewed net (fun _ => rfl)
    (fun origin horigin => watches_sendBooks horigin aside_sendBooks)
    ?_ fun s op completion => completionHandler_entered
  intro k hk hplain
  have hT : Watches true Aside (Same Peer.sendBooks)
      (SendEntered true (none : Option (Origin Handler))) :=
    watches_sendBooks rfl aside_sendBooks
  cases k with
  | sendAsync endpoint buffer =>
      intro s
      rw [call, segments_bind, segments_state, segments_discard]
      exact sendAsync_entered hT (Viewed.state fun _ => hT.fire _) _ hk s
  | startMulticastAt address port =>
      have hstart : Viewed (Same Peer.sendBooks) (SendEntered true (none : Option (Origin Handler)))
          (startMulticastAt net address port) := by
        refine Triple.bind (hT.makeAddress net address) fun parsed => ?_
        exact Triple.bind (Viewed.update fun _ _ _ h => h) fun _ => start_viewed hT
      exact hT.obeys (fun _ => rfl) hstart.discard
  | startMulticast endpoint =>
      have hstart : Viewed (Same Peer.sendBooks) (SendEntered true (none : Option (Origin Handler)))
          (startMulticast endpoint) :=
        Triple.bind (Viewed.update fun _ _ _ h => h) fun _ => start_viewed hT
      exact hT.obeys (fun _ => rfl) hstart.discard
  | _ => cases hplain

theorem kept (net : Net) : SendBooked (system net) Call.isSized true where
  obeys := system_entered net
  environment _ _ _ h := (stimulate_stirred h).sendBooks

end Server

private theorem admitted_of_calls {okCall : κ → Prop} {ms : List (Move κ η ν)}
    (h : ∀ k thread, Move.call k thread ∈ ms → okCall k) :
    ∀ m ∈ ms, m.Admitted okCall fun _ => True := by
  intro m hm
  cases m with
  | call k thread => exact h k thread hm
  | _ => trivial

/--
In a run whose datagrams have the sizes a `size_t` holds, `bytes_pending` is exact in every
state if and only if every handler of a send delivers and no session begins, and none of a
server ends, with a send uncompleted.
-/
theorem bytes_pending_exact_iff (net : Net) :
    (∀ s₀, Client.Constructed s₀ → ∀ ms, (∀ k thread, .call k thread ∈ ms → k.isSized) →
      ((∀ c ∈ (Client.system net).states (.initial s₀) ms, PendingExact c.world) ↔
        ∀ t ∈ (Client.system net).trace (.initial s₀) ms,
          unsettles (Client.system net) false t = false)) ∧
    (∀ s₀, Server.Constructed net s₀ → ∀ ms, (∀ k thread, .call k thread ∈ ms → k.isSized) →
      ((∀ c ∈ (Server.system net).states (.initial s₀) ms, PendingExact c.world) ↔
        ∀ t ∈ (Server.system net).trace (.initial s₀) ms,
          unsettles (Server.system net) true t = false)) := by
  constructor
  · intro s₀ hs₀ ms hsized
    obtain ⟨endpoint, own, rfl, -⟩ := hs₀.fresh
    exact (Client.kept net).exact_iff endpoint own (admitted_of_calls hsized)
  · intro s₀ hs₀ ms hsized
    obtain ⟨endpoint, own, rfl, -⟩ := hs₀.fresh
    exact (Server.kept net).exact_iff endpoint own (admitted_of_calls hsized)

theorem bytes_pending_exact_iff_delivered :
    (∀ c ∈ (Client.system .loopback).states
        (.initial (Client.ofAddressPort "127.0.0.1" 5000))
        [.call (.connect (.clean 4)) none, .call (.sendAsync none (.bytes [1, 2])) none,
          .environment (.socket (.complete 0 ⟨.success, 2, default⟩)), .handler (.completion 0)],
      PendingExact c.world) ∧
    (∀ c ∈ (Server.system .loopback).states (.initial (Server.ofPort 5000 .ipv4))
        [.call .start none, .handler (.posted 0 (.clean 4)), .resume 1,
          .call (.sendAsync (some ⟨.v4 1, 7000⟩) (.bytes [1, 2])) none,
          .environment (.complete 0 ⟨.success, 2, default⟩), .handler (.completion 0)],
      PendingExact c.world) := by
  obtain ⟨hclient, hserver⟩ := bytes_pending_exact_iff .loopback
  constructor
  · refine (hclient _ (.ofAddressPort "127.0.0.1" 5000) _ fun k thread hk => ?_).mpr ?_
    · simp only [List.mem_cons, Move.call.injEq, reduceCtorEq, List.not_mem_nil, or_false] at hk
      rcases hk with ⟨rfl, -⟩ | ⟨rfl, -⟩
      · trivial
      · exact (by decide : 2 < 2 ^ 64)
    · decide +kernel
  · refine (hserver _ (.ofPort 5000 .ipv4) _ fun k thread hk => ?_).mpr ?_
    · simp only [List.mem_cons, Move.call.injEq, reduceCtorEq, List.not_mem_nil, or_false,
        false_or] at hk
      rcases hk with ⟨rfl, -⟩ | ⟨rfl, -⟩
      · trivial
      · exact (by decide : 2 < 2 ^ 64)
    · decide +kernel

/--
The bytes of a failed send stay on the counter; a server that is stopped shows none while its
send is not completed; and the send a client disconnects from is never taken off.
-/
theorem bytes_pending_left_behind :
    (∃ c, (Server.system .loopback).run (.initial (Server.ofPort 5000 .ipv4))
        [.call .start none, .handler (.posted 0 (.clean 4)), .resume 1,
          .call (.sendAsync (some ⟨.v4 1, 7000⟩) (.bytes [1, 2])) none,
          .environment (.complete 0 ⟨.noBufferSpace, 0, default⟩),
          .handler (.completion 0)] = some c ∧
      c.world.sends = [] ∧ c.world.bytesPending = 2 ∧ ¬PendingExact c.world) ∧
    (∃ c, (Server.system .loopback).run (.initial (Server.ofPort 5000 .ipv4))
        [.call .start none, .handler (.posted 0 (.clean 4)), .resume 1,
          .call (.sendAsync (some ⟨.v4 1, 7000⟩) (.bytes [1, 2])) none,
          .call .stop none, .handler (.posted 0 (.clean 4))] = some c ∧
      c.world.sends.map datagram = [[1, 2]] ∧ c.world.bytesPending = 0 ∧
      ¬PendingExact c.world) ∧
    (∃ c, (Client.system .loopback).run (.initial (Client.ofAddressPort "127.0.0.1" 5000))
        [.call (.connect (.clean 4)) none, .call (.sendAsync none (.bytes [1, 2])) none,
          .call .disconnect none, .handler (.completion 0)] = some c ∧
      c.world.sends = [] ∧ c.world.bytesPending = 2 ∧ ¬PendingExact c.world) := by
  have hleft {δ : Type} {s : Peer δ} (hnone : s.sends = []) (hbytes : s.bytesPending = 2) :
      ¬PendingExact s := by
    intro hexact
    have hzero := hexact.idle hnone
    rw [hbytes] at hzero
    exact absurd hzero (by decide)
  refine ⟨⟨_, rfl, rfl, rfl, hleft rfl rfl⟩, ⟨_, rfl, rfl, rfl, ?_⟩, _, rfl, rfl, rfl,
    hleft rfl rfl⟩
  intro hexact
  have hlength := hexact.busy _ List.mem_cons_self
  exact absurd hlength (by decide)

end AsioWrapper.Udp
