import AsioWrapper.Udp.LedgerRuns

/-!
# The statistics of a peer

The byte counters are running sums of what the callbacks of the session
report.  The datagram counters are not running counts of these callbacks: the
handler of an asynchronous send reports its bytes without counting the
datagram, and the synchronous and the timed receive count a datagram for every
result they report, errors and timeouts included.
-/

namespace AsioWrapper.Udp

open AsioWrapper.Asio
open AsioWrapper.Foundation

variable {δ π κ η ν : Type}

/-- The callbacks since the last announcement of a session, the latest first. -/
def since (announce : Event) (log : List Event) : List Event :=
  log.reverse.takeWhile fun event => event ≠ announce

theorem since_concat (announce event : Event) (log : List Event) :
    since announce (log ++ [event]) =
      if event = announce then [] else event :: since announce log := by
  by_cases h : event = announce <;> simp [since, h]

/-! ## Bytes -/

def Ledger.BytesAgree (announce : Event) (l : Ledger) : Prop :=
  l.bytesSent = UInt64.ofNat ((since announce l.log).map Event.sentSize).sum ∧
    l.bytesReceived = UInt64.ofNat ((since announce l.log).map Event.receivedSize).sum

theorem Ledger.BytesAgree.entry {announce : Event} {l : Ledger} (h : l.BytesAgree announce)
    (counted : Bool) (event : Event) : (l.entry announce counted event).BytesAgree announce := by
  by_cases hevent : event = announce
  · simp [Ledger.entry, Ledger.BytesAgree, since_concat, hevent]
  · rw [entry_of_ne hevent]
    simp only [Ledger.BytesAgree, since_concat, if_neg hevent, List.map_cons, List.sum_cons,
      UInt64.ofNat_add]
    rw [h.1, h.2, UInt64.add_comm, UInt64.add_comm (UInt64.ofNat event.receivedSize)]
    exact ⟨rfl, rfl⟩

section Runs

variable {S : PeerSystem δ π κ η ν} {announce : Event} {receiveError : κ → Option ErrorCode}

theorem Bookkept.frames (hS : Bookkept S announce receiveError) (s₀ : Peer δ)
    (ms : List (Move κ η ν)) :
    ∀ c ∈ S.states (.initial s₀) ms, ∀ f ∈ c.frames, FrameBooked announce f :=
  Steps.states_invariant (P := fun _ => True)
    (fun _ hpre hstep _ => hS.frames_step hpre hstep)
    (by simp [Config.frames, Config.initial]) (fun _ _ => trivial)

theorem Bookkept.bytesAgree (hS : Bookkept S announce receiveError) (endpoint : Endpoint)
    (own : δ) (ms : List (Move κ η ν)) :
    ∀ c ∈ S.states (.initial (.fresh endpoint own)) ms, c.world.ledger.BytesAgree announce := by
  have hrun : ∀ c ∈ S.states (.initial (.fresh endpoint own)) ms,
      (∀ f ∈ c.frames, FrameBooked announce f) ∧ c.world.ledger.BytesAgree announce := by
    refine Steps.states_invariant (P := fun _ => True) (fun t hpre hstep _ => ?_)
      ⟨by simp [Config.frames, Config.initial], rfl, rfl⟩ (fun _ _ => trivial)
    refine ⟨hS.frames_step hpre.1 hstep, ?_⟩
    cases hS.step hpre.1 hstep with
    | nothing h =>
        rw [h]
        exact hpre.2
    | entry event hsegment h hreceive =>
        rw [h]
        exact hpre.2.entry _ event
  exact fun c hc => (hrun c hc).2

end Runs

/--
Between steps and at the beginning of every callback of a client or a server the byte
counters are the sums, modulo 2^64, of the sizes reported since the last session began.
-/
theorem byte_statistics_agree (net : Net) :
    (∀ s₀, Client.Constructed s₀ → ∀ ms,
      ∀ c ∈ (Client.system net).states (.initial s₀) ms, c.world.ledger.BytesAgree .onConnected) ∧
    (∀ s₀, Server.Constructed net s₀ → ∀ ms,
      ∀ c ∈ (Server.system net).states (.initial s₀) ms, c.world.ledger.BytesAgree .onStarted) := by
  constructor
  · intro s₀ hs₀ ms
    obtain ⟨endpoint, own, rfl, -⟩ := hs₀.fresh
    exact (Client.bookkept net).bytesAgree endpoint own ms
  · intro s₀ hs₀ ms
    obtain ⟨endpoint, own, rfl, -⟩ := hs₀.fresh
    exact (Server.bookkept net).bytesAgree endpoint own ms

theorem byte_statistics_agree_reconnected :
    (∃ c, (Client.system .loopback).run (.initial (Client.ofAddressPort "127.0.0.1" 5000))
        [.call (.connect (.clean 4)) none, .call (.sendAsync none (.bytes [1, 2])) none,
          .environment (.socket (.complete 0 ⟨.success, 2, default⟩)), .call .disconnect none,
          .call (.connect (.clean 4)) none, .handler (.completion 0),
          .call (.receive (.bytes [0, 0, 0]) ⟨.noBufferSpace, 3, default⟩) (some 4)] = some c ∧
      (c.world.bytesSent = 2 ∧ c.world.bytesReceived = 3) ∧
      c.world.ledger.BytesAgree .onConnected) ∧
    (∃ c, (Server.system .loopback).run (.initial (Server.ofPort 5000 .ipv4))
        [.call .start none, .handler (.posted 0 (.clean 4)), .resume 1,
          .call .receiveAsync none, .environment (.complete 0 ⟨.noBufferSpace, 0, default⟩),
          .handler (.completion 0), .resume 3,
          .call (.send none (.bytes [1, 2]) ⟨.success, 2, default⟩) (some 3)] = some c ∧
      (c.world.bytesSent = 2 ∧ c.world.bytesReceived = 0) ∧
      c.world.ledger.BytesAgree .onStarted) := by
  constructor
  · exact Steps.run_and_states
      ((byte_statistics_agree .loopback).1 _ (.ofAddressPort "127.0.0.1" 5000) _)
      ⟨_, rfl, rfl, rfl⟩
  · exact Steps.run_and_states ((byte_statistics_agree .loopback).2 _ (.ofPort 5000 .ipv4) _)
      ⟨_, rfl, rfl, rfl⟩

/-! ## Datagrams -/

def Event.isDatagram (event : Event) : Bool := event.isSent && decide (0 < event.sentSize)

theorem Event.isDatagram_onSent (endpoint : Endpoint) (sent : Nat) :
    (Event.onSent endpoint sent).isDatagram = decide (0 < sent) :=
  rfl

def sentCount (announce : Event) (log : List Event) : Nat :=
  (since announce log).countP Event.isDatagram

def Logs (t : PeerTransition δ π κ η ν) (event : Event) : Prop :=
  t.post.world.log = t.pre.world.log ++ [event]

def ReportsReceive (S : PeerSystem δ π κ η ν) (receiveError : κ → Option ErrorCode)
    (t : PeerTransition δ π κ η ν) : Prop :=
  (∃ endpoint size, Logs t (.onReceived endpoint size)) ∧
    ∃ ec, ReceiveEnds S receiveError t.pre t.move ec ∧ ec.failed = false

open Classical in
noncomputable def receivedCount (S : PeerSystem δ π κ η ν)
    (receiveError : κ → Option ErrorCode) (announce : Event)
    (history : List (PeerTransition δ π κ η ν)) : Nat :=
  (history.reverse.takeWhile fun t => ¬Logs t announce).countP
    fun t => ReportsReceive S receiveError t

def DatagramsExact (S : PeerSystem δ π κ η ν) (receiveError : κ → Option ErrorCode)
    (announce : Event) (history : List (PeerTransition δ π κ η ν)) (s : Peer δ) : Prop :=
  s.datagramsSent = UInt64.ofNat (sentCount announce s.log) ∧
    s.datagramsReceived = UInt64.ofNat (receivedCount S receiveError announce history)

/-- The handler of an asynchronous send that has succeeded, or a synchronous or timed
receive that has failed. -/
inductive Miscounts (S : PeerSystem δ π κ η ν) (receiveError : κ → Option ErrorCode)
    (c : PeerConfig δ π) (m : Move κ η ν) : Prop where
  | sentAsync {origin : Option (Origin π)} {point : Option Event} {sent : Nat}
      (hsegment : S.segment c m = some (origin, point))
      (h : SentAsync origin point c.world sent) (hsent : 0 < sent)
  | receiveFailed {ec : ErrorCode} (hsegment : S.segment c m = some (none, none))
      (hends : ReceiveEnds S receiveError c m ec) (hfailed : ec.failed = true)

theorem sentCount_concat (announce event : Event) (log : List Event) :
    sentCount announce (log ++ [event]) =
      if event = announce then 0
      else sentCount announce log + if event.isDatagram then 1 else 0 := by
  rw [sentCount, since_concat]
  split
  · rfl
  · rw [List.countP_cons, sentCount]

open Classical in
theorem receivedCount_concat (S : PeerSystem δ π κ η ν) (receiveError : κ → Option ErrorCode)
    (announce : Event) (history : List (PeerTransition δ π κ η ν))
    (t : PeerTransition δ π κ η ν) :
    receivedCount S receiveError announce (history ++ [t]) =
      if Logs t announce then 0
      else receivedCount S receiveError announce history +
        if ReportsReceive S receiveError t then 1 else 0 := by
  by_cases h : Logs t announce
  · simp [receivedCount, h]
  · simp [receivedCount, h, List.countP_cons]

private theorem awaitsCall_inj {id id' : Nat} (s : Peer δ)
    (h : (awaitsCall id : Peer δ → Bool) = awaitsCall id') : id = id' := by
  have hone := congrFun h { s with timedCalls := [{ TimedCall.fresh id default with done := 2 }] }
  by_contra hne
  simp [awaitsCall, Peer.timedCall, hne, TimedCall.fresh] at hone

theorem ReceiveEnds.unique {S : PeerSystem δ π κ η ν} {receiveError : κ → Option ErrorCode}
    {c : PeerConfig δ π} {m : Move κ η ν} {ec ec' : ErrorCode}
    (h : ReceiveEnds S receiveError c m ec) (h' : ReceiveEnds S receiveError c m ec') :
    ec = ec' := by
  cases h with
  | call hmove hrun hec =>
      subst hmove
      cases h' with
      | call hmove' hrun' hec' =>
          cases hmove'
          exact Option.some.inj (hec.symm.trans hec')
      | timed hmove' => cases hmove'
      | completion hsegment => cases hsegment
  | timed hmove hstack horigin hwaiting hframe =>
      subst hmove
      cases h' with
      | call hmove' => cases hmove'
      | timed hmove' hstack' _ _ hframe' =>
          cases hmove'
          rw [hstack] at hstack'
          cases hstack'
          rw [awaitsCall_inj c.world (hframe.1.symm.trans hframe'.1)]
      | completion hsegment =>
          simp [System.segment, hstack, horigin] at hsegment
  | completion hsegment =>
      cases h' with
      | call hmove' =>
          subst hmove'
          cases hsegment
      | timed hmove' hstack' horigin' =>
          subst hmove'
          simp [System.segment, hstack', horigin'] at hsegment
      | completion hsegment' =>
          rw [hsegment] at hsegment'
          cases hsegment'
          rfl

theorem tally_iff (n : Nat) (p q : Prop) [Decidable p] [Decidable q] :
    UInt64.ofNat n + (if p then 1 else 0) = UInt64.ofNat (n + if q then 1 else 0) ↔ (p ↔ q) := by
  have hne (x : UInt64) : x + 1 ≠ x := by
    intro h
    have hnat := congrArg UInt64.toNat h
    have hlt := x.toNat_lt
    rw [UInt64.toNat_add, UInt64.toNat_one] at hnat
    omega
  by_cases hp : p <;> by_cases hq : q <;> simp [hp, hq, UInt64.ofNat_add, hne, (hne _).symm]

section Step

variable {S : PeerSystem δ π κ η ν} {announce : Event} {receiveError : κ → Option ErrorCode}
  {t : PeerTransition δ π κ η ν} {origin : Option (Origin π)} {point : Option Event}

theorem ReceiveEnds.segment {c : PeerConfig δ π} {m : Move κ η ν} {ec : ErrorCode}
    (h : ReceiveEnds S receiveError c m ec) (hsegment : S.segment c m = some (origin, point)) :
    point = none ∧ (origin = none ∨
      ∃ op completion, origin = some (.completion op completion) ∧ ec = completion.error) := by
  cases h with
  | call hmove hrun hec =>
      subst hmove
      cases hsegment
      exact ⟨rfl, Or.inl rfl⟩
  | timed hmove hstack horigin hwaiting hframe =>
      subst hmove
      simp only [System.segment, hstack, Option.some.injEq, Prod.mk.injEq] at hsegment
      exact ⟨hsegment.2.symm.trans hwaiting, Or.inl (hsegment.1.symm.trans horigin)⟩
  | completion hsegment' =>
      rw [hsegment] at hsegment'
      cases hsegment'
      exact ⟨rfl, Or.inr ⟨_, _, rfl, rfl⟩⟩

theorem Logs.unique {event event' : Event} (h : Logs t event) (h' : Logs t event') :
    event = event' :=
  List.singleton_inj.mp (List.append_cancel_left (h.symm.trans h'))

theorem Miscounts.logs (hS : Bookkept S announce receiveError)
    (hc : ∀ f ∈ t.pre.frames, FrameBooked announce f)
    (hstep : S.step t.pre t.move = some t.post) (h : Miscounts S receiveError t.pre t.move) :
    (∃ o point endpoint sent, S.segment t.pre t.move = some (some o, point) ∧
        Logs t (.onSent endpoint sent) ∧ 0 < sent) ∨
      (∃ endpoint size ec, S.segment t.pre t.move = some (none, none) ∧
        Logs t (.onReceived endpoint size) ∧ ReceiveEnds S receiveError t.pre t.move ec ∧
        ec.failed = true) := by
  cases h with
  | sentAsync hsegment h hsent =>
      obtain ⟨endpoint, hlogs⟩ := h.reports hS hc hstep hsegment hsent
      obtain ⟨-, -, op, completion, rfl, -⟩ := h
      exact Or.inl ⟨_, _, endpoint, _, hsegment, hlogs, hsent⟩
  | receiveFailed hsegment hends hfailed =>
      obtain ⟨endpoint, size, hlogs⟩ := hends.reports hS hstep hsegment
      exact Or.inr ⟨endpoint, size, _, hsegment, hlogs, hends, hfailed⟩

section Counts

variable (hS : Bookkept S announce receiveError)
  (hc : ∀ f ∈ t.pre.frames, FrameBooked announce f) (hstep : S.step t.pre t.move = some t.post)

include hS hc hstep

theorem counts_sent_iff {endpoint : Endpoint} {sent : Nat}
    (hsegment : S.segment t.pre t.move = some (origin, point))
    (hlogs : Logs t (.onSent endpoint sent))
    (hsent : origin ≠ none → 0 < sent → SentAsync origin point t.pre.world sent) :
    (counts origin point (.onSent endpoint sent) = true ↔ 0 < sent) ↔
      ¬Miscounts S receiveError t.pre t.move := by
  cases origin with
  | none =>
      have hcounts : counts (none : Option (Origin π)) point (.onSent endpoint sent) =
          decide (0 < sent) := by
        cases point <;> rfl
      rw [hcounts, decide_eq_true_iff]
      refine iff_of_true Iff.rfl fun h => ?_
      rcases h.logs hS hc hstep with ⟨o, _, _, _, hsegment', _⟩ | ⟨_, _, _, _, hlogs', _⟩
      · rw [hsegment] at hsegment'
        cases hsegment'
      · cases hlogs.unique hlogs'
  | some o =>
      have hcounts : counts (some o) point (.onSent endpoint sent) = false := by
        cases o <;> cases point <;> rfl
      rw [hcounts]
      constructor
      · intro hzero h
        rcases h.logs hS hc hstep with ⟨_, _, _, _, _, hlogs', hpos⟩ | ⟨_, _, _, hsegment', _⟩
        · cases hlogs.unique hlogs'
          cases hzero.mpr hpos
        · rw [hsegment] at hsegment'
          cases hsegment'
      · intro hfine
        refine ⟨fun h => (by cases h), fun hpos => (hfine ?_).elim⟩
        exact .sentAsync hsegment (hsent (Option.some_ne_none o) hpos) hpos

theorem counts_received_iff {endpoint : Endpoint} {size : Nat}
    (hsegment : S.segment t.pre t.move = some (origin, point))
    (hlogs : Logs t (.onReceived endpoint size))
    (hreceive : origin = none → point = none → ∃ ec, ReceiveEnds S receiveError t.pre t.move ec) :
    (counts origin point (.onReceived endpoint size) = true ↔ ReportsReceive S receiveError t) ↔
      ¬Miscounts S receiveError t.pre t.move := by
  have hreports : ReportsReceive S receiveError t ↔
      ∃ ec, ReceiveEnds S receiveError t.pre t.move ec ∧ ec.failed = false :=
    and_iff_right ⟨endpoint, size, hlogs⟩
  have hmiscounts : Miscounts S receiveError t.pre t.move ↔
      origin = none ∧ ∃ ec, ReceiveEnds S receiveError t.pre t.move ec ∧ ec.failed = true := by
    constructor
    · intro h
      rcases h.logs hS hc hstep with ⟨_, _, _, _, _, hlogs', _⟩ |
        ⟨_, _, _, hsegment', _, hends, hfailed⟩
      · cases hlogs.unique hlogs'
      · rw [hsegment] at hsegment'
        cases hsegment'
        exact ⟨rfl, _, hends, hfailed⟩
    · rintro ⟨rfl, ec, hends, hfailed⟩
      obtain ⟨rfl, -⟩ := hends.segment hsegment
      exact .receiveFailed hsegment hends hfailed
  rw [hreports, hmiscounts]
  by_cases hends : ∃ ec, ReceiveEnds S receiveError t.pre t.move ec
  · obtain ⟨ec, hends⟩ := hends
    have hall (p : ErrorCode → Prop) :
        (∃ ec', ReceiveEnds S receiveError t.pre t.move ec' ∧ p ec') ↔ p ec := by
      constructor
      · rintro ⟨ec', hends', hp⟩
        rwa [hends.unique hends']
      · exact fun hp => ⟨ec, hends, hp⟩
    rw [hall, hall]
    obtain ⟨rfl, rfl | ⟨op, completion, rfl, rfl⟩⟩ := hends.segment hsegment
    · cases ec.failed <;> simp [counts]
    · simp [counts]
  · -- no receive is reported here, so nothing may be counted
    have hcounts : counts origin point (.onReceived endpoint size) = false := by
      cases origin with
      | none =>
          cases point with
          | none => exact (hends (hreceive rfl rfl)).elim
          | some event => rfl
      | some o =>
          cases o with
          | completion op completion =>
              cases point with
              | none => exact (hends ⟨_, .completion hsegment⟩).elim
              | some event => rfl
          | timer id => cases point <;> rfl
          | posted handler => cases point <;> rfl
    have hnone (p : ErrorCode → Prop) :
        ¬∃ ec, ReceiveEnds S receiveError t.pre t.move ec ∧ p ec := by
      rintro ⟨ec, h, -⟩
      exact hends ⟨ec, h⟩
    simp [hcounts, hnone]

theorem not_miscounts_of_logs
    (hlogs : ∀ event, Logs t event → event.isSent = false ∧ event.isReceived = false) :
    ¬Miscounts S receiveError t.pre t.move := by
  intro h
  rcases h.logs hS hc hstep with ⟨_, _, _, _, _, hlogs', _⟩ | ⟨_, _, _, _, hlogs', _⟩
  · cases (hlogs _ hlogs').1
  · cases (hlogs _ hlogs').2

omit hS hc hstep in
theorem not_reportsReceive_of_logs (hlogs : ∀ event, Logs t event → event.isReceived = false) :
    ¬ReportsReceive S receiveError t := by
  rintro ⟨⟨_, _, hlogs'⟩, _⟩
  cases hlogs _ hlogs'

theorem DatagramsExact.nothing {history : List (PeerTransition δ π κ η ν)}
    (h : t.post.world.ledger = t.pre.world.ledger)
    (hexact : DatagramsExact S receiveError announce history t.pre.world) :
    DatagramsExact S receiveError announce (history ++ [t]) t.post.world ↔
      ¬Miscounts S receiveError t.pre t.move := by
  have hsent : t.post.world.datagramsSent = t.pre.world.datagramsSent :=
    congrArg Ledger.datagramsSent h
  have hreceived : t.post.world.datagramsReceived = t.pre.world.datagramsReceived :=
    congrArg Ledger.datagramsReceived h
  have hlog : t.post.world.log = t.pre.world.log := congrArg Ledger.log h
  have hquiet (event : Event) : ¬Logs t event := by
    intro hlogs
    rw [Logs, hlog] at hlogs
    simp at hlogs
  refine iff_of_true ?_ (not_miscounts_of_logs hS hc hstep fun event h => (hquiet event h).elim)
  rw [DatagramsExact, receivedCount_concat, if_neg (hquiet announce),
    if_neg (not_reportsReceive_of_logs fun event h => (hquiet event h).elim), hsent, hreceived,
    hlog]
  exact hexact

theorem DatagramsExact.announced (hannounce : announce.isLifecycle = true)
    {history : List (PeerTransition δ π κ η ν)} {counted : Bool}
    (h : t.post.world.ledger = t.pre.world.ledger.entry announce counted announce) :
    DatagramsExact S receiveError announce (history ++ [t]) t.post.world ↔
      ¬Miscounts S receiveError t.pre t.move := by
  rw [Ledger.entry, if_pos rfl] at h
  have hsent : t.post.world.datagramsSent = 0 := congrArg Ledger.datagramsSent h
  have hreceived : t.post.world.datagramsReceived = 0 := congrArg Ledger.datagramsReceived h
  have hlogs : Logs t announce := congrArg Ledger.log h
  refine iff_of_true ?_ (not_miscounts_of_logs hS hc hstep fun event h => ?_)
  · rw [DatagramsExact, receivedCount_concat, if_pos hlogs, hsent, hreceived, hlogs,
      sentCount_concat, if_pos rfl]
    exact ⟨rfl, rfl⟩
  · rw [h.unique hlogs]
    exact ⟨Event.isSent_of_isLifecycle hannounce, Event.isReceived_of_isLifecycle hannounce⟩

theorem DatagramsExact.entered {history : List (PeerTransition δ π κ η ν)} {event : Event}
    (hne : event ≠ announce) (hsegment : S.segment t.pre t.move = some (origin, point))
    (h : t.post.world.ledger =
      t.pre.world.ledger.entry announce (counts origin point event) event)
    (hreceive : origin = none → point = none → event.isReceived = true →
      ∃ ec, ReceiveEnds S receiveError t.pre t.move ec)
    (hsentAsync : origin ≠ none → 0 < event.sentSize →
      SentAsync origin point t.pre.world event.sentSize)
    (hexact : DatagramsExact S receiveError announce history t.pre.world) :
    DatagramsExact S receiveError announce (history ++ [t]) t.post.world ↔
      ¬Miscounts S receiveError t.pre t.move := by
  classical
  rw [entry_of_ne hne] at h
  have hsent : t.post.world.datagramsSent = t.pre.world.datagramsSent +
      if event.isSent && counts origin point event then 1 else 0 :=
    congrArg Ledger.datagramsSent h
  have hreceived : t.post.world.datagramsReceived = t.pre.world.datagramsReceived +
      if event.isReceived && counts origin point event then 1 else 0 :=
    congrArg Ledger.datagramsReceived h
  have hlogs : Logs t event := congrArg Ledger.log h
  have hannounce : ¬Logs t announce := fun h => hne (hlogs.unique h)
  rw [DatagramsExact, receivedCount_concat, if_neg hannounce, hsent, hreceived, hlogs,
    sentCount_concat, if_neg hne, hexact.1, hexact.2, tally_iff, tally_iff]
  cases event with
  | onSent endpoint sent =>
      have hnone : ¬ReportsReceive S receiveError t :=
        not_reportsReceive_of_logs fun event h => by rw [h.unique hlogs]; rfl
      rw [← counts_sent_iff hS hc hstep hsegment hlogs hsentAsync]
      simp only [Event.isSent, Event.isReceived, Event.isDatagram_onSent, hnone, Bool.true_and,
        Bool.false_and, decide_eq_true_eq, Bool.false_eq_true, and_true]
  | onReceived endpoint size =>
      rw [← counts_received_iff hS hc hstep hsegment hlogs fun horigin hpoint =>
        hreceive horigin hpoint rfl]
      simp [Event.isSent, Event.isReceived, Event.isDatagram]
  | _ =>
      refine iff_of_true ?_ (not_miscounts_of_logs hS hc hstep fun event h => ?_)
      · have hnone : ¬ReportsReceive S receiveError t :=
          not_reportsReceive_of_logs fun event h => by rw [h.unique hlogs]; rfl
        simp [Event.isSent, Event.isReceived, Event.isDatagram, hnone]
      · rw [h.unique hlogs]
        exact ⟨rfl, rfl⟩

theorem DatagramsExact.step_iff (hannounce : announce.isLifecycle = true)
    {history : List (PeerTransition δ π κ η ν)}
    (hexact : DatagramsExact S receiveError announce history t.pre.world) :
    DatagramsExact S receiveError announce (history ++ [t]) t.post.world ↔
      ¬Miscounts S receiveError t.pre t.move := by
  cases hS.step hc hstep with
  | nothing h => exact DatagramsExact.nothing hS hc hstep h hexact
  | entry event hsegment h hreceive hsent =>
      by_cases hevent : event = announce
      · subst hevent
        exact DatagramsExact.announced hS hc hstep hannounce h
      · exact DatagramsExact.entered hS hc hstep hevent hsegment h hreceive hsent hexact

end Counts

end Step

theorem Bookkept.datagramsExact_iff {S : PeerSystem δ π κ η ν} {announce : Event}
    {receiveError : κ → Option ErrorCode} (hS : Bookkept S announce receiveError)
    (hannounce : announce.isLifecycle = true) (endpoint : Endpoint) (own : δ)
    (ms : List (Move κ η ν)) :
    (∀ before c, before <+: ms → S.run (.initial (.fresh endpoint own)) before = some c →
        DatagramsExact S receiveError announce (S.trace (.initial (.fresh endpoint own)) before)
          c.world) ↔
      ∀ t ∈ S.trace (.initial (.fresh endpoint own)) ms,
        ¬Miscounts S receiveError t.pre t.move := by
  constructor
  · intro hexact t ht
    have hframes := hS.frames _ ms _ (Steps.states_pre ht)
    obtain ⟨before, after, rfl, hrun, hstep⟩ := Steps.trace_split ht
    have hpre := hexact before t.pre (List.prefix_append _ _) hrun
    have hpost := hexact (before ++ [t.move]) t.post (by simp)
      ((Steps.run_append hrun).trans (by simp [Steps.run, hstep]))
    rw [System.trace, Steps.trace_concat hrun hstep] at hpost
    exact (DatagramsExact.step_iff hS hframes hstep hannounce hpre).mp hpost
  · rintro hfine before c ⟨after, rfl⟩ hrun
    have hhistory := Steps.run_history
      (J := fun history (c : PeerConfig δ π) => (∀ f ∈ c.frames, FrameBooked announce f) ∧
        DatagramsExact S receiveError announce history c.world)
      (P := fun t => ¬Miscounts S receiveError t.pre t.move)
      (fun history t hpre hstep hfine => ⟨hS.frames_step hpre.1 hstep,
        (DatagramsExact.step_iff hS hpre.1 hstep hannounce hpre.2).mpr hfine⟩)
      ⟨by simp [Config.frames, Config.initial], rfl, rfl⟩ hrun
      (fun t ht => hfine t (Steps.trace_mem_append after ht))
    exact hhistory.2

/--
The datagram counters of a client or a server are exact in every state of a run if and
only if no step of the run miscounts.
-/
theorem datagram_statistics_exact_iff (net : Net) :
    (∀ s₀, Client.Constructed s₀ → ∀ ms,
      (∀ before c, before <+: ms → (Client.system net).run (.initial s₀) before = some c →
        DatagramsExact (Client.system net) Client.Call.receiveError .onConnected
          ((Client.system net).trace (.initial s₀) before) c.world) ↔
        ∀ t ∈ (Client.system net).trace (.initial s₀) ms,
          ¬Miscounts (Client.system net) Client.Call.receiveError t.pre t.move) ∧
    (∀ s₀, Server.Constructed net s₀ → ∀ ms,
      (∀ before c, before <+: ms → (Server.system net).run (.initial s₀) before = some c →
        DatagramsExact (Server.system net) Server.Call.receiveError .onStarted
          ((Server.system net).trace (.initial s₀) before) c.world) ↔
        ∀ t ∈ (Server.system net).trace (.initial s₀) ms,
          ¬Miscounts (Server.system net) Server.Call.receiveError t.pre t.move) := by
  constructor
  · intro s₀ hs₀ ms
    obtain ⟨endpoint, own, rfl, -⟩ := hs₀.fresh
    exact (Client.bookkept net).datagramsExact_iff rfl endpoint own ms
  · intro s₀ hs₀ ms
    obtain ⟨endpoint, own, rfl, -⟩ := hs₀.fresh
    exact (Server.bookkept net).datagramsExact_iff rfl endpoint own ms

/-- An asynchronous send of two bytes is reported and not counted. -/
theorem datagram_statistics_lose_async_send :
    ∃ ms c, (Client.system .loopback).run
        (.initial (Client.ofAddressPort "127.0.0.1" 5000)) ms = some c ∧
      c.world.log = [.onConnected, .onSent ⟨.v4 0x7f000001, 5000⟩ 2] ∧
      ¬DatagramsExact (Client.system .loopback) Client.Call.receiveError .onConnected
        ((Client.system .loopback).trace (.initial (Client.ofAddressPort "127.0.0.1" 5000)) ms)
        c.world := by
  refine ⟨[.call (.connect (.clean 4)) none, .call (.sendAsync none (.bytes [1, 2])) none,
    .environment (.socket (.complete 0 ⟨.success, 2, default⟩)), .handler (.completion 0)],
    _, rfl, rfl, ?_⟩
  rintro ⟨hsent, -⟩
  have hzero : (0 : UInt64) = UInt64.ofNat 1 := hsent
  exact absurd hzero (by decide)

private theorem not_miscounts_of_call {S : PeerSystem δ π κ η ν}
    {receiveError : κ → Option ErrorCode} {c : PeerConfig δ π} {k : κ} {thread : Option Nat}
    (hk : receiveError k = none) :
    ¬Miscounts S receiveError c (.call k thread) := by
  rintro (⟨hsegment, ⟨-, -, op, completion, rfl, -⟩, -⟩ | ⟨-, hends, -⟩)
  · cases hsegment
  · cases hends with
    | call hmove hrun hec =>
        cases hmove
        rw [hk] at hec
        cases hec
    | timed hmove => cases hmove
    | completion hsegment => cases hsegment

theorem datagram_statistics_exact_iff_sent :
    ∃ c, (Client.system .loopback).run (.initial (Client.ofAddressPort "127.0.0.1" 5000))
        [.call (.connect (.clean 4)) none,
          .call (.send none (.bytes [1, 2]) ⟨.success, 2, default⟩) none] = some c ∧
      c.world.datagramsSent = 1 ∧
      DatagramsExact (Client.system .loopback) Client.Call.receiveError .onConnected
        ((Client.system .loopback).trace (.initial (Client.ofAddressPort "127.0.0.1" 5000))
          [.call (.connect (.clean 4)) none,
            .call (.send none (.bytes [1, 2]) ⟨.success, 2, default⟩) none]) c.world := by
  refine ⟨_, rfl, rfl, ?_⟩
  refine ((datagram_statistics_exact_iff .loopback).1 _ (.ofAddressPort "127.0.0.1" 5000) _).mpr
    (fun t ht => ?_) _ _ (List.prefix_refl _) rfl
  have hmove := Steps.trace_move_mem t ht
  simp only [List.mem_cons, List.not_mem_nil, or_false] at hmove
  rcases hmove with h | h
  · rw [h]
    exact not_miscounts_of_call rfl
  · rw [h]
    exact not_miscounts_of_call rfl

end AsioWrapper.Udp
