import AsioWrapper.Udp.MulticastReceive

/-!
# Is the stop of the multicast client final?

`DisconnectAndStop` waits until the client is not connected.  It does not wait
for what may still connect it: a connect handler that is posted already, a
`ReconnectAsync` that has not posted its own yet, or an `onDisconnected` that
has found `_stop` unset.  Without these the stop is final.
-/

namespace AsioWrapper.Udp

open AsioWrapper.Asio
open AsioWrapper.Foundation
open AsioWrapper.Foundation.Program

namespace MulticastClient

structure Still (count : Nat) (s : Client) : Prop where
  running : s.running = false
  posted : .connect ∉ s.own.posted
  connected : s.log.count .onConnected = count

def Stays (s s' : Client) : Prop := ∀ count, Still count s → Still count s'

theorem Stays.refl (s : Client) : Stays s s := fun _ h => h

theorem Stays.trans {s s' s'' : Client} (h : Stays s s') (h' : Stays s' s'') : Stays s s'' :=
  fun count hs => h' count (h count hs)

/-! ## The code of the base class -/

section Base

abbrev Staying {α : Type} (m : Client.Code α) : Prop := Relates Stays m

theorem Staying.update {f : Client → Client} (h : ∀ s, Stays s (f s)) :
    Staying (Program.update f) :=
  Triple.update fun _ _ s hs _ => hs.trans (h s)

theorem stays_of_eq {s s' : Client} (hrun : s'.running = s.running)
    (hposted : s'.own.posted = s.own.posted) (hlog : s'.log = s.log) : Stays s s' :=
  fun _ hs => ⟨hrun.trans hs.running, hposted ▸ hs.posted, hlog ▸ hs.connected⟩

theorem fire_staying {event : Event} (h : event ≠ .onConnected) :
    Staying (fire event : Client.Code Unit) := by
  refine Triple.bind (Staying.update fun s count hs => ?_) fun _ => Relates.callback Stays.refl _
  refine ⟨hs.running, hs.posted, ?_⟩
  simpa [Peer.logged, List.count_append, h] using hs.connected

private theorem sendError_staying (ec : ErrorCode) : Staying (sendError ec : Client.Code Unit) := by
  apply Triple.ite
  · exact fun _ => Triple.pure ()
  · exact fun _ => fire_staying (fun h => by cases h)

private theorem makeAddress_staying (net : Net) (text : String) :
    Staying (makeAddress net text : Client.Code Address) := by
  unfold makeAddress
  split
  · exact Triple.pure _
  · exact fun _ _ _ hs _ => hs

private theorem receiveAsync_staying : Staying Client.receiveAsync := by
  refine Relates.state fun s => Triple.ite (fun _ => Triple.pure _) fun _ => ?_
  refine Triple.ite (fun _ => Triple.pure _) fun _ => ?_
  exact Staying.update fun s => stays_of_eq rfl rfl rfl

private theorem joinMulticastGroup_staying (net : Net) (address : String) (answer : ErrorCode) :
    Staying (Client.joinMulticastGroup net address answer) := by
  refine Relates.state fun s => Triple.ite (fun _ => Triple.pure _) fun _ => ?_
  refine (makeAddress_staying net address).bind fun _ => Triple.ite (fun _ => ?_) fun _ => ?_
  · exact fun _ _ _ hs _ => hs
  · exact fire_staying (fun h => by cases h)

theorem disconnectInternal_staying : Staying Client.disconnectInternal := by
  refine Relates.state fun s => Triple.ite (fun _ => Triple.pure _) fun _ => ?_
  refine Triple.bind (Staying.update fun s => stays_of_eq rfl rfl rfl) fun _ => ?_
  refine Triple.bind (Staying.update fun s => stays_of_eq rfl rfl rfl) fun _ => ?_
  refine Triple.bind (Staying.update fun s count hs => ⟨rfl, hs.posted, hs.connected⟩) fun _ => ?_
  exact (fire_staying (fun h => by cases h)).bind fun _ => Triple.pure _

theorem disconnectInternalAsync_staying (dispatch : Bool) :
    Staying (Client.disconnectInternalAsync dispatch) := by
  refine Relates.state fun s => Triple.ite (fun _ => Triple.pure _) fun _ => ?_
  refine Triple.bind (Staying.update fun s => ?_) fun _ => ?_
  · split
    · exact stays_of_eq rfl rfl rfl
    · exact Stays.refl s
  · refine Triple.ite (fun _ => ?_) fun _ => ?_
    · exact disconnectInternal_staying.discard.bind fun _ => Triple.pure _
    · refine Triple.bind (Staying.update fun s count hs => ?_) fun _ => Triple.pure _
      refine ⟨hs.running, ?_, hs.connected⟩
      simpa using hs.posted

private theorem asyncFailed_staying (ec : ErrorCode) : Staying (Client.asyncFailed ec) :=
  (sendError_staying ec).bind fun _ => (disconnectInternalAsync_staying true).discard

private theorem asyncReceiveHandler_staying (op : Operation) (completion : Completion) :
    Staying (asyncReceiveHandler Client.asyncFailed op completion) := by
  refine Triple.bind (Staying.update fun s => stays_of_eq rfl rfl rfl) fun _ => ?_
  refine Relates.state fun s => Triple.ite (fun _ => Triple.pure _) fun _ => ?_
  refine Triple.ite (fun _ => (asyncFailed_staying _).bind fun _ => Triple.pure _) fun _ => ?_
  refine Triple.bind (Staying.update fun s => stays_of_eq rfl rfl rfl) fun _ => ?_
  refine Relates.state fun s => (fire_staying (fun h => by cases h)).bind fun _ => ?_
  refine Relates.state fun s => Triple.ite (fun _ => ?_) fun _ => Triple.pure _
  refine Triple.ite (fun _ => (asyncFailed_staying _).bind fun _ => Triple.pure _) fun _ => ?_
  exact Staying.update fun s => stays_of_eq rfl rfl rfl

end Base

/-! ## The outline of a stopped client -/

def Stopped (count : Nat) (t : MulticastClient) : Prop := t.stop = true ∧ Still count t.client

def stopped (count : Nat) : Option Pause → MulticastClient → Prop
  | some .reconnecting, _ => False
  | _, t => Stopped count t

section Outline

variable {count : Nat} {net : Net} {group : ErrorCode} {α : Type}

theorem Staying.inherited_holds {m : Client.Code α} (hm : Staying m) :
    Holds (stopped count) (Stopped count) (inherited m) fun _ => Stopped count :=
  Derives.of_obeys (hm.obeys Stays.refl) (fun _ => Iff.rfl) (fun _ _ h => h)
    (fun _ _ ht hs => ⟨ht.1, hs count ht.2⟩) fun _ => Holds.pure fun _ h => h

private theorem onDisconnected_stopped :
    Holds (stopped count) (Stopped count) onDisconnected fun _ => Stopped count := by
  apply Holds.state
  intro t
  refine Holds.ite (fun hstop => ?_) fun _ => Holds.pure fun _ ht => ht.1 ▸ ht.2
  refine Holds.bind (B := fun _ _ => False) (Holds.callback ?_ fun _ h => h) fun _ => ?_
  · rintro _ ⟨rfl, ht⟩
    simp [ht.1] at hstop
  · refine Derives.discard (Derives.state fun t => Derives.ite (fun _ => ?_) fun _ => ?_)
    · exact Derives.pure fun _ ht => ht.2.elim
    · exact Derives.updated (Derives.pure fun _ ⟨_, ht, _⟩ => ht.2.elim)

theorem override_stopped (event : Event) :
    Holds (stopped count) (Stopped count) (override net group event)
      fun _ => Stopped count := by
  unfold override
  split
  · apply Holds.state
    intro t
    have hjoin : Holds (stopped count) (Stopped count)
        (inherited (Client.joinMulticastGroup net t.multicast group)) fun _ => Stopped count :=
      (joinMulticastGroup_staying net t.multicast group).inherited_holds
    refine Holds.bind (Holds.weaken hjoin ?_ fun _ _ h => h) fun _ =>
      receiveAsync_staying.inherited_holds
    rintro _ ⟨rfl, ht⟩
    exact ht
  · exact onDisconnected_stopped
  · exact receiveAsync_staying.inherited_holds
  · exact Holds.pure fun _ h => h

abbrev Dies {α : Type} (count : Nat) (net : Net) (group : ErrorCode)
    (A : MulticastClient → Prop) (m : Client.Code α) (B : α → MulticastClient → Prop) : Prop :=
  Derives udpClient .callback (override net group) (stopped count) A m B

theorem Staying.dies {m : Client.Code α} (hm : Staying m) :
    Dies count net group (Stopped count) m fun _ => Stopped count :=
  Derives.of_obeys (hm.obeys Stays.refl) (fun _ => Iff.rfl) (fun _ _ h => h)
    (fun _ _ ht hs => ⟨ht.1, hs count ht.2⟩) override_stopped

/-! A stopped client does not begin to connect, so the code from there to the callback is dead. -/

private theorem attempt_dies (call : SocketCall) (answer : ErrorCode) (effect : Client → Client) :
    Dies count net group (fun _ => False) (attempt call answer effect) fun _ _ => False := by
  refine Derives.ite (fun _ => ?_) fun _ => Derives.update fun _ h => h
  exact Derives.updated (Derives.throw fun _ ⟨_, h, _⟩ => h.elim)

private theorem whenever_dies {c : Bool} {m : Client.Code Unit}
    (hm : Dies count net group (fun _ => False) m fun _ _ => False) :
    Dies count net group (fun _ => False) (whenever c m) fun _ _ => False :=
  Derives.ite (fun _ => hm) fun _ => Derives.pure fun _ h => h

private theorem openSession_dies (answers : SocketAnswers) :
    Dies count net group (fun _ => False) (openSession answers Client.bindTo .onConnected)
      fun _ => Stopped count := by
  refine Derives.state fun t => Derives.weaken ?_ (fun _ h => h.2) fun _ _ h => h
  refine Derives.bind (attempt_dies _ _ _) fun _ => ?_
  refine Derives.bind (whenever_dies (attempt_dies _ _ _)) fun _ => ?_
  refine Derives.bind (whenever_dies (attempt_dies _ _ _)) fun _ => ?_
  refine Derives.bind (attempt_dies _ _ _) fun _ => ?_
  refine Derives.bind (attempt_dies _ _ _) fun _ => ?_
  refine Derives.updated (Derives.updated (Derives.callback ?_ (override_stopped _)))
  rintro _ ⟨_, ⟨_, h, _⟩, _⟩
  exact h.elim

private theorem connect_dies (answers : SocketAnswers) :
    Dies count net group (fun _ => False) (Client.connect net answers)
      fun _ => Stopped count := by
  refine Derives.state fun t => Derives.weaken ?_ (fun _ h => h.2) fun _ _ h => h
  have hdead (value : Bool) :
      Dies count net group (fun _ => False) (pure value) fun _ => Stopped count :=
    Derives.pure fun _ h => h.elim
  refine Derives.ite (fun _ => hdead false) fun _ => ?_
  refine Derives.ite (fun _ => hdead false) fun _ => ?_
  refine Derives.ite (fun _ => hdead false) fun _ => ?_
  refine Derives.bind (B := fun _ _ => False) ?_ fun address => ?_
  · unfold makeAddress
    split
    · exact Derives.pure fun _ h => h
    · exact Derives.throw fun _ h => h.elim
  · refine Derives.bind (B := fun _ _ => False) (Derives.update fun _ h => h) fun _ => ?_
    exact (openSession_dies answers).bind fun _ => Derives.pure fun _ h => h

private theorem unpost_staying (index : Nat) : Staying (Client.unpost index) := by
  apply Staying.update
  intro s count hs
  exact ⟨hs.running, fun h => hs.posted (List.mem_of_mem_eraseIdx h), hs.connected⟩

private theorem handler_stopped {pending : Pending} {t : MulticastClient}
    {origin : Origin Client.Handler} {program : Code Unit} (ht : assertion net False none t)
    (h : handler net pending t = some (origin, program)) :
    Holds (stopped count) (fun t' => t' = t ∧ Stopped count t) program
      fun _ => Stopped count := by
  have hsame : ∀ t', (t' = t ∧ Stopped count t) → Stopped count t' := by
    rintro _ ⟨rfl, ht⟩
    exact ht
  cases (plain_of_assertion ht).begins h with
  | receive id op completion =>
      exact (asyncReceiveHandler_staying op completion).dies.weaken hsame fun _ _ h => h
  | connect answers hposted =>
      refine Derives.bind (B := fun _ _ => False) (Derives.update ?_) fun _ =>
        (connect_dies answers).discard
      rintro _ ⟨rfl, ht⟩
      exact ht.2.posted (List.mem_of_getElem? hposted)
  | disconnect answers hposted =>
      refine Derives.bind ((unpost_staying _).dies.weaken hsame fun _ _ h => h) fun _ => ?_
      exact disconnectInternal_staying.dies.discard

def Keeping (count : Nat) (t t' : MulticastClient) : Prop :=
  ∀ p, stopped count p t → stopped count p t'

theorem Keeping.refl (t : MulticastClient) : Keeping count t t := fun _ h => h

theorem Keeping.trans (t t' t'' : MulticastClient) (h : Keeping count t t')
    (h' : Keeping count t' t'') : Keeping count t t'' :=
  fun p ht => h' p (h p ht)

theorem keeping_of_stopped {t t' : MulticastClient} (h : Stopped count t → Stopped count t') :
    Keeping count t t' := by
  intro p ht
  unfold stopped at ht ⊢
  split at ht
  · exact ht
  · exact h ht

theorem Staying.keeping {m : Client.Code α} (hm : Staying m) :
    Relates (Keeping count) (inherited m) :=
  Relates.derive Keeping.refl Keeping.trans
    (fun _ _ hs => keeping_of_stopped fun ht => ⟨ht.1, hs count ht.2⟩) (fun _ => Triple.pure ())
    (hm.obeys Stays.refl)

private theorem disconnectAndStop_keeping : Relates (Keeping count) disconnectAndStop := by
  refine Triple.bind (Triple.update fun _ _ t ht _ => ?_) fun _ => ?_
  · exact ht.trans _ _ _ (keeping_of_stopped fun h => ⟨rfl, h.2⟩)
  · refine Triple.bind (Relates.waitUntil Keeping.refl _) fun _ => ?_
    refine Triple.bind (Staying.keeping ?_) fun _ => Relates.waitUntil Keeping.refl _
    exact (disconnectInternalAsync_staying false).discard

theorem environment_stays {stimulus : Client.Stimulus} {t t' : MulticastClient}
    (h : environment stimulus t = some t') : Stays t.client t'.client ∧ t'.stop = t.stop := by
  obtain ⟨client, hclient, rfl⟩ := Option.map_eq_some_iff.mp h
  refine ⟨?_, rfl⟩
  cases stimulus with
  | socket stimulus =>
      cases stimulus <;> simp only [Client.environment, stimulate] at hclient <;>
        split at hclient <;> cases hclient
      · exact stays_of_eq rfl rfl rfl
      · exact stays_of_eq rfl rfl rfl
  | resolve index resolution =>
      simp only [Client.environment] at hclient
      split at hclient <;> cases hclient
      exact stays_of_eq rfl rfl rfl

def Call.connects : Call → Bool
  | .connectAsync | .reconnectAsync => true
  | _ => false

theorem system_stopped (net : Net) (count : Nat) :
    (system net).Outlines (fun k => k.connects = false) (fun _ => True)
      (assertion net False none) (stopped count) where
  call k inside hk := by
    cases k with
    | setupMulticast enable =>
        have hsetup : Staying (Client.call net inside (.setupMulticast enable)) :=
          Staying.update fun s => stays_of_eq rfl rfl rfl
        exact hsetup.keeping.obeys Keeping.refl
    | connectAsync => cases hk
    | reconnectAsync => cases hk
    | disconnectAndStop => exact disconnectAndStop_keeping.obeys Keeping.refl
  handler pending t origin program _ ht hfound := handler_stopped ht hfound
  environment stimulus t t' h := by
    obtain ⟨hstays, hstop⟩ := environment_stays h
    exact keeping_of_stopped fun ht => ⟨hstop.trans ht.1, hstays count ht.2⟩

end Outline

/-! ## `_stop` is never unset -/

section Flag

variable {net : Net} {group : ErrorCode} {α : Type}

def Told (t t' : MulticastClient) : Prop := t.stop = true → t'.stop = true

theorem Told.refl (t : MulticastClient) : Told t t := id

theorem Told.trans (t t' t'' : MulticastClient) (h : Told t t') (h' : Told t' t'') :
    Told t t'' :=
  h' ∘ h

theorem derive_told {override : Event → Code Unit} (h : ∀ event, Relates Told (override event))
    (m : Client.Code α) : Relates Told (m.derive udpClient .callback override) := by
  refine Relates.derive (Q := fun _ _ => True) Told.refl Told.trans (fun _ _ _ ht => ht) h ?_
  exact fun s => Outcome.segments_of_forall (fun _ _ _ _ => trivial) (fun _ _ _ _ => trivial) _ _ _

theorem inherited_told (m : Client.Code α) : Relates Told (inherited m) :=
  derive_told (fun _ => Triple.pure ()) m

private theorem override_told (event : Event) : Relates Told (override net group event) := by
  unfold override
  split
  · exact Relates.state fun t => (inherited_told _).bind fun _ => inherited_told _
  · refine Relates.state fun t => Triple.ite (fun _ => ?_) fun _ => Triple.pure ()
    exact Triple.bind (Relates.callback Told.refl _) fun _ => inherited_told _
  · exact inherited_told _
  · exact Triple.pure ()

private theorem call_told (inside : Bool) (k : Call) : Relates Told (call net inside k) := by
  cases k with
  | disconnectAndStop =>
      refine Triple.bind (Triple.update fun _ _ t ht _ _ => rfl) fun _ => ?_
      refine Triple.bind (Relates.waitUntil Told.refl _) fun _ => ?_
      exact (inherited_told _).bind fun _ => Relates.waitUntil Told.refl _
  | _ => exact inherited_told _

theorem system_told (net : Net) :
    (system net).Obeys (fun _ => True) (fun _ => True) (Keeps fun t => t.stop = true) where
  call k inside _ := (call_told inside k).obeys Told.refl
  handler pending t origin program _ hfound := by
    obtain ⟨⟨_, base⟩, -, heq⟩ := Option.map_eq_some_iff.mp hfound
    cases heq
    exact (derive_told override_told base).obeys Told.refl t

end Flag

/-! ## What a run leads to -/

abbrev Run : Type := Config MulticastClient Pause ErrorCode (Origin Client.Handler)

abbrev Step : Type := Transition Run (Move Call Pending Client.Stimulus)

/-- The overrides are all the code of a callback, so no call is made from inside one and
none is left by an exception. -/
def Outside : Move Call Pending Client.Stimulus → Prop
  | .call _ (some _) | .unwind _ => False
  | _ => True

theorem Outside.ne_unwind {m : Move Call Pending Client.Stimulus} (h : Outside m) (i : Nat) :
    m ≠ .unwind i := by
  rintro rfl
  exact h

theorem admitted_joins (m : Move Call Pending Client.Stimulus) :
    m.Admitted (fun _ => True) fun pending => False → Joins pending := by
  cases m with
  | handler pending => exact False.elim
  | _ => trivial

def Departs (_ : Option (Origin Client.Handler)) (_ : Option Pause) (_ : MulticastClient)
    (stop : Stop Pause ErrorCode) (finish : MulticastClient) : Prop :=
  stop = .waiting ∨ finish.client.running = false

theorem inherited_returns {α : Type} {m : Client.Code α} {t : MulticastClient}
    (h : ∃ value s, m t.client = .ret value s) :
    ∃ t', inherited (discard m) t = .ret () t' := by
  obtain ⟨value, s, hm⟩ := h
  refine ⟨{ t with client := s }, ?_⟩
  change ((m t.client).bind fun _ s => .ret () s).derive udpClient Pause.callback _ t = _
  rw [hm]
  rfl

private theorem connectAsync_returns (s : Client) :
    ∃ value s', Client.connectAsync s = .ret value s' := by
  change ∃ value s', (if s.running then (pure false : Client.Code Bool) else _) s = .ret value s'
  split
  · exact ⟨_, _, rfl⟩
  · exact ⟨_, _, rfl⟩

private theorem disconnectAsync_returns (s : Client) :
    ∃ value s', Client.disconnectAsync s = .ret value s' := by
  change ∃ value s', (if !s.running then (pure false : Client.Code Bool) else _) s = .ret value s'
  split
  · exact ⟨_, _, rfl⟩
  · exact ⟨_, _, rfl⟩

private theorem disconnectAndStop_departs : disconnectAndStop.Obeys (Departs none) := by
  intro t
  refine ⟨Or.inl rfl, fun t' _ => ?_⟩
  -- after the pause the disconnect is posted, and the rest is one wait
  obtain ⟨t'', hposted⟩ := inherited_returns (disconnectAsync_returns t'.client)
  change ((inherited (discard Client.disconnectAsync) t').bind fun _ =>
    waitUntil fun t => !t.client.running).Segments _ _ none t'
  rw [hposted]
  refine ⟨Or.inl rfl, fun t hready => Or.inr ?_⟩
  simpa using hready

def Harmless (f : Frame MulticastClient Pause ErrorCode (Origin Client.Handler)) : Prop :=
  ∀ count, f.Obeys (Foundation.Follows (stopped count))

def OpenedBy (k : Call) (past : List Step) (i : Nat) : Prop :=
  ∃ u ∈ past, u.move = .call k none ∧ u.pre.threads.length = i

structure Reached (net : Net) (past : List Step) (c : Run) : Prop where
  outlined : c.Outlined (assertion net False)
  told : ∀ f ∈ c.frames, f.Obeys (Keeps fun t => t.stop = true)
  opened : ∀ k i, OpenedBy k past i → i < c.threads.length
  stop : ∀ i, OpenedBy .disconnectAndStop past i → c.world.stop = true
  harmless : c.Threads fun i f => Harmless f ∨ OpenedBy .reconnectAsync past i
  departs : c.Threads fun i f => OpenedBy .disconnectAndStop past i → f.Obeys Departs

section Step

variable {net : Net} {past : List Step} {t : Step}

theorem openedBy_concat {k : Call} {i : Nat} (h : OpenedBy k (past ++ [t]) i) :
    OpenedBy k past i ∨ t.move = .call k none ∧ t.pre.threads.length = i := by
  obtain ⟨u, hu, hmove, hi⟩ := h
  rcases List.mem_append.mp hu with hu | hu
  · exact Or.inl ⟨u, hu, hmove, hi⟩
  · cases List.mem_singleton.mp hu
    exact Or.inr ⟨hmove, hi⟩

theorem OpenedBy.concat {k : Call} {i : Nat} (h : OpenedBy k past i) :
    OpenedBy k (past ++ [t]) i := by
  obtain ⟨u, hu, hmove, hi⟩ := h
  exact ⟨u, List.mem_append_left _ hu, hmove, hi⟩

theorem Reached.opened_step (h : Reached net past t.pre)
    (hstep : (system net).step t.pre t.move = some t.post) (k : Call) (i : Nat)
    (hi : OpenedBy k (past ++ [t]) i) : i < t.post.threads.length := by
  rcases openedBy_concat hi with hi | ⟨hmove, rfl⟩
  · exact Nat.lt_of_lt_of_le (h.opened k i hi) (System.step_length hstep)
  · rw [hmove] at hstep
    generalize t.post = c' at hstep
    cases System.stepped hstep
    simp

private theorem environment_stop {stimulus : Client.Stimulus} {t t' : MulticastClient}
    (h : environment stimulus t = some t') : t'.stop = t.stop :=
  (environment_stays h).2

theorem Reached.told_step (h : Reached net past t.pre)
    (hstep : (system net).step t.pre t.move = some t.post) :
    (∀ f ∈ t.post.frames, f.Obeys (Keeps fun t => t.stop = true)) ∧
      (t.pre.world.stop = true → t.post.world.stop = true) := by
  have hadmitted : t.move.Admitted (fun _ => True) fun _ => True := by
    cases t.move <;> trivial
  obtain ⟨hframes, hcase⟩ := System.step_cases (system_told net) h.told hadmitted hstep
  refine ⟨hframes, fun hstop => ?_⟩
  rcases hcase with ⟨origin, point, stop, -, hexecuted⟩ | ⟨-, hundisturbed⟩
  · exact hexecuted.world hstop
  · rcases hundisturbed.world with hworld | ⟨e, -, he⟩
    · rw [hworld]
      exact hstop
    · exact (environment_stop he).trans hstop

theorem Reached.stop_step (h : Reached net past t.pre)
    (hstep : (system net).step t.pre t.move = some t.post) (i : Nat)
    (hi : OpenedBy .disconnectAndStop (past ++ [t]) i) : t.post.world.stop = true := by
  rcases openedBy_concat hi with hi | ⟨hmove, -⟩
  · exact (h.told_step hstep).2 (h.stop i hi)
  · rw [hmove] at hstep
    generalize t.post = c' at hstep
    cases System.stepped hstep
    rw [Config.spawn_world]
    rfl

private theorem suspends_of_returns
    {G : Frame MulticastClient Pause ErrorCode (Origin Client.Handler) → Prop}
    {o : Outcome MulticastClient Pause ErrorCode Unit} (h : ∃ t, o = .ret () t) :
    o.Suspends G none := by
  obtain ⟨t, rfl⟩ := h
  trivial

theorem Reached.harmless_step (h : Reached net past t.pre) (hmove : Outside t.move)
    (hstep : (system net).step t.pre t.move = some t.post) :
    t.post.Threads fun i f => Harmless f ∨ OpenedBy .reconnectAsync (past ++ [t]) i := by
  refine System.threads_of_step (fun k thread inside hcall => ?_)
    (fun pending origin program _ hidle hfound => ?_) (fun i f rest hstack hready => ?_)
    (fun i stack hstack f hf => (h.harmless i stack hstack f hf).imp_right OpenedBy.concat) hstep
  · rw [hcall] at hmove
    cases thread with
    | some i => exact hmove.elim
    | none =>
        cases k with
        | setupMulticast enable => exact suspends_of_returns ⟨_, rfl⟩
        | connectAsync => exact suspends_of_returns (inherited_returns (connectAsync_returns _))
        | reconnectAsync =>
            refine .of_forall fun f => Or.inr ?_
            exact ⟨t, List.mem_append_right _ (List.mem_singleton_self t), hcall, rfl⟩
        | disconnectAndStop =>
            refine (Outcome.Suspends.forall fun count => ?_).imp fun f hf => Or.inl hf
            exact Outcome.suspends_obeys
              ((system_stopped net count).call .disconnectAndStop inside rfl t.pre.world)
  · refine (Outcome.Suspends.forall fun count => ?_).imp fun f hf => Or.inl hf
    exact Outcome.suspends_obeys
      ((system_stopped net count).handler_follows trivial (h.outlined.of_idle hidle) hfound)
  · rcases h.harmless i _ hstack f List.mem_cons_self with hf | hopened
    · refine (Outcome.Suspends.forall fun count => ?_).imp fun f hf => Or.inl hf
      exact Outcome.suspends_obeys (hf count t.pre.world hready)
    · exact .of_forall fun f => Or.inr hopened.concat

theorem Reached.departs_step (h : Reached net past t.pre) (hmove : Outside t.move)
    (hstep : (system net).step t.pre t.move = some t.post) :
    t.post.Threads fun i f =>
      OpenedBy .disconnectAndStop (past ++ [t]) i → f.Obeys Departs := by
  -- a thread that is there already was not opened by this transition
  have hold : ∀ i stack, t.pre.threads[i]? = some stack →
      OpenedBy .disconnectAndStop (past ++ [t]) i → OpenedBy .disconnectAndStop past i := by
    intro i stack hstack hi
    rcases openedBy_concat hi with hi | ⟨-, rfl⟩
    · exact hi
    · simp at hstack
  have hnew : ¬OpenedBy .disconnectAndStop past t.pre.threads.length := fun hi =>
    Nat.lt_irrefl _ (h.opened _ _ hi)
  refine System.threads_of_step (fun k thread inside hcall => ?_)
    (fun pending origin program hhandler hidle hfound => ?_) (fun i f rest hstack hready => ?_)
    (fun i stack hstack f hf hi => h.departs i stack hstack f hf (hold i stack hstack hi)) hstep
  · rw [hcall] at hmove
    cases thread with
    | some i => exact hmove.elim
    | none =>
        by_cases hk : k = .disconnectAndStop
        · subst hk
          exact (Outcome.suspends_obeys (disconnectAndStop_departs t.pre.world)).imp
            fun f hf _ => hf
        · refine .of_forall fun f hi => ?_
          rcases openedBy_concat hi with hi | ⟨hcall', -⟩
          · exact absurd hi hnew
          · rw [hcall] at hcall'
            cases hcall'
            exact absurd rfl hk
  · refine .of_forall fun f hi => ?_
    rcases openedBy_concat hi with hi | ⟨hcall, -⟩
    · exact absurd hi hnew
    · rw [hhandler] at hcall
      cases hcall
  · by_cases hi : OpenedBy .disconnectAndStop (past ++ [t]) i
    · have hf := h.departs i _ hstack f List.mem_cons_self (hold i _ hstack hi)
      exact (Outcome.suspends_obeys (hf t.pre.world hready)).imp fun f hf _ => hf
    · exact .of_forall fun f hi' => absurd hi' hi

theorem Reached.step (h : Reached net past t.pre)
    (hstep : (system net).step t.pre t.move = some t.post) (hmove : Outside t.move) :
    Reached net (past ++ [t]) t.post where
  outlined := (system_outlines net False).step h.outlined.of_idle h.outlined
    (admitted_joins t.move) hmove.ne_unwind hstep
  told := (h.told_step hstep).1
  opened := h.opened_step hstep
  stop := h.stop_step hstep
  harmless := h.harmless_step hmove hstep
  departs := h.departs_step hmove hstep

end Step

/-! ## The return of `DisconnectAndStop` -/

section Return

variable {net : Net} {past : List Step} {c c' : Run} {m : Move Call Pending Client.Stimulus}

end Return

end MulticastClient

end AsioWrapper.Udp
