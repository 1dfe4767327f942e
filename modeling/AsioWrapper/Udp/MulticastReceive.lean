import AsioWrapper.Udp.Effect
import AsioWrapper.Udp.MulticastClient

/-!
# The multicast client never goes deaf

`ReceiveAsync` does nothing while `_receiving` is set, and a completion of an
earlier session clears the flag of the present one.  The outline below says
what the client has in hand at every point where a handler of it can be
suspended; where none is, a connected client has a receive outstanding on the
socket that is open.
-/

namespace AsioWrapper.Udp

open AsioWrapper.Asio
open AsioWrapper.Foundation
open AsioWrapper.Foundation.Program

namespace MulticastClient

/--
Nothing but connecting and disconnecting is posted, nothing but receives is started.
`joins` selects the runs in which `JoinMulticastGroup` never throws.
-/
structure Plain (net : Net) (joins : Prop) (t : MulticastClient) : Prop where
  posted : ∀ handler ∈ t.client.own.posted,
    handler = .connect ∨ ∃ session, handler = .disconnect session
  receives : ∀ op ∈ t.client.operations, op.isReceive = true
  timed : t.client.timedCalls = []
  resolves : t.client.own.resolves = []
  group : joins → (net.makeAddress t.multicast).isSome = true

/-- A receive issued on the socket that is open has not had its handler run. -/
def Listening (t : MulticastClient) : Prop :=
  t.client.socket.isOpen = true ∧
    ∃ op ∈ t.client.operations, op.isReceive = true ∧ op.generation = t.client.socket.generation

structure Serving (net : Net) (joins : Prop) (t : MulticastClient) : Prop
    extends Plain net joins t where
  running : t.client.running = true
  listening : t.Listening

structure Arming (net : Net) (joins : Prop) (t : MulticastClient) : Prop
    extends Plain net joins t where
  running : t.client.running = true
  isOpen : t.client.socket.isOpen = true
  receiving : t.client.receiving = false

structure Resting (net : Net) (joins : Prop) (t : MulticastClient) : Prop
    extends Plain net joins t where
  running : t.client.running = false
  receiving : t.client.receiving = false

structure Failing (net : Net) (joins : Prop) (t : MulticastClient) : Prop
    extends Plain net joins t where
  running : t.client.running = true

/-- No handler is under way.  The client is deaf if it could not join its group. -/
inductive Idle (net : Net) (joins : Prop) (t : MulticastClient) : Prop where
  | serving (h : Serving net joins t)
  | resting (h : Resting net joins t)
  | deaf (hjoins : ¬joins) (h : Arming net joins t)

def assertion (net : Net) (joins : Prop) : Option Pause → MulticastClient → Prop
  | none, t => Idle net joins t
  | some .reconnecting, t => Resting net joins t
  | some (.callback event), t =>
      match event with
      | .onConnected | .onJoinedMulticastGroup _ | .onReceived _ _ => Arming net joins t
      | .onDisconnected => Resting net joins t
      | .onError _ => Failing net joins t
      | _ => False

/-! ## What every call leaves as it is -/

def Trait (op : Operation) : Bool × Nat := (op.isReceive, op.generation)

structure Unmoved (s s' : Client) : Prop where
  running : s'.running = s.running
  socket : s'.socket = s.socket
  receiving : s'.receiving = s.receiving
  timed : s'.timedCalls = s.timedCalls
  resolves : s'.own.resolves = s.own.resolves
  operations : s'.operations.map Trait = s.operations.map Trait
  posted : ∀ handler ∈ s'.own.posted,
    handler ∈ s.own.posted ∨ handler = .connect ∨ ∃ session, handler = .disconnect session

theorem Unmoved.refl (s : Client) : Unmoved s s :=
  ⟨rfl, rfl, rfl, rfl, rfl, rfl, fun _ h => Or.inl h⟩

theorem Unmoved.trans {s s' s'' : Client} (h : Unmoved s s') (h' : Unmoved s' s'') :
    Unmoved s s'' where
  running := h'.running.trans h.running
  socket := h'.socket.trans h.socket
  receiving := h'.receiving.trans h.receiving
  timed := h'.timed.trans h.timed
  resolves := h'.resolves.trans h.resolves
  operations := h'.operations.trans h.operations
  posted handler hmem := (h'.posted handler hmem).elim (h.posted handler) Or.inr

section Unmoved

variable {net : Net} {joins : Prop} {t t' : MulticastClient}

theorem Plain.unmoved (ht : Plain net joins t) (h : Unmoved t.client t'.client)
    (hmulticast : t'.multicast = t.multicast) : Plain net joins t' where
  posted handler hmem := (h.posted handler hmem).elim (ht.posted handler) id
  receives op hop := by
    have hmem := List.mem_map_of_mem (f := Trait) hop
    rw [h.operations] at hmem
    obtain ⟨op', hop', heq⟩ := List.mem_map.mp hmem
    exact (congrArg Prod.fst heq).symm.trans (ht.receives op' hop')
  timed := h.timed.trans ht.timed
  resolves := h.resolves.trans ht.resolves
  group := by
    rw [hmulticast]
    exact ht.group

theorem Listening.unmoved (ht : t.Listening) (h : Unmoved t.client t'.client) :
    t'.Listening := by
  obtain ⟨hopen, op, hop, hreceive, hgeneration⟩ := ht
  have hmem := List.mem_map_of_mem (f := Trait) hop
  rw [← h.operations] at hmem
  obtain ⟨op', hop', heq⟩ := List.mem_map.mp hmem
  refine ⟨h.socket ▸ hopen, op', hop', (congrArg Prod.fst heq).trans hreceive, ?_⟩
  rw [h.socket]
  exact (congrArg Prod.snd heq).trans hgeneration

theorem Serving.unmoved (ht : Serving net joins t) (h : Unmoved t.client t'.client)
    (hmulticast : t'.multicast = t.multicast) : Serving net joins t' :=
  ⟨ht.toPlain.unmoved h hmulticast, h.running.trans ht.running, ht.listening.unmoved h⟩

theorem Arming.unmoved (ht : Arming net joins t) (h : Unmoved t.client t'.client)
    (hmulticast : t'.multicast = t.multicast) : Arming net joins t' :=
  ⟨ht.toPlain.unmoved h hmulticast, h.running.trans ht.running, h.socket ▸ ht.isOpen,
    h.receiving.trans ht.receiving⟩

theorem Resting.unmoved (ht : Resting net joins t) (h : Unmoved t.client t'.client)
    (hmulticast : t'.multicast = t.multicast) : Resting net joins t' :=
  ⟨ht.toPlain.unmoved h hmulticast, h.running.trans ht.running, h.receiving.trans ht.receiving⟩

theorem Failing.unmoved (ht : Failing net joins t) (h : Unmoved t.client t'.client)
    (hmulticast : t'.multicast = t.multicast) : Failing net joins t' :=
  ⟨ht.toPlain.unmoved h hmulticast, h.running.trans ht.running⟩

theorem Idle.unmoved (ht : Idle net joins t) (h : Unmoved t.client t'.client)
    (hmulticast : t'.multicast = t.multicast) : Idle net joins t' := by
  cases ht with
  | serving ht => exact .serving (ht.unmoved h hmulticast)
  | resting ht => exact .resting (ht.unmoved h hmulticast)
  | deaf hjoins ht => exact .deaf hjoins (ht.unmoved h hmulticast)

theorem assertion_unmoved (h : Unmoved t.client t'.client)
    (hmulticast : t'.multicast = t.multicast) (p : Option Pause) (ht : assertion net joins p t) :
    assertion net joins p t' := by
  unfold assertion at ht ⊢
  split at ht
  · exact ht.unmoved h hmulticast
  · exact ht.unmoved h hmulticast
  · split at ht
    · exact ht.unmoved h hmulticast
    · exact ht.unmoved h hmulticast
    · exact ht.unmoved h hmulticast
    · exact ht.unmoved h hmulticast
    · exact ht.unmoved h hmulticast
    · exact ht.elim

end Unmoved

/-! ## The calls of the program and the socket -/

abbrev Unmoving {α : Type} (m : Client.Code α) : Prop := Relates Unmoved m

theorem Unmoving.update {f : Client → Client} (h : ∀ s, Unmoved s (f s)) :
    Unmoving (Program.update f) :=
  Triple.update fun _ _ s hs _ => hs.trans (h s)

theorem post_unmoving {handler : Client.Handler}
    (h : handler = .connect ∨ ∃ session, handler = .disconnect session) :
    Unmoving (Client.post handler) := by
  apply Unmoving.update
  intro s
  refine { Unmoved.refl s with posted := fun other hother => ?_ }
  rcases List.mem_append.mp hother with hother | hother
  · exact Or.inl hother
  · rw [List.mem_singleton.mp hother]
    exact Or.inr h

theorem abortOperations_unmoved (s : Client) : Unmoved s s.abortOperations := by
  refine { Unmoved.refl s with operations := ?_ }
  simp [Peer.abortOperations, Trait, Function.comp_def]

theorem connectAsync_unmoving : Unmoving Client.connectAsync :=
  Relates.state fun _ => Triple.ite (fun _ => Triple.pure false) fun _ =>
    (post_unmoving (Or.inl rfl)).bind fun _ => Triple.pure true

theorem disconnectAsync_unmoving : Unmoving Client.disconnectAsync := by
  refine Relates.state fun s => Triple.ite (fun _ => Triple.pure false) fun _ => ?_
  refine Triple.bind (Unmoving.update fun s => ?_) fun _ => ?_
  · split
    · exact abortOperations_unmoved s
    · exact Unmoved.refl s
  · exact Triple.bind (post_unmoving (Or.inr ⟨_, rfl⟩)) fun _ => Triple.pure true

private theorem reconnectAsync_unmoving : Unmoving Client.reconnectAsync :=
  disconnectAsync_unmoving.bind fun _ => Triple.ite (fun _ => Triple.pure false) fun _ =>
    (Relates.waitUntil Unmoved.refl _).bind fun _ => connectAsync_unmoving

def Moveless (t t' : MulticastClient) : Prop :=
  Unmoved t.client t'.client ∧ t'.multicast = t.multicast

theorem Moveless.refl (t : MulticastClient) : Moveless t t := ⟨Unmoved.refl _, rfl⟩

theorem Moveless.trans (t t' t'' : MulticastClient) (h : Moveless t t') (h' : Moveless t' t'') :
    Moveless t t'' :=
  ⟨h.1.trans h'.1, h'.2.trans h.2⟩

theorem Unmoving.inherited {α : Type} {m : Client.Code α} (hm : Unmoving m) :
    Relates Moveless (inherited m) :=
  Relates.derive Moveless.refl Moveless.trans (fun _ _ h => ⟨h, rfl⟩) (fun _ => Triple.pure ())
    (hm.obeys Unmoved.refl)

private theorem disconnectAndStop_moveless : Relates Moveless disconnectAndStop := by
  refine Triple.bind (Triple.update fun _ _ t ht _ => ?_) fun _ => ?_
  · exact ht.trans _ _ _ ⟨Unmoved.refl _, rfl⟩
  · refine Triple.bind (Relates.waitUntil Moveless.refl _) fun _ => ?_
    refine Triple.bind (Unmoving.inherited disconnectAsync_unmoving.discard) fun _ => ?_
    exact Relates.waitUntil Moveless.refl _

private theorem call_moveless (net : Net) (inside : Bool) (k : Call) :
    Relates Moveless (call net inside k) := by
  cases k with
  | setupMulticast enable =>
      refine Unmoving.inherited (Unmoving.update fun s => ?_)
      exact { Unmoved.refl s with }
  | connectAsync => exact Unmoving.inherited connectAsync_unmoving.discard
  | reconnectAsync => exact Unmoving.inherited reconnectAsync_unmoving.discard
  | disconnectAndStop => exact disconnectAndStop_moveless

variable {net : Net} {joins : Prop}

theorem Idle.toPlain {t : MulticastClient} (h : Idle net joins t) : Plain net joins t := by
  cases h with
  | serving h => exact h.toPlain
  | resting h => exact h.toPlain
  | deaf hjoins h => exact h.toPlain

theorem plain_of_assertion {p : Option Pause} {t : MulticastClient} (h : assertion net joins p t) :
    Plain net joins t := by
  unfold assertion at h
  split at h
  · exact h.toPlain
  · exact h.toPlain
  · split at h
    · exact h.toPlain
    · exact h.toPlain
    · exact h.toPlain
    · exact h.toPlain
    · exact h.toPlain
    · exact h.elim

private theorem complete_unmoved {s : Client} (htimed : s.timedCalls = []) (op : Operation)
    (completion : Completion) : Unmoved s (s.complete op completion) := by
  refine { Unmoved.refl s with timed := ?_, operations := ?_ }
  · simp [Peer.complete, Peer.modifyTimed, htimed]
  · simp [Peer.complete, Trait, Operation.isReceive, Function.comp_def]

private theorem environment_unmoved {stimulus : Client.Stimulus} {t t' : MulticastClient}
    (ht : Plain net joins t) (h : environment stimulus t = some t') : Moveless t t' := by
  obtain ⟨client, hclient, rfl⟩ := Option.map_eq_some_iff.mp h
  refine ⟨?_, rfl⟩
  cases stimulus with
  | socket stimulus =>
      cases stimulus with
      | complete id completion =>
          simp only [Client.environment, stimulate] at hclient
          split at hclient
          · cases hclient
            exact complete_unmoved ht.timed _ _
          · cases hclient
      | expire id =>
          simp [Client.environment, stimulate, ht.timed] at hclient
  | resolve index resolution =>
      simp [Client.environment, ht.resolves] at hclient

/-! ## The handlers -/

abbrev Upholds {α : Type} (net : Net) (joins : Prop) (group : ErrorCode)
    (A : MulticastClient → Prop) (m : Client.Code α) (B : α → MulticastClient → Prop) : Prop :=
  Derives udpClient .callback (override net group) (assertion net joins) A m B

section Updates

variable {t : MulticastClient}

abbrev withClient (t : MulticastClient) (client : Client) : MulticastClient :=
  { t with client := client }

theorem logged_unmoved (s : Client) (event : Event) : Unmoved s (s.logged event) :=
  { Unmoved.refl s with }

private theorem unpost_unmoved (s : Client) (index : Nat) :
    Unmoved s { s with own := { s.own with posted := s.own.posted.eraseIdx index } } :=
  { Unmoved.refl s with posted := fun _ h => Or.inl (List.mem_of_mem_eraseIdx h) }

theorem Arming.startReceive (h : Arming net joins t) :
    Serving net joins (t.withClient t.client.startReceive) where
  posted := h.posted
  receives op hop := by
    rcases List.mem_append.mp hop with hop | hop
    · exact h.receives op hop
    · rw [List.mem_singleton.mp hop]
      rfl
  timed := h.timed
  resolves := h.resolves
  group := h.group
  running := h.running
  listening :=
    ⟨h.isOpen, _, List.mem_append_right _ (List.mem_singleton_self _), rfl, rfl⟩

/-- A completion clears the flag, whichever session its operation belongs to. -/
private theorem finishReceive_cases (h : Idle net joins t) (op : Operation) :
    Arming net joins (t.withClient (t.client.finishReceive op)) ∨
      Resting net joins (t.withClient (t.client.finishReceive op)) := by
  have hplain := h.toPlain
  have hfinished : Plain net joins (t.withClient (t.client.finishReceive op)) :=
    { posted := hplain.posted
      receives := fun other hother => hplain.receives other (List.mem_filter.mp hother).1
      timed := hplain.timed
      resolves := hplain.resolves
      group := hplain.group }
  cases h with
  | serving h => exact Or.inl ⟨hfinished, h.running, h.listening.1, rfl⟩
  | resting h => exact Or.inr ⟨hfinished, h.running, rfl⟩
  | deaf hjoins h => exact Or.inl ⟨hfinished, h.running, h.isOpen, rfl⟩

theorem Failing.closed (h : Failing net joins t) :
    Resting net joins (t.withClient
      { t.client.closeSocket with own := { t.client.own with resolving := false } }.leaveSession)
    where
  posted := h.posted
  receives op hop := by
    obtain ⟨other, hother, rfl⟩ := List.mem_map.mp hop
    rw [Operation.abort_isReceive]
    exact h.receives other hother
  timed := h.timed
  resolves := h.resolves
  group := h.group
  running := rfl
  receiving := rfl

end Updates

section Handlers

variable {group : ErrorCode} {A : MulticastClient → Prop}

theorem fire_upholds {event : Event} {B : Unit → MulticastClient → Prop}
    (h : ∀ t, A t → assertion net joins (some (.callback event))
      (t.withClient (t.client.logged event)))
    (hoverride : Holds (assertion net joins) (assertion net joins (some (.callback event)))
      (override net group event) B) :
    Upholds net joins group A (fire event) B := by
  refine Derives.updated (Derives.callback ?_ hoverride)
  rintro _ ⟨t, ht, rfl⟩
  exact h t ht

theorem receiveAsync_holds :
    Holds (assertion net joins) (Arming net joins) (inherited Client.receiveAsync)
      fun _ => Serving net joins := by
  refine Derives.state fun t => Derives.ite (fun hreceiving => Derives.pure ?_) fun _ => ?_
  · rintro _ ⟨rfl, ht⟩
    exact absurd (ht.receiving.symm.trans hreceiving) Bool.false_ne_true
  · refine Derives.ite (fun hrun => Derives.pure ?_) fun _ => Derives.update ?_
    · rintro _ ⟨rfl, ht⟩
      simp [udpClient, ht.running] at hrun
    · rintro _ ⟨rfl, ht⟩
      exact ht.startReceive

theorem makeAddress_upholds {override : Event → Code Unit} {text : String}
    (h : ∀ t, A t → net.makeAddress text = none → assertion net joins none t) :
    Derives udpClient .callback override (assertion net joins) A (makeAddress net text)
      fun _ => A := by
  unfold makeAddress
  split
  · exact Derives.pure fun _ ht => ht
  · exact Derives.throw fun t ht => h t ht ‹_›

private theorem joinMulticastGroup_holds (hgroup : joins → group.failed = false)
    (address : String) :
    Holds (assertion net joins)
      (fun t => Arming net joins t ∧ (joins → (net.makeAddress address).isSome = true))
      (inherited (Client.joinMulticastGroup net address group)) fun _ => Arming net joins := by
  refine Derives.state fun t => Derives.ite (fun _ => Derives.pure ?_) fun _ => ?_
  · rintro _ ⟨rfl, ht, -⟩
    exact ht
  · refine Derives.bind (makeAddress_upholds ?_) fun _ =>
      Derives.ite (fun hfailed => ?_) fun _ => ?_
    · rintro _ ⟨rfl, ht, haddress⟩ hnone
      refine .deaf (fun hjoins => ?_) ht
      simpa [hnone] using haddress hjoins
    · apply Derives.throw
      rintro _ ⟨rfl, ht, -⟩
      refine .deaf (fun hjoins => ?_) ht
      exact absurd ((hgroup hjoins).symm.trans hfailed) Bool.false_ne_true
    · refine Derives.updated (Derives.callback ?_ (Holds.pure fun _ ht => ht))
      rintro _ ⟨_, ⟨rfl, ht, -⟩, rfl⟩
      exact ht.unmoved (logged_unmoved _ _) rfl

private theorem onConnected_holds (hgroup : joins → group.failed = false) :
    Holds (assertion net joins) (Arming net joins) (onConnected net group)
      fun _ => Serving net joins := by
  apply Holds.state
  intro t
  refine Holds.bind ((joinMulticastGroup_holds hgroup t.multicast).weaken ?_ fun _ _ h => h)
    fun _ => receiveAsync_holds
  rintro _ ⟨rfl, ht⟩
  exact ⟨ht, ht.group⟩

private theorem connectAsync_holds :
    Holds (assertion net joins) (Resting net joins) (inherited (discard Client.connectAsync))
      fun _ => Resting net joins := by
  refine Derives.discard (Derives.state fun t => Derives.ite (fun _ => ?_) fun _ => ?_)
  · apply Derives.pure
    rintro _ ⟨rfl, ht⟩
    exact ht
  · apply Derives.updated
    apply Derives.pure
    rintro _ ⟨_, ⟨rfl, ht⟩, rfl⟩
    refine ht.unmoved { Unmoved.refl _ with posted := ?_ } rfl
    intro handler hhandler
    rcases List.mem_append.mp hhandler with hhandler | hhandler
    · exact Or.inl hhandler
    · exact Or.inr (Or.inl (List.mem_singleton.mp hhandler))

private theorem onDisconnected_holds :
    Holds (assertion net joins) (Resting net joins) onDisconnected fun _ => Resting net joins := by
  refine Holds.state fun t => Holds.ite (fun _ => ?_) fun _ => Holds.pure fun _ ht => ht.1 ▸ ht.2
  refine Holds.bind (Holds.callback ?_ fun _ ht => ht) fun _ => connectAsync_holds
  rintro _ ⟨rfl, ht⟩
  exact ht

theorem disconnectInternal_upholds :
    Upholds net joins group (fun t => Failing net joins t ∨ Resting net joins t)
      Client.disconnectInternal fun _ => Resting net joins := by
  refine Derives.state fun t => Derives.ite (fun hrun => Derives.pure ?_) fun hrun => ?_
  · rintro _ ⟨rfl, ht | ht⟩
    · simp [udpClient, ht.running] at hrun
    · exact ht
  · apply Derives.updated
    apply Derives.updated
    apply Derives.updated
    refine Derives.bind (fire_upholds ?_ onDisconnected_holds) fun _ => Derives.pure fun _ ht => ht
    rintro _ ⟨_, ⟨_, ⟨_, ⟨rfl, ht | ht⟩, rfl⟩, rfl⟩, rfl⟩
    · exact ht.closed.unmoved (logged_unmoved _ _) rfl
    · simp [udpClient, ht.running] at hrun

theorem disconnectHandler_upholds :
    Upholds net joins group (assertion net joins none) Client.disconnectInternal
      fun _ => assertion net joins none := by
  apply Derives.weaken disconnectInternal_upholds
  · intro t ht
    cases ht with
    | serving ht => exact Or.inl ⟨ht.toPlain, ht.running⟩
    | resting ht => exact Or.inr ht
    | deaf hjoins ht => exact Or.inl ⟨ht.toPlain, ht.running⟩
  · intro _ t ht
    exact .resting ht

theorem asyncFailed_upholds (ec : ErrorCode) :
    Upholds net joins group (Failing net joins) (Client.asyncFailed ec)
      fun _ => Resting net joins := by
  refine Derives.bind (B := fun _ => Failing net joins) (Derives.ite (fun _ => ?_) fun _ => ?_)
    fun _ => ?_
  · exact Derives.pure fun _ ht => ht
  · exact fire_upholds (fun _ ht => ht.unmoved (logged_unmoved _ _) rfl)
      (Holds.pure fun _ ht => ht)
  · refine Derives.discard (Derives.state fun t => Derives.ite (fun hrun => ?_) fun _ => ?_)
    · apply Derives.pure
      rintro _ ⟨rfl, ht⟩
      simp [udpClient, ht.running] at hrun
    · apply Derives.updated
      rw [if_pos rfl]
      refine Derives.bind (disconnectInternal_upholds.discard.weaken ?_ fun _ _ ht => ht)
        fun _ => Derives.pure fun _ ht => ht
      rintro _ ⟨_, ⟨rfl, ht⟩, rfl⟩
      refine Or.inl (ht.unmoved ?_ rfl)
      change Unmoved _ (if _ then _ else _)
      split
      · exact abortOperations_unmoved _
      · exact Unmoved.refl _

theorem asyncReceiveHandler_upholds (op : Operation) (completion : Completion) :
    Upholds net joins group (assertion net joins none)
      (asyncReceiveHandler Client.asyncFailed op completion) fun _ => assertion net joins none := by
  have hfailed {A : MulticastClient → Prop} (ec : ErrorCode) (hA : ∀ t, A t → Failing net joins t) :
      Upholds net joins group A (do Client.asyncFailed ec; return ())
        fun _ => assertion net joins none :=
    Derives.bind ((asyncFailed_upholds ec).weaken hA fun _ _ ht => ht)
      fun _ => Derives.pure fun _ ht => .resting ht
  apply Derives.updated
  refine Derives.state fun t => Derives.ite (fun hrun => ?_) fun hrun => ?_
  · apply Derives.pure
    rintro _ ⟨rfl, t, ht, rfl⟩
    rcases finishReceive_cases ht op with ht | ht
    · have hrunning : (t.client.finishReceive op).running = true := ht.running
      simp [udpClient, hrunning] at hrun
    · exact .resting ht
  -- the client is connected, so a receive has to be started or the session to end
  have harming : ∀ t', (t' = t ∧ ∃ t₀, assertion net joins none t₀ ∧
      t = udpClient.set ((udpClient.get t₀).finishReceive op) t₀) → Arming net joins t' := by
    rintro _ ⟨rfl, t, ht, rfl⟩
    rcases finishReceive_cases ht op with ht | ht
    · exact ht
    · have hrunning : (t.client.finishReceive op).running = false := ht.running
      simp [udpClient, hrunning] at hrun
  refine Derives.ite (fun _ => hfailed _ fun t' ht => ?_) fun _ => ?_
  · exact ⟨(harming t' ht).toPlain, (harming t' ht).running⟩
  apply Derives.updated
  refine Derives.state fun t => ?_
  refine Derives.bind (fire_upholds (B := fun _ => Serving net joins) ?_ receiveAsync_holds)
    fun _ => ?_
  · rintro _ ⟨rfl, t₀, ht, rfl⟩
    exact (harming t₀ ht).unmoved { Unmoved.refl _ with } rfl
  refine Derives.state fun t => Derives.ite (fun _ => Derives.ite (fun _ => ?_) fun _ => ?_)
    fun _ => Derives.pure ?_
  · apply hfailed
    rintro _ ⟨rfl, ht⟩
    exact ⟨ht.toPlain, ht.running⟩
  · apply Derives.update
    rintro _ ⟨rfl, ht⟩
    exact .serving (ht.unmoved { Unmoved.refl _ with } rfl)
  · rintro _ ⟨rfl, ht⟩
    exact .serving ht

theorem attempt_upholds {call : SocketCall} {answer : ErrorCode} {effect : Client → Client}
    {B : Unit → MulticastClient → Prop} (hA : ∀ t, A t → Resting net joins t)
    (h : ∀ t, A t → B () (t.withClient (effect t.client))) :
    Upholds net joins group A (attempt call answer effect) B := by
  refine Derives.ite (fun _ => ?_) fun _ => Derives.update h
  apply Derives.updated
  apply Derives.throw
  rintro _ ⟨t, ht, rfl⟩
  exact .resting ((hA t ht).unmoved { Unmoved.refl _ with } rfl)

structure Opening (net : Net) (joins : Prop) (t : MulticastClient) : Prop
    extends Resting net joins t where
  isOpen : t.client.socket.isOpen = true

theorem Resting.withSocket {t : MulticastClient} (h : Resting net joins t) {f : Socket → Socket}
    (hf : (f t.client.socket).isOpen = true) :
    Opening net joins (t.withClient (t.client.withSocket f)) :=
  ⟨⟨⟨h.posted, h.receives, h.timed, h.resolves, h.group⟩, h.running, h.receiving⟩, hf⟩

theorem option_upholds {c : Bool} {call : SocketCall} {answer : ErrorCode} {f : Socket → Socket}
    (hf : ∀ socket, (f socket).isOpen = socket.isOpen) :
    Upholds net joins group (Opening net joins)
      (whenever c (attempt call answer fun s => s.withSocket f)) fun _ => Opening net joins := by
  refine Derives.ite (fun _ => ?_) fun _ => Derives.pure fun _ ht => ht
  apply attempt_upholds (fun _ ht => ht.toResting)
  intro t ht
  exact ht.toResting.withSocket ((hf _).trans ht.isOpen)

theorem openSession_upholds (hgroup : joins → group.failed = false) (answers : SocketAnswers) :
    Upholds net joins group (Resting net joins) (openSession answers Client.bindTo .onConnected)
      fun _ => Serving net joins := by
  apply Derives.state
  intro t
  refine Derives.bind (B := fun _ => Opening net joins) (attempt_upholds ?_ ?_) fun _ => ?_
  · rintro _ ⟨rfl, ht⟩
    exact ht
  · rintro _ ⟨rfl, ht⟩
    exact ht.withSocket rfl
  refine Derives.bind (option_upholds fun _ => rfl) fun _ => ?_
  refine Derives.bind (option_upholds fun _ => rfl) fun _ => ?_
  refine Derives.bind (B := fun _ => Opening net joins)
    (attempt_upholds (fun _ ht => ht.toResting) ?_) fun _ => ?_
  · intro t ht
    exact ht.toResting.withSocket ht.isOpen
  refine Derives.bind (B := fun _ => Opening net joins)
    (attempt_upholds (fun _ ht => ht.toResting) ?_) fun _ => ?_
  · intro t ht
    exact ⟨ht.toResting.unmoved { Unmoved.refl _ with } rfl, ht.isOpen⟩
  apply Derives.updated
  apply fire_upholds _ (onConnected_holds hgroup)
  rintro _ ⟨t, ht, rfl⟩
  exact ⟨⟨ht.posted, ht.receives, ht.timed, ht.resolves, ht.group⟩, rfl, ht.isOpen, ht.receiving⟩

theorem connect_upholds (hgroup : joins → group.failed = false) (answers : SocketAnswers) :
    Upholds net joins group (assertion net joins none) (Client.connect net answers)
      fun _ => assertion net joins none := by
  apply Derives.state
  intro t
  have hsame : ∀ t', (t' = t ∧ assertion net joins none t) → assertion net joins none t' := by
    rintro _ ⟨rfl, ht⟩
    exact ht
  refine Derives.ite (fun _ => Derives.pure hsame) fun _ => ?_
  refine Derives.ite (fun _ => Derives.pure hsame) fun _ => ?_
  refine Derives.ite (fun _ => Derives.pure hsame) fun hrun => ?_
  refine Derives.bind (makeAddress_upholds fun t' ht _ => hsame t' ht) fun address => ?_
  apply Derives.updated
  refine Derives.bind ((openSession_upholds hgroup answers).weaken ?_ fun _ _ ht => ht)
    fun _ => Derives.pure fun _ ht => .serving ht
  rintro _ ⟨_, ⟨rfl, ht⟩, rfl⟩
  cases ht with
  | serving ht => exact absurd ht.running hrun
  | resting ht => exact ht.unmoved { Unmoved.refl _ with } rfl
  | deaf hjoins ht => exact absurd ht.running hrun

theorem unpost_upholds (index : Nat) :
    Upholds net joins group (assertion net joins none) (Client.unpost index)
      fun _ => assertion net joins none := by
  apply Derives.update
  intro t ht
  refine assertion_unmoved ?_ ?_ none ht
  · exact unpost_unmoved t.client index
  · rfl

end Handlers

/-! ## Runs -/

def Joins (pending : Pending) : Prop := (groupAnswer pending).failed = false

inductive Begins (net : Net) (t : MulticastClient) : Pending → Code Unit → Prop where
  | receive (id : Nat) (op : Operation) (completion : Completion) :
      Begins net t (.completion id)
        (overridden net .success (asyncReceiveHandler Client.asyncFailed op completion))
  | connect {index : Nat} (answers : SocketAnswers)
      (hposted : t.client.own.posted[index]? = some .connect) :
      Begins net t (.posted index answers)
        (overridden net answers.group
          (do Client.unpost index; discard (Client.connect net answers)))
  | disconnect {index session : Nat} (answers : SocketAnswers)
      (hposted : t.client.own.posted[index]? = some (.disconnect session)) :
      Begins net t (.posted index answers)
        (overridden net answers.group
          (do Client.unpost index; discard Client.disconnectInternal))

theorem Plain.begins {pending : Pending} {t : MulticastClient} {origin : Origin Client.Handler}
    {program : Code Unit} (ht : Plain net joins t)
    (h : handler net pending t = some (origin, program)) : Begins net t pending program := by
  obtain ⟨⟨_, base⟩, hbase, heq⟩ := Option.map_eq_some_iff.mp h
  cases heq
  cases pending with
  | completion id =>
      simp only [Client.handler] at hbase
      split at hbase
      · rename_i op completion hcompleted
        cases hbase
        have hreceive := ht.receives op (mem_of_completedOperation hcompleted).1
        rw [Client.completionHandler, completionHandler_receive completion hreceive]
        exact .receive id op completion
      · cases hbase
  | timer id =>
      simp [Client.handler, Peer.firedTimer, Peer.timedCall, ht.timed, TimedCall.fresh] at hbase
  | posted index answers =>
      simp only [Client.handler] at hbase
      split at hbase
      · rename_i handler hhandler
        cases hbase
        rcases ht.posted handler (List.mem_of_getElem? hhandler) with rfl | ⟨session, rfl⟩
        · exact .connect answers hhandler
        · exact .disconnect answers hhandler
      · cases hbase
  | resolved index answers =>
      simp [Client.handler, ht.resolves] at hbase

private theorem handler_holds {pending : Pending} {t : MulticastClient}
    {origin : Origin Client.Handler} {program : Code Unit} (hjoins : joins → Joins pending)
    (ht : assertion net joins none t)
    (h : handler net pending t = some (origin, program)) :
    Holds (assertion net joins) (assertion net joins none) program
      fun _ => assertion net joins none := by
  cases (plain_of_assertion ht).begins h with
  | receive id op completion => exact asyncReceiveHandler_upholds op completion
  | connect answers hposted =>
      exact Derives.bind (unpost_upholds _) fun _ => (connect_upholds hjoins answers).discard
  | disconnect answers hposted =>
      exact Derives.bind (unpost_upholds _) fun _ => Derives.discard disconnectHandler_upholds

theorem system_outlines (net : Net) (joins : Prop) :
    (system net).Outlines (fun _ => True) (fun pending => joins → Joins pending)
      (assertion net joins none) (assertion net joins) where
  call k inside _ t :=
    segments_mono (fun _ _ _ _ h p => assertion_unmoved h.1 h.2 p)
      (fun _ _ _ _ h p => assertion_unmoved h.1 h.2 p)
      ((call_moveless net inside k).obeys Moveless.refl t)
  handler pending t origin program hjoins ht hfound :=
    (handler_holds hjoins ht hfound).weaken (fun _ h => h.1 ▸ h.2) fun _ _ h => h
  environment stimulus t t' h p ht := by
    have hmoveless := environment_unmoved (plain_of_assertion ht) h
    exact assertion_unmoved hmoveless.1 hmoveless.2 p ht

theorem assertion_ofAddressPort {address multicast : String} {port : Int}
    (hgroup : joins → (net.makeAddress multicast).isSome = true) :
    assertion net joins none (ofAddressPort address multicast port) :=
  .resting ⟨⟨fun _ h => absurd h List.not_mem_nil, fun _ h => absurd h List.not_mem_nil, rfl, rfl,
    hgroup⟩, rfl, rfl⟩

/--
Joining the group never throws: neither the text of the address nor `join_group` fails,
and no callback does.
-/
def Joining (move : Move Call Pending Client.Stimulus) : Prop :=
  match move with
  | .handler pending => Joins pending
  | .unwind _ => False
  | _ => True

/-- Whenever no handler is under way, a connected client is listening on its socket. -/
theorem multicastClient_listens {address multicast : String} {port : Int}
    (hgroup : (net.makeAddress multicast).isSome = true)
    {ms : List (Move Call Pending Client.Stimulus)} (hms : ∀ m ∈ ms, Joining m) :
    ∀ c ∈ (system net).states (.initial (ofAddressPort address multicast port)) ms,
      c.handlersIdle = true → c.world.client.running = true →
        c.world.client.socket.isOpen = true ∧
          ∃ op ∈ c.world.client.operations, op.isReceive = true ∧
            op.generation = c.world.client.socket.generation := by
  intro c hc hidle hrun
  have hadmitted : ∀ m ∈ ms, m.Admitted (fun _ => True) fun pending => True → Joins pending := by
    intro m hm
    have hjoining := hms m hm
    cases m with
    | handler pending => exact fun _ => hjoining
    | _ => trivial
  have hunwind : ∀ m ∈ ms, ∀ i, m ≠ .unwind i := by
    rintro _ hm i rfl
    exact hms _ hm
  have houtlined := (system_outlines net True).states
    (Config.outlined_initial (assertion_ofAddressPort fun _ => hgroup)) hadmitted hunwind c hc
  cases houtlined.of_idle hidle with
  | serving h => exact h.listening
  | resting h => exact absurd (h.running.symm.trans hrun) Bool.false_ne_true
  | deaf hjoins h => exact absurd trivial hjoins

def multicastNet : Net where
  makeAddress text :=
    if text = "0.0.0.0" then some (.v4 0)
    else if text = "239.255.0.1" then some (.v4 0xefff0001)
    else none

def threeSessions : List (Move Call Pending Client.Stimulus) :=
  [.call .connectAsync none,
    .handler (.posted 0 (.clean 8192)), .resume 1, .resume 1,
    .call .reconnectAsync none, .handler (.posted 0 (.clean 8192)), .resume 2, .resume 3,
    .resume 3, .handler (.posted 0 (.clean 8192)), .resume 4, .resume 4,
    .handler (.completion 0), .resume 5, .resume 5,
    .handler (.posted 1 (.clean 8192)), .resume 6, .resume 6]

theorem multicastClient_listens_threeSessions :
    ∃ c, (system multicastNet).run
        (.initial (ofAddressPort "0.0.0.0" "239.255.0.1" 3334)) threeSessions = some c ∧
      c.world.client.session = 3 ∧ c.handlersIdle = true ∧
      c.world.client.running = true ∧ c.world.client.socket.isOpen = true ∧
        ∃ op ∈ c.world.client.operations, op.isReceive = true ∧
          op.generation = c.world.client.socket.generation := by
  obtain ⟨c, hrun, hsession, hidle, hrunning⟩ : ∃ c, (system multicastNet).run
      (.initial (ofAddressPort "0.0.0.0" "239.255.0.1" 3334)) threeSessions = some c ∧
      c.world.client.session = 3 ∧ c.handlersIdle = true ∧ c.world.client.running = true :=
    ⟨_, rfl, rfl, rfl, rfl⟩
  have hjoining : ∀ m ∈ threeSessions, Joining m := by
    simp [threeSessions, Joining, Joins, groupAnswer, SocketAnswers.clean]
  exact ⟨c, hrun, hsession, hidle, hrunning,
    multicastClient_listens rfl hjoining c (Steps.run_mem_states hrun) hidle hrunning⟩

end MulticastClient

end AsioWrapper.Udp
