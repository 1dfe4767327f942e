import AsioWrapper.Udp.Transfer
import Mathlib.Logic.Relation
import Mathlib.Tactic.ByContra
import Mathlib.Tactic.SplitIfs

/-!
# What a segment can do to a peer

Every invariant of the two classes is an invariant of the few state changes
below.  A segment makes any number of quiet changes and then stops: it
returns, blocks, throws or invokes a callback, and the changes that belong to
a callback (opening, closing, counting a datagram) are made in the segment
that invokes it.  So a segment opens or closes at most one session.

A `Profile` says what a class adds to the common code.  Its `checked` flag
selects the runs in which every callback that needs an open session tests for
one in its own segment.  What the code of some handlers may do beyond the rest
depends on its `Scope`, which is given by the callback it was resumed from.
-/

namespace AsioWrapper.Udp

open AsioWrapper.Asio
open AsioWrapper.Foundation
open AsioWrapper.Foundation.Program

variable {δ : Type}

def Peer.core (s : Peer δ) : Peer Unit :=
  { s with
    endpoint := default
    optionReuseAddress := false
    optionReusePort := false
    receiveBufferLimit := 0
    sendBufferLimit := 0
    own := () }

structure Profile (δ : Type) where
  special : Peer δ → Peer δ → Prop
  announce : Event
  farewell : Event
  clears : Bool
  checked : Prop
  inert : ∀ s s', special s s' → s'.core = s.core

theorem Profile.inert_field (P : Profile δ) {s s' : Peer δ} (h : P.special s s') {α : Type}
    (field : Peer Unit → α) : field s'.core = field s.core :=
  congrArg field (P.inert s s' h)

/-- What only some code may do: enlarge the receive buffer after a datagram of the
given size, and write to the locals of timed calls. -/
structure Scope where
  tail : Option Nat
  timed : Bool

def Peer.Limited (s : Peer δ) : Prop := 0 < s.sendBufferLimit ∨ 0 < s.receiveBufferLimit

def Profile.Guarded (P : Profile δ) (s : Peer δ) : Prop :=
  P.checked → s.running = true ∨ s.Limited

inductive Quiet (P : Profile δ) (scope : Scope) : Peer δ → Peer δ → Prop where
  | special {s s' : Peer δ} (h : P.special s s') : Quiet P scope s s'
  | startSend {s : Peer δ} (data : List UInt8) (endpoint : Endpoint)
      (hrun : s.running = true) (hfree : s.sending = false) :
      Quiet P scope s (s.startSend data endpoint)
  | startReceive {s : Peer δ} (hrun : s.running = true) (hfree : s.receiving = false) :
      Quiet P scope s s.startReceive
  | startTimed {s : Peer δ} {endpoint : Endpoint} (purpose : Purpose) (hrun : s.running = true)
      (htimed : purpose = .timedSend ∨ purpose = .timedReceive) :
      Quiet P scope s (s.startTimed purpose endpoint)
  | finishSend {s : Peer δ} {op : Operation} (hmem : op ∈ s.operations)
      (hdone : op.result ≠ none) (hsend : op.isSend = true) :
      Quiet P scope s (s.finishSend op)
  | finishReceive {s : Peer δ} {op : Operation} (hmem : op ∈ s.operations)
      (hdone : op.result ≠ none) (hreceive : op.isReceive = true) :
      Quiet P scope s (s.finishReceive op)
  | finishTimed {s : Peer δ} {op : Operation} (hscope : scope.timed = true)
      (hmem : op ∈ s.operations) (hdone : op.result ≠ none) (htimed : op.isTimed = true) :
      Quiet P scope s (s.removeOperation op)
  | modifyTimed {s : Peer δ} (hscope : scope.timed = true) (id : Nat)
      (f : TimedCall → TimedCall) :
      Quiet P scope s (s.modifyTimed id f)
  | cancel {s : Peer δ} (hopen : s.socket.isOpen = true) : Quiet P scope s s.abortOperations
  | grow {s : Peer δ} {size : Nat} (htail : scope.tail = some size)
      (hfull : s.receiveBuffer = size)
      (hlimit : ¬(doubled size > s.receiveBufferLimit ∧ s.receiveBufferLimit > 0)) :
      Quiet P scope s (s.resizeReceiveBuffer (doubled size))

inductive Fires (P : Profile δ) : Event → Peer δ → Peer δ → Prop where
  | opened {s : Peer δ} (socket : Socket) (size : Nat) (hrun : s.running = false)
      (hclosed : s.socket.isOpen = false) (hopen : socket.isOpen = true)
      (hgeneration : socket.generation = s.socket.generation + 1) :
      Fires P P.announce s
        ((((s.withSocket fun _ => socket).resizeReceiveBuffer size).enterSession).logged
          P.announce)
  | closed {s : Peer δ} (hrun : s.running = true) :
      Fires P P.farewell s
        ((if P.clears then s.closeSocket.leaveSession.clearBuffers
          else s.closeSocket.leaveSession).logged P.farewell)
  | plain {s : Peer δ} (event : Event) (hplain : event.isLifecycle = false)
      (hrun : P.Guarded s) :
      Fires P event s (s.logged event)
  | sent {s : Peer δ} (endpoint : Endpoint) (sent : Nat) (hrun : P.Guarded s) :
      Fires P (.onSent endpoint sent) s ((s.countSent sent).logged (.onSent endpoint sent))
  | sentAsync {s : Peer δ} (sent : Nat) (hrun : s.running = true)
      (hfree : s.sending = false) :
      Fires P (.onSent s.sendEndpoint sent) s
        ((s.recordSent sent).logged (.onSent s.sendEndpoint sent))
  | received {s : Peer δ} (endpoint : Endpoint) (received : Nat) (hrun : P.Guarded s) :
      Fires P (.onReceived endpoint received) s
        ((s.countReceived received).logged (.onReceived endpoint received))
  | unresolved {s : Peer δ} (hunchecked : ¬P.checked) :
      Fires P P.farewell s (s.logged P.farewell)

inductive Fails : ErrorCode → Peer δ → Peer δ → Prop where
  | refused {s : Peer δ} (ec : ErrorCode) : Fails ec s s
  | unopened {s : Peer δ} (ec : ErrorCode) : Fails ec s (s.noteFailure .open ec)
  | halfOpened {s : Peer δ} (call : SocketCall) (ec : ErrorCode) (socket : Socket)
      (hclosed : s.socket.isOpen = false) (hrun : s.running = false) (hcall : call ≠ .open)
      (hopen : socket.isOpen = true)
      (hgeneration : socket.generation = s.socket.generation + 1) :
      Fails ec s ((s.withSocket fun _ => socket).noteFailure call ec)

inductive Ends (P : Profile δ) : Stop Event ErrorCode → Peer δ → Peer δ → Prop where
  | returned (s : Peer δ) : Ends P .returned s s
  | waiting (s : Peer δ) : Ends P .waiting s s
  | called {event : Event} {s s' : Peer δ} (h : Fires P event s s') :
      Ends P (.called event) s s'
  | threw {ec : ErrorCode} {s s' : Peer δ} (h : Fails ec s s') : Ends P (.threw ec) s s'

abbrev Quietly (P : Profile δ) (scope : Scope) : Peer δ → Peer δ → Prop :=
  Relation.ReflTransGen (Quiet P scope)

def Effect (P : Profile δ) (scope : Option Event → Scope) (point : Option Event)
    (start : Peer δ) (stop : Stop Event ErrorCode) (finish : Peer δ) : Prop :=
  ∃ s, Quietly P (scope point) start s ∧ Ends P stop s finish

/--
The triple of the calculus: from a state that satisfies `A` and was reached
quietly, every segment of `m` has an `Effect`, and where `m` returns the state
is again reached quietly and satisfies `B`.
-/
def Sound (P : Profile δ) (scope : Option Event → Scope) {α : Type}
    (A : Peer δ → Prop) (m : Proc δ α) (B : α → Peer δ → Prop) : Prop :=
  ∀ point start s, Quietly P (scope point) start s → A s →
    m.Segments (Effect P scope)
      (fun value point start s => Quietly P (scope point) start s ∧ B value s) point start s

variable {P : Profile δ} {scope : Option Event → Scope}

/-! ## Rules -/

section Rules

variable {α β : Type} {A A' : Peer δ → Prop} {B B' : α → Peer δ → Prop}
  {D : β → Peer δ → Prop}

theorem Sound.bind {m : Proc δ α} {f : α → Proc δ β} (hm : Sound P scope A m B)
    (hf : ∀ value, Sound P scope (B value) (f value) D) :
    Sound P scope A (m >>= f) D := by
  intro point start s hquiet hA
  rw [segments_bind]
  refine segments_mono (fun _ _ _ _ h => h) ?_ (hm point start s hquiet hA)
  intro value point start s h
  exact hf value point start s h.1 h.2

theorem Sound.weaken {m : Proc δ α} (hm : Sound P scope A m B)
    (hA : ∀ s, A' s → A s) (hB : ∀ value s, B value s → B' value s) :
    Sound P scope A' m B' := by
  intro point start s hquiet h
  refine segments_mono (fun _ _ _ _ h => h) ?_ (hm point start s hquiet (hA s h))
  intro value point start s hvalue
  exact ⟨hvalue.1, hB value s hvalue.2⟩

theorem Sound.pure (value : α) : Sound P scope A (Pure.pure value) (fun _ _ => True) := by
  intro point start s hquiet _
  exact ⟨hquiet, trivial⟩

theorem Sound.discard {m : Proc δ α} (hm : Sound P scope A m B) :
    Sound P scope A (Functor.discard m) (fun _ _ => True) := by
  exact hm.bind fun _ => Sound.pure ()

theorem Sound.obeys_at {m : Proc δ α} (hm : Sound P scope A m B) {s : Peer δ} (hA : A s) :
    m.Segments (Effect P scope)
      (fun _ point start state => Effect P scope point start .returned state) none s s := by
  refine segments_mono (fun _ _ _ _ h => h) ?_ (hm none s s .refl hA)
  intro value point start s h
  exact ⟨s, h.1, .returned s⟩

theorem Sound.obeys {m : Proc δ α} (hm : Sound P scope (fun _ => True) m B) :
    m.Obeys (Effect P scope) :=
  fun _ => hm.obeys_at trivial

theorem Sound.state {f : Peer δ → Proc δ β} (hf : ∀ s, Sound P scope A (f s) D) :
    Sound P scope A (Program.state >>= f) D := by
  intro point start s hquiet hA
  exact hf s point start s hquiet hA

theorem Sound.quiet {f : Peer δ → Peer δ}
    (h : ∀ point s, A s → Quiet P (scope point) s (f s)) :
    Sound P scope A (update f) (fun _ _ => True) := by
  intro point start s hquiet hA
  exact ⟨hquiet.tail (h _ s hA), trivial⟩

theorem fire_sound (event : Event) (hplain : event.isLifecycle = false) :
    Sound P scope P.Guarded (fire event) (fun _ _ => True) := by
  intro point start s hquiet hrun
  rw [fire, segments_bind, segments_update, segments_callback]
  exact ⟨⟨s, hquiet, .called (.plain event hplain hrun)⟩, fun s' => ⟨.refl, trivial⟩⟩

end Rules

theorem Profile.guarded_of_running {s : Peer δ} (h : s.running = true) : P.Guarded s :=
  fun _ => Or.inl h

theorem Profile.guarded_of_unchecked (h : ¬P.checked) (s : Peer δ) : P.Guarded s :=
  fun hc => absurd hc h

theorem sendError_sound (ec : ErrorCode) :
    Sound P scope P.Guarded (sendError ec) (fun _ _ => True) := by
  unfold sendError
  split
  · intro point start s hquiet _
    exact ⟨hquiet, trivial⟩
  · exact fire_sound _ rfl

/-! ## Opening a session -/

theorem attempt_segments (call : SocketCall) (ec : ErrorCode) (effect : Peer δ → Peer δ)
    {T : Option Event → Peer δ → Stop Event ErrorCode → Peer δ → Prop}
    {Q : Unit → Option Event → Peer δ → Peer δ → Prop} {point : Option Event}
    {start s : Peer δ} :
    (attempt call ec effect).Segments T Q point start s ↔
      if ec.failed then T point start (.threw ec) (s.noteFailure call ec)
      else Q () point start (effect s) := by
  unfold attempt
  split <;> simp

def Opening (base s : Peer δ) : Prop :=
  ∃ socket : Socket, socket.isOpen = true ∧
    socket.generation = base.socket.generation + 1 ∧ s = base.withSocket fun _ => socket

theorem Opening.withSocket {base s : Peer δ} (h : Opening base s) {f : Socket → Socket}
    (hf : ∀ socket, (f socket).isOpen = socket.isOpen ∧
      (f socket).generation = socket.generation) :
    Opening base (s.withSocket f) := by
  obtain ⟨socket, hopen, hgeneration, rfl⟩ := h
  refine ⟨f socket, ?_, ?_, rfl⟩
  · rw [(hf socket).1, hopen]
  · rw [(hf socket).2, hgeneration]

section Opening

variable {point : Option Event} {start base s : Peer δ}
  {Q : Unit → Option Event → Peer δ → Peer δ → Prop} {call : SocketCall}
  {effect : Peer δ → Peer δ}

private theorem attempt_opening (hs : Opening base s)
    (hquiet : Quietly P (scope point) start base) (hclosed : base.socket.isOpen = false)
    (hrun : base.running = false) (hcall : call ≠ .open) (ec : ErrorCode)
    (hQ : Q () point start (effect s)) :
    (attempt call ec effect).Segments (Effect P scope) Q point start s := by
  obtain ⟨socket, hopen, hgeneration, rfl⟩ := hs
  rw [attempt_segments]
  split
  · exact ⟨base, hquiet,
      .threw (.halfOpened call ec socket hclosed hrun hcall hopen hgeneration)⟩
  · exact hQ

private theorem whenever_opening (hs : Opening base s)
    (hquiet : Quietly P (scope point) start base) (hclosed : base.socket.isOpen = false)
    (hrun : base.running = false) (hcall : call ≠ .open) (ec : ErrorCode) (c : Bool)
    (heffect : Opening base (effect s))
    (hQ : ∀ s', Opening base s' → Q () point start s') :
    (whenever c (attempt call ec effect)).Segments (Effect P scope) Q point start s := by
  unfold Program.whenever
  split
  · exact attempt_opening hs hquiet hclosed hrun hcall ec (hQ _ heffect)
  · exact hQ s hs

end Opening

theorem openSession_sound (answers : SocketAnswers) (bindTo : Peer δ → Endpoint) :
    Sound P scope (fun s => s.running = false) (openSession answers bindTo P.announce)
      (fun _ _ => True) := by
  intro point start s hquiet hrun
  rw [openSession, segments_bind, segments_state, segments_bind, attempt_segments]
  by_cases hanswer :
      (if s.socket.isOpen then ErrorCode.alreadyOpen else answers.opening).failed = true
  · rw [if_pos hanswer]
    exact ⟨s, hquiet, .threw (.unopened _)⟩
  · have hclosed : s.socket.isOpen = false := by
      by_contra hopen
      simp only [Bool.not_eq_false] at hopen
      rw [if_pos hopen] at hanswer
      exact hanswer rfl
    rw [if_neg hanswer]
    have h₀ : Opening s (s.withSocket Socket.opened) := ⟨s.socket.opened, rfl, rfl, rfl⟩
    rw [segments_bind]
    refine whenever_opening h₀ hquiet hclosed hrun (by decide) _ _
      (h₀.withSocket fun _ => ⟨rfl, rfl⟩) fun s₁ h₁ => ?_
    rw [segments_bind]
    refine whenever_opening h₁ hquiet hclosed hrun (by decide) _ _
      (h₁.withSocket fun _ => ⟨rfl, rfl⟩) fun s₂ h₂ => ?_
    rw [segments_bind]
    refine attempt_opening h₂ hquiet hclosed hrun (by decide) _ ?_
    have h₃ := h₂.withSocket (f := fun socket => { socket with bound := some (bindTo s₂) })
      fun _ => ⟨rfl, rfl⟩
    rw [segments_bind]
    refine attempt_opening h₃ hquiet hclosed hrun (by decide) _ ?_
    obtain ⟨socket, hopen, hgeneration, hs⟩ := h₃
    rw [hs, segments_bind, segments_update, fire, segments_bind, segments_update,
      segments_callback]
    exact ⟨⟨s, hquiet, .called (.opened socket _ hrun hclosed hopen hgeneration)⟩,
      fun s' => ⟨.refl, trivial⟩⟩

/-! ## Sending and receiving -/

theorem send_sound {failed : ErrorCode → Proc δ Unit}
    (hfailed : ∀ ec, Sound P scope P.Guarded (failed ec) (fun _ _ => True))
    (endpoint : Endpoint) (buffer : Buffer) (answer : Completion)
    (hanswer : P.checked → answer.error.failed = true → answer.size = 0) :
    Sound P scope (fun _ => True) (send failed endpoint buffer answer) (fun _ _ => True) := by
  intro point start s hquiet _
  simp only [send, fire, segments_bind, segments_state, segments_ite, segments_pure,
    segments_update, segments_callback]
  split_ifs with hrun hsize hnull hsent herror herror
  · exact ⟨hquiet, trivial⟩
  · exact ⟨hquiet, trivial⟩
  · exact ⟨hquiet, trivial⟩
  · simp only [Bool.not_eq_true', Bool.not_eq_false] at hrun
    refine ⟨⟨s, hquiet, .called (.sent _ _ (Profile.guarded_of_running hrun))⟩, ?_⟩
    intro s'
    refine hfailed _ _ s' s' .refl fun hchecked => ?_
    have := hanswer hchecked herror
    omega
  · simp only [Bool.not_eq_true', Bool.not_eq_false] at hrun
    exact ⟨⟨s, hquiet, .called (.sent _ _ (Profile.guarded_of_running hrun))⟩,
      fun s' => ⟨.refl, trivial⟩⟩
  · simp only [Bool.not_eq_true', Bool.not_eq_false] at hrun
    exact hfailed _ _ start s hquiet (Profile.guarded_of_running hrun)
  · exact ⟨hquiet, trivial⟩

theorem sendAsync_sound {rejected : Proc δ Unit}
    (hrejected : Sound P scope (fun _ => True) rejected (fun _ _ => True))
    (endpoint : Endpoint) (buffer : Buffer) :
    Sound P scope (fun _ => True) (sendAsync rejected endpoint buffer) (fun _ _ => True) := by
  intro point start s hquiet _
  simp only [sendAsync, segments_bind, segments_state, segments_ite, segments_pure,
    segments_update]
  split_ifs with hsending hrun hsize hnull hlimit
  · exact ⟨hquiet, trivial⟩
  · exact ⟨hquiet, trivial⟩
  · exact ⟨hquiet, trivial⟩
  · exact ⟨hquiet, trivial⟩
  · simp only [Bool.not_eq_true', Bool.not_eq_false] at hrun
    exact (segments_bind _ _).mp
      ((sendError_sound _).bind (fun _ => hrejected.bind fun _ => Sound.pure false)
        point start s hquiet (Profile.guarded_of_running hrun))
  · simp only [Bool.not_eq_true', Bool.not_eq_false] at hrun
    simp only [Bool.not_eq_true] at hsending
    exact ⟨hquiet.tail (.startSend _ _ hrun hsending), trivial⟩

theorem asyncSendToHandler_sound {failed : ErrorCode → Proc δ Unit}
    (hfailed : ∀ ec, Sound P scope P.Guarded (failed ec) (fun _ _ => True))
    (op : Operation) (completion : Completion) (hsend : op.isSend = true)
    (hdone : op.result ≠ none) :
    Sound P scope (fun s => op ∈ s.operations) (asyncSendToHandler failed op completion)
      (fun _ _ => True) := by
  intro point start s hquiet hmem
  have hnext := hquiet.tail (.finishSend hmem hdone hsend)
  simp only [asyncSendToHandler, fire, segments_bind, segments_state, segments_ite,
    segments_pure, segments_update, segments_callback]
  split_ifs with hrun herror hsent
  · exact ⟨hnext, trivial⟩
  · simp only [Bool.not_eq_true', Bool.not_eq_false] at hrun
    exact hfailed _ _ start _ hnext (Profile.guarded_of_running hrun)
  · simp only [Bool.not_eq_true', Bool.not_eq_false] at hrun
    exact ⟨⟨_, hnext, .called (.sentAsync _ hrun rfl)⟩, fun s' => ⟨.refl, trivial⟩⟩
  · exact ⟨hnext, trivial⟩

theorem receive_sound {failed : ErrorCode → Proc δ Unit}
    (hfailed : ∀ ec, Sound P scope P.Guarded (failed ec) (fun _ _ => True))
    (buffer : Buffer) (answer : Completion)
    (hanswer : P.checked → answer.error.failed = false) :
    Sound P scope (fun _ => True) (receive failed buffer answer) (fun _ _ => True) := by
  intro point start s hquiet _
  simp only [receive, fire, segments_bind, segments_state, segments_ite, segments_pure,
    segments_update, segments_callback]
  split_ifs with hrun hsize hnull herror
  · exact ⟨hquiet, trivial⟩
  · exact ⟨hquiet, trivial⟩
  · exact ⟨hquiet, trivial⟩
  · simp only [Bool.not_eq_true', Bool.not_eq_false] at hrun
    refine ⟨⟨s, hquiet, .called (.received _ _ (Profile.guarded_of_running hrun))⟩, ?_⟩
    intro s'
    refine hfailed _ _ s' s' .refl fun hchecked => ?_
    rw [hanswer hchecked] at herror
    contradiction
  · simp only [Bool.not_eq_true', Bool.not_eq_false] at hrun
    exact ⟨⟨s, hquiet, .called (.received _ _ (Profile.guarded_of_running hrun))⟩,
      fun s' => ⟨.refl, trivial⟩⟩

theorem tryReceive_sound :
    Sound P scope (fun _ => True) tryReceive (fun _ _ => True) := by
  intro point start s hquiet _
  simp only [tryReceive, segments_bind, segments_state, segments_ite, segments_pure,
    segments_update]
  split_ifs with hreceiving hrun
  · exact ⟨hquiet, trivial⟩
  · exact ⟨hquiet, trivial⟩
  · simp only [Bool.not_eq_true', Bool.not_eq_false] at hrun
    simp only [Bool.not_eq_true] at hreceiving
    exact ⟨hquiet.tail (.startReceive hrun hreceiving), trivial⟩

theorem asyncReceiveHandler_sound {failed : ErrorCode → Proc δ Unit}
    (hfailed : ∀ ec, Sound P scope P.Guarded (failed ec) (fun _ _ => True))
    (op : Operation) (completion : Completion) (hreceive : op.isReceive = true)
    (hdone : op.result ≠ none)
    (htail : ∀ endpoint, (scope (some (.onReceived endpoint completion.size))).tail =
      some completion.size) :
    Sound P scope (fun s => op ∈ s.operations) (asyncReceiveHandler failed op completion)
      (fun _ _ => True) := by
  intro point start s hquiet hmem
  have hnext := hquiet.tail (.finishReceive hmem hdone hreceive)
  simp only [asyncReceiveHandler, fire, segments_bind, segments_state, segments_ite,
    segments_pure, segments_update, segments_callback]
  split_ifs with hrun herror
  · exact ⟨hnext, trivial⟩
  · simp only [Bool.not_eq_true', Bool.not_eq_false] at hrun
    exact hfailed _ _ start _ hnext (Profile.guarded_of_running hrun)
  · simp only [Bool.not_eq_true', Bool.not_eq_false] at hrun
    refine ⟨⟨_, hnext, .called (.received _ _ (Profile.guarded_of_running hrun))⟩, ?_⟩
    intro s'
    split_ifs with hfull hlimit
    · exact hfailed _ _ s' s' .refl fun _ => Or.inr (Or.inr hlimit.2)
    · exact ⟨.tail .refl (.grow (htail _) hfull hlimit), trivial⟩
    · exact ⟨.refl, trivial⟩

/-! ## Timed calls -/

section Timed

variable (htimed : ∀ point, (scope point).timed = true)

include htimed

theorem asyncDoneHandler_sound (id : Nat) (ec : ErrorCode) :
    Sound P scope (fun _ => True) (asyncDoneHandler id ec) (fun _ _ => True) := by
  intro point start s hquiet _
  have hmodify {s' : Peer δ} (f : TimedCall → TimedCall) (h : Quietly P (scope point) start s') :
      Quietly P (scope point) start (s'.modifyTimed id f) :=
    h.tail (.modifyTimed (htimed point) id f)
  have hcount := hmodify (fun call => { call with done := call.done + 1 }) hquiet
  have hnote := hmodify (fun call => { call with error := ec }) hcount
  simp only [asyncDoneHandler, segments_bind, segments_state, segments_ite, segments_pure,
    segments_update, segments_throw]
  split_ifs with hfirst hopen
  · exact ⟨_, hnote, .threw (.refused _)⟩
  · simp only [Bool.not_eq_true', Bool.not_eq_false] at hopen
    exact ⟨hmodify TimedCall.cancelTimer (hnote.tail (.cancel hopen)), trivial⟩
  · exact ⟨hcount, trivial⟩

theorem timedSocketHandler_sound (op : Operation) (completion : Completion)
    (hop : op.isTimed = true) (hdone : op.result ≠ none) :
    Sound P scope (fun s => op ∈ s.operations) (timedSocketHandler op completion)
      (fun _ _ => True) := by
  have hremove : Sound P scope (fun s => op ∈ s.operations)
      (update fun s => s.removeOperation op) (fun _ _ => True) :=
    Sound.quiet fun point s hmem => .finishTimed (htimed point) hmem hdone hop
  refine hremove.bind fun _ => (asyncDoneHandler_sound htimed _ _).bind fun _ => ?_
  exact Sound.quiet fun point s _ => .modifyTimed (htimed point) _ _

theorem timedTimerHandler_sound (id : Nat) (ec : ErrorCode) :
    Sound P scope (fun _ => True) (timedTimerHandler id ec) (fun _ _ => True) := by
  have hhandled : Sound P scope (fun _ => True)
      (update fun s => s.modifyTimed id fun call => { call with timer := .handled })
      (fun _ _ => True) :=
    Sound.quiet fun point s _ => .modifyTimed (htimed point) _ _
  exact hhandled.bind fun _ => asyncDoneHandler_sound htimed _ _

end Timed

theorem sendTimed_sound {failed : ErrorCode → Proc δ Unit} (hunchecked : ¬P.checked)
    (hfailed : ∀ ec, Sound P scope P.Guarded (failed ec) (fun _ _ => True))
    (endpoint : Endpoint) (buffer : Buffer) :
    Sound P scope (fun _ => True) (sendTimed failed endpoint buffer) (fun _ _ => True) := by
  have hguard := Profile.guarded_of_unchecked hunchecked
  intro point start s hquiet _
  simp only [sendTimed, fire, segments_bind, segments_state, segments_ite, segments_pure,
    segments_update, segments_callback, segments_waitUntil]
  split_ifs with hrun hsize hnull
  · exact ⟨hquiet, trivial⟩
  · exact ⟨hquiet, trivial⟩
  · exact ⟨hquiet, trivial⟩
  · simp only [Bool.not_eq_true', Bool.not_eq_false] at hrun
    refine ⟨⟨_, hquiet.tail (.startTimed _ hrun (Or.inl rfl)), .waiting _⟩, fun s' _ => ?_⟩
    split_ifs
    · exact ⟨⟨s', .refl, .called (.sent _ _ (hguard s'))⟩,
        fun s'' => hfailed _ _ s'' s'' .refl (hguard s'')⟩
    · exact ⟨⟨s', .refl, .called (.sent _ _ (hguard s'))⟩, fun s'' => ⟨.refl, trivial⟩⟩
    · exact hfailed _ _ s' s' .refl (hguard s')
    · exact ⟨.refl, trivial⟩

theorem receiveTimed_sound {failed : ErrorCode → Proc δ Unit} (hunchecked : ¬P.checked)
    (hfailed : ∀ ec, Sound P scope P.Guarded (failed ec) (fun _ _ => True))
    (endpoint : Endpoint) (buffer : Buffer) :
    Sound P scope (fun _ => True) (receiveTimed failed endpoint buffer) (fun _ _ => True) := by
  have hguard := Profile.guarded_of_unchecked hunchecked
  intro point start s hquiet _
  simp only [receiveTimed, fire, segments_bind, segments_state, segments_ite, segments_pure,
    segments_update, segments_callback, segments_waitUntil]
  split_ifs with hrun hsize hnull
  · exact ⟨hquiet, trivial⟩
  · exact ⟨hquiet, trivial⟩
  · exact ⟨hquiet, trivial⟩
  · simp only [Bool.not_eq_true', Bool.not_eq_false] at hrun
    refine ⟨⟨_, hquiet.tail (.startTimed _ hrun (Or.inr rfl)), .waiting _⟩, fun s' _ => ?_⟩
    refine ⟨⟨s', .refl, .called (.received _ _ (hguard s'))⟩, fun s'' => ?_⟩
    split_ifs
    · exact hfailed _ _ s'' s'' .refl (hguard s'')
    · exact ⟨.refl, trivial⟩

/-! ## Handlers -/

/-- The size of the datagram whose completion handler was resumed from `onReceived`. -/
def tailOf {π : Type} (origin : Option (Origin π)) (point : Option Event) : Option Nat :=
  match origin, point with
  | some (.completion op completion), some (.onReceived _ size) =>
      if op.isReceive = true ∧ size = completion.size then some size else none
  | _, _ => none

def Origin.isTimed {π : Type} : Origin π → Bool
  | .completion op _ => op.isTimed
  | .timer _ => true
  | .posted _ => false

def scopeOf {π : Type} (origin : Option (Origin π)) (point : Option Event) : Scope :=
  ⟨tailOf origin point, origin.any Origin.isTimed⟩

theorem scopeOf_onReceived {π : Type} {op : Operation} (hreceive : op.isReceive = true)
    (completion : Completion) (endpoint : Endpoint) :
    (scopeOf (some (.completion op completion : Origin π))
      (some (.onReceived endpoint completion.size))).tail = some completion.size := by
  simp [scopeOf, tailOf, hreceive]

theorem completionHandler_sound {sendFailed receiveFailed : ErrorCode → Proc δ Unit}
    (hsend : ∀ ec, Sound P scope P.Guarded (sendFailed ec) (fun _ _ => True))
    (hreceive : ∀ ec, Sound P scope P.Guarded (receiveFailed ec) (fun _ _ => True))
    (op : Operation) (completion : Completion) (hdone : op.result ≠ none)
    (htail : op.isReceive = true → ∀ endpoint,
      (scope (some (.onReceived endpoint completion.size))).tail = some completion.size)
    (htimed : op.isTimed = true → ∀ point, (scope point).timed = true) :
    Sound P scope (fun s => op ∈ s.operations)
      (completionHandler sendFailed receiveFailed op completion) (fun _ _ => True) := by
  refine completionHandler_cases
    (motive := fun m => Sound P scope (fun s => op ∈ s.operations) m fun _ _ => True)
    completion (fun hop => ?_) (fun hop => ?_) fun hop => ?_
  · exact asyncSendToHandler_sound hsend op completion hop hdone
  · exact asyncReceiveHandler_sound hreceive op completion hop hdone (htail hop)
  · exact timedSocketHandler_sound (htimed hop) op completion hop hdone

theorem mem_of_completedOperation {s : Peer δ} {id : Nat} {op : Operation}
    {completion : Completion} (h : s.completedOperation id = some (op, completion)) :
    op ∈ s.operations ∧ op.id = id ∧ op.result = some completion := by
  obtain ⟨other, hmem, hother⟩ := List.exists_of_findSome?_eq_some h
  split at hother
  · rename_i hid
    simp only [Option.map_eq_some_iff, Prod.mk.injEq] at hother
    obtain ⟨result, hresult, rfl, rfl⟩ := hother
    exact ⟨hmem, hid, hresult⟩
  · simp at hother

theorem makeAddress_sound {A : Peer δ → Prop} (net : Net) (text : String) :
    Sound P scope A (makeAddress net text) (fun _ => A) := by
  intro point start s hquiet hA
  unfold makeAddress
  cases net.makeAddress text with
  | some address => exact ⟨hquiet, hA⟩
  | none => exact ⟨s, hquiet, .threw (.refused _)⟩

end AsioWrapper.Udp
