import AsioWrapper.Asio.HandlerStorage
import AsioWrapper.Udp.Flags

/-!
# The memory of the completion handlers

`SendAsync` and `TryReceive` wrap their completion handlers so that asio takes the
memory for an operation from `_send_storage` and `_receive_storage`.  It is taken
when the operation is started and given back before its handler is invoked.  A
storage serves one operation at a time from inside of the object; where the flag
of the operation is right there is never a second one, and the free store is not
used at all.
-/

namespace AsioWrapper.Udp

open AsioWrapper.Asio
open AsioWrapper.Asio.HandlerStorage
open AsioWrapper.Foundation

variable {δ π κ η ν α : Type}

/-- `HandlerAllocator<T>::allocate`, with `sizeOf` for `sizeof(T)`. -/
def allocateHandler (base : α) (num sizeOf : Nat) (answer : Option α) (s : Storage α) :
    Option α × Storage α :=
  allocate base (num * sizeOf % 2 ^ 64) answer s

structure Memory (α : Type) where
  storage : Storage α
  blocks : List (Nat × α)
  deriving DecidableEq, Repr

namespace Memory

def initial : Memory α := ⟨⟨false, [], [], []⟩, []⟩

def release [DecidableEq α] (base : α) (m : Memory α) (block : Nat × α) : Memory α :=
  ⟨deallocate base block.2 m.storage, m.blocks.erase block⟩

/-- An operation for which there is no memory is not started, and the call throws. -/
def acquire (base : α) (sizeOf : Nat) (answer : Option α) (m : Memory α) (id : Nat) :
    Option (Memory α) :=
  match allocateHandler base 1 sizeOf answer m.storage with
  | (some block, storage) => some ⟨storage, (id, block) :: m.blocks⟩
  | (none, _) => none

def follow [DecidableEq α] (base : α) (sizeOf : Nat) (answer : Option α) (before after : List Nat)
    (m : Memory α) : Option (Memory α) :=
  let kept := (m.blocks.filter fun block => block.1 ∉ after).foldl (release base) m
  (after.filter fun id => id ∉ before).foldlM (acquire base sizeOf answer) kept

end Memory

def Flag.ids (flag : Flag) (s : Peer δ) : List Nat := (flag.outstanding s).map Operation.id

/-- The peer together with the storage of one of its flags; each move comes with the answer of
`operator new`. -/
def stepMemory [DecidableEq α] (S : PeerSystem δ π κ η ν) (flag : Flag) (base : α) (sizeOf : Nat)
    (x : PeerConfig δ π × Memory α) (move : Move κ η ν × Option α) :
    Option (PeerConfig δ π × Memory α) :=
  (S.step x.1 move.1).bind fun c =>
    (Memory.follow base sizeOf move.2 (flag.ids x.1.world) (flag.ids c.world) x.2).map
      fun m => (c, m)

/-! ## The inline block suffices -/

structure Memory.Inline (base : α) (ids : List Nat) (m : Memory α) : Prop where
  blocks : m.blocks = ids.map fun id => (id, base)
  storage : m.storage = ⟨!ids.isEmpty, [], [], []⟩

section Inline

variable {base : α} {sizeOf : Nat} {m m' : Memory α}

theorem Memory.Inline.eq {ids : List Nat} (h : m.Inline base ids) :
    m = ⟨⟨!ids.isEmpty, [], [], []⟩, ids.map fun id => (id, base)⟩ := by
  obtain ⟨storage, blocks⟩ := m
  obtain ⟨rfl, rfl⟩ := h
  rfl

private theorem acquire_inline (hsize : sizeOf < 1024) (answer : Option α) (id : Nat) :
    Memory.acquire base sizeOf answer ⟨⟨false, [], [], []⟩, []⟩ id =
      some ⟨⟨true, [], [], []⟩, [(id, base)]⟩ := by
  have hsmall : 1 * sizeOf % 2 ^ 64 < 1024 := by omega
  have hserves : Storage.servesInline (⟨false, [], [], []⟩ : Storage α) (1 * sizeOf % 2 ^ 64) =
      true := decide_eq_true hsmall
  rw [Memory.acquire, allocateHandler, allocate, if_pos hserves]

private theorem release_inline [DecidableEq α] (id : Nat) :
    Memory.release base ⟨⟨true, [], [], []⟩, [(id, base)]⟩ (id, base) =
      ⟨⟨false, [], [], []⟩, []⟩ := by
  simp [Memory.release, deallocate]

theorem Memory.Inline.follow [DecidableEq α] {before after : List Nat} (h : m.Inline base before)
    (hsize : sizeOf < 1024) (hbefore : before.length ≤ 1) (hafter : after.length ≤ 1)
    (answer : Option α) :
    ∃ m', Memory.follow base sizeOf answer before after m = some m' ∧ m'.Inline base after := by
  refine ⟨⟨⟨!after.isEmpty, [], [], []⟩, after.map fun id => (id, base)⟩, ?_, rfl, rfl⟩
  rw [h.eq, Memory.follow]
  rcases before with _ | ⟨old, _ | _⟩
  · rcases after with _ | ⟨new, _ | _⟩
    · rfl
    · simp [acquire_inline hsize]
    · simp at hafter
  · rcases after with _ | ⟨new, _ | _⟩
    · simp [release_inline]
    · by_cases hsame : old = new
      · simp [hsame]
      · simp [release_inline, acquire_inline hsize, hsame, Ne.symm hsame]
    · simp at hafter
  · simp at hbefore

end Inline

/-! ## Runs -/

theorem Flag.length_ids (flag : Flag) (s : Peer δ) :
    (flag.ids s).length = (flag.outstanding s).length :=
  List.length_map _

theorem inline_initial (flag : Flag) (base : α) (endpoint : Endpoint) (own : δ) :
    Memory.initial.Inline base (flag.ids (Peer.fresh endpoint own)) where
  blocks := by cases flag <;> rfl
  storage := by cases flag <;> rfl

theorem inline_run [DecidableEq α] {S : PeerSystem δ π κ η ν} {P : Profile δ} {flag : Flag}
    {base : α} {sizeOf : Nat} (hM : Modelled S P) (hsize : sizeOf < 1024)
    (ms : List (Move κ η ν × Option α)) {c c' : PeerConfig δ π} {m : Memory α}
    (hc : flag.Upheld P c) (hm : m.Inline base (flag.ids c.world))
    (hsettled : ∀ t ∈ S.trace c (ms.map Prod.fst), flag.Settled t)
    (hrun : S.run c (ms.map Prod.fst) = some c') :
    ∃ m', Steps.run (stepMemory S flag base sizeOf) (c, m) ms = some (c', m') ∧
      m'.Inline base (flag.ids c'.world) := by
  induction ms generalizing c m with
  | nil =>
      cases hrun
      exact ⟨m, rfl, hm⟩
  | cons move ms ih =>
      simp only [List.map_cons, System.run, System.trace, Steps.run, Steps.trace] at hrun hsettled
      cases hstep : S.step c move.1 with
      | none =>
          rw [hstep] at hrun
          cases hrun
      | some next =>
          simp only [hstep, List.forall_mem_cons] at hrun hsettled
          have hnext := Flag.Upheld.step (t := ⟨c, move.1, next⟩) hM hc hstep hsettled.1
          have hbefore := hc.kept.length_le
          have hafter := hnext.kept.length_le
          rw [← Flag.length_ids] at hbefore hafter
          obtain ⟨m', hfollow, hm'⟩ := hm.follow hsize hbefore hafter move.2
          have hboth : stepMemory S flag base sizeOf (c, m) move = some (next, m') := by
            simp [stepMemory, hstep, hfollow]
          obtain ⟨m'', hrun', hm''⟩ := ih hnext hm' hsettled.2 hrun
          refine ⟨m'', ?_, hm''⟩
          rw [Steps.run, hboth]
          exact hrun'

def Memory.Holds (flag : Flag) (base : α) (s : Peer δ) (m : Memory α) : Prop :=
  m.storage.news = [] ∧ m.storage.inUse = !(flag.outstanding s).isEmpty ∧
    m.blocks = (flag.outstanding s).map fun op => (op.id, base)

theorem Memory.Inline.holds {flag : Flag} {base : α} {s : Peer δ} {m : Memory α}
    (h : m.Inline base (flag.ids s)) : m.Holds flag base s := by
  refine ⟨by rw [h.storage], ?_, ?_⟩
  · rw [h.storage, Flag.ids, List.isEmpty_map]
  · rw [h.blocks, Flag.ids, List.map_map]
    rfl

/--
In a run in which no session begins before the handlers of the earlier operations have run, the
memory of every handler of less than 1024 bytes is the block inside of the object: `operator new`
is never called, and no operation fails for lack of memory whatever it would answer.
-/
theorem handler_memory_inline [DecidableEq α] (net : Net) (flag : Flag) (base : α) (sizeOf : Nat)
    (hsize : sizeOf < 1024) :
    (∀ s₀, Client.Constructed s₀ →
      ∀ ms : List (Move Client.Call Pending Client.Stimulus × Option α),
      (∀ t ∈ (Client.system net).trace (.initial s₀) (ms.map Prod.fst), flag.Settled t) →
      ∀ c, (Client.system net).run (.initial s₀) (ms.map Prod.fst) = some c →
        ∃ m, Steps.run (stepMemory (Client.system net) flag base sizeOf)
            (.initial s₀, Memory.initial) ms = some (c, m) ∧ m.Holds flag base c.world) ∧
    ∀ s₀, Server.Constructed net s₀ → ∀ ms : List (Move Server.Call Pending Stimulus × Option α),
      (∀ t ∈ (Server.system net).trace (.initial s₀) (ms.map Prod.fst), flag.Settled t) →
      ∀ c, (Server.system net).run (.initial s₀) (ms.map Prod.fst) = some c →
        ∃ m, Steps.run (stepMemory (Server.system net) flag base sizeOf)
            (.initial s₀, Memory.initial) ms = some (c, m) ∧ m.Holds flag base c.world := by
  constructor
  · intro s₀ hs₀ ms hsettled c hrun
    obtain ⟨endpoint, own, rfl, -⟩ := hs₀.fresh
    obtain ⟨m, hm, hinline⟩ := inline_run (Client.modelled net) hsize ms
      (Flag.upheld_initial _ flag endpoint own) (inline_initial flag base endpoint own)
      hsettled hrun
    exact ⟨m, hm, hinline.holds⟩
  · intro s₀ hs₀ ms hsettled c hrun
    obtain ⟨endpoint, own, rfl, -⟩ := hs₀.fresh
    obtain ⟨m, hm, hinline⟩ := inline_run (Server.modelled net) hsize ms
      (Flag.upheld_initial _ flag endpoint own) (inline_initial flag base endpoint own)
      hsettled hrun
    exact ⟨m, hm, hinline.holds⟩

theorem handler_memory_inline_twoSessions :
    ∃ c m, Steps.run (stepMemory (Client.system .loopback) .sending (0 : Nat) 64)
        (.initial (Client.ofAddressPort "127.0.0.1" 5000), Memory.initial)
        (sendTwice.map fun move => (move, none)) = some (c, m) ∧
      c.world.session = 2 ∧ (Flag.sending.outstanding c.world).length = 1 ∧
      m.Holds .sending 0 c.world := by
  obtain ⟨m, hrun, hholds⟩ := (handler_memory_inline .loopback .sending (0 : Nat) 64
    (by decide)).1 _ (.ofAddressPort "127.0.0.1" 5000) (sendTwice.map fun move => (move, none))
    (by decide) _ rfl
  exact ⟨_, m, hrun, rfl, rfl, hholds⟩

end AsioWrapper.Udp
