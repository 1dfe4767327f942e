import AsioWrapper.Foundation.Steps
import Mathlib.Data.List.Nodup
import Mathlib.Data.List.Perm.Basic

/-!
# The storage of a handler

One block of 1024 bytes inside of the object serves one small allocation at a
time; all others go to `operator new`.  A block is known by its address, and
`base` is that of the inline one.
-/

namespace AsioWrapper.Asio.HandlerStorage

open AsioWrapper.Foundation

variable {α : Type} [DecidableEq α]

/--
`heap` are the blocks that `operator new` has returned and `operator delete` has not taken
back, `news` and `deletes` all that ever went through the two.
-/
structure Storage (α : Type) where
  inUse : Bool
  heap : List α
  news : List α
  deletes : List α
  deriving DecidableEq, Repr

def operatorNew (answer : Option α) (s : Storage α) : Option α × Storage α :=
  match answer with
  | some block => (some block, { s with heap := block :: s.heap, news := s.news ++ [block] })
  | none => (none, s)

def operatorDelete (ptr : α) (s : Storage α) : Storage α :=
  { s with heap := s.heap.erase ptr, deletes := s.deletes ++ [ptr] }

def Storage.servesInline (s : Storage α) (size : Nat) : Bool := !s.inUse && size < 1024

def allocate (base : α) (size : Nat) (answer : Option α) (s : Storage α) :
    Option α × Storage α :=
  if s.servesInline size then (some base, { s with inUse := true }) else operatorNew answer s

def deallocate (base ptr : α) (s : Storage α) : Storage α :=
  if ptr = base then { s with inUse := false } else operatorDelete ptr s

/-! ## The storage and its users -/

structure Allocation (α : Type) where
  address : α
  size : Nat
  deriving DecidableEq, Repr

structure World (α : Type) where
  storage : Storage α
  live : List (Allocation α)
  deriving DecidableEq, Repr

def World.initial : World α := ⟨⟨false, [], [], []⟩, []⟩

def World.addresses (w : World α) : List α := w.live.map Allocation.address

inductive Move (α : Type) where
  | allocate (size : Nat) (answer : Option α)
  | deallocate (ptr : α)
  deriving DecidableEq, Repr

/--
`operator new` returns a block that is neither the inline one nor taken already; its answer
is of no account where it is not called.  Only what is allocated is given back.
-/
def Allowed (base : α) (w : World α) : Move α → Prop
  | .allocate size answer =>
      w.storage.servesInline size = true ∨
        ∀ block ∈ answer, block ≠ base ∧ block ∉ w.storage.heap
  | .deallocate ptr => ptr ∈ w.addresses

instance (base : α) (w : World α) : (move : Move α) → Decidable (Allowed base w move)
  | .allocate size answer =>
      inferInstanceAs (Decidable (w.storage.servesInline size = true ∨
        ∀ block ∈ answer, block ≠ base ∧ block ∉ w.storage.heap))
  | .deallocate ptr => inferInstanceAs (Decidable (ptr ∈ w.addresses))

def perform (base : α) (w : World α) : Move α → World α
  | .allocate size answer =>
      match allocate base size answer w.storage with
      | (some ptr, storage) => ⟨storage, ⟨ptr, size⟩ :: w.live⟩
      | (none, storage) => ⟨storage, w.live⟩
  | .deallocate ptr =>
      ⟨deallocate base ptr w.storage, w.live.eraseP fun a => a.address == ptr⟩

def step (base : α) (w : World α) (move : Move α) : Option (World α) :=
  if Allowed base w move then some (perform base w move) else none

/-! ## What holds between the steps -/

structure Sound (base : α) (w : World α) : Prop where
  distinct : w.addresses.Nodup
  inUse : w.storage.inUse = true ↔ base ∈ w.addresses
  small : ∀ a ∈ w.live, a.address = base → a.size < 1024
  heap : w.storage.heap.Perm (w.addresses.filter fun x => x != base)
  foreign : base ∉ w.storage.news
  ledger : ∀ x, w.storage.news.count x = w.storage.deletes.count x + w.storage.heap.count x

theorem Sound.initial (base : α) : Sound base World.initial where
  distinct := List.nodup_nil
  inUse := by simp [World.initial, World.addresses]
  small := by simp [World.initial]
  heap := .refl _
  foreign := List.not_mem_nil
  ledger x := rfl

theorem Sound.mem_heap {base : α} {w : World α} (h : Sound base w) {x : α} :
    x ∈ w.storage.heap ↔ x ∈ w.addresses ∧ x ≠ base := by
  simp [h.heap.mem_iff]

theorem Sound.allocate_inline {base : α} {w : World α} (h : Sound base w) {size : Nat}
    (hserves : w.storage.servesInline size = true) :
    Sound base ⟨{ w.storage with inUse := true }, ⟨base, size⟩ :: w.live⟩ := by
  simp only [Storage.servesInline, Bool.and_eq_true, Bool.not_eq_true', decide_eq_true_eq]
    at hserves
  have hfree : base ∉ w.addresses := by
    rw [← h.inUse, hserves.1]
    simp
  refine ⟨List.nodup_cons.mpr ⟨hfree, h.distinct⟩, by simp [World.addresses], ?_, ?_, h.foreign,
    h.ledger⟩
  · intro a ha hbase
    rcases List.mem_cons.mp ha with rfl | ha
    · exact hserves.2
    · exact h.small a ha hbase
  · simpa [World.addresses] using h.heap

theorem Sound.allocate_new {base : α} {w : World α} (h : Sound base w) {block : α}
    (hbase : block ≠ base) (hfresh : block ∉ w.storage.heap) (size : Nat) :
    Sound base ⟨(operatorNew (some block) w.storage).2, ⟨block, size⟩ :: w.live⟩ := by
  have hfree : block ∉ w.addresses := fun hmem => hfresh (h.mem_heap.mpr ⟨hmem, hbase⟩)
  refine ⟨List.nodup_cons.mpr ⟨hfree, h.distinct⟩, ?_, ?_, ?_, ?_, fun x => ?_⟩
  · simpa [World.addresses, operatorNew, hbase.symm] using h.inUse
  · intro a ha haddress
    rcases List.mem_cons.mp ha with rfl | ha
    · exact absurd haddress hbase
    · exact h.small a ha haddress
  · have hcons := h.heap.cons block
    simpa [World.addresses, operatorNew, hbase] using hcons
  · simpa [operatorNew, hbase.symm] using h.foreign
  · have := h.ledger x
    simp only [operatorNew, List.count_append, List.count_cons, List.count_nil]
    omega

private theorem addresses_erase (w : World α) (storage : Storage α) (ptr : α) :
    World.addresses ⟨storage, w.live.eraseP fun a => a.address == ptr⟩ =
      w.addresses.erase ptr := by
  rw [World.addresses, World.addresses, List.erase_eq_eraseP', List.eraseP_map]
  rfl

theorem Sound.deallocate {base : α} {w : World α} (h : Sound base w) {ptr : α}
    (hptr : ptr ∈ w.addresses) :
    Sound base ⟨deallocate base ptr w.storage, w.live.eraseP fun a => a.address == ptr⟩ := by
  have herase := h.distinct.erase_eq_filter ptr
  have hsmall : ∀ a ∈ w.live.eraseP (fun a => a.address == ptr),
      a.address = base → a.size < 1024 :=
    fun a ha => h.small a (List.mem_of_mem_eraseP ha)
  by_cases hbase : ptr = base
  · subst hbase
    rw [HandlerStorage.deallocate, if_pos rfl]
    refine ⟨?_, ?_, hsmall, ?_, h.foreign, h.ledger⟩
    · rw [addresses_erase]
      exact h.distinct.erase ptr
    · rw [addresses_erase, h.distinct.mem_erase_iff]
      simp
    · rw [addresses_erase, herase]
      simpa [List.filter_filter] using h.heap
  · rw [HandlerStorage.deallocate, if_neg hbase]
    refine ⟨?_, ?_, hsmall, ?_, h.foreign, fun x => ?_⟩
    · rw [addresses_erase]
      exact h.distinct.erase ptr
    · rw [addresses_erase, h.distinct.mem_erase_iff]
      simpa [operatorDelete, Ne.symm hbase] using h.inUse
    · have hfilter : ((w.addresses.erase ptr).filter fun x => x != base) =
          (w.addresses.filter fun x => x != base).erase ptr := by
        rw [herase, (h.distinct.filter _).erase_eq_filter, List.filter_filter, List.filter_filter]
        simp only [Bool.and_comm]
      rw [addresses_erase, hfilter]
      exact h.heap.erase ptr
    · have hcount := h.ledger x
      have hmem : ptr ∈ w.storage.heap := h.mem_heap.mpr ⟨hptr, hbase⟩
      simp only [operatorDelete, List.count_append, List.count_cons, List.count_nil,
        List.count_erase]
      by_cases hx : ptr = x
      · subst hx
        have hpos := List.count_pos_iff.mpr hmem
        simp
        omega
      · simp [hx]
        omega

theorem Sound.step {base : α} {w w' : World α} (h : Sound base w) {move : Move α}
    (hstep : step base w move = some w') : Sound base w' := by
  simp only [HandlerStorage.step] at hstep
  split at hstep
  · rename_i hallowed
    obtain rfl := Option.some.inj hstep
    cases move with
    | allocate size answer =>
        simp only [perform, allocate]
        split_ifs with hserves
        · exact h.allocate_inline hserves
        · cases answer with
          | none => exact h
          | some block =>
              have hblock := (hallowed.resolve_left hserves) block rfl
              exact h.allocate_new hblock.1 hblock.2 size
    | deallocate ptr => exact h.deallocate hallowed
  · cases hstep

theorem sound_of_run (base : α) (moves : List (Move α)) :
    ∀ w ∈ Steps.states (step base) World.initial moves, Sound base w :=
  Steps.states_invariant (P := fun _ => True) (fun _ h hstep _ => h.step hstep)
    (Sound.initial base) (fun _ _ => trivial)

theorem Sound.count_heap {base : α} {w : World α} (h : Sound base w) (x : α) :
    w.storage.heap.count x = if x ≠ base ∧ ∃ a ∈ w.live, a.address = x then 1 else 0 := by
  have hnodup : w.storage.heap.Nodup := h.heap.nodup_iff.mpr (h.distinct.filter _)
  have hmem : x ∈ w.storage.heap ↔ x ≠ base ∧ ∃ a ∈ w.live, a.address = x := by
    rw [h.mem_heap, World.addresses, List.mem_map, and_comm]
  by_cases hx : x ∈ w.storage.heap
  · rw [List.count_eq_one_of_mem hnodup hx, if_pos (hmem.mp hx)]
  · rw [List.count_eq_zero_of_not_mem hx, if_neg (mt hmem.mpr hx)]

theorem Sound.base_not_deleted {base : α} {w : World α} (h : Sound base w) :
    base ∉ w.storage.deletes := by
  have hcount := h.ledger base
  rw [List.count_eq_zero_of_not_mem h.foreign] at hcount
  exact List.count_eq_zero.mp (by omega)

theorem Sound.inline_unique {base : α} {w : World α} (h : Sound base w) :
    (w.live.filter fun a => a.address = base).length ≤ 1 := by
  have hcount : w.addresses.count base = (w.live.filter fun a => a.address = base).length := by
    rw [World.addresses, List.count, List.countP_map, List.countP_eq_length_filter]
    rfl
  rw [← hcount]
  exact List.nodup_iff_count_le_one.mp h.distinct base

theorem Sound.mem_news {base : α} {w : World α} (h : Sound base w) {a : Allocation α}
    (ha : a ∈ w.live) (hbase : a.address ≠ base) : a.address ∈ w.storage.news := by
  have hcount := h.ledger a.address
  rw [h.count_heap, if_pos ⟨hbase, a, ha, rfl⟩] at hcount
  exact List.count_pos_iff.mp (by omega)

theorem Sound.allocate_after_release {base : α} {w : World α} (h : Sound base w)
    (hnone : w.live = []) {size : Nat} (hsize : size < 1024) (answer : Option α) :
    (allocate base size answer w.storage).1 = some base := by
  have hfree : w.storage.inUse = false := by
    rw [← Bool.not_eq_true, h.inUse, World.addresses, hnone]
    exact List.not_mem_nil
  simp [allocate, Storage.servesInline, hfree, hsize]

/--
Whatever is allocated and given back in whatever order, the inline block belongs to one
small allocation at most and `_in_use` says whether to one.  Every other allocation is a
block of its own from `operator new`, which `operator delete` gets back once: as often as
it was returned, not counting the allocation that is live.
-/
theorem handlerStorage_never_shared (base : α) (moves : List (Move α)) :
    ∀ w ∈ Steps.states (step base) World.initial moves,
      (w.live.filter fun a => a.address = base).length ≤ 1 ∧
      (∀ a ∈ w.live, a.address = base → a.size < 1024) ∧
      (w.storage.inUse = true ↔ ∃ a ∈ w.live, a.address = base) ∧
      (w.live.map Allocation.address).Nodup ∧
      (∀ a ∈ w.live, a.address ≠ base → a.address ∈ w.storage.news) ∧
      base ∉ w.storage.deletes ∧
      (∀ x, w.storage.news.count x = w.storage.deletes.count x +
        if x ≠ base ∧ ∃ a ∈ w.live, a.address = x then 1 else 0) ∧
      (w.live = [] → ∀ size < 1024, ∀ answer,
        (allocate base size answer w.storage).1 = some base) := by
  intro w hw
  have h := sound_of_run base moves w hw
  have hinUse : w.storage.inUse = true ↔ ∃ a ∈ w.live, a.address = base := by
    rw [h.inUse, World.addresses, List.mem_map]
  refine ⟨h.inline_unique, h.small, hinUse, h.distinct, fun a => h.mem_news,
    h.base_not_deleted, fun x => ?_, fun hnone size hsize => h.allocate_after_release hnone hsize⟩
  rw [h.ledger, h.count_heap]

theorem handlerStorage_never_shared_twoHandlers :
    ∃ w, Steps.run (step 0) World.initial
        [.allocate 100 none, .allocate 200 (some 7), .deallocate 0, .deallocate 7] = some w ∧
      w.live = [] ∧ (allocate 0 300 (some 9) w.storage).1 = some 0 := by
  have hrun : Steps.run (step 0) World.initial
      [.allocate 100 none, .allocate 200 (some 7), .deallocate 0, .deallocate 7] =
        some ⟨⟨false, [], [7], [7]⟩, []⟩ := by decide
  refine ⟨_, hrun, rfl, ?_⟩
  have hstate := handlerStorage_never_shared 0 _ _ (Steps.run_mem_states hrun)
  exact hstate.2.2.2.2.2.2.2 rfl 300 (by decide) (some 9)

end AsioWrapper.Asio.HandlerStorage
