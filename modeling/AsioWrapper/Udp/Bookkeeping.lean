import AsioWrapper.Udp.SocketOpen
import Mathlib.Data.List.Nodup

/-!
# The operations of a peer

Operations have distinct numbers, carry the session and the socket generation
that were current when they were started, and are pending only on the socket
that is open now.
-/

namespace AsioWrapper.Udp

open AsioWrapper.Asio
open AsioWrapper.Foundation

variable {δ : Type}

/-- What becomes of an operation while its handler has not run. -/
structure Follows (op op' : Operation) : Prop where
  id : op'.id = op.id
  purpose : op'.purpose = op.purpose
  generation : op'.generation = op.generation
  session : op'.session = op.session
  result : op'.result = none → op' = op

theorem follows_abort (op : Operation) : Follows op op.abort where
  id := by simp
  purpose := by simp
  generation := by simp
  session := by simp
  result h := absurd h op.abort_result_ne_none

theorem follows_completedBy (op other : Operation) (completion : Completion) :
    Follows other (op.completedBy completion other) where
  id := by simp
  purpose := by simp
  generation := by simp
  session := by simp
  result h := by
    unfold Operation.completedBy at h ⊢
    split at h
    · cases h
    · rw [if_neg ‹_›]

inductive OperationsStep (s s' : Peer δ) : Prop where
  | kept (hissued : s'.issued = s.issued) (h : s'.operations = s.operations)
  | mapped (hissued : s'.issued = s.issued) (f : Operation → Operation)
      (hf : ∀ op, Follows op (f op)) (h : s'.operations = s.operations.map f)
  | removed (hissued : s'.issued = s.issued) (op : Operation) (hmem : op ∈ s.operations)
      (hdone : op.result ≠ none)
      (h : s'.operations = s.operations.filter fun other => other ≠ op)
  | added (hissued : s'.issued = s.issued + 1) (hrun : s.running = true) (purpose : Purpose)
      (h : s'.operations = s.operations ++
        [⟨s.issued, purpose, s.socket.generation, s.session, none⟩])

theorem Quiet.operationsStep {P : Profile δ} {scope : Scope} {s s' : Peer δ}
    (h : Quiet P scope s s') : OperationsStep s s' := by
  cases h with
  | special h =>
      exact .kept (P.inert_field h Peer.issued) (P.inert_field h Peer.operations)
  | startSend data endpoint hrun hfree => exact .added rfl hrun _ rfl
  | startReceive hrun hfree => exact .added rfl hrun _ rfl
  | startTimed purpose hrun htimed => exact .added rfl hrun _ rfl
  | finishSend hmem hdone hsend => exact .removed rfl _ hmem hdone rfl
  | finishReceive hmem hdone hreceive => exact .removed rfl _ hmem hdone rfl
  | finishTimed hscope hmem hdone htimed => exact .removed rfl _ hmem hdone rfl
  | modifyTimed hscope id f => exact .kept rfl rfl
  | cancel hopen => exact .mapped rfl _ follows_abort rfl
  | grow htail hfull hlimit => exact .kept rfl rfl

theorem Fires.operationsStep {P : Profile δ} {event : Event} {s s' : Peer δ}
    (h : Fires P event s s') : OperationsStep s s' := by
  cases h with
  | closed hrun =>
      split
      · exact .mapped rfl _ follows_abort rfl
      · exact .mapped rfl _ follows_abort rfl
  | _ => exact .kept rfl rfl

theorem Fails.operationsStep {ec : ErrorCode} {s s' : Peer δ} (h : Fails ec s s') :
    OperationsStep s s' := by
  cases h <;> exact .kept rfl rfl

theorem Stirred.operationsStep {s s' : Peer δ} (h : Stirred s s') : OperationsStep s s' := by
  cases h with
  | complete hmem hpending completion =>
      exact .mapped rfl _ (fun other => follows_completedBy _ other completion) rfl
  | expire id harmed => exact .kept rfl rfl

theorem Quiet.socket_eq {P : Profile δ} {scope : Scope} {s s' : Peer δ}
    (h : Quiet P scope s s') :
    s'.socket = s.socket ∧ s'.session = s.session ∧ s'.running = s.running := by
  cases h with
  | special h =>
      exact ⟨P.inert_field h Peer.socket, P.inert_field h Peer.session,
        P.inert_field h Peer.running⟩
  | _ => exact ⟨rfl, rfl, rfl⟩

theorem Quietly.socket_eq {P : Profile δ} {scope : Scope} {s s' : Peer δ}
    (h : Quietly P scope s s') :
    s'.socket = s.socket ∧ s'.session = s.session ∧ s'.running = s.running := by
  induction h with
  | refl => exact ⟨rfl, rfl, rfl⟩
  | tail _ hstep ih =>
      obtain ⟨hsocket, hsession, hrun⟩ := hstep.socket_eq
      exact ⟨hsocket.trans ih.1, hsession.trans ih.2.1, hrun.trans ih.2.2⟩

theorem OperationsStep.mem {s s' : Peer δ} (h : OperationsStep s s') {op' : Operation}
    (hop' : op' ∈ s'.operations) :
    (∃ op ∈ s.operations, Follows op op') ∨
      s.running = true ∧ s'.issued = s.issued + 1 ∧
        ∃ purpose, op' = ⟨s.issued, purpose, s.socket.generation, s.session, none⟩ := by
  cases h with
  | kept _ h =>
      rw [h] at hop'
      exact Or.inl ⟨op', hop', rfl, rfl, rfl, rfl, fun _ => rfl⟩
  | mapped _ f hf h =>
      rw [h] at hop'
      obtain ⟨op, hop, rfl⟩ := List.mem_map.mp hop'
      exact Or.inl ⟨op, hop, hf op⟩
  | removed _ op _ _ h =>
      rw [h] at hop'
      exact Or.inl ⟨op', (List.mem_filter.mp hop').1, rfl, rfl, rfl, rfl, fun _ => rfl⟩
  | added hissued hrun purpose h =>
      rw [h] at hop'
      rcases List.mem_append.mp hop' with hop' | hop'
      · exact Or.inl ⟨op', hop', rfl, rfl, rfl, rfl, fun _ => rfl⟩
      · exact Or.inr ⟨hrun, hissued, purpose, List.mem_singleton.mp hop'⟩

theorem OperationsStep.issued_le {s s' : Peer δ} (h : OperationsStep s s') :
    s.issued ≤ s'.issued := by
  cases h <;> omega

/-! ## The invariant -/

structure Tidy (s : Peer δ) : Prop where
  socket : SocketOwned s
  numbered : ∀ op ∈ s.operations, op.id < s.issued
  distinct : s.operations.Pairwise fun op other => op.id ≠ other.id
  session : ∀ op ∈ s.operations, op.session ≤ s.session
  generation : ∀ op ∈ s.operations, op.generation ≤ s.socket.generation
  pending : ∀ op ∈ s.operations, op.result = none →
    s.socket.isOpen = true ∧ op.generation = s.socket.generation

theorem tidy_fresh (endpoint : Endpoint) (own : δ) : Tidy (Peer.fresh endpoint own) where
  socket := socketOwned_fresh endpoint own
  numbered := by simp [Peer.fresh]
  distinct := .nil
  session := by simp [Peer.fresh]
  generation := by simp [Peer.fresh]
  pending := by simp [Peer.fresh]

section Step

variable {s s' : Peer δ} (hs : Tidy s) (h : OperationsStep s s')

include hs h

theorem OperationsStep.numbered : ∀ op ∈ s'.operations, op.id < s'.issued := by
  intro op' hop'
  have hissued := h.issued_le
  rcases h.mem hop' with ⟨op, hop, hfollows⟩ | ⟨_, hissued', purpose, rfl⟩
  · have := hs.numbered op hop
    rw [hfollows.id]
    omega
  · rw [hissued']
    exact Nat.lt_succ_self _

theorem OperationsStep.distinct : s'.operations.Pairwise fun op other => op.id ≠ other.id := by
  cases h with
  | kept _ h =>
      rw [h]
      exact hs.distinct
  | mapped _ f hf h =>
      rw [h, List.pairwise_map]
      refine hs.distinct.imp fun {op other} hne => ?_
      rw [(hf op).id, (hf other).id]
      exact hne
  | removed _ op _ _ h =>
      rw [h]
      exact hs.distinct.filter _
  | added _ hrun purpose h =>
      rw [h, List.pairwise_append]
      refine ⟨hs.distinct, List.pairwise_singleton _ _, fun op hop new hnew => ?_⟩
      have := hs.numbered op hop
      rw [List.mem_singleton.mp hnew]
      exact Nat.ne_of_lt this

theorem OperationsStep.session (hsession : s.session ≤ s'.session) :
    ∀ op ∈ s'.operations, op.session ≤ s'.session := by
  intro op' hop'
  rcases h.mem hop' with ⟨op, hop, hfollows⟩ | ⟨_, _, purpose, rfl⟩
  · have := hs.session op hop
    rw [hfollows.session]
    omega
  · exact hsession

theorem OperationsStep.generation (hgeneration : s.socket.generation ≤ s'.socket.generation) :
    ∀ op ∈ s'.operations, op.generation ≤ s'.socket.generation := by
  intro op' hop'
  rcases h.mem hop' with ⟨op, hop, hfollows⟩ | ⟨_, _, purpose, rfl⟩
  · have := hs.generation op hop
    rw [hfollows.generation]
    omega
  · exact hgeneration

theorem OperationsStep.pending (hsocket : s'.socket = s.socket) :
    ∀ op ∈ s'.operations, op.result = none →
      s'.socket.isOpen = true ∧ op.generation = s'.socket.generation := by
  intro op' hop' hpending
  rw [hsocket]
  rcases h.mem hop' with ⟨op, hop, hfollows⟩ | ⟨hrun, _, purpose, rfl⟩
  · obtain rfl := hfollows.result hpending
    exact hs.pending op' hop hpending
  · exact ⟨hs.socket.running hrun, rfl⟩

theorem Tidy.of_step (howned : SocketOwned s') (hsocket : s'.socket = s.socket)
    (hsession : s'.session = s.session) : Tidy s' where
  socket := howned
  numbered := h.numbered hs
  distinct := h.distinct hs
  session := h.session hs (Nat.le_of_eq hsession.symm)
  generation := h.generation hs (Nat.le_of_eq (by rw [hsocket]))
  pending := h.pending hs hsocket

theorem Tidy.of_idle (howned : SocketOwned s')
    (hgeneration : s.socket.generation ≤ s'.socket.generation)
    (hsession : s.session ≤ s'.session) (hidle : ∀ op ∈ s'.operations, op.result ≠ none) :
    Tidy s' where
  socket := howned
  numbered := h.numbered hs
  distinct := h.distinct hs
  session := h.session hs hsession
  generation := h.generation hs hgeneration
  pending op hop hpending := absurd hpending (hidle op hop)

end Step

theorem Tidy.idle_of_closed {s : Peer δ} (hs : Tidy s) (hclosed : s.socket.isOpen = false) :
    ∀ op ∈ s.operations, op.result ≠ none := by
  intro op hop hpending
  rw [(hs.pending op hop hpending).1] at hclosed
  contradiction

theorem Tidy.eq_of_id {s : Peer δ} (hs : Tidy s) {op other : Operation}
    (hop : op ∈ s.operations) (hother : other ∈ s.operations) (hid : op.id = other.id) :
    op = other :=
  List.inj_on_of_nodup_map (List.pairwise_map.mpr hs.distinct) hop hother hid

theorem tidy_stable (P : Profile δ) : Stable P Tidy where
  quiet h hs := by
    obtain ⟨hsocket, hsession, -⟩ := h.socket_eq
    exact hs.of_step h.operationsStep ((socketOwned_stable P).quiet h hs.socket) hsocket hsession
  fires h hs := by
    have howned := (socketOwned_stable P).fires h hs.socket
    have hstep := h.operationsStep
    cases h with
    | opened socket size hrun hclosed hopen hgeneration =>
        refine hs.of_idle hstep howned ?_ (Nat.le_succ _) (hs.idle_of_closed hclosed)
        exact Nat.le_of_lt (Nat.lt_of_lt_of_eq (Nat.lt_succ_self _) hgeneration.symm)
    | closed hrun =>
        have hidle (s : Peer δ) : ∀ op ∈ s.operations.map Operation.abort, op.result ≠ none := by
          intro op hop
          obtain ⟨other, _, rfl⟩ := List.mem_map.mp hop
          exact other.abort_result_ne_none
        refine hs.of_idle hstep howned ?_ ?_ ?_
        · split <;> exact Nat.le_refl _
        · split <;> exact Nat.le_refl _
        · split <;> exact hidle _
    | _ => exact hs.of_step hstep howned rfl rfl
  fails h hs := by
    have howned := (socketOwned_stable P).fails h hs.socket
    have hstep := h.operationsStep
    cases h with
    | halfOpened call ec socket hclosed hrun hcall hopen hgeneration =>
        refine hs.of_idle hstep howned ?_ (Nat.le_refl _) (hs.idle_of_closed hclosed)
        exact Nat.le_of_lt (Nat.lt_of_lt_of_eq (Nat.lt_succ_self _) hgeneration.symm)
    | _ => exact hs.of_step hstep howned rfl rfl
  stirred h hs := by
    have howned := (socketOwned_stable P).stirred h hs.socket
    have hstep := h.operationsStep
    cases h <;> exact hs.of_step hstep howned rfl rfl

end AsioWrapper.Udp
