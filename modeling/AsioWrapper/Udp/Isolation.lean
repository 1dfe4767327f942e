import AsioWrapper.Udp.Bookkeeping

/-!
# Sessions and the handlers left over from earlier ones

A completion handler, and the disconnect handler a client posts, test only
whether the object is running now.  When a session is opened before the
handlers of the previous one have run, they take the new session for their
own.  What such a handler does is described exactly, and a run in which every
session is opened with no handler left over is shown to contain none.
-/

namespace AsioWrapper.Udp

open AsioWrapper.Asio
open AsioWrapper.Foundation
open AsioWrapper.Foundation.Program

variable {δ π : Type}

structure SessionView where
  running : Bool
  sending : Bool
  receiving : Bool
  sendBuffer : List UInt8
  bytesSending : UInt64
  bytesSent : UInt64
  bytesReceived : UInt64
  datagramsSent : UInt64
  datagramsReceived : UInt64
  log : List Event
  deriving DecidableEq, Repr

def Peer.sessionView (s : Peer δ) : SessionView :=
  ⟨s.running, s.sending, s.receiving, s.sendBuffer, s.bytesSending, s.bytesSent,
    s.bytesReceived, s.datagramsSent, s.datagramsReceived, s.log⟩

/--
When the code of a leftover handler does nothing to the session that is running: the
completion of an empty send while no send is in flight, and what is left of a handler
after its last callback: nothing, or after `onReceived` the doubling of a buffer that the
datagram filled, as long as the limit is not reached.
-/
def Harmless (origin : Origin π) (point : Option Event) (s : Peer δ) : Prop :=
  match point, origin with
  | none, .completion op completion =>
      op.isSend = true ∧ s.sending = false ∧ completion.error.failed = false ∧
        completion.size = 0
  | none, _ => False
  | some (.onError _), _ => False
  | some (.onReceived _ size), _ =>
      ¬(s.receiveBuffer = size ∧ doubled size > s.receiveBufferLimit ∧
        s.receiveBufferLimit > 0)
  | some _, _ => True

/-! ## What a leftover handler does -/

def LeftoverExact (session : Origin π → Option Nat) (origin : Option (Origin π))
    (point : Option Event) (s : Peer δ) (_ : Stop Event ErrorCode) (s' : Peer δ) : Prop :=
  ∀ o n, origin = some o → session o = some n →
    s'.session = s.session ∧
      (s.running = true → (s'.sessionView = s.sessionView ↔ Harmless o point s))

section Exact

variable {session : Origin π → Option Nat} {o : Origin π} {point : Option Event}
  {start s : Peer δ} {stop : Stop Event ErrorCode}

structure Unnoticed (start s : Peer δ) : Prop where
  session : s.session = start.session
  running : s.running = start.running
  log : s.log = start.log

theorem Unnoticed.refl (s : Peer δ) : Unnoticed s s := ⟨rfl, rfl, rfl⟩

theorem leftoverExact_fire (h : Unnoticed start s)
    (hharm : start.running = true → ¬Harmless o point start) {s' : Peer δ} {event : Event}
    (hsession : s'.session = s.session) (hlog : s'.log = s.log ++ [event]) :
    LeftoverExact session (some o) point start stop s' := by
  rintro o' n ⟨rfl⟩ _
  refine ⟨hsession.trans h.session, fun hrun => ⟨fun hview => ?_, fun hh => absurd hh (hharm hrun)⟩⟩
  have := congrArg SessionView.log hview
  simp [Peer.sessionView, hlog, h.log] at this

theorem leftoverExact_idle (h : Unnoticed start s) (hrun : s.running = false) :
    LeftoverExact session (some o) point start stop s := by
  rintro o' n ⟨rfl⟩ _
  refine ⟨h.session, fun hstart => ?_⟩
  rw [← h.running, hrun] at hstart
  cases hstart

theorem leftoverExact_return (hsession : s.session = start.session)
    (hview : s.sessionView = start.sessionView) (hharmless : Harmless o point start) :
    LeftoverExact session (some o) point start stop s := by
  rintro o' n ⟨rfl⟩ _
  exact ⟨hsession, fun _ => ⟨fun _ => hharmless, fun _ => hview⟩⟩

def Intrudes (session : Origin π → Option Nat) (o : Origin π) {α : Type} (m : Proc δ α) : Prop :=
  ∀ point start s, Unnoticed start s → (start.running = true → ¬Harmless o point start) →
    m.Segments (LeftoverExact session (some o))
      (fun _ point start state => LeftoverExact session (some o) point start .returned state)
      point start s

theorem asyncSendToHandler_leftover {failed : ErrorCode → Proc δ Unit} {op : Operation}
    {completion : Completion} (hsend : op.isSend = true)
    (hfailed : ∀ ec, Intrudes session (.completion op completion) (failed ec)) (s : Peer δ) :
    (asyncSendToHandler failed op completion).Segments
      (LeftoverExact session (some (.completion op completion)))
      (fun _ point start state => LeftoverExact session (some (.completion op completion))
        point start .returned state) none s s := by
  have hnext : Unnoticed s (s.finishSend op) := ⟨rfl, rfl, rfl⟩
  simp only [asyncSendToHandler, fire, segments_bind, segments_state, segments_ite,
    segments_pure, segments_update, segments_callback]
  split_ifs with hrun herror hsent
  · exact leftoverExact_idle hnext (by simpa using hrun)
  · exact hfailed _ _ _ _ hnext fun _ hharmless => by
      rw [hharmless.2.2.1] at herror
      cases herror
  · refine ⟨leftoverExact_fire hnext (fun _ hharmless => ?_) rfl rfl, fun s' => ?_⟩
    · have := hharmless.2.2.2
      omega
    · exact leftoverExact_return rfl rfl trivial
  · rintro o' n ⟨rfl⟩ _
    refine ⟨rfl, fun _ => ⟨fun hview => ?_, fun hharmless => ?_⟩⟩
    · have hsending := congrArg SessionView.sending hview
      exact ⟨hsend, hsending.symm, by simpa using herror, by omega⟩
    · obtain ⟨_, hsending, _⟩ := hharmless
      simp [Peer.sessionView, Peer.finishSend, Peer.removeOperation, hsending]

theorem asyncReceiveHandler_leftover {failed : ErrorCode → Proc δ Unit} {op : Operation}
    {completion : Completion} (hreceive : op.isReceive = true)
    (hfailed : ∀ ec, Intrudes session (.completion op completion) (failed ec)) (s : Peer δ) :
    (asyncReceiveHandler failed op completion).Segments
      (LeftoverExact session (some (.completion op completion)))
      (fun _ point start state => LeftoverExact session (some (.completion op completion))
        point start .returned state) none s s := by
  have hnext : Unnoticed s (s.finishReceive op) := ⟨rfl, rfl, rfl⟩
  have hharm : ¬Harmless (.completion op completion : Origin π) none s := by
    rintro ⟨hsend, -⟩
    rw [Operation.isSend_of_isReceive hreceive] at hsend
    cases hsend
  simp only [asyncReceiveHandler, fire, segments_bind, segments_state, segments_ite,
    segments_pure, segments_update, segments_callback]
  split_ifs with hrun herror
  · exact leftoverExact_idle hnext (by simpa using hrun)
  · exact hfailed _ _ _ _ hnext fun _ => hharm
  · refine ⟨leftoverExact_fire hnext (fun _ => hharm) rfl rfl, fun s' => ?_⟩
    split_ifs with hfull hlimit
    · exact hfailed _ _ _ _ (.refl s') fun _ hharmless => hharmless ⟨hfull, hlimit⟩
    · exact leftoverExact_return rfl rfl fun h => hlimit h.2
    · exact leftoverExact_return rfl rfl fun h => hfull h.1

theorem Intrudes.sendError_then {m : Proc δ Unit} (hm : Intrudes session o m) (ec : ErrorCode) :
    Intrudes session o (do sendError ec; m) := by
  intro point start s hs hharm
  rw [segments_bind]
  unfold sendError
  split
  · exact hm point start s hs hharm
  · refine ⟨leftoverExact_fire hs hharm rfl rfl, fun s' => ?_⟩
    exact hm _ s' s' (.refl s') fun _ h => h

theorem intrudes_fire (event : Peer δ → Event)
    (hharmless : ∀ s s' : Peer δ, Harmless o (some (event s)) s') :
    Intrudes session o (do let s ← state; fire (event s)) := by
  intro point start s hs hharm
  refine ⟨leftoverExact_fire hs hharm rfl rfl, fun s' => ?_⟩
  change LeftoverExact session (some o) _ s' .returned s'
  exact leftoverExact_return rfl rfl (hharmless s s')

theorem segments_leftoverExact {origin : Option (Origin π)}
    (h : ∀ o, origin = some o → session o = none) {α : Type} (m : Proc δ α) (s : Peer δ) :
    m.Segments (LeftoverExact session origin)
      (fun _ point start state => LeftoverExact session origin point start .returned state)
      none s s := by
  have hT (point : Option Event) (s : Peer δ) (stop : Stop Event ErrorCode) (s' : Peer δ) :
      LeftoverExact session origin point s stop s' := by
    intro o n horigin hsession
    rw [h o horigin] at hsession
    cases hsession
  exact Outcome.segments_of_forall hT (fun _ point start s' => hT point start _ s') _ _ _

theorem completionHandler_leftover {sendFailed receiveFailed : ErrorCode → Proc δ Unit}
    {op : Operation} {completion : Completion}
    (hsend : ∀ ec, Intrudes session (.completion op completion) (sendFailed ec))
    (hreceive : ∀ ec, Intrudes session (.completion op completion) (receiveFailed ec))
    (htimed : op.isTimed = true → session (.completion op completion) = none) (s : Peer δ) :
    (completionHandler sendFailed receiveFailed op completion).Segments
      (LeftoverExact session (some (.completion op completion)))
      (fun _ point start state => LeftoverExact session (some (.completion op completion))
        point start .returned state) none s s := by
  refine completionHandler_cases (motive := fun m => m.Segments _ _ none s s) completion
    (fun hop => asyncSendToHandler_leftover hop hsend s)
    (fun hop => asyncReceiveHandler_leftover hop hreceive s)
    fun hop => segments_leftoverExact (fun o ho => ?_) _ s
  cases ho
  exact htimed hop

end Exact

namespace Client

/-- The completion handlers of asynchronous sends and receives, and disconnect handlers. -/
def originSession : Origin Handler → Option Nat
  | .completion op _ => if op.isTimed then none else some op.session
  | .posted (.disconnect session) => some session
  | _ => none

theorem disconnectInternal_intrudes (o : Origin Handler) :
    Intrudes originSession o disconnectInternal := by
  intro point start s hs hharm
  simp only [disconnectInternal, setResolving, fire, segments_bind, segments_state,
    segments_ite, segments_pure, segments_update, segments_callback]
  split_ifs with hrun
  · exact leftoverExact_idle hs (by simpa using hrun)
  · refine ⟨leftoverExact_fire hs hharm rfl rfl, fun s' => ?_⟩
    exact leftoverExact_return rfl rfl trivial

private theorem disconnectInternalAsync_intrudes (o : Origin Handler) :
    Intrudes originSession o (disconnectInternalAsync true) := by
  intro point start s hs hharm
  rw [disconnectInternalAsync, segments_bind, segments_state]
  cases hrun : s.running with
  | false =>
      change LeftoverExact originSession (some o) point start .returned s
      exact leftoverExact_idle hs hrun
  | true =>
      simp only [Bool.not_true, Bool.false_eq_true, if_false, if_true, segments_bind,
        segments_update, segments_discard]
      refine disconnectInternal_intrudes o point start _ ?_ hharm
      split
      · exact ⟨hs.session, hs.running, hs.log⟩
      · exact hs

private theorem asyncFailed_intrudes (o : Origin Handler) (ec : ErrorCode) :
    Intrudes originSession o (asyncFailed ec) := by
  refine Intrudes.sendError_then (fun point start s hs hharm => ?_) ec
  rw [segments_discard]
  exact disconnectInternalAsync_intrudes o point start s hs hharm

theorem system_leftover (net : Net) :
    (system net).Obeys (fun _ => True) (fun _ => True) (LeftoverExact originSession) where
  call k inside _ s := segments_leftoverExact (fun o ho => by cases ho) _ s
  handler h s origin program _ hlookup := by
    cases runnable_of_handler hlookup with
    | @completion op completion hmem hresult =>
        exact completionHandler_leftover (asyncFailed_intrudes _) (asyncFailed_intrudes _)
          (fun hop => if_pos hop) s
    | timer hfired => exact segments_leftoverExact (fun o ho => by cases ho; rfl) _ s
    | @posted index handler answers hposted =>
        cases handler with
        | disconnect n =>
            rw [unpost, segments_bind, segments_update, postedHandler, segments_discard]
            exact disconnectInternal_intrudes (.posted (.disconnect n)) none s _
              ⟨rfl, rfl, rfl⟩ fun _ h => h
        | _ => exact segments_leftoverExact (fun o ho => by cases ho; rfl) _ s
    | resolved index answers resolution =>
        exact segments_leftoverExact (fun o ho => by cases ho; rfl) _ s

end Client

namespace Server

def originSession : Origin Handler → Option Nat
  | .completion op _ => if op.isTimed then none else some op.session
  | _ => none

private theorem sendFailed_intrudes (o : Origin Handler) (ec : ErrorCode) :
    Intrudes originSession o (sendFailed ec) :=
  (intrudes_fire (fun s => .onSent s.sendEndpoint 0) fun _ _ => trivial).sendError_then ec

private theorem receiveFailed_intrudes (o : Origin Handler) (ec : ErrorCode) :
    Intrudes originSession o (receiveFailed ec) := by
  refine (intrudes_fire (fun s => .onReceived s.receiveEndpoint 0) fun _ _ => ?_).sendError_then ec
  rintro ⟨_, h, _⟩
  exact absurd h (Nat.not_lt_zero _)

theorem system_leftover (net : Net) :
    (system net).Obeys (fun _ => True) (fun _ => True) (LeftoverExact originSession) where
  call k inside _ s := segments_leftoverExact (fun o ho => by cases ho) _ s
  handler h s origin program _ hlookup := by
    cases runnable_of_handler hlookup with
    | @completion op completion hmem hresult =>
        exact completionHandler_leftover (sendFailed_intrudes _) (receiveFailed_intrudes _)
          (fun hop => if_pos hop) s
    | timer hfired => exact segments_leftoverExact (fun o ho => by cases ho; rfl) _ s
    | posted answers hposted =>
        exact segments_leftoverExact (fun o ho => by cases ho; rfl) _ s

end Server

/-! ## Which sessions still have handlers to run -/

section Waiting

variable (session : Origin π → Option Nat) (posted : δ → List π)

inductive Waiting (s : Peer δ) (n : Nat) : Prop where
  | operation {op : Operation} (hmem : op ∈ s.operations) (hasync : op.isTimed = false)
      (hsession : op.session = n)
  | posted {h : π} (hmem : h ∈ posted s.own) (hsession : session (.posted h) = some n)

/-- Such a handler has not run, or is suspended in a callback. -/
inductive Outstanding (c : PeerConfig δ π) (n : Nat) : Prop where
  | waiting (h : Waiting session posted c.world n)
  | suspended {f : Frame (Peer δ) Event ErrorCode (Origin π)} (hmem : f ∈ c.frames)
      {o : Origin π} (horigin : f.origin = some o) (hsession : session o = some n)

structure Sessions {κ η ν : Type} (S : PeerSystem δ π κ η ν) (P : Profile δ) : Prop where
  exact : S.Obeys (fun _ => True) (fun _ => True) (LeftoverExact session)
  begins : ∀ h s origin program n, S.handler h s = some (origin, program) →
    session origin = some n → Waiting session posted s n
  posts : ∀ s s' h n, P.special s s' → h ∈ posted s'.own → session (.posted h) = some n →
    h ∈ posted s.own ∨ s.running = true ∧ n = s.session

end Waiting

section Changes

variable {session : Origin π → Option Nat} {posted : δ → List π} {κ η ν : Type}
  {S : PeerSystem δ π κ η ν} {P : Profile δ} {s s' : Peer δ} {n : Nat}

theorem waiting_of_step (h : OperationsStep s s') (hown : s'.own = s.own)
    (hn : Waiting session posted s' n) :
    Waiting session posted s n ∨ s.running = true ∧ n = s.session := by
  cases hn with
  | posted hmem hsession => exact Or.inl (.posted (hown ▸ hmem) hsession)
  | operation hmem hasync hsession =>
      rcases h.mem hmem with ⟨op, hop, hfollows⟩ | ⟨hrun, _, purpose, rfl⟩
      · refine Or.inl (.operation hop ?_ (hfollows.session ▸ hsession))
        rw [← hasync, Operation.isTimed, Operation.isTimed, hfollows.purpose]
      · exact Or.inr ⟨hrun, hsession.symm⟩

theorem waiting_quiet (hS : Sessions session posted S P) {scope : Scope}
    (h : Quiet P scope s s') (hn : Waiting session posted s' n) :
    Waiting session posted s n ∨ s.running = true ∧ n = s.session := by
  have hstep := h.operationsStep
  cases h with
  | special h =>
      cases hn with
      | operation hmem hasync hsession =>
          have hoperations : s'.operations = s.operations := P.inert_field h Peer.operations
          exact Or.inl (.operation (hoperations ▸ hmem) hasync hsession)
      | posted hmem hsession =>
          exact (hS.posts s s' _ n h hmem hsession).imp_left fun hmem => .posted hmem hsession
  | _ => exact waiting_of_step hstep rfl hn

private theorem waiting_quietly (hS : Sessions session posted S P) {scope : Scope}
    (h : Quietly P scope s s') (hn : Waiting session posted s' n) :
    Waiting session posted s n ∨ s.running = true ∧ n = s.session := by
  induction h with
  | refl => exact Or.inl hn
  | tail hquiet hstep ih =>
      rcases waiting_quiet hS hstep hn with h | ⟨hrun, hsession⟩
      · exact ih h
      · obtain ⟨_, hsession', hrun'⟩ := Quietly.socket_eq hquiet
        exact Or.inr ⟨hrun' ▸ hrun, hsession.trans hsession'⟩

private theorem waiting_effect (hS : Sessions session posted S P) {scope : Option Event → Scope}
    {point : Option Event} {stop : Stop Event ErrorCode} (h : Effect P scope point s stop s')
    (hn : Waiting session posted s' n) :
    Waiting session posted s n ∨ s.running = true ∧ n = s.session := by
  obtain ⟨middle, hquiet, hends⟩ := h
  have key (hmiddle : Waiting session posted middle n ∨ middle.running = true ∧
      n = middle.session) : Waiting session posted s n ∨ s.running = true ∧ n = s.session := by
    rcases hmiddle with h | ⟨hrun, hsession⟩
    · exact waiting_quietly hS hquiet h
    · obtain ⟨_, hsession', hrun'⟩ := Quietly.socket_eq hquiet
      exact Or.inr ⟨hrun' ▸ hrun, hsession.trans hsession'⟩
  cases hends with
  | returned => exact key (Or.inl hn)
  | waiting => exact key (Or.inl hn)
  | called h =>
      refine key (waiting_of_step h.operationsStep ?_ hn)
      cases h with
      | closed hrun => split <;> rfl
      | _ => rfl
  | threw h =>
      refine key (waiting_of_step h.operationsStep ?_ hn)
      cases h <;> rfl

private theorem session_effect {scope : Option Event → Scope} {point : Option Event}
    {stop : Stop Event ErrorCode} (h : Effect P scope point s stop s') :
    s'.session = s.session ∧ (s'.running = true → s.running = true) ∨
      s'.session ≠ s.session ∧ s.running = false := by
  obtain ⟨middle, hquiet, hends⟩ := h
  obtain ⟨_, hsession, hrun⟩ := Quietly.socket_eq hquiet
  rw [← hsession, ← hrun]
  cases hends with
  | returned => exact Or.inl ⟨rfl, id⟩
  | waiting => exact Or.inl ⟨rfl, id⟩
  | called h =>
      cases h with
      | opened socket size hrun => exact Or.inr ⟨Nat.succ_ne_self _, hrun⟩
      | closed hrun =>
          refine Or.inl ⟨?_, fun _ => hrun⟩
          split <;> rfl
      | _ => exact Or.inl ⟨rfl, id⟩
  | threw h =>
      cases h <;> exact Or.inl ⟨rfl, id⟩

private theorem untouched_sessions (hS : Sessions session posted S P) (h : Untouched P s s') :
    s'.session = s.session ∧ s'.running = s.running ∧
      (Waiting session posted s' n →
        Waiting session posted s n ∨ s.running = true ∧ n = s.session) := by
  rcases h with rfl | h | h
  · exact ⟨rfl, rfl, Or.inl⟩
  · have hstep := h.operationsStep
    cases h <;> exact ⟨rfl, rfl, waiting_of_step hstep rfl⟩
  · have hquiet : Quiet P ⟨none, false⟩ s s' := .special h
    exact ⟨hquiet.socket_eq.2.1, hquiet.socket_eq.2.2, waiting_quiet hS hquiet⟩

end Changes

/-! ## Runs -/

section Runs

variable {session : Origin π → Option Nat} {posted : δ → List π} {κ η ν : Type}
  {S : PeerSystem δ π κ η ν} {P : Profile δ}

/-- The step executes code of a handler of an earlier session while a later one runs. -/
structure Leftover (session : Origin π → Option Nat) (S : PeerSystem δ π κ η ν)
    (t : PeerTransition δ π κ η ν) (o : Origin π) (point : Option Event) : Prop where
  segment : S.segment t.pre t.move = some (some o, point)
  earlier : ∃ n, session o = some n ∧ n < t.pre.world.session
  running : t.pre.world.running = true

/-- A session is opened only when no handler is outstanding. -/
def OpensClean (session : Origin π → Option Nat) (posted : δ → List π)
    (t : PeerTransition δ π κ η ν) : Prop :=
  t.post.world.session ≠ t.pre.world.session → ∀ n, ¬Outstanding session posted t.pre n

structure Contained (session : Origin π → Option Nat) (posted : δ → List π) (P : Profile δ)
    (c : PeerConfig δ π) : Prop where
  frames : ∀ f ∈ c.frames, f.Obeys (Known P (LeftoverExact session))
  current : c.world.running = true → ∀ n, Outstanding session posted c n → n = c.world.session

theorem contained_initial (endpoint : Endpoint) (own : δ) :
    Contained session posted P (.initial (.fresh endpoint own)) where
  frames := by simp [Config.frames, Config.initial]
  current h := by cases h

variable (hM : Modelled S P) (hS : Sessions session posted S P)

include hM hS

omit hM in
theorem outstanding_of_segment {c c' : PeerConfig δ π} {m : Move κ η ν} {o : Origin π}
    {point : Option Event} {n : Nat} (hstep : S.step c m = some c')
    (hsegment : S.segment c m = some (some o, point)) (hn : session o = some n) :
    Outstanding session posted c n := by
  cases m with
  | call k thread => cases hsegment
  | handler h =>
      obtain ⟨origin, program, hlookup, -⟩ := System.step_handler hstep
      simp only [System.segment, hlookup, Option.map_some, Option.some.injEq,
        Prod.mk.injEq] at hsegment
      obtain ⟨rfl, -⟩ := hsegment
      exact .waiting (hS.begins h _ _ _ n hlookup hn)
  | resume i =>
      simp only [System.segment] at hsegment
      split at hsegment
      · rename_i f rest hstack
        simp only [Option.some.injEq, Prod.mk.injEq] at hsegment
        refine .suspended ?_ hsegment.1 hn
        exact Config.mem_frames.mpr ⟨_, List.mem_of_getElem? hstack, List.mem_cons_self⟩
      · cases hsegment
  | unwind i => cases hsegment
  | environment e => cases hsegment

theorem contained_step (t : PeerTransition δ π κ η ν) (hpre : Contained session posted P t.pre)
    (hstep : S.step t.pre t.move = some t.post) (hclean : OpensClean session posted t) :
    Contained session posted P t.post := by
  obtain ⟨hframes, hcases⟩ := hM.step hS.exact hpre.frames hstep
  refine ⟨hframes, fun hrun n hn => ?_⟩
  rcases hcases with ⟨origin, point, stop, hsegment, hexec⟩ | ⟨_, hsame, _, hidle⟩
  · obtain ⟨heffect, hexact⟩ := hexec.world
    -- where the handlers outstanding now come from
    have horigin : Outstanding session posted t.pre n ∨
        t.pre.world.running = true ∧ n = t.pre.world.session := by
      cases hn with
      | waiting h => exact (waiting_effect hS heffect h).imp_left .waiting
      | suspended hmem ho hsession =>
          rcases hexec.frames _ hmem with h | ⟨h, _⟩
          · exact Or.inl (.suspended h ho hsession)
          · rw [← h, ho] at hsegment
            exact Or.inl (outstanding_of_segment hS hstep hsegment hsession)
    rcases session_effect heffect with ⟨hsession, hback⟩ | ⟨hsession, hidle⟩
    · rw [hsession]
      rcases horigin with h | ⟨_, h⟩
      · exact hpre.current (hback hrun) n h
      · exact h
    · rcases horigin with h | ⟨h, _⟩
      · exact absurd h (hclean hsession n)
      · rw [hidle] at h
        cases h
  · obtain ⟨hsession, hrunning, hwaiting⟩ := untouched_sessions (n := n) hS hidle
    rw [hsession]
    rw [hrunning] at hrun
    cases hn with
    | waiting h =>
        rcases hwaiting h with h | ⟨_, h⟩
        · exact hpre.current hrun n (.waiting h)
        · exact h
    | suspended hmem ho hn => exact hpre.current hrun n (.suspended (hsame _ hmem) ho hn)

private theorem not_leftover_of_opensClean (endpoint : Endpoint) (own : δ) (ms : List (Move κ η ν))
    (hclean : ∀ t ∈ S.trace (.initial (.fresh endpoint own)) ms, OpensClean session posted t) :
    ∀ t ∈ S.trace (.initial (.fresh endpoint own)) ms, ∀ o point,
      ¬Leftover session S t o point := by
  intro t ht o point hleft
  obtain ⟨hpre, hstep, -⟩ := Steps.trace_invariant (contained_step hM hS)
    (contained_initial endpoint own) hclean t ht
  obtain ⟨n, hn, hlt⟩ := hleft.earlier
  have := hpre.current hleft.running n
    (outstanding_of_segment hS hstep hleft.segment hn)
  omega

theorem leftover_unchanged_iff (endpoint : Endpoint) (own : δ) (ms : List (Move κ η ν)) :
    ∀ t ∈ S.trace (.initial (.fresh endpoint own)) ms, ∀ o point, Leftover session S t o point →
      (t.post.world.sessionView = t.pre.world.sessionView ↔ Harmless o point t.pre.world) := by
  intro t ht o point hleft
  obtain ⟨hframes, hstep, -⟩ := Steps.trace_invariant
    (I := fun c => ∀ f ∈ c.frames, f.Obeys (Known P (LeftoverExact session)))
    (P := fun _ => True) (fun t hpre hstep _ => (hM.step hS.exact hpre hstep).1)
    (by simp [Config.frames, Config.initial]) (fun _ _ => trivial) t ht
  rcases (hM.step hS.exact hframes hstep).2 with ⟨origin, point', stop, hsegment, hexec⟩ | ⟨h, _⟩
  · rw [hleft.segment] at hsegment
    cases hsegment
    obtain ⟨n, hn, -⟩ := hleft.earlier
    exact (hexec.world.2 o n rfl hn).2 hleft.running
  · rw [hleft.segment] at h
    cases h

end Runs

theorem session_completion {op : Operation} {n : Nat}
    (h : (if op.isTimed then none else some op.session) = some n) :
    op.isTimed = false ∧ op.session = n := by
  split at h
  · cases h
  · rename_i htimed
    exact ⟨by simpa using htimed, Option.some.inj h⟩

theorem Client.sessions (net : Net) :
    Sessions Client.originSession Client.Members.posted (Client.system net)
      (Client.profile False) where
  exact := Client.system_leftover net
  begins h s origin program n hlookup hn := by
    cases Client.runnable_of_handler hlookup with
    | completion hmem hresult =>
        obtain ⟨hasync, hsession⟩ := session_completion hn
        exact .operation hmem hasync hsession
    | timer hfired => cases hn
    | posted answers hposted => exact .posted (List.mem_of_getElem? hposted) hn
    | resolved index answers resolution => cases hn
  posts s s' h n hspecial hmem hn := by
    cases hspecial with
    | post handler hdisconnect =>
        rcases List.mem_append.mp hmem with hmem | hmem
        · exact Or.inl hmem
        · obtain rfl := List.mem_singleton.mp hmem
          unfold Client.originSession at hn
          split at hn
          · rename_i heq
            cases heq
          · rename_i heq
            cases heq
            cases hn
            obtain ⟨hsession, hrun⟩ := hdisconnect n rfl
            exact Or.inr ⟨hrun, hsession⟩
          · cases hn
    | unpost index => exact Or.inl (List.mem_of_mem_eraseIdx hmem)
    | _ => exact Or.inl hmem

theorem Server.sessions (net : Net) :
    Sessions Server.originSession Server.Members.posted (Server.system net) Server.profile where
  exact := Server.system_leftover net
  begins h s origin program n hlookup hn := by
    cases Server.runnable_of_handler hlookup with
    | completion hmem hresult =>
        obtain ⟨hasync, hsession⟩ := session_completion hn
        exact .operation hmem hasync hsession
    | timer hfired => cases hn
    | posted answers hposted => cases hn
  posts s s' h n hspecial hmem hn := by cases hn

/-! ## The law -/

def Isolated {κ η ν : Type} (session : Origin π → Option Nat) (S : PeerSystem δ π κ η ν)
    (run : List (PeerTransition δ π κ η ν)) : Prop :=
  ∀ t ∈ run, ∀ o point, Leftover session S t o point →
    t.post.world.sessionView = t.pre.world.sessionView

/--
A run isolates its sessions exactly if every leftover handler in it is harmless in the
state it runs in.  In particular a run in which every session is opened with no handler
outstanding isolates them: it has no leftover handlers at all.
-/
theorem sessions_isolated_iff (net : Net) :
    (∀ s₀, Client.Constructed s₀ → ∀ ms,
      (Isolated Client.originSession (Client.system net)
          ((Client.system net).trace (.initial s₀) ms) ↔
        ∀ t ∈ (Client.system net).trace (.initial s₀) ms, ∀ o point,
          Leftover Client.originSession (Client.system net) t o point →
            Harmless o point t.pre.world) ∧
      ((∀ t ∈ (Client.system net).trace (.initial s₀) ms,
          OpensClean Client.originSession Client.Members.posted t) →
        ∀ t ∈ (Client.system net).trace (.initial s₀) ms, ∀ o point,
          ¬Leftover Client.originSession (Client.system net) t o point)) ∧
    (∀ s₀, Server.Constructed net s₀ → ∀ ms,
      (Isolated Server.originSession (Server.system net)
          ((Server.system net).trace (.initial s₀) ms) ↔
        ∀ t ∈ (Server.system net).trace (.initial s₀) ms, ∀ o point,
          Leftover Server.originSession (Server.system net) t o point →
            Harmless o point t.pre.world) ∧
      ((∀ t ∈ (Server.system net).trace (.initial s₀) ms,
          OpensClean Server.originSession Server.Members.posted t) →
        ∀ t ∈ (Server.system net).trace (.initial s₀) ms, ∀ o point,
          ¬Leftover Server.originSession (Server.system net) t o point)) := by
  constructor
  · intro s₀ hs₀ ms
    obtain ⟨endpoint, own, rfl, -⟩ := hs₀.fresh
    have hiff := leftover_unchanged_iff (Client.modelled net) (Client.sessions net) endpoint own ms
    refine ⟨⟨fun h t ht o point hleft => (hiff t ht o point hleft).mp (h t ht o point hleft),
      fun h t ht o point hleft => (hiff t ht o point hleft).mpr (h t ht o point hleft)⟩, ?_⟩
    exact not_leftover_of_opensClean (Client.modelled net) (Client.sessions net) endpoint own ms
  · intro s₀ hs₀ ms
    obtain ⟨endpoint, own, rfl, -⟩ := hs₀.fresh
    have hiff := leftover_unchanged_iff (Server.modelled net) (Server.sessions net) endpoint own ms
    refine ⟨⟨fun h t ht o point hleft => (hiff t ht o point hleft).mp (h t ht o point hleft),
      fun h t ht o point hleft => (hiff t ht o point hleft).mpr (h t ht o point hleft)⟩, ?_⟩
    exact not_leftover_of_opensClean (Server.modelled net) (Server.sessions net) endpoint own ms

def opensIdle {κ η ν : Type} (session : Origin π → Option Nat) (posted : δ → List π)
    (t : PeerTransition δ π κ η ν) : Bool :=
  t.post.world.session == t.pre.world.session ||
    t.pre.handlersIdle && t.pre.world.operations.isEmpty &&
      (posted t.pre.world.own).all fun h => (session (.posted h)).isNone

private theorem opensClean_of_idle {κ η ν : Type} {session : Origin π → Option Nat}
    {posted : δ → List π} {t : PeerTransition δ π κ η ν} (h : opensIdle session posted t = true) :
    OpensClean session posted t := by
  intro hopens n hn
  simp only [opensIdle, Bool.or_eq_true, beq_iff_eq, hopens, false_or, Bool.and_eq_true,
    List.isEmpty_iff, List.all_eq_true, Option.isNone_iff_eq_none] at h
  obtain ⟨⟨hidle, hoperations⟩, hposted⟩ := h
  cases hn with
  | waiting h =>
      cases h with
      | operation hmem =>
          rw [hoperations] at hmem
          cases hmem
      | posted hmem hsession =>
          rw [hposted _ hmem] at hsession
          cases hsession
  | suspended hmem horigin =>
      rw [Config.origin_of_handlersIdle hidle _ hmem] at horigin
      cases horigin

theorem sessions_isolated_iff_reconnected :
    (∃ c, (Client.system .loopback).run (.initial (Client.ofAddressPort "127.0.0.1" 5000))
        [.call (.connect (.clean 4)) none, .call .disconnect none,
          .call (.connect (.clean 4)) none] = some c ∧ c.world.session = 2 ∧
      ∀ t ∈ (Client.system .loopback).trace
        (.initial (Client.ofAddressPort "127.0.0.1" 5000))
        [.call (.connect (.clean 4)) none, .call .disconnect none,
          .call (.connect (.clean 4)) none],
        ∀ o point, ¬Leftover Client.originSession (Client.system .loopback) t o point) ∧
    (∃ c, (Server.system .loopback).run (.initial (Server.ofPort 5000 .ipv4))
        [.call .start none, .handler (.posted 0 (.clean 4)), .resume 1, .call .stop none,
          .handler (.posted 0 (.clean 4)), .resume 3, .call .start none,
          .handler (.posted 0 (.clean 4))] = some c ∧ c.world.session = 2 ∧
      ∀ t ∈ (Server.system .loopback).trace (.initial (Server.ofPort 5000 .ipv4))
        [.call .start none, .handler (.posted 0 (.clean 4)), .resume 1, .call .stop none,
          .handler (.posted 0 (.clean 4)), .resume 3, .call .start none,
          .handler (.posted 0 (.clean 4))],
        ∀ o point, ¬Leftover Server.originSession (Server.system .loopback) t o point) := by
  refine ⟨⟨_, rfl, rfl, ?_⟩, _, rfl, rfl, ?_⟩
  · refine ((sessions_isolated_iff .loopback).1 _ (.ofAddressPort "127.0.0.1" 5000) _).2 ?_
    intro t ht
    refine opensClean_of_idle (List.all_eq_true.mp ?_ t ht)
    rfl
  · refine ((sessions_isolated_iff .loopback).2 _ (.ofPort 5000 .ipv4) _).2 ?_
    intro t ht
    refine opensClean_of_idle (List.all_eq_true.mp ?_ t ht)
    rfl

/-- A client that disconnects while a receive is outstanding and connects again at once,
a client that connects again before the disconnect handler it posted has run, and a
server that restarts while a send is outstanding. -/
theorem sessions_not_isolated :
    (∃ c c', (Client.system .loopback).run (.initial (Client.ofAddressPort "127.0.0.1" 5000))
        [.call (.connect (.clean 4)) none, .call .receiveAsync none, .call .disconnect none,
          .call (.connect (.clean 4)) none] = some c ∧
      (Client.system .loopback).step c (.handler (.completion 0)) = some c' ∧
      Leftover Client.originSession (Client.system .loopback) ⟨c, .handler (.completion 0), c'⟩
        (.completion ⟨0, .receiveAsync 4, 1, 1, some .aborted⟩ .aborted) none ∧
      c'.world.running = false ∧ c'.world.log = c.world.log ++ [.onDisconnected]) ∧
    (∃ c c', (Client.system .loopback).run (.initial (Client.ofAddressPort "127.0.0.1" 5000))
        [.call (.connect (.clean 4)) none, .call .disconnectAsync none,
          .call .disconnect none, .call (.connect (.clean 4)) none] = some c ∧
      (Client.system .loopback).step c (.handler (.posted 0 (.clean 4))) = some c' ∧
      Leftover Client.originSession (Client.system .loopback)
        ⟨c, .handler (.posted 0 (.clean 4)), c'⟩ (.posted (.disconnect 1)) none ∧
      c'.world.running = false ∧ c'.world.log = c.world.log ++ [.onDisconnected]) ∧
    (∃ c c', (Server.system .loopback).run (.initial (Server.ofPort 5000 .ipv4))
        [.call .start none, .handler (.posted 0 (.clean 4)), .resume 1,
          .call (.sendAsync none (.bytes [1])) none, .call .stop none,
          .handler (.posted 0 (.clean 4)), .resume 4, .call .start none,
          .handler (.posted 0 (.clean 4)), .resume 6,
          .call (.sendAsync none (.bytes [2])) none] = some c ∧
      (Server.system .loopback).step c (.handler (.completion 0)) = some c' ∧
      Leftover Server.originSession (Server.system .loopback) ⟨c, .handler (.completion 0), c'⟩
        (.completion ⟨0, .sendAsync [1] default, 1, 1, some .aborted⟩ .aborted) none ∧
      c.world.sending = true ∧ c'.world.sending = false ∧
      c'.world.log = c.world.log ++ [.onSent default 0]) := by
  refine ⟨⟨_, _, rfl, rfl, ?_, rfl, rfl⟩, ⟨_, _, rfl, rfl, ?_, rfl, rfl⟩,
    _, _, rfl, rfl, ?_, rfl, rfl, rfl⟩
  · exact ⟨rfl, ⟨1, rfl, by decide⟩, rfl⟩
  · exact ⟨rfl, ⟨1, rfl, by decide⟩, rfl⟩
  · exact ⟨rfl, ⟨1, rfl, by decide⟩, rfl⟩

end AsioWrapper.Udp
