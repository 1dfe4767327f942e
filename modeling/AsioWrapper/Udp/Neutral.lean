import AsioWrapper.Udp.Effect

/-!
# The common code leaves the members of its class alone

Sending, receiving and opening the socket never write to `own`, and only
opening writes to `running`.  So whatever a class relates its own members by,
its relation to the start of the segment survives the common code.
-/

namespace AsioWrapper.Udp

open AsioWrapper.Asio
open AsioWrapper.Foundation
open AsioWrapper.Foundation.Program

variable {δ : Type}

/-- Relations that only depend on the members of the class and on `running`. -/
structure Neutral (T : Option Event → Peer δ → Stop Event ErrorCode → Peer δ → Prop)
    (R : Option Event → Peer δ → Peer δ → Prop) : Prop where
  keep : ∀ {point start s s'}, R point start s → s'.own = s.own → s'.running = s.running →
    R point start s'
  ends : ∀ {point start s s'} stop, R point start s → s'.own = s.own →
    (s.running = true → s'.running = true) → T point start stop s'
  resume : ∀ event s, R (some event) s s

abbrev Leaves (T : Option Event → Peer δ → Stop Event ErrorCode → Peer δ → Prop)
    (R : Option Event → Peer δ → Peer δ → Prop) {α : Type} (m : Proc δ α) : Prop :=
  Triple T R (fun _ => True) m (fun _ _ => True)

variable {T : Option Event → Peer δ → Stop Event ErrorCode → Peer δ → Prop}
  {R : Option Event → Peer δ → Peer δ → Prop} {α : Type}

theorem Leaves.state {f : Peer δ → Proc δ α} (hf : ∀ s, Leaves T R (f s)) :
    Leaves T R (Program.state >>= f) :=
  Triple.state fun s => (hf s).weaken (fun _ _ => trivial) fun _ _ h => h

section Common

variable (hN : Neutral T R)

include hN

theorem Neutral.update {f : Peer δ → Peer δ} (hown : ∀ s, (f s).own = s.own)
    (hrun : ∀ s, (f s).running = s.running) : Leaves T R (Program.update f) :=
  Triple.update fun _ _ s hs _ => hN.keep hs (hown s) (hrun s)

theorem Neutral.throw (ec : ErrorCode) : Leaves T R (throw ec : Proc δ α) :=
  fun _ _ _ hs _ => hN.ends _ hs rfl id

theorem Neutral.fire (event : Event) : Leaves T R (fire event : Proc δ Unit) :=
  fun _ _ _ hs _ => ⟨hN.ends _ hs rfl id, fun s' => ⟨hN.resume event s', trivial⟩⟩

theorem Neutral.waitUntil (hwake : ∀ s, R none s s) (ready : Peer δ → Bool) :
    Leaves T R (Program.waitUntil ready : Proc δ Unit) :=
  fun _ _ _ hs _ => ⟨hN.ends _ hs rfl id, fun s' _ => ⟨hwake s', trivial⟩⟩

theorem Neutral.sendError (ec : ErrorCode) : Leaves T R (sendError ec : Proc δ Unit) :=
  Triple.ite (fun _ => Triple.pure ()) fun _ => hN.fire _

theorem Neutral.makeAddress (net : Net) (text : String) :
    Leaves T R (makeAddress net text : Proc δ Address) := by
  unfold Udp.makeAddress
  split
  · exact Triple.pure _
  · exact hN.throw _

theorem Neutral.attempt (call : SocketCall) (ec : ErrorCode) {effect : Peer δ → Peer δ}
    (hown : ∀ s, (effect s).own = s.own) (hrun : ∀ s, (effect s).running = s.running) :
    Leaves T R (attempt call ec effect) :=
  Triple.ite
    (fun _ => Triple.bind (hN.update (fun _ => rfl) fun _ => rfl) fun _ => hN.throw ec)
    fun _ => hN.update hown hrun

omit hN in
theorem Leaves.whenever {c : Bool} {m : Proc δ Unit} (hm : Leaves T R m) :
    Leaves T R (whenever c m) :=
  Triple.ite (fun _ => hm) fun _ => Triple.pure ()

theorem Neutral.openSession (answers : SocketAnswers) (bindTo : Peer δ → Endpoint)
    (announce : Event) : Leaves T R (openSession answers bindTo announce) := by
  refine Leaves.state fun s => ?_
  refine Triple.bind (hN.attempt _ _ (fun _ => rfl) fun _ => rfl) fun _ => ?_
  refine Triple.bind (Leaves.whenever (hN.attempt _ _ (fun _ => rfl) fun _ => rfl)) fun _ => ?_
  refine Triple.bind (Leaves.whenever (hN.attempt _ _ (fun _ => rfl) fun _ => rfl)) fun _ => ?_
  refine Triple.bind (hN.attempt _ _ (fun _ => rfl) fun _ => rfl) fun _ => ?_
  refine Triple.bind (hN.attempt _ _ (fun _ => rfl) fun _ => rfl) fun _ => ?_
  intro point start s hs _
  rw [segments_bind, segments_update, Udp.fire, segments_bind, segments_update,
    segments_callback]
  exact ⟨hN.ends _ hs rfl fun _ => rfl, fun s' => ⟨hN.resume announce s', trivial⟩⟩

variable {failed : ErrorCode → Proc δ Unit}

theorem Neutral.send (hfailed : ∀ ec, Leaves T R (failed ec)) (endpoint : Endpoint)
    (buffer : Buffer) (answer : Completion) :
    Leaves T R (send failed endpoint buffer answer) := by
  have hreport : Leaves T R (do
      if answer.error.failed then failed answer.error
      return answer.size : Proc δ Nat) :=
    Triple.ite (fun _ => (hfailed _).bind fun _ => Triple.pure _) fun _ => Triple.pure _
  refine Leaves.state fun s => Triple.ite (fun _ => Triple.pure _) fun _ => ?_
  refine Triple.ite (fun _ => Triple.pure _) fun _ => ?_
  refine Triple.ite (fun _ => Triple.pure _) fun _ => ?_
  refine Triple.ite (fun _ => ?_) fun _ => hreport
  refine Triple.bind (hN.update (fun _ => rfl) fun _ => rfl) fun _ => ?_
  exact (hN.fire _).bind fun _ => hreport

theorem Neutral.sendAsync {rejected : Proc δ Unit} (hrejected : Leaves T R rejected)
    (endpoint : Endpoint) (buffer : Buffer) : Leaves T R (sendAsync rejected endpoint buffer) := by
  refine Leaves.state fun s => Triple.ite (fun _ => Triple.pure _) fun _ => ?_
  refine Triple.ite (fun _ => Triple.pure _) fun _ => ?_
  refine Triple.ite (fun _ => Triple.pure _) fun _ => ?_
  refine Triple.ite (fun _ => Triple.pure _) fun _ => ?_
  refine Triple.ite (fun _ => ?_) fun _ => ?_
  · exact (hN.sendError _).bind fun _ => hrejected.bind fun _ => Triple.pure _
  · exact Triple.bind (hN.update (fun _ => rfl) fun _ => rfl) fun _ => Triple.pure _

theorem Neutral.asyncSendToHandler (hfailed : ∀ ec, Leaves T R (failed ec)) (op : Operation)
    (completion : Completion) : Leaves T R (asyncSendToHandler failed op completion) := by
  refine Triple.bind (hN.update (fun _ => rfl) fun _ => rfl) fun _ => ?_
  refine Leaves.state fun s => Triple.ite (fun _ => Triple.pure _) fun _ => ?_
  refine Triple.ite (fun _ => (hfailed _).bind fun _ => Triple.pure _) fun _ => ?_
  refine Triple.ite (fun _ => ?_) fun _ => Triple.pure _
  refine Triple.bind (hN.update (fun _ => rfl) fun _ => rfl) fun _ => ?_
  exact Leaves.state fun s => hN.fire _

theorem Neutral.receive (hfailed : ∀ ec, Leaves T R (failed ec)) (buffer : Buffer)
    (answer : Completion) : Leaves T R (receive failed buffer answer) := by
  refine Leaves.state fun s => Triple.ite (fun _ => Triple.pure _) fun _ => ?_
  refine Triple.ite (fun _ => Triple.pure _) fun _ => ?_
  refine Triple.ite (fun _ => Triple.pure _) fun _ => ?_
  refine Triple.bind (hN.update (fun _ => rfl) fun _ => rfl) fun _ => ?_
  refine (hN.fire _).bind fun _ => ?_
  exact Triple.ite (fun _ => (hfailed _).bind fun _ => Triple.pure _) fun _ => Triple.pure _

theorem Neutral.tryReceive : Leaves T R (tryReceive : Proc δ Unit) :=
  Leaves.state fun _ => Triple.ite (fun _ => Triple.pure _) fun _ =>
    Triple.ite (fun _ => Triple.pure _) fun _ => hN.update (fun _ => rfl) fun _ => rfl

theorem Neutral.asyncReceiveHandler (hfailed : ∀ ec, Leaves T R (failed ec)) (op : Operation)
    (completion : Completion) : Leaves T R (asyncReceiveHandler failed op completion) := by
  refine Triple.bind (hN.update (fun _ => rfl) fun _ => rfl) fun _ => ?_
  refine Leaves.state fun s => Triple.ite (fun _ => Triple.pure _) fun _ => ?_
  refine Triple.ite (fun _ => (hfailed _).bind fun _ => Triple.pure _) fun _ => ?_
  refine Triple.bind (hN.update (fun _ => rfl) fun _ => rfl) fun _ => ?_
  refine Leaves.state fun s => (hN.fire _).bind fun _ => ?_
  refine Leaves.state fun s => Triple.ite (fun _ => ?_) fun _ => Triple.pure _
  refine Triple.ite (fun _ => (hfailed _).bind fun _ => Triple.pure _) fun _ => ?_
  exact hN.update (fun _ => rfl) fun _ => rfl

theorem Neutral.asyncDoneHandler (id : Nat) (ec : ErrorCode) :
    Leaves T R (asyncDoneHandler id ec : Proc δ Unit) := by
  refine Leaves.state fun before => ?_
  refine Triple.bind (hN.update (fun _ => rfl) fun _ => rfl) fun _ => ?_
  refine Triple.ite (fun _ => ?_) fun _ => Triple.pure _
  refine Triple.bind (hN.update (fun _ => rfl) fun _ => rfl) fun _ => ?_
  refine Leaves.state fun s => Triple.ite (fun _ => hN.throw _) fun _ => ?_
  refine Triple.bind (hN.update (fun _ => rfl) fun _ => rfl) fun _ => ?_
  exact hN.update (fun _ => rfl) fun _ => rfl

theorem Neutral.timedSocketHandler (op : Operation) (completion : Completion) :
    Leaves T R (timedSocketHandler op completion : Proc δ Unit) := by
  refine Triple.bind (hN.update (fun _ => rfl) fun _ => rfl) fun _ => ?_
  refine (hN.asyncDoneHandler _ _).bind fun _ => ?_
  exact hN.update (fun _ => rfl) fun _ => rfl

theorem Neutral.timedTimerHandler (id : Nat) (ec : ErrorCode) :
    Leaves T R (timedTimerHandler id ec : Proc δ Unit) :=
  Triple.bind (hN.update (fun _ => rfl) fun _ => rfl) fun _ => hN.asyncDoneHandler _ _

theorem Neutral.sendTimed (hwake : ∀ s, R none s s) (hfailed : ∀ ec, Leaves T R (failed ec))
    (endpoint : Endpoint) (buffer : Buffer) : Leaves T R (sendTimed failed endpoint buffer) := by
  have hreport (call : TimedCall) : Leaves T R (do
      if call.error.failed ∧ call.error ≠ .timedOut then failed call.error
      return call.size : Proc δ Nat) :=
    Triple.ite (fun _ => (hfailed _).bind fun _ => Triple.pure _) fun _ => Triple.pure _
  refine Leaves.state fun s => Triple.ite (fun _ => Triple.pure _) fun _ => ?_
  refine Triple.ite (fun _ => Triple.pure _) fun _ => ?_
  refine Triple.ite (fun _ => Triple.pure _) fun _ => ?_
  refine Triple.bind (hN.update (fun _ => rfl) fun _ => rfl) fun _ => ?_
  refine (hN.waitUntil hwake _).bind fun _ => Leaves.state fun s => ?_
  refine Triple.ite (fun _ => ?_) fun _ => hreport _
  refine Triple.bind (hN.update (fun _ => rfl) fun _ => rfl) fun _ => ?_
  exact (hN.fire _).bind fun _ => hreport _

theorem Neutral.receiveTimed (hwake : ∀ s, R none s s) (hfailed : ∀ ec, Leaves T R (failed ec))
    (endpoint : Endpoint) (buffer : Buffer) :
    Leaves T R (receiveTimed failed endpoint buffer) := by
  refine Leaves.state fun s => Triple.ite (fun _ => Triple.pure _) fun _ => ?_
  refine Triple.ite (fun _ => Triple.pure _) fun _ => ?_
  refine Triple.ite (fun _ => Triple.pure _) fun _ => ?_
  refine Triple.bind (hN.update (fun _ => rfl) fun _ => rfl) fun _ => ?_
  refine (hN.waitUntil hwake _).bind fun _ => Leaves.state fun s => ?_
  refine Triple.bind (hN.update (fun _ => rfl) fun _ => rfl) fun _ => ?_
  refine (hN.fire _).bind fun _ => ?_
  exact Triple.ite (fun _ => (hfailed _).bind fun _ => Triple.pure _) fun _ => Triple.pure _

end Common

end AsioWrapper.Udp
