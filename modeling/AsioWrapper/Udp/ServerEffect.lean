import AsioWrapper.Udp.Effect
import AsioWrapper.Udp.Server

/-!
# Every segment of `UDPServer` has an effect
-/

namespace AsioWrapper.Udp

open AsioWrapper.Asio
open AsioWrapper.Foundation
open AsioWrapper.Foundation.Program

namespace Server

inductive Special : Server → Server → Prop where
  | options {s : Server} (address port : Bool) :
      Special s { s with optionReuseAddress := address, optionReusePort := port }
  | limits {s : Server} (receive send : Nat) :
      Special s { s with receiveBufferLimit := receive, sendBufferLimit := send }
  | setMulticastEndpoint {s : Server} (endpoint : Endpoint) :
      Special s { s with own := { s.own with multicastEndpoint := endpoint } }
  | setPosted {s : Server} (posted : List Handler) :
      Special s { s with own := { s.own with posted := posted } }

def profile : Profile Members where
  special := Special
  announce := .onStarted
  farewell := .onStopped
  clears := true
  checked := False
  inert s s' h := by cases h <;> rfl

variable {scope : Option Event → Scope}

abbrev Fine (scope : Option Event → Scope) {α : Type} (m : Code α) : Prop :=
  Sound profile scope (fun _ => True) m (fun _ _ => True)

theorem guarded (s : Server) : profile.Guarded s := Profile.guarded_of_unchecked id s

theorem post_sound (handler : Handler) : Fine scope (post handler) :=
  Sound.quiet fun _ _ _ => .special (.setPosted _)

theorem unpost_sound (index : Nat) : Fine scope (unpost index) :=
  Sound.quiet fun _ _ _ => .special (.setPosted _)

/-! ## Starting and stopping -/

theorem start_sound : Fine scope start := by
  intro point start s hquiet _
  rw [Server.start, segments_bind, segments_state, segments_ite]
  split_ifs
  · exact ⟨hquiet, trivial⟩
  · exact ((post_sound .start).bind fun _ => Sound.pure true) point start s hquiet trivial

theorem startHandler_sound (answers : SocketAnswers) : Fine scope (startHandler answers) := by
  intro point start s hquiet _
  rw [startHandler, segments_bind, segments_state, segments_ite]
  split_ifs with hrun
  · exact ⟨hquiet, trivial⟩
  · simp only [Bool.not_eq_true] at hrun
    exact openSession_sound (P := profile) answers (fun s => s.endpoint) point start s hquiet
      hrun

theorem startMulticast_sound (endpoint : Endpoint) : Fine scope (startMulticast endpoint) := by
  refine Sound.bind (Sound.quiet fun _ _ _ => ?_) fun _ => start_sound
  exact .special (.setMulticastEndpoint endpoint)

theorem startMulticastAt_sound (net : Net) (address : String) (port : Int) :
    Fine scope (startMulticastAt net address port) :=
  (makeAddress_sound net address).bind fun _ => startMulticast_sound _

theorem stop_sound : Fine scope stop := by
  intro point start s hquiet _
  rw [stop, segments_bind, segments_state, segments_ite]
  split_ifs
  · exact ⟨hquiet, trivial⟩
  · exact ((post_sound .stop).bind fun _ => Sound.pure true) point start s hquiet trivial

theorem stopHandler_sound : Fine scope stopHandler := by
  intro point start s hquiet _
  simp only [stopHandler, fire, segments_bind, segments_state, segments_ite, segments_pure,
    segments_update, segments_callback]
  split_ifs with hrun
  · exact ⟨hquiet, trivial⟩
  · simp only [Bool.not_eq_true', Bool.not_eq_false] at hrun
    exact ⟨⟨s, hquiet, .called (.closed hrun)⟩, fun s' => ⟨.refl, trivial⟩⟩

theorem restart_sound : Fine scope restart := by
  refine stop_sound.bind fun stopped => ?_
  cases stopped with
  | false => exact Sound.pure false
  | true =>
      intro point start s hquiet _
      simp only [Bool.not_true, Bool.false_eq_true, if_false, segments_bind,
        segments_waitUntil]
      refine ⟨⟨s, hquiet, .waiting s⟩, fun s' _ => ?_⟩
      exact start_sound _ s' s' .refl trivial

/-! ## Sending and receiving -/

theorem report_sound (ec : ErrorCode) :
    Sound profile scope profile.Guarded (sendError ec) (fun _ => profile.Guarded) :=
  (sendError_sound ec).weaken (fun _ h => h) fun _ s _ => guarded s

theorem sendFailed_sound (ec : ErrorCode) :
    Sound profile scope profile.Guarded (sendFailed ec) (fun _ _ => True) :=
  (report_sound ec).bind fun _ => .state fun s => fire_sound (.onSent s.sendEndpoint 0) rfl

theorem receiveFailed_sound (ec : ErrorCode) :
    Sound profile scope profile.Guarded (receiveFailed ec) (fun _ _ => True) :=
  (report_sound ec).bind fun _ =>
    .state fun s => fire_sound (.onReceived s.receiveEndpoint 0) rfl

theorem sendAsync_sound (endpoint : Endpoint) (buffer : Buffer) :
    Fine scope (sendAsync endpoint buffer) := by
  refine Udp.sendAsync_sound (.state fun s => ?_) endpoint buffer
  exact (fire_sound (.onSent s.sendEndpoint 0) rfl).weaken (fun s _ => guarded s)
    fun _ _ h => h

/-! ## The whole server -/

theorem call_sound (net : Net) (k : Call) : Fine scope (call net k) := by
  cases k with
  | start => exact start_sound.discard
  | startMulticastAt address port => exact (startMulticastAt_sound net address port).discard
  | startMulticast endpoint => exact (startMulticast_sound endpoint).discard
  | stop => exact stop_sound.discard
  | restart => exact restart_sound.discard
  | send endpoint buffer answer =>
      exact .state fun s =>
        (send_sound sendError_sound _ buffer answer fun h => False.elim h).discard
  | sendTimed endpoint buffer =>
      exact .state fun s => (sendTimed_sound id sendError_sound _ buffer).discard
  | sendAsync endpoint buffer => exact .state fun s => (sendAsync_sound _ buffer).discard
  | receive buffer answer =>
      exact (receive_sound sendError_sound buffer answer fun h => False.elim h).discard
  | receiveTimed endpoint buffer =>
      exact (receiveTimed_sound id sendError_sound endpoint buffer).discard
  | receiveAsync => exact tryReceive_sound
  | setupReuseAddress enable => exact Sound.quiet fun _ _ _ => .special (.options _ _)
  | setupReusePort enable => exact Sound.quiet fun _ _ _ => .special (.options _ _)
  | setupReceiveBufferLimit limit => exact Sound.quiet fun _ _ _ => .special (.limits _ _)
  | setupSendBufferLimit limit => exact Sound.quiet fun _ _ _ => .special (.limits _ _)

theorem postedHandler_sound (answers : SocketAnswers) (handler : Handler) :
    Fine scope (postedHandler answers handler) := by
  cases handler with
  | start => exact startHandler_sound answers
  | stop => exact stopHandler_sound

inductive Runnable (s : Server) : Pending → Origin Handler → Code Unit → Prop where
  | completion {op : Operation} {completion : Completion} (hmem : op ∈ s.operations)
      (hresult : op.result = some completion) :
      Runnable s (.completion op.id) (.completion op completion)
        (completionHandler op completion)
  | timer {id : Nat} {ec : ErrorCode} (hfired : s.firedTimer id = some ec) :
      Runnable s (.timer id) (.timer id) (timedTimerHandler id ec)
  | posted {index : Nat} {handler : Handler} (answers : SocketAnswers)
      (hposted : s.own.posted[index]? = some handler) :
      Runnable s (.posted index answers) (.posted handler)
        (do unpost index; postedHandler answers handler)

theorem runnable_of_handler {net : Net} {s : Server} {h : Pending} {origin : Origin Handler}
    {program : Code Unit} (hlookup : (system net).handler h s = some (origin, program)) :
    Runnable s h origin program := by
  simp only [system, handler] at hlookup
  split at hlookup
  · split at hlookup <;> cases hlookup
    obtain ⟨hmem, rfl, hresult⟩ := mem_of_completedOperation ‹_›
    exact .completion hmem hresult
  · split at hlookup <;> cases hlookup
    exact .timer ‹_›
  · split at hlookup <;> cases hlookup
    exact .posted _ ‹_›
  · cases hlookup

theorem system_obeys (net : Net) :
    (system net).Obeys (fun _ => True) (fun _ => True)
      (fun origin => Effect profile (scopeOf origin)) where
  call k _ _ := (call_sound net k).obeys
  handler h s origin program _ hlookup := by
    cases runnable_of_handler hlookup with
    | @completion op completion hmem hresult =>
        have hdone : op.result ≠ none := by simp [hresult]
        exact (completionHandler_sound sendFailed_sound receiveFailed_sound op completion hdone
          (fun hreceive => scopeOf_onReceived hreceive _) fun hop _ => hop).obeys_at hmem
    | timer hfired => exact (timedTimerHandler_sound (fun _ => rfl) _ _).obeys_at trivial
    | posted answers hposted =>
        exact ((unpost_sound _).bind fun _ => postedHandler_sound _ _).obeys_at trivial

end Server

end AsioWrapper.Udp
