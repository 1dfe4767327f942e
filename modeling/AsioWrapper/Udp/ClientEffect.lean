import AsioWrapper.Udp.Client
import AsioWrapper.Udp.Effect

/-!
# Every segment of `UDPClient` has an effect

The client adds to the common changes those of its own members.  A disconnect
handler is posted only while a session is open and remembers which.
-/

namespace AsioWrapper.Udp

open AsioWrapper.Asio
open AsioWrapper.Foundation
open AsioWrapper.Foundation.Program

namespace Client

inductive Special : Client → Client → Prop where
  | options {s : Client} (address port multicast : Bool) :
      Special s { s with
        optionReuseAddress := address
        optionReusePort := port
        own := { s.own with optionMulticast := multicast } }
  | setEndpoint {s : Client} (endpoint : Endpoint) :
      Special s { s with endpoint := endpoint }
  | setResolving {s : Client} (resolving : Bool) :
      Special s { s with own := { s.own with resolving := resolving } }
  | setResolves {s : Client} (resolves : List Resolve) :
      Special s { s with own := { s.own with resolves := resolves } }
  | post {s : Client} (handler : Handler)
      (hdisconnect : ∀ session, handler = .disconnect session →
        session = s.session ∧ s.running = true) :
      Special s { s with own := { s.own with posted := s.own.posted ++ [handler] } }
  | unpost {s : Client} (index : Nat) :
      Special s { s with own := { s.own with posted := s.own.posted.eraseIdx index } }

def profile (checked : Prop) : Profile Members where
  special := Special
  announce := .onConnected
  farewell := .onDisconnected
  clears := false
  checked := checked
  inert s s' h := by cases h <;> rfl

variable {checked : Prop} {scope : Option Event → Scope}

abbrev Fine (checked : Prop) (scope : Option Event → Scope) {α : Type}
    (m : Code α) : Prop :=
  Sound (profile checked) scope (fun _ => True) m (fun _ _ => True)

theorem setEndpoint_sound (endpoint : Endpoint) :
    Sound (profile checked) scope (fun s => s.running = false)
      (setEndpoint endpoint) (fun _ s => s.running = false) := by
  intro point start s hquiet hrun
  exact ⟨hquiet.tail (.special (.setEndpoint endpoint)), hrun⟩

theorem openAt_sound {α : Type} (endpoint : Endpoint) (answers : SocketAnswers)
    (value : α) :
    Sound (profile checked) scope (fun s => s.running = false)
      (do setEndpoint endpoint; openSession answers bindTo .onConnected; pure value)
      (fun _ _ => True) :=
  (setEndpoint_sound endpoint).bind fun _ =>
    (openSession_sound answers bindTo).bind fun _ => Sound.pure value

theorem connect_sound (net : Net) (answers : SocketAnswers) :
    Fine checked scope (connect net answers) := by
  intro point start s hquiet _
  simp only [connect, segments_bind, segments_state, segments_ite, segments_pure]
  split_ifs with haddress hport hrun
  · exact ⟨hquiet, trivial⟩
  · exact ⟨hquiet, trivial⟩
  · exact ⟨hquiet, trivial⟩
  · simp only [Bool.not_eq_true] at hrun
    exact (segments_bind _ _).mp
      ((makeAddress_sound net s.own.address).bind
        (fun address => openAt_sound _ answers true) point start s hquiet hrun)

/-! A failed resolution is reported and then announced by `onDisconnected`, although no
session was open. -/

theorem reportUnresolved_sound (hunchecked : ¬checked) (ec : ErrorCode) :
    Fine checked scope (sendError ec) :=
  (sendError_sound ec).weaken (fun s _ => Profile.guarded_of_unchecked hunchecked s)
    fun _ _ h => h

theorem announceUnresolved_sound (hunchecked : ¬checked) :
    Fine checked scope (fire .onDisconnected) := by
  intro point start s hquiet _
  rw [fire, segments_bind, segments_update, segments_callback]
  exact ⟨⟨s, hquiet, .called (.unresolved hunchecked)⟩, fun s' => ⟨.refl, trivial⟩⟩

theorem connectVia_sound (hunchecked : ¬checked) (resolver : Bool)
    (resolution : ErrorCode × Endpoint) (answers : SocketAnswers) :
    Fine checked scope (connectVia resolver resolution answers) := by
  intro point start s hquiet _
  rw [connectVia, segments_bind, segments_state]
  simp only [segments_ite, segments_pure]
  split_ifs with hresolver haddress hport hrun hfailed
  · exact ⟨hquiet, trivial⟩
  · exact ⟨hquiet, trivial⟩
  · exact ⟨hquiet, trivial⟩
  · exact ⟨hquiet, trivial⟩
  · exact (reportUnresolved_sound hunchecked resolution.1).bind
      (fun _ => (announceUnresolved_sound hunchecked).bind fun _ => Sound.pure false)
      point start s hquiet trivial
  · simp only [Bool.not_eq_true] at hrun
    exact openAt_sound resolution.2 answers true point start s hquiet hrun

theorem disconnectInternal_sound : Fine checked scope disconnectInternal := by
  intro point start s hquiet _
  simp only [disconnectInternal, setResolving, fire, segments_bind, segments_state,
    segments_ite, segments_pure, segments_update, segments_callback]
  split_ifs with hrun
  · exact ⟨hquiet, trivial⟩
  · simp only [Bool.not_eq_true', Bool.not_eq_false] at hrun
    have hresolving : Quietly (profile checked) (scope point) start
        { s with own := { s.own with resolving := false } } :=
      hquiet.tail (.special (.setResolving false))
    exact ⟨⟨_, hresolving, .called (.closed hrun)⟩, fun s' => ⟨.refl, trivial⟩⟩

theorem reconnect_sound (net : Net) (answers : SocketAnswers) :
    Fine checked scope (reconnect net answers) := by
  refine disconnectInternal_sound.bind fun disconnected => ?_
  cases disconnected with
  | false => exact Sound.pure false
  | true => exact connect_sound net answers

theorem post_sound (handler : Handler) :
    Sound (profile checked) scope
      (fun s => ∀ session, handler = .disconnect session →
        session = s.session ∧ s.running = true)
      (post handler) (fun _ _ => True) :=
  Sound.quiet fun _ _ h => .special (.post handler h)

theorem unpost_sound (index : Nat) : Fine checked scope (unpost index) :=
  Sound.quiet fun _ _ _ => .special (.unpost index)

theorem connectAsync_sound : Fine checked scope connectAsync := by
  intro point start s hquiet _
  simp only [connectAsync, post, segments_bind, segments_state, segments_ite,
    segments_pure, segments_update]
  split_ifs
  · exact ⟨hquiet, trivial⟩
  · exact ⟨hquiet.tail (.special (.post .connect (by simp))), trivial⟩

theorem connectAsyncVia_sound (resolver : Bool) :
    Fine checked scope (connectAsyncVia resolver) := by
  intro point start s hquiet _
  simp only [connectAsyncVia, post, segments_bind, segments_state, segments_ite,
    segments_pure, segments_update]
  split_ifs
  · exact ⟨hquiet, trivial⟩
  · exact ⟨hquiet, trivial⟩
  · exact ⟨hquiet.tail (.special (.post .connectVia (by simp))), trivial⟩

theorem connectViaHandler_sound : Fine checked scope connectViaHandler := by
  intro point start s hquiet _
  simp only [connectViaHandler, setResolving, segments_bind, segments_state, segments_ite,
    segments_pure, segments_update]
  split_ifs
  · exact ⟨hquiet, trivial⟩
  · exact ⟨(hquiet.tail (.special (.setResolving true))).tail
      (.special (.setResolves _)), trivial⟩
  · exact ⟨(hquiet.tail (.special (.setResolving true))).tail
      (.special (.setResolves _)), trivial⟩

theorem asyncResolveHandler_sound (hunchecked : ¬checked) (index : Nat)
    (resolution : ErrorCode × Endpoint) (answers : SocketAnswers) :
    Fine checked scope (asyncResolveHandler index resolution answers) := by
  intro point start s hquiet _
  have hnext := (hquiet.tail (.special (.setResolves (s.own.resolves.eraseIdx index)))).tail
    (.special (.setResolving false))
  rw [asyncResolveHandler, segments_bind, segments_update, segments_bind, setResolving,
    segments_update, segments_bind, segments_state]
  simp only [segments_ite, segments_pure]
  split_ifs with hbusy hresolved
  · exact ⟨hnext, trivial⟩
  · have hrun : s.running = false := by
      simpa using hbusy
    exact ((setEndpoint_sound resolution.2).bind fun _ => openSession_sound answers bindTo)
      point start _ hnext hrun
  · exact (reportUnresolved_sound hunchecked resolution.1).bind
      (fun _ => announceUnresolved_sound hunchecked) point start _ hnext trivial

theorem cancel_sound {A : Client → Prop} (hA : ∀ s, A s → A s.abortOperations) :
    Sound (profile checked) scope A
      (update fun s : Client => if s.socket.isOpen then s.abortOperations else s)
      (fun _ => A) := by
  intro point start s hquiet h
  rw [segments_update]
  split
  · rename_i hopen
    exact ⟨hquiet.tail (.cancel hopen), hA s h⟩
  · exact ⟨hquiet, h⟩

theorem disconnectInternalAsync_sound (dispatch : Bool) :
    Fine checked scope (disconnectInternalAsync dispatch) := by
  intro point start s hquiet _
  rw [disconnectInternalAsync, segments_bind, segments_state]
  by_cases hrun : s.running = true
  · rw [hrun]
    refine ((cancel_sound (A := fun s' => s'.session = s.session ∧ s'.running = true)
      fun _ h => h).bind fun _ => ?_) point start s hquiet ⟨rfl, hrun⟩
    cases dispatch with
    | true =>
        exact (disconnectInternal_sound.discard.weaken (fun _ _ => trivial)
          (fun _ _ h => h)).bind fun _ => Sound.pure true
    | false =>
        refine ((post_sound (.disconnect s.session)).weaken (fun s' h => ?_)
          (fun _ _ h => h)).bind fun _ => Sound.pure true
        rintro session ⟨rfl⟩
        exact ⟨h.1.symm, h.2⟩
  · rw [Bool.not_eq_true] at hrun
    rw [hrun]
    exact ⟨hquiet, trivial⟩

theorem reconnectAsync_sound : Fine checked scope reconnectAsync := by
  refine (disconnectInternalAsync_sound false).bind fun disconnected => ?_
  cases disconnected with
  | false => exact Sound.pure false
  | true =>
      intro point start s hquiet _
      simp only [Bool.not_true, Bool.false_eq_true, if_false, segments_bind,
        segments_waitUntil]
      refine ⟨⟨s, hquiet, .waiting s⟩, fun s' _ => ?_⟩
      exact connectAsync_sound _ s' s' .refl trivial

/-! ## Multicast groups -/

theorem group_sound (net : Net) (address : String) (answer : ErrorCode) (event : Event)
    (hplain : event.isLifecycle = false) :
    Sound (profile checked) scope (fun s => s.running = true)
      (do
        let _ ← makeAddress net address
        if answer.failed then throw answer
        fire event)
      (fun _ _ => True) := by
  refine (makeAddress_sound net address).bind fun _ => ?_
  intro point start s hquiet hrun
  split_ifs
  · exact ⟨s, hquiet, .threw (.refused _)⟩
  · exact fire_sound event hplain point start s hquiet (Profile.guarded_of_running hrun)

theorem whileRunning_sound {m : Code Unit}
    (hm : Sound (profile checked) scope (fun s => s.running = true) m (fun _ _ => True)) :
    Fine checked scope
      (do
        let s ← state
        if !s.running then return ()
        m) := by
  intro point start s hquiet _
  rw [segments_bind, segments_state, segments_ite]
  cases hrun : s.running with
  | false => exact ⟨hquiet, trivial⟩
  | true => exact hm point start s hquiet hrun

theorem joinMulticastGroup_sound (net : Net) (address : String) (answer : ErrorCode) :
    Fine checked scope (joinMulticastGroup net address answer) :=
  whileRunning_sound (group_sound net address answer _ rfl)

theorem leaveMulticastGroup_sound (net : Net) (address : String) (answer : ErrorCode) :
    Fine checked scope (leaveMulticastGroup net address answer) :=
  whileRunning_sound (group_sound net address answer _ rfl)

theorem joinMulticastGroupAsync_sound (net : Net) (inside : Bool) (address : String)
    (answer : ErrorCode) :
    Fine checked scope (joinMulticastGroupAsync net inside address answer) := by
  refine whileRunning_sound ?_
  cases inside with
  | true => exact (joinMulticastGroup_sound net address answer).weaken (by simp) (by simp)
  | false => exact (post_sound _).weaken (by simp) (by simp)

theorem leaveMulticastGroupAsync_sound (net : Net) (inside : Bool) (address : String)
    (answer : ErrorCode) :
    Fine checked scope (leaveMulticastGroupAsync net inside address answer) := by
  refine whileRunning_sound ?_
  cases inside with
  | true => exact (leaveMulticastGroup_sound net address answer).weaken (by simp) (by simp)
  | false => exact (post_sound _).weaken (by simp) (by simp)

/-! ## Sending and receiving -/

theorem syncFailed_sound (ec : ErrorCode) :
    Sound (profile checked) scope (profile checked).Guarded (syncFailed ec)
      (fun _ _ => True) :=
  (sendError_sound ec).bind fun _ => disconnectInternal_sound.discard

theorem asyncFailed_sound (ec : ErrorCode) :
    Sound (profile checked) scope (profile checked).Guarded (asyncFailed ec)
      (fun _ _ => True) :=
  (sendError_sound ec).bind fun _ => (disconnectInternalAsync_sound true).discard

theorem postedHandler_sound (net : Net) (answers : SocketAnswers) (handler : Handler) :
    Fine checked scope (postedHandler net answers handler) := by
  cases handler with
  | connect => exact (connect_sound net answers).discard
  | connectVia => exact connectViaHandler_sound
  | disconnect session => exact disconnectInternal_sound.discard
  | joinMulticastGroup address => exact joinMulticastGroup_sound net address answers.group
  | leaveMulticastGroup address => exact leaveMulticastGroup_sound net address answers.group
  | asyncResolve => exact Sound.pure ()

/-! ## The whole client -/

/--
The calls of a run in which every callback is invoked in the segment that tested for
its session.  A datagram cannot be sent in part, so a failed send reports no bytes.
-/
def CheckedCall : Call → Prop
  | .connectVia _ _ _ | .connectAsyncVia _ | .sendTimed _ _ | .receive _ _
  | .receiveTimed _ _ => False
  | .send _ _ answer => answer.error.failed = true → answer.size = 0
  | _ => True

def CheckedHandler : Pending → Prop
  | .resolved _ _ => False
  | _ => True

theorem call_sound (net : Net) (inside : Bool) (k : Call) (hk : checked → CheckedCall k) :
    Fine checked scope (call net inside k) := by
  cases k with
  | connect answers => exact (connect_sound net answers).discard
  | connectVia resolver resolution answers =>
      exact (connectVia_sound hk resolver resolution answers).discard
  | disconnect => exact disconnectInternal_sound.discard
  | reconnect answers => exact (reconnect_sound net answers).discard
  | connectAsync => exact connectAsync_sound.discard
  | connectAsyncVia resolver => exact (connectAsyncVia_sound resolver).discard
  | disconnectAsync => exact (disconnectInternalAsync_sound false).discard
  | reconnectAsync => exact reconnectAsync_sound.discard
  | joinMulticastGroup address answer => exact joinMulticastGroup_sound net address answer
  | leaveMulticastGroup address answer => exact leaveMulticastGroup_sound net address answer
  | joinMulticastGroupAsync address answer =>
      exact joinMulticastGroupAsync_sound net inside address answer
  | leaveMulticastGroupAsync address answer =>
      exact leaveMulticastGroupAsync_sound net inside address answer
  | send endpoint buffer answer =>
      exact .state fun s => (send_sound syncFailed_sound _ buffer answer hk).discard
  | sendTimed endpoint buffer =>
      exact .state fun s => (sendTimed_sound hk syncFailed_sound _ buffer).discard
  | sendAsync endpoint buffer =>
      exact .state fun s => (sendAsync_sound (Sound.pure ()) _ buffer).discard
  | receive buffer answer =>
      exact (receive_sound syncFailed_sound buffer answer fun h => (hk h).elim).discard
  | receiveTimed endpoint buffer =>
      exact (receiveTimed_sound hk syncFailed_sound endpoint buffer).discard
  | receiveAsync => exact tryReceive_sound
  | setupReuseAddress enable => exact Sound.quiet fun _ _ _ => .special (.options _ _ _)
  | setupReusePort enable => exact Sound.quiet fun _ _ _ => .special (.options _ _ _)
  | setupMulticast enable => exact Sound.quiet fun _ _ _ => .special (.options _ _ _)

inductive Runnable (net : Net) (s : Client) : Pending → Origin Handler → Code Unit → Prop where
  | completion {op : Operation} {completion : Completion} (hmem : op ∈ s.operations)
      (hresult : op.result = some completion) :
      Runnable net s (.completion op.id) (.completion op completion)
        (completionHandler op completion)
  | timer {id : Nat} {ec : ErrorCode} (hfired : s.firedTimer id = some ec) :
      Runnable net s (.timer id) (.timer id) (timedTimerHandler id ec)
  | posted {index : Nat} {handler : Handler} (answers : SocketAnswers)
      (hposted : s.own.posted[index]? = some handler) :
      Runnable net s (.posted index answers) (.posted handler)
        (do unpost index; postedHandler net answers handler)
  | resolved (index : Nat) (answers : SocketAnswers) (resolution : ErrorCode × Endpoint) :
      Runnable net s (.resolved index answers) (.posted .asyncResolve)
        (asyncResolveHandler index resolution answers)

theorem runnable_of_handler {net : Net} {s : Client} {h : Pending} {origin : Origin Handler}
    {program : Code Unit} (hlookup : (system net).handler h s = some (origin, program)) :
    Runnable net s h origin program := by
  simp only [system, handler] at hlookup
  split at hlookup <;> split at hlookup <;> cases hlookup
  · obtain ⟨hmem, rfl, hresult⟩ := mem_of_completedOperation ‹_›
    exact .completion hmem hresult
  · exact .timer ‹_›
  · exact .posted _ ‹_›
  · exact .resolved _ _ _

theorem system_obeys (checked : Prop) (net : Net) :
    (system net).Obeys (fun k => checked → CheckedCall k)
      (fun h => checked → CheckedHandler h)
      (fun origin => Effect (profile checked) (scopeOf origin)) where
  call k inside hk := (call_sound net inside k hk).obeys
  handler h s origin program hh hlookup := by
    cases runnable_of_handler hlookup with
    | @completion op completion hmem hresult =>
        have hdone : op.result ≠ none := by simp [hresult]
        exact (completionHandler_sound asyncFailed_sound asyncFailed_sound op completion hdone
          (fun hreceive => scopeOf_onReceived hreceive _) fun hop _ => hop).obeys_at hmem
    | timer hfired => exact (timedTimerHandler_sound (fun _ => rfl) _ _).obeys_at trivial
    | posted answers hposted =>
        exact ((unpost_sound _).bind fun _ => postedHandler_sound net _ _).obeys_at trivial
    | resolved index answers resolution =>
        exact (asyncResolveHandler_sound hh _ _ _).obeys_at trivial

end Client

end AsioWrapper.Udp
