import AsioWrapper.Foundation.SessionProtocol
import AsioWrapper.Udp.Reach

/-!
# The callback protocol of the server

Only the handlers posted by `Start` and `Stop` begin and end a session, each in
its first segment.  Every callback about data is invoked by code that has found
the server started in the same segment, or that was resumed from another such
callback; where handlers and calls are serialised, the session is then still
the same.
-/

namespace AsioWrapper.Udp

open AsioWrapper.Asio
open AsioWrapper.Foundation
open AsioWrapper.Foundation.Program

def Event.isCompletion : Event → Bool
  | .onSent _ _ | .onReceived _ _ | .onError _ => true
  | _ => false

/-- `onStarted (onSent | onReceived | onError)* onStopped`, any number of times. -/
def serverSessions : SessionProtocol Event :=
  ⟨.onStarted, .onStopped, fun event => event.isCompletion = true⟩

namespace Server

def Still (s s' : Server) : Prop := s'.running = s.running ∧ s'.log = s.log

theorem Still.rfl {s : Server} : Still s s := ⟨Eq.refl _, Eq.refl _⟩

theorem Still.trans {s s' s'' : Server} (h : Still s s') (h' : Still s' s'') : Still s s'' :=
  ⟨h'.1.trans h.1, h'.2.trans h.2⟩

private theorem still_of_stirred {s s' : Server} (h : Stirred s s') : Still s s' := by
  cases h <;> exact ⟨rfl, rfl⟩

inductive Invokes (origin : Option (Origin Handler)) (point : Option Event) (s s' : Server) :
    Event → Prop where
  | started (horigin : origin ≠ none) (hpoint : point = none) (hrun : s.running = false)
      (hrun' : s'.running = true) (hlog : s'.log = s.log ++ [.onStarted]) :
      Invokes origin point s s' .onStarted
  | stopped (horigin : origin ≠ none) (hpoint : point = none) (hrun : s.running = true)
      (hrun' : s'.running = false) (hlog : s'.log = s.log ++ [.onStopped]) :
      Invokes origin point s s' .onStopped
  | completed {event : Event} (hevent : event.isCompletion = true)
      (hpoint : point ≠ some .onStopped) (hfirst : point = none → s.running = true)
      (hrun : s'.running = s.running) (hlog : s'.log = s.log ++ [event]) :
      Invokes origin point s s' event

def Turns (origin : Option (Origin Handler)) (point : Option Event) (s : Server)
    (stop : Stop Event ErrorCode) (s' : Server) : Prop :=
  match stop with
  | .called event => Invokes origin point s s' event
  | .waiting => origin = none ∧ Still s s'
  | _ => Still s s'

def Ready (point : Option Event) (start s : Server) : Prop :=
  Still start s ∧ point ≠ some .onStopped ∧ (point = none → s.running = true)

theorem ready_of_running {start s : Server} (hs : Still start s) (hrun : s.running = true) :
    Ready none start s :=
  ⟨hs, fun h => (by cases h), fun _ => hrun⟩

abbrev Turning (origin : Option (Origin Handler)) {α : Type} (m : Code α) : Prop :=
  Triple (Turns origin) Ready (fun _ => True) m (fun _ _ => True)

section Code

variable {origin : Option (Origin Handler)} {point : Option Event} {start s : Server}

theorem fire_turning {event : Event} (hevent : event.isCompletion = true) :
    Turning origin (fire event) := by
  intro point start s hs _
  obtain ⟨⟨hrun, hlog⟩, hpoint, hfirst⟩ := hs
  rw [fire, segments_bind, segments_update, segments_callback]
  refine ⟨.completed hevent hpoint (fun h => hrun ▸ hfirst h) hrun ?_, fun s' => ?_⟩
  · rw [← hlog]
    rfl
  · refine ⟨⟨.rfl, fun h => ?_, fun h => by cases h⟩, trivial⟩
    cases h
    cases hevent

theorem sendError_turning (ec : ErrorCode) : Turning origin (sendError ec) :=
  Triple.ite (fun _ => Triple.pure ()) (fun _ => fire_turning rfl)

theorem reportUnsent_turning :
    Turning origin (do
      let s ← state
      fire (.onSent s.sendEndpoint 0)) :=
  Triple.state fun _ => (fire_turning rfl).weaken (fun _ _ => trivial) fun _ _ h => h

private theorem sendFailed_turning (ec : ErrorCode) : Turning origin (sendFailed ec) :=
  (sendError_turning ec).bind fun _ => reportUnsent_turning

private theorem receiveFailed_turning (ec : ErrorCode) : Turning origin (receiveFailed ec) :=
  (sendError_turning ec).bind fun _ => Triple.state fun _ =>
    (fire_turning rfl).weaken (fun _ _ => trivial) fun _ _ h => h

abbrev Returns (origin : Option (Origin Handler)) {α : Type} (_ : α) (point : Option Event)
    (start s : Server) : Prop :=
  Turns origin point start .returned s

theorem Turning.returns {α : Type} {m : Code α} (hm : Turning origin m)
    (hs : Ready point start s) : m.Segments (Turns origin) (Returns origin) point start s :=
  segments_mono (fun _ _ _ _ h => h) (fun _ _ _ _ h => h.1.1) (hm point start s hs trivial)

/-! ### Code that invokes no callback -/

abbrev Calm (origin : Option (Origin Handler)) {α : Type} (m : Code α) : Prop :=
  Triple (Turns origin) (fun _ start s => Still start s) (fun _ => True) m (fun _ _ => True)

theorem Calm.returns {α : Type} {m : Code α} (hm : Calm origin m) (hs : Still start s) :
    m.Segments (Turns origin) (Returns origin) point start s :=
  segments_mono (fun _ _ _ _ h => h) (fun _ _ _ _ h => h.1) (hm point start s hs trivial)

theorem Calm.state {α : Type} {f : Server → Code α} (hf : ∀ s, Calm origin (f s)) :
    Calm origin (Program.state >>= f) :=
  Triple.state fun s => (hf s).weaken (fun _ _ => trivial) fun _ _ h => h

theorem Calm.update {f : Server → Server} (h : ∀ s, Still s (f s)) :
    Calm origin (Program.update f) :=
  Triple.update fun _ _ s hs _ => hs.trans (h s)

theorem Calm.waitUntil (ready : Server → Bool) : Calm none (Program.waitUntil ready) :=
  fun _ _ _ hs _ => ⟨⟨rfl, hs⟩, fun _ _ => ⟨.rfl, trivial⟩⟩

theorem Calm.throw {α : Type} (ec : ErrorCode) : Calm origin (throw ec : Code α) :=
  fun _ _ _ hs _ => hs

theorem start_calm : Calm origin Server.start :=
  Calm.state fun _ => Triple.ite (fun _ => Triple.pure false) fun _ =>
    Triple.bind (Calm.update fun _ => ⟨rfl, rfl⟩) fun _ => Triple.pure true

theorem stop_calm : Calm origin Server.stop :=
  Calm.state fun _ => Triple.ite (fun _ => Triple.pure false) fun _ =>
    Triple.bind (Calm.update fun _ => ⟨rfl, rfl⟩) fun _ => Triple.pure true

private theorem restart_calm : Calm none restart :=
  stop_calm.bind fun _ => Triple.ite (fun _ => Triple.pure false) fun _ =>
    (Calm.waitUntil _).bind fun _ => start_calm

theorem startMulticast_calm (endpoint : Endpoint) : Calm origin (startMulticast endpoint) :=
  Triple.bind (Calm.update fun _ => ⟨rfl, rfl⟩) fun _ => start_calm

private theorem startMulticastAt_calm (net : Net) (address : String) (port : Int) :
    Calm origin (startMulticastAt net address port) := by
  refine Triple.bind (B := fun _ _ => True) ?_ fun _ => startMulticast_calm _
  unfold makeAddress
  split
  · exact Triple.pure _
  · exact Calm.throw _

private theorem tryReceive_calm : Calm origin (tryReceive : Code Unit) :=
  Calm.state fun _ => Triple.ite (fun _ => Triple.pure ()) fun _ =>
    Triple.ite (fun _ => Triple.pure ()) fun _ => Calm.update fun _ => ⟨rfl, rfl⟩

theorem asyncDoneHandler_calm (id : Nat) (ec : ErrorCode) :
    Calm origin (asyncDoneHandler id ec) := by
  refine Calm.state fun before => Triple.bind (Calm.update fun _ => ⟨rfl, rfl⟩) fun _ => ?_
  refine Triple.ite (fun _ => ?_) fun _ => Triple.pure ()
  refine Triple.bind (Calm.update fun _ => ⟨rfl, rfl⟩) fun _ => Calm.state fun s => ?_
  refine Triple.ite (fun _ => Calm.throw _) fun _ => ?_
  exact Triple.bind (Calm.update fun _ => ⟨rfl, rfl⟩) fun _ => Calm.update fun _ => ⟨rfl, rfl⟩

private theorem timedSocketHandler_calm (op : Operation) (completion : Completion) :
    Calm origin (timedSocketHandler op completion) := by
  refine Triple.bind (Calm.update fun _ => ⟨rfl, rfl⟩) fun _ => ?_
  exact (asyncDoneHandler_calm _ _).bind fun _ => Calm.update fun _ => ⟨rfl, rfl⟩

private theorem timedTimerHandler_calm (id : Nat) (ec : ErrorCode) :
    Calm origin (timedTimerHandler id ec) :=
  Triple.bind (Calm.update fun _ => ⟨rfl, rfl⟩) fun _ => asyncDoneHandler_calm _ _

/-! ### Code that invokes callbacks -/

private theorem sendAsync_turns (endpoint : Endpoint) (buffer : Buffer) (s : Server) :
    (sendAsync endpoint buffer).Segments (Turns origin) (Returns origin) none s s := by
  simp only [sendAsync, Udp.sendAsync, segments_bind, segments_state, segments_ite,
    segments_pure, segments_update]
  split_ifs with hsending hrun hsize hnull hlimit
  · exact .rfl
  · exact .rfl
  · exact .rfl
  · exact .rfl
  · simp only [Bool.not_eq_true', Bool.not_eq_false] at hrun
    have herror : Turning origin (sendError .noBufferSpace) := sendError_turning _
    have hrejected := herror.bind fun _ =>
      reportUnsent_turning.bind fun _ => Triple.pure false
    exact (segments_bind _ _).mp (Turning.returns hrejected (ready_of_running .rfl hrun))
  · exact ⟨rfl, rfl⟩

private theorem asyncSendToHandler_turns (op : Operation) (completion : Completion) (s : Server) :
    (asyncSendToHandler sendFailed op completion).Segments (Turns origin) (Returns origin) none
      s s := by
  simp only [asyncSendToHandler, fire, segments_bind, segments_state, segments_ite,
    segments_pure, segments_update, segments_callback]
  split_ifs with hrun herror hsent
  · exact ⟨rfl, rfl⟩
  · simp only [Bool.not_eq_true', Bool.not_eq_false] at hrun
    exact (sendFailed_turning _).returns (ready_of_running ⟨rfl, rfl⟩ hrun)
  · simp only [Bool.not_eq_true', Bool.not_eq_false] at hrun
    exact ⟨.completed rfl (fun h => by cases h) (fun _ => hrun) rfl rfl, fun _ => .rfl⟩
  · exact ⟨rfl, rfl⟩

private theorem asyncReceiveHandler_turns (op : Operation) (completion : Completion) (s : Server) :
    (asyncReceiveHandler receiveFailed op completion).Segments (Turns origin) (Returns origin)
      none s s := by
  simp only [asyncReceiveHandler, fire, segments_bind, segments_state, segments_ite,
    segments_pure, segments_update, segments_callback]
  split_ifs with hrun herror
  · exact ⟨rfl, rfl⟩
  · simp only [Bool.not_eq_true', Bool.not_eq_false] at hrun
    exact (receiveFailed_turning _).returns (ready_of_running ⟨rfl, rfl⟩ hrun)
  · simp only [Bool.not_eq_true', Bool.not_eq_false] at hrun
    refine ⟨.completed rfl (fun h => by cases h) (fun _ => hrun) rfl rfl, fun s' => ?_⟩
    split_ifs with hfull hlimit
    · exact (receiveFailed_turning _).returns
        ⟨.rfl, fun h => (by cases h), fun h => (by cases h)⟩
    · exact ⟨rfl, rfl⟩
    · exact .rfl

theorem attempt_still {call : SocketCall} {ec : ErrorCode} {effect : Server → Server}
    {Q : Unit → Option Event → Server → Server → Prop} (hs : Still start s)
    (heffect : ∀ s, Still s (effect s)) (hQ : ∀ s', Still start s' → Q () point start s') :
    (attempt call ec effect).Segments (Turns origin) Q point start s := by
  rw [attempt_segments]
  split
  · exact hs.trans ⟨rfl, rfl⟩
  · exact hQ _ (hs.trans (heffect s))

private theorem whenever_still {c : Bool} {call : SocketCall} {ec : ErrorCode}
    {effect : Server → Server} {Q : Unit → Option Event → Server → Server → Prop}
    (hs : Still start s) (heffect : ∀ s, Still s (effect s))
    (hQ : ∀ s', Still start s' → Q () point start s') :
    (whenever c (attempt call ec effect)).Segments (Turns origin) Q point start s := by
  unfold Program.whenever
  split
  · exact attempt_still hs heffect hQ
  · exact hQ s hs

theorem startHandler_turns (answers : SocketAnswers) (horigin : origin ≠ none)
    (hs : Still start s) :
    (startHandler answers).Segments (Turns origin) (Returns origin) none start s := by
  rw [startHandler, segments_bind, segments_state, segments_ite]
  split_ifs with hrun
  · exact hs
  · rw [openSession, segments_bind, segments_state, segments_bind]
    refine attempt_still hs (fun _ => ⟨rfl, rfl⟩) fun s₁ h₁ => ?_
    rw [segments_bind]
    refine whenever_still h₁ (fun _ => ⟨rfl, rfl⟩) fun s₂ h₂ => ?_
    rw [segments_bind]
    refine whenever_still h₂ (fun _ => ⟨rfl, rfl⟩) fun s₃ h₃ => ?_
    rw [segments_bind]
    refine attempt_still h₃ (fun _ => ⟨rfl, rfl⟩) fun s₄ h₄ => ?_
    rw [segments_bind]
    refine attempt_still h₄ (fun _ => ⟨rfl, rfl⟩) fun s₅ h₅ => ?_
    rw [segments_bind, segments_update, fire, segments_bind, segments_update, segments_callback]
    simp only [Bool.not_eq_true] at hrun
    exact ⟨.started horigin rfl (hs.1.symm.trans hrun) rfl (congrArg (· ++ _) h₅.2),
      fun _ => .rfl⟩

theorem stopHandler_turns (horigin : origin ≠ none) (hs : Still start s) :
    stopHandler.Segments (Turns origin) (Returns origin) none start s := by
  simp only [stopHandler, fire, segments_bind, segments_state, segments_ite, segments_pure,
    segments_update, segments_callback]
  split_ifs with hrun
  · exact hs
  · simp only [Bool.not_eq_true', Bool.not_eq_false] at hrun
    exact ⟨.stopped horigin rfl (hs.1.symm.trans hrun) rfl (congrArg (· ++ _) hs.2),
      fun _ => .rfl⟩

end Code

/-! ## The whole server -/

/-- The calls that only post a handler or start an operation, and the setters. -/
def AsyncCall : Call → Prop
  | .send _ _ _ | .sendTimed _ _ | .receive _ _ | .receiveTimed _ _ => False
  | _ => True

theorem system_turns (net : Net) : (system net).Obeys AsyncCall (fun _ => True) Turns where
  call k inside hk s := by
    cases k with
    | start => exact Calm.returns start_calm.discard .rfl
    | startMulticastAt address port =>
        exact Calm.returns (startMulticastAt_calm net address port).discard .rfl
    | startMulticast endpoint => exact Calm.returns (startMulticast_calm endpoint).discard .rfl
    | stop => exact Calm.returns stop_calm.discard .rfl
    | restart => exact Calm.returns restart_calm.discard .rfl
    | sendAsync endpoint buffer => exact (segments_discard _).mpr (sendAsync_turns _ buffer s)
    | receiveAsync => exact tryReceive_calm.returns .rfl
    | setupReuseAddress enable => exact ⟨rfl, rfl⟩
    | setupReusePort enable => exact ⟨rfl, rfl⟩
    | setupReceiveBufferLimit limit => exact ⟨rfl, rfl⟩
    | setupSendBufferLimit limit => exact ⟨rfl, rfl⟩
    | send endpoint buffer answer => exact hk.elim
    | sendTimed endpoint buffer => exact hk.elim
    | receive buffer answer => exact hk.elim
    | receiveTimed endpoint buffer => exact hk.elim
  handler h s origin program _ hlookup := by
    cases runnable_of_handler hlookup with
    | @completion op completion hmem hresult =>
        exact completionHandler_cases (motive := fun m => m.Segments _ _ none s s) completion
          (fun _ => asyncSendToHandler_turns op completion s)
          (fun _ => asyncReceiveHandler_turns op completion s)
          fun _ => (timedSocketHandler_calm op completion).returns .rfl
    | timer hfired => exact (timedTimerHandler_calm _ _).returns .rfl
    | @posted _ handler answers hposted =>
        rw [segments_bind]
        cases handler with
        | start => exact startHandler_turns answers (Option.some_ne_none _) ⟨rfl, rfl⟩
        | stop => exact stopHandler_turns (Option.some_ne_none _) ⟨rfl, rfl⟩

/-- A handler begins only while no call is inside a callback.  A call that waits in
`Restart` for its stop handler is not. -/
def serialised (c : PeerConfig Members Handler) : Move Call Pending Stimulus → Bool
  | .handler _ => c.threads.all fun stack => stack.all fun f => f.event.isNone
  | _ => true

structure Conforms (c : PeerConfig Members Handler) : Prop where
  logged : serverSessions.Logged c.world.running c.world.log
  obeys : ∀ f ∈ c.frames, f.Obeys Turns
  blocked : ∀ f ∈ c.frames, f.event = none → f.origin = none
  inside : ∀ f ∈ c.frames, ∀ event, f.event = some event → event ≠ .onStopped →
    c.world.running = true

section Step

variable {c c' : PeerConfig Members Handler}

theorem Conforms.still (hc : Conforms c) (hobeys : ∀ f ∈ c'.frames, f.Obeys Turns)
    (hstill : Still c.world c'.world)
    (hframes : ∀ f ∈ c'.frames, f ∈ c.frames ∨ f.event = none ∧ f.origin = none) :
    Conforms c' where
  logged := by
    rw [hstill.1, hstill.2]
    exact hc.logged
  obeys := hobeys
  blocked f hf hevent := by
    rcases hframes f hf with hold | ⟨-, horigin⟩
    · exact hc.blocked f hold hevent
    · exact horigin
  inside f hf event hevent hne := by
    rcases hframes f hf with hold | ⟨hnone, -⟩
    · rw [hstill.1]
      exact hc.inside f hold event hevent hne
    · rw [hnone] at hevent
      cases hevent

theorem Conforms.called (hc : Conforms c) (hobeys : ∀ f ∈ c'.frames, f.Obeys Turns)
    {origin : Option (Origin Handler)} {event : Event}
    (hlogged : serverSessions.Logged c'.world.running c'.world.log)
    (hframes : ∀ f ∈ c'.frames, f ∈ c.frames ∨ f.origin = origin ∧ f.stop = .called event)
    (hrun : event ≠ .onStopped → c'.world.running = true)
    (hold : ∀ f ∈ c.frames, ∀ event, f.event = some event → event ≠ .onStopped →
      c'.world.running = true) :
    Conforms c' where
  logged := hlogged
  obeys := hobeys
  blocked f hf hevent := by
    rcases hframes f hf with h | ⟨-, hstop⟩
    · exact hc.blocked f h hevent
    · rw [Frame.event_of_called hstop] at hevent
      cases hevent
  inside f hf event' hevent hne := by
    rcases hframes f hf with h | ⟨-, hstop⟩
    · exact hold f h event' hevent hne
    · rw [Frame.event_of_called hstop] at hevent
      cases hevent
      exact hrun hne

variable {net : Net} {m : Move Call Pending Stimulus}

theorem Conforms.alone (hc : Conforms c) (hserial : serialised c m = true)
    {origin : Option (Origin Handler)}
    (hsegment : (system net).segment c m = some (origin, none)) (horigin : origin ≠ none) :
    ∀ f ∈ c.frames, f.event = none := by
  rcases System.segment_cases hsegment with ⟨hnone, -⟩ | ⟨h, hm, -⟩ | ⟨f, hf, hfrom, hevent⟩
  · exact (horigin hnone).elim
  · subst hm
    intro f hf
    obtain ⟨stack, hstack, hmem⟩ := Config.mem_frames.mp hf
    simp only [serialised, List.all_eq_true] at hserial
    exact Option.isNone_iff_eq_none.mp (hserial stack hstack f hmem)
  · exact (horigin (hfrom.symm.trans (hc.blocked f hf hevent))).elim

theorem Conforms.step (hc : Conforms c) (hm : m.Admitted AsyncCall fun _ => True)
    (hserial : serialised c m = true) (hstep : (system net).step c m = some c') : Conforms c' := by
  obtain ⟨hobeys, hcases⟩ := System.step_cases (system_turns net) hc.obeys hm hstep
  rcases hcases with ⟨origin, point, stop, hsegment, hexec⟩ | ⟨-, hidle⟩
  · have hworld := hexec.world
    cases stop with
    | returned =>
        refine hc.still hobeys hworld fun f hf => (hexec.frames f hf).imp_right fun ⟨_, h⟩ => ?_
        cases h.symm.trans (Frame.waiting_of_not_called (by simp [h])).2
    | threw ec =>
        refine hc.still hobeys hworld fun f hf => (hexec.frames f hf).imp_right fun ⟨_, h⟩ => ?_
        cases h.symm.trans (Frame.waiting_of_not_called (by simp [h])).2
    | waiting =>
        refine hc.still hobeys hworld.2 fun f hf => (hexec.frames f hf).imp_right ?_
        exact fun ⟨horigin, h⟩ =>
          ⟨(Frame.waiting_of_not_called (by simp [h])).1, horigin.trans hworld.1⟩
    | called event =>
        have hlogged := hc.logged
        cases hworld with
        | started horigin hpoint hrun hrun' hlog =>
            subst hpoint
            have halone := hc.alone hserial hsegment horigin
            refine hc.called hobeys ?_ hexec.frames (fun _ => hrun') fun f hf event hevent => ?_
            · rw [hrun] at hlogged
              rw [hrun', hlog]
              exact hlogged.opened
            · rw [halone f hf] at hevent
              cases hevent
        | stopped horigin hpoint hrun hrun' hlog =>
            subst hpoint
            have halone := hc.alone hserial hsegment horigin
            refine hc.called hobeys ?_ hexec.frames (fun h => (h rfl).elim)
              fun f hf event hevent => ?_
            · rw [hrun] at hlogged
              rw [hrun', hlog]
              exact hlogged.closed
            · rw [halone f hf] at hevent
              cases hevent
        | completed hevent hpoint hfirst hrun hlog =>
            have hrunning : c.world.running = true := by
              cases hpoint' : point with
              | none => exact hfirst hpoint'
              | some event' =>
                  subst hpoint'
                  rcases System.segment_cases hsegment with ⟨-, h⟩ | ⟨_, -, h⟩ | ⟨f, hf, -, h⟩
                  · cases h
                  · cases h
                  · exact hc.inside f hf event' h fun h => hpoint (congrArg some h)
            refine hc.called hobeys ?_ hexec.frames (fun _ => hrun.trans hrunning)
              fun f hf event hevent hne => hrun.trans hrunning
            rw [hrun, hlog]
            exact hlogged.inner hrunning hevent
  · refine hc.still hobeys ?_ fun f hf => Or.inl (hidle.frames f hf)
    rcases hidle.world with h | ⟨e, -, h⟩
    · rw [h]
      exact .rfl
    · exact still_of_stirred (stimulate_stirred h)

end Step

/--
Whatever starting, stopping, restarting and asynchronous transfers interleave to, the
callbacks of a server invoked so far are a prefix of a word of the protocol.
-/
theorem server_callbacks_follow_protocol (net : Net) {s₀ : Server} (hs₀ : Constructed net s₀)
    (ms : List (Move Call Pending Stimulus))
    (hms : ∀ m ∈ ms, m.Admitted AsyncCall fun _ => True)
    (hserial : ∀ t ∈ (system net).trace (.initial s₀) ms, serialised t.pre t.move = true) :
    ∀ c ∈ (system net).states (.initial s₀) ms,
      ∃ word ∈ serverSessions.words, c.world.log <+: word := by
  intro c hc
  obtain ⟨endpoint, own, rfl, -⟩ := hs₀.fresh
  have hinitial : Conforms (.initial (.fresh endpoint own)) :=
    ⟨SessionProtocol.logged_nil, by simp [Config.frames, Config.initial],
      by simp [Config.frames, Config.initial], by simp [Config.frames, Config.initial]⟩
  have hconforms := Steps.states_invariant
    (P := fun t => t.move.Admitted AsyncCall (fun _ => True) ∧ serialised t.pre t.move = true)
    (fun t hpre hstep hok => hpre.step hok.1 hok.2 hstep) hinitial
    (fun t ht => ⟨hms _ (Steps.trace_move_mem t ht), hserial t ht⟩) c hc
  exact hconforms.logged.isPrefix

theorem server_callbacks_follow_protocol_rejected :
    ∃ c, (system .loopback).run (.initial (ofPort 5000 .ipv4))
        [.call .start none, .call .start none, .handler (.posted 0 (.clean 4)), .resume 2,
          .handler (.posted 0 (.clean 4)), .call (.setupSendBufferLimit 1) none,
          .call (.sendAsync none (.bytes [1, 2])) none, .call .stop (some 5), .resume 5,
          .resume 5, .handler (.posted 0 (.clean 4)), .call .start (some 6), .resume 6,
          .handler (.posted 0 (.clean 4))] = some c ∧
      c.world.log = [.onStarted, .onError .noBufferSpace, .onSent default 0, .onStopped,
        .onStarted] ∧
      ∃ word ∈ serverSessions.words, c.world.log <+: word := by
  refine Steps.run_and_states (server_callbacks_follow_protocol .loopback (.ofPort 5000 .ipv4) _
    ?_ ?_) ⟨_, rfl, rfl⟩
  · simp [Move.Admitted, AsyncCall]
  · exact List.all_eq_true.mp rfl

end Server

end AsioWrapper.Udp
