import AsioWrapper.Foundation.Blocking
import AsioWrapper.Udp.ErrorReports
import AsioWrapper.Udp.TimedFrame

/-!
# Blocking calls made from callbacks

`Restart` of the server waits until its stop handler has run, and a call with a
timeout until the handlers of its operation and of its timer have.  Made from
within a callback of a handler, none of them ever returns, and the peer runs no
handler again.  This is so where one thread runs the `io_service`: any other one
could run the handlers of a timed call, which go through no strand.
-/

namespace AsioWrapper.Udp

open AsioWrapper.Asio
open AsioWrapper.Foundation
open AsioWrapper.Foundation.Program

variable {δ π κ η ν : Type}

/-! ## What only handlers do -/

theorem tolerates_plain : Tolerates fun event => event.isLifecycle = false where
  sent _ _ := rfl
  received _ _ := rfl
  error _ _ := rfl

section Running

variable {P : Profile δ} {s s' : Peer δ}

private theorem running_quietly {scope : Scope} (h : Quietly P scope s s') :
    s'.running = s.running := by
  induction h with
  | refl => rfl
  | tail _ hstep ih =>
      refine Eq.trans ?_ ih
      cases hstep with
      | special h => exact P.inert_field h Peer.running
      | _ => rfl

private theorem running_effect (hannounce : P.announce.isLifecycle = true)
    (hfarewell : P.farewell.isLifecycle = true) {scope : Option Event → Scope}
    {point : Option Event} {stop : Stop Event ErrorCode}
    (hstop : CallsOnly (fun event => event.isLifecycle = false) point s stop s')
    (h : Effect P scope point s stop s') : s'.running = s.running := by
  obtain ⟨middle, hquiet, hends⟩ := h
  refine Eq.trans ?_ (running_quietly hquiet)
  cases hends with
  | returned => rfl
  | waiting => rfl
  | threw h => cases h <;> rfl
  | called h =>
      have hevent := hstop _ rfl
      cases h with
      | opened => cases hevent.symm.trans hannounce
      | closed => cases hevent.symm.trans hfarewell
      | unresolved => cases hevent.symm.trans hfarewell
      | _ => rfl

end Running

/-! ## Waiting for the handlers -/

/-- What the wait of a call is for: its session to end, or its handlers to be counted. -/
def Awaited (session : Bool) (id : Nat) (s : Peer δ) : Prop :=
  if session then s.running = true else Uncounted id s

theorem Waits.unready {report : TimedCall → List Event} {s : Peer δ} {purpose : Purpose}
    {o : Outcome (Peer δ) Event ErrorCode Unit} (h : Waits report s purpose o)
    (hs : Accounted s) :
    ∃ ready s' resume, o = .wait ready s' resume ∧ Awaited false s.issued s' ∧
      ∀ s'', Awaited false s.issued s'' → ready s'' = false := by
  cases o with
  | wait ready s' resume =>
      obtain ⟨⟨endpoint, rfl⟩, hready, -⟩ := h
      refine ⟨ready, _, resume, rfl, uncounted_startTimed hs purpose endpoint, fun s'' hs'' => ?_⟩
      have hdone : (s''.timedCall s.issued).done = 0 := Uncounted.timedCall_done hs''
      rw [hready, hdone]
      rfl
  | _ => cases h

def Outer (session : Bool) (origin : Option (Origin π)) (point : Option Event) (s : Peer δ)
    (stop : Stop Event ErrorCode) (s' : Peer δ) : Prop :=
  origin = none → session = true →
    CallsOnly (fun event => event.isLifecycle = false) point s stop s'

section Blocking

variable {S : PeerSystem δ π κ η ν} {P : Profile δ} {session : Bool} {id : Nat}

theorem awaited_known (hannounce : P.announce.isLifecycle = true)
    (hfarewell : P.farewell.isLifecycle = true) {point : Option Event} {s s' : Peer δ}
    {stop : Stop Event ErrorCode}
    (h : Known P (Outer (π := π) session) none point s stop s') (hs : Awaited session id s) :
    Awaited session id s' := by
  obtain ⟨heffect, houter⟩ := h
  cases session with
  | true => exact (running_effect hannounce hfarewell (houter rfl rfl) heffect).trans hs
  | false => exact uncounted_effect rfl heffect hs

theorem awaited_environment (hM : Modelled S P) {e : ν} {s s' : Peer δ}
    (h : S.environment e s = some s') (hs : Awaited session id s) : Awaited session id s' := by
  rcases hM.environment e s s' h with hstirred | hspecial
  · cases session with
    | true => cases hstirred <;> exact hs
    | false => exact uncounted_stirred hstirred hs
  · cases session with
    | true => exact (P.inert_field hspecial Peer.running).trans hs
    | false => exact Uncounted.of_eq hs (P.inert_field hspecial Peer.timedCalls)

end Blocking

/-! ## The server -/

namespace Server

def Call.blocks (s : Server) : Call → Bool
  | .restart => s.running
  | .sendTimed _ buffer | .receiveTimed _ buffer =>
      s.running && buffer.size != 0 && !buffer.isNull
  | _ => false

def Call.isRestart : Call → Bool
  | .restart => true
  | _ => false

theorem outer_obeys (net : Net) (session : Bool) :
    (system net).Obeys (fun _ => True) (fun _ => True)
      (Outer session : Option (Origin Handler) → _) where
  call k inside _ s := by
    exact Outcome.segments_mono (fun _ _ _ _ h _ _ => h) (fun _ _ _ _ h _ _ => h)
      ((call_invoking tolerates_plain net k).obeys s)
  handler h s origin program _ hfound := by
    refine Outcome.segments_of_forall (fun _ _ _ _ horigin => ?_) (fun _ _ _ _ horigin => ?_) _ _ _
    · cases horigin
    · cases horigin

theorem restart_waits (net : Net) {s : Server} (hrun : s.running = true) :
    ∃ resume, call net .restart s =
      .wait (fun s => !s.running)
        { s with own := { s.own with posted := s.own.posted ++ [.stop] } } resume := by
  have hstop : stop s =
      .ret true { s with own := { s.own with posted := s.own.posted ++ [.stop] } } := by
    change (if !s.running then (pure false : Code Bool) else _) s = _
    rw [if_neg (by simp [hrun])]
    rfl
  change ∃ resume, ((stop s).bind _).bind _ = _
  rw [hstop]
  exact ⟨_, rfl⟩

theorem call_waits (net : Net) {s : Server} (hs : Accounted s) {k : Call}
    (hblocks : k.blocks s = true) :
    ∃ ready s' resume, call net k s = .wait ready s' resume ∧ Awaited k.isRestart s.issued s' ∧
      ∀ s'', Awaited k.isRestart s.issued s'' → ready s'' = false := by
  cases k with
  | restart =>
      have hrun : s.running = true := hblocks
      obtain ⟨resume, hcode⟩ := restart_waits net hrun
      refine ⟨_, _, resume, hcode, hrun, fun s'' hs'' => ?_⟩
      have hrunning : s''.running = true := hs''
      simp [hrunning]
  | sendTimed endpoint buffer =>
      simp only [Call.blocks, Bool.and_eq_true, bne_iff_ne, Bool.not_eq_true'] at hblocks
      obtain ⟨⟨hrun, hsize⟩, hnull⟩ := hblocks
      exact (sendTimed_waits hrun hsize hnull).unready hs
  | receiveTimed endpoint buffer =>
      simp only [Call.blocks, Bool.and_eq_true, bne_iff_ne, Bool.not_eq_true'] at hblocks
      obtain ⟨⟨hrun, hsize⟩, hnull⟩ := hblocks
      exact (receiveTimed_waits hrun hsize hnull).unready hs
  | _ => cases hblocks

/--
Where one thread runs the `io_service`, `Restart` and the calls with a timeout never return if
they are made from within a callback of a handler: whatever else happens, the call stays where
it waits, no handler of the server ever begins again, and a server that was to be restarted
stays started.
-/
theorem nested_call_never_returns (net : Net) {s₀ : Server} (hs₀ : Constructed net s₀)
    (ms : List (Move Call Pending Stimulus)) {c c' : PeerConfig Members Handler}
    (hrun : (system net).run (.initial s₀) ms = some c) {i : Nat}
    {stack : List (Frame Server Event ErrorCode (Origin Handler))}
    (hstack : c.threads[i]? = some stack)
    (hinside : stack.any (fun f => f.origin.isSome) = true) {k : Call}
    (hblocks : k.blocks c.world = true)
    (hcall : (system net).step c (.call k (some i)) = some c') :
    ∃ f, c'.threads[i]? = some (f :: stack) ∧
      ∀ ms', ∀ d ∈ (system net).states c' ms',
        d.threads[i]? = some (f :: stack) ∧ (system net).step d (.resume i) = none ∧
        (∀ h, (system net).step d (.handler h) = none) ∧
        (k = .restart → d.world.running = true) := by
  obtain ⟨endpoint, own, rfl, -⟩ := hs₀.fresh
  have haccounted := (watched_run (modelled net) (system_timed net) endpoint own hrun).accounted
  have habove : handlersOf stack ≠ [] := by
    obtain ⟨f, hf, horigin⟩ := List.any_eq_true.mp hinside
    exact List.ne_nil_of_mem (mem_handlersOf.mpr ⟨hf, horigin⟩)
  obtain ⟨f, htop, hforever⟩ := System.blocked_forever
    ((modelled net).obeys.and (outer_obeys net k.isRestart))
    (W := Awaited k.isRestart c.world.issued)
    (fun _ _ _ _ h => awaited_known rfl rfl h)
    (fun _ _ _ h => awaited_environment (modelled net) h)
    rfl (fun m _ => admitted_all m) (Steps.run_mem_states hrun) hstack habove trivial hcall
    (fun _ => call_waits net haccounted hblocks)
  refine ⟨f, htop, fun ms' d hd => ?_⟩
  have hblocked := hforever ms' (fun m _ => admitted_all m) d hd
  refine ⟨hblocked.stack, hblocked.no_resume, hblocked.no_handler, ?_⟩
  rintro rfl
  exact hblocked.world

theorem nested_call_never_returns_onStarted :
    ∃ c c', (system .loopback).run (.initial (ofPort 5000 .ipv4))
        [.call .start none, .handler (.posted 0 (.clean 4))] = some c ∧
      c.world.running = true ∧
      (system .loopback).step c (.call .restart (some 1)) = some c' ∧
      c'.world.own.posted = [.stop] ∧
      ∀ ms', ∀ d ∈ (system .loopback).states c' ms',
        (system .loopback).step d (.resume 1) = none ∧
        (∀ h, (system .loopback).step d (.handler h) = none) ∧ d.world.running = true := by
  refine ⟨_, _, rfl, rfl, rfl, rfl, fun ms' d hd => ?_⟩
  obtain ⟨f, -, hforever⟩ := nested_call_never_returns .loopback (.ofPort 5000 .ipv4)
    [.call .start none, .handler (.posted 0 (.clean 4))] (k := .restart) (i := 1)
    rfl rfl rfl rfl rfl
  obtain ⟨-, hresume, hhandler, hrunning⟩ := hforever ms' d hd
  exact ⟨hresume, hhandler, hrunning rfl⟩

end Server

/-! ## The client -/

namespace Client

def Call.blocks (s : Client) : Call → Bool
  | .reconnectAsync => s.running
  | .sendTimed _ buffer | .receiveTimed _ buffer =>
      s.running && buffer.size != 0 && !buffer.isNull
  | _ => false

def Call.isReconnectAsync : Call → Bool
  | .reconnectAsync => true
  | _ => false

theorem outer_obeys (net : Net) (session : Bool) :
    (system net).Obeys (fun k => session = true → k.isAsynchronous = true) (fun _ => True)
      (Outer session : Option (Origin Handler) → _) where
  call k inside hk s := by
    by_cases hsession : session = true
    · have hcode := asynchronous_invoking tolerates_plain (fun _ => rfl) (fun _ => rfl) net inside
        (hk hsession)
      exact Outcome.segments_mono (fun _ _ _ _ h _ _ => h) (fun _ _ _ _ h _ _ => h)
        (hcode.obeys s)
    · exact Outcome.segments_of_forall (fun _ _ _ _ _ h => absurd h hsession)
        (fun _ _ _ _ _ h => absurd h hsession) _ _ _
  handler h s origin program _ hfound := by
    refine Outcome.segments_of_forall (fun _ _ _ _ horigin => ?_) (fun _ _ _ _ horigin => ?_) _ _ _
    · cases horigin
    · cases horigin

theorem reconnectAsync_waits (net : Net) (inside : Bool) {s : Client} (hrun : s.running = true) :
    ∃ (s' : Client) (resume : _), s'.running = true ∧
      call net inside .reconnectAsync s = .wait (fun s => !s.running) s' resume := by
  have hdisconnect : ∃ s' : Client, s'.running = true ∧ disconnectAsync s = .ret true s' := by
    change ∃ s' : Client, s'.running = true ∧
      (if !s.running then (pure false : Code Bool) else _) s = _
    rw [if_neg (by simp [hrun])]
    refine ⟨_, ?_, rfl⟩
    change (if s.socket.isOpen then s.abortOperations else s).running = true
    split
    · exact hrun
    · exact hrun
  obtain ⟨s', hrun', hdisconnect⟩ := hdisconnect
  change ∃ (s' : Client) (resume : _), s'.running = true ∧ ((disconnectAsync s).bind _).bind _ = _
  rw [hdisconnect]
  exact ⟨s', _, hrun', rfl⟩

theorem call_waits (net : Net) (inside : Bool) {s : Client} (hs : Accounted s) {k : Call}
    (hblocks : k.blocks s = true) :
    ∃ ready s' resume, call net inside k s = .wait ready s' resume ∧
      Awaited k.isReconnectAsync s.issued s' ∧
      ∀ s'', Awaited k.isReconnectAsync s.issued s'' → ready s'' = false := by
  cases k with
  | reconnectAsync =>
      obtain ⟨s', resume, hrun, hcode⟩ := reconnectAsync_waits net inside hblocks
      refine ⟨_, s', resume, hcode, hrun, fun s'' hs'' => ?_⟩
      have hrunning : s''.running = true := hs''
      simp [hrunning]
  | sendTimed endpoint buffer =>
      simp only [Call.blocks, Bool.and_eq_true, bne_iff_ne, Bool.not_eq_true'] at hblocks
      obtain ⟨⟨hrun, hsize⟩, hnull⟩ := hblocks
      exact (sendTimed_waits hrun hsize hnull).unready hs
  | receiveTimed endpoint buffer =>
      simp only [Call.blocks, Bool.and_eq_true, bne_iff_ne, Bool.not_eq_true'] at hblocks
      obtain ⟨⟨hrun, hsize⟩, hnull⟩ := hblocks
      exact (receiveTimed_waits hrun hsize hnull).unready hs
  | _ => cases hblocks

/--
Where one thread runs the `io_service`, a call with a timeout that is made from within a callback
of a handler never returns, and the client runs no handler again.  The same holds of
`ReconnectAsync` if no synchronous call has been made since a time at which no code of the client
was under way, and as long as none is made.
-/
theorem nested_call_blocks_client (net : Net) {s₀ : Client} (hs₀ : Constructed s₀)
    (before ms : List (Move Call Pending Stimulus)) {c₀ c c' : PeerConfig Members Handler}
    (hbefore : (system net).run (.initial s₀) before = some c₀) (hidle : c₀.frames = [])
    (hrun : (system net).run c₀ ms = some c) {i : Nat}
    {stack : List (Frame Client Event ErrorCode (Origin Handler))}
    (hstack : c.threads[i]? = some stack)
    (hinside : stack.any (fun f => f.origin.isSome) = true) {k : Call}
    (hblocks : k.blocks c.world = true)
    (hms : k = .reconnectAsync → ∀ m ∈ ms,
      m.Admitted (fun k => k.isAsynchronous = true) fun _ => True)
    (hcall : (system net).step c (.call k (some i)) = some c') :
    ∃ f, c'.threads[i]? = some (f :: stack) ∧
      ∀ ms', (k = .reconnectAsync → ∀ m ∈ ms',
          m.Admitted (fun k => k.isAsynchronous = true) fun _ => True) →
        ∀ d ∈ (system net).states c' ms',
          d.threads[i]? = some (f :: stack) ∧ (system net).step d (.resume i) = none ∧
          (∀ h, (system net).step d (.handler h) = none) ∧
          (k = .reconnectAsync → d.world.running = true) := by
  obtain ⟨endpoint, own, rfl, -⟩ := hs₀.fresh
  have haccounted := (watched_run (modelled net) (system_timed net) endpoint own
    ((Steps.run_append hbefore).trans hrun)).accounted
  have habove : handlersOf stack ≠ [] := by
    obtain ⟨f, hf, horigin⟩ := List.any_eq_true.mp hinside
    exact List.ne_nil_of_mem (mem_handlersOf.mpr ⟨hf, horigin⟩)
  have hsession : k.isReconnectAsync = true → k = .reconnectAsync := by
    cases k with
    | reconnectAsync => exact fun _ => rfl
    | _ => exact fun h => (by cases h)
  have hadmitted {ms : List (Move Call Pending Stimulus)}
      (h : k = .reconnectAsync → ∀ m ∈ ms,
        m.Admitted (fun k => k.isAsynchronous = true) fun _ => True) :
      ∀ m ∈ ms, m.Admitted (fun k' => k.isReconnectAsync = true → k'.isAsynchronous = true)
        fun _ => True := by
    intro m hm
    cases m with
    | call k' thread => exact fun hk => h (hsession hk) _ hm
    | _ => trivial
  obtain ⟨f, htop, hforever⟩ := System.blocked_forever
    (((modelled net).obeys.restrict fun _ _ => trivial).and (outer_obeys net k.isReconnectAsync))
    (W := Awaited k.isReconnectAsync c.world.issued)
    (fun _ _ _ _ h => awaited_known rfl rfl h)
    (fun _ _ _ h => awaited_environment (modelled net) h)
    hidle (hadmitted hms) (Steps.run_mem_states hrun) hstack habove
    (fun hk => by rw [hsession hk]; rfl) hcall
    (fun inside => call_waits net inside haccounted hblocks)
  refine ⟨f, htop, fun ms' hms' d hd => ?_⟩
  have hblocked := hforever ms' (hadmitted hms') d hd
  refine ⟨hblocked.stack, hblocked.no_resume, hblocked.no_handler, ?_⟩
  rintro rfl
  exact hblocked.world

def received : List (Move Call Pending Stimulus) :=
  [.call .receiveAsync none, .environment (.socket (.complete 0 ⟨.success, 4, default⟩)),
    .handler (.completion 0)]

theorem nested_call_blocks_client_onReceived :
    ∃ c₀ c c', (system .loopback).run (.initial (ofAddressPort "127.0.0.1" 5000))
        [.call (.connect (.clean 4)) none, .resume 0] = some c₀ ∧ c₀.frames = [] ∧
      (system .loopback).run c₀ received = some c ∧ c.world.running = true ∧
      (system .loopback).step c (.call .reconnectAsync (some 2)) = some c' ∧
      c'.world.own.posted = [.disconnect 1] ∧
      ∀ ms', (∀ m ∈ ms', m.Admitted (fun k => k.isAsynchronous = true) fun _ => True) →
        ∀ d ∈ (system .loopback).states c' ms',
          (system .loopback).step d (.resume 2) = none ∧
          (∀ h, (system .loopback).step d (.handler h) = none) ∧ d.world.running = true := by
  refine ⟨_, _, _, rfl, rfl, rfl, rfl, rfl, rfl, fun ms' hms' d hd => ?_⟩
  obtain ⟨f, -, hforever⟩ := nested_call_blocks_client .loopback
    (.ofAddressPort "127.0.0.1" 5000) [.call (.connect (.clean 4)) none, .resume 0] received
    (k := .reconnectAsync) (i := 2) rfl rfl rfl rfl rfl rfl
    (fun _ => by simp [received, Move.Admitted, Call.isAsynchronous]) rfl
  obtain ⟨-, hresume, hhandler, hrunning⟩ := hforever ms' (fun _ => hms') d hd
  exact ⟨hresume, hhandler, hrunning rfl⟩

end Client

end AsioWrapper.Udp
