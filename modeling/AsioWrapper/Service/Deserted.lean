import AsioWrapper.Service.Joining
import AsioWrapper.Service.Refinement

/-!
# A service that nobody serves

A handler that throws ends the thread that runs it.  Once the last thread of the
first `io_service` has ended the stop handler is never run, so that `Stop` and
`Restart` wait for ever and the service stays started.  A server whose socket
cannot be opened or bound throws from its start handler.
-/

namespace AsioWrapper.Service

open AsioWrapper.Asio
open AsioWrapper.Foundation
open AsioWrapper.Foundation.Program
open AsioWrapper.Udp
open State

variable {m n : Nat} [NeZero m] {s s' : State m n} {i : Fin n}

def Worker.departed : Worker → Bool
  | absent | left | exited => true
  | _ => false

def Caller.ending : Caller → Bool
  | idle _ | start _ | stop _ | postingStop _ | joining _ _ | awaitingStop _ => true
  | _ => false

/-- The service is started, and nobody serves its first `io_service`. -/
structure Deserted (s : State m n) : Prop where
  started : s.started = true
  unserved : ∀ i, home i = (0 : Fin m) → (s.threads i).departed = true
  ending : s.caller.ending = true

theorem Worker.errand_of_departed {w : Worker} (h : w.departed = true) : w.errand = none := by
  cases w with
  | absent => rfl
  | left => rfl
  | exited => rfl
  | _ => cases h

theorem Works.departed (h : Works s i s') (hi : (s.threads i).departed = true) :
    (s'.threads i).departed = true := by
  cases h with
  | exit h => rw [setThread_self]; rfl
  | _ => simp_all [Worker.departed]

theorem Deserted.works (hs : Deserted s) (ho : Orderly s) (h : Works s i s') : Deserted s' := by
  refine ⟨?_, fun k hk => ?_, ?_⟩
  · rcases ho.works_cases h with hshifts | ⟨p, strand, handler, -, -, rfl⟩ |
      ⟨p, strand, job, job', task, hthread, herrand, -, rfl⟩
    · exact hshifts.started.trans hs.started
    · exact hs.started
    · have hrunning : (s.threads i).errand = some task := by
        rw [hthread]
        exact herrand
      have hnone := Worker.errand_of_departed (hs.unserved i (ho.errand i task hrunning).1)
      cases hnone.symm.trans hrunning
  · by_cases hki : k = i
    · subst hki
      exact h.departed (hs.unserved k hk)
    · rw [h.others hki]
      exact hs.unserved k hk
  · rw [h.caller_eq]
    exact hs.ending

theorem Deserted.calls (hs : Deserted s) (h : Calls s s') :
    Deserted s' ∧ s'.caller ≠ .idle (some true) := by
  have hstarted := hs.started
  have hending := hs.ending
  cases h with
  | join h hk hexited =>
      refine ⟨⟨hstarted, fun k hhome => ?_, rfl⟩, by simp⟩
      change ((s.setThread _ _).threads k).departed = true
      by_cases hki : k = ⟨_, hk⟩
      · rw [hki, setThread_self]
        rfl
      · rw [setThread_of_ne hki]
        exact hs.unserved k hhome
  | alreadyStarted | accept | joined =>
      exact ⟨⟨hstarted, hs.unserved, rfl⟩, by simp⟩
  | postStop => exact ⟨⟨hstarted, hs.unserved, rfl⟩, by simp⟩
  | _ => simp_all [Caller.ending]

theorem Deserted.step (hs : Deserted s) (ho : Orderly s) {move : Move m n}
    (h : Service.step s move = some s') : Deserted s' := by
  cases step_changes h with
  | start hidle => exact ⟨hs.started, hs.unserved, rfl⟩
  | stop hidle hcall => exact ⟨hs.started, hs.unserved, rfl⟩
  | caller hcalls => exact (hs.calls hcalls).1
  | worker hworks => exact hs.works ho hworks
  | submit hmove hsubmits =>
      exact ⟨hsubmits.started.trans hs.started, hsubmits.threads ▸ hs.unserved,
        hsubmits.caller ▸ hs.ending⟩

/-! ## A start handler that throws -/

section Throwing

variable {δ : Type} {answers : SocketAnswers} {log : List Event}

def Unstarted (log : List Event) (s : Peer δ) : Prop := s.running = false ∧ s.log = log

abbrev UnstartedByThrow {α : Type} (log : List Event) (A : Peer δ → Prop) (m : Proc δ α)
    (B : α → Peer δ → Prop) : Prop :=
  Triple (fun _ _ stop finish => ∀ ec, stop = .threw ec → Unstarted log finish)
    (fun _ _ _ => True) A m B

private theorem attempt_throws (call : SocketCall) (ec : ErrorCode) {effect : Peer δ → Peer δ}
    (heffect : ∀ s, Unstarted log s → Unstarted log (effect s)) :
    UnstartedByThrow log (Unstarted log) (attempt call ec effect) (fun _ => Unstarted log) := by
  intro point start s _ hs
  rw [attempt_segments]
  split
  · exact fun _ _ => hs
  · exact ⟨trivial, heffect s hs⟩

private theorem whenever_throws {c : Bool} {m : Proc δ Unit} {A : Peer δ → Prop}
    (hm : UnstartedByThrow log A m fun _ => A) :
    UnstartedByThrow log A (whenever c m) fun _ => A :=
  Triple.ite (fun _ => hm) fun _ _ _ _ _ hs => ⟨trivial, hs⟩

private theorem openSession_throws (bindTo : Peer δ → Asio.Endpoint) (announce : Event) :
    UnstartedByThrow log (Unstarted log) (openSession answers bindTo announce)
      (fun _ _ => True) := by
  refine Triple.state fun s => Triple.weaken ?_ (fun s' h => h.1 ▸ h.2) fun _ _ h => h
  refine Triple.bind (attempt_throws _ _ fun _ h => h) fun _ => ?_
  refine Triple.bind (whenever_throws (attempt_throws _ _ fun _ h => h)) fun _ => ?_
  refine Triple.bind (whenever_throws (attempt_throws _ _ fun _ h => h)) fun _ => ?_
  refine Triple.bind (attempt_throws _ _ fun _ h => h) fun _ => ?_
  refine Triple.bind (attempt_throws _ _ fun _ h => h) fun _ => ?_
  intro point start s _ _
  rw [segments_bind, segments_update, Udp.fire, segments_bind, segments_update,
    segments_callback]
  exact ⟨fun _ h => (by cases h), fun _ => ⟨trivial, trivial⟩⟩

private theorem postedHandler_throws (handler : Server.Handler) :
    UnstartedByThrow log (fun s => s.log = log) (Server.postedHandler answers handler)
      fun _ _ => True := by
  cases handler with
  | start =>
      refine Triple.state fun s => Triple.ite (fun _ => Triple.pure ()) fun hrun => ?_
      refine (openSession_throws (fun s => s.endpoint) .onStarted).weaken ?_ fun _ _ h => h
      rintro s' ⟨rfl, hlog⟩
      exact ⟨by simpa using hrun, hlog⟩
  | stop =>
      refine Triple.state fun s => Triple.ite (fun _ => Triple.pure ()) fun _ => ?_
      intro point start s' _ _
      simp only [Udp.fire, segments_bind, segments_update, segments_callback]
      exact ⟨fun _ h => (by cases h), fun _ => ⟨trivial, trivial⟩⟩

private theorem perform_throws {handler : Server.Handler} {s : Server} {ec : ErrorCode}
    (herror : (perform answers handler s).error = some ec) :
    Unstarted s.log (perform answers handler s).final :=
  Outcome.error_of_segments
    (postedHandler_throws handler none s (unposted handler s) trivial rfl) herror

end Throwing

/-! ## The server and its service -/

namespace Hosted

variable {h h' : Hosted m n} {log : List Event}

structure Stranded (log : List Event) (h : Hosted m n) : Prop where
  orderly : Orderly h.service
  deserted : Deserted h.service
  place : h.endpoint.service = 0
  jobs : ∀ k, h.jobs k = none
  server : Unstarted log h.server

theorem Stranded.service (hs : Stranded log h) {move : HostedMove m n}
    (hstep : h.step move = some h') :
    Orderly h'.service ∧ Deserted h'.service ∧ h'.endpoint.service = 0 := by
  obtain ⟨hendpoint, hservice⟩ := step_service hstep
  rw [hendpoint]
  rcases hservice with hsame | ⟨move, hmove⟩
  · rw [hsame]
    exact ⟨hs.orderly, hs.deserted, hs.place⟩
  · exact ⟨hs.orderly.step hmove, hs.deserted.step hs.orderly hmove, hs.place⟩

theorem Stranded.attends (hs : Stranded log h) {move : Move m n} {answers : SocketAnswers}
    (hstep : Service.step h.service move = some s) (hattend : h.attend s answers move = some h') :
    (∀ k, h'.jobs k = none) ∧ h'.server = h.server := by
  unfold attend at hattend
  split at hattend
  · rename_i thread strand
    obtain ⟨p, handler, hthread, -⟩ := workerStep_take hstep
    split at hattend
    · rename_i hhome
      rw [Bool.and_eq_true, decide_eq_true_eq, hs.place] at hhome
      have hdeparted := hs.deserted.unserved thread hhome.2
      rw [hthread] at hdeparted
      cases hdeparted
    · cases hattend
      exact ⟨hs.jobs, rfl⟩
  · rename_i thread turn _
    rw [hs.jobs thread] at hattend
    cases hattend
    exact ⟨hs.jobs, rfl⟩
  · cases hattend
    exact ⟨hs.jobs, rfl⟩

theorem Stranded.step (hs : Stranded log h) {move : HostedMove m n}
    (hstep : h.step move = some h') : Stranded log h' := by
  obtain ⟨horderly, hdeserted, hplace⟩ := hs.service hstep
  cases move with
  | call handler =>
      rcases step_call hstep with rfl | ⟨-, rfl⟩
      · exact hs
      · exact ⟨horderly, hdeserted, hplace, hs.jobs, hs.server⟩
  | service move answers =>
      obtain ⟨s, hmove, hattend⟩ := Option.bind_eq_some_iff.mp hstep
      obtain ⟨hjobs, hserver⟩ := hs.attends hmove hattend
      exact ⟨horderly, hdeserted, hplace, hjobs, hserver ▸ hs.server⟩

theorem Stranded.waits (hs : Stranded log h) {answers : SocketAnswers}
    (hstep : h.step (.service .caller answers) = some h') :
    h'.service.caller ≠ .idle (some true) := by
  obtain ⟨s, hmove, hattend⟩ := Option.bind_eq_some_iff.mp hstep
  rw [(attend_service hattend).1]
  exact (hs.deserted.calls (callerStep_calls hmove)).2

private theorem stranded_of_throw (hsole : ∀ k : Fin n, home k = (0 : Fin m) ↔ k = i)
    (hplace : h.endpoint.service = 0) (hr : Regular i h) (hready : h.Ready)
    {answers : SocketAnswers} {handler : Server.Handler} {ec : ErrorCode} {turn : Turn}
    (hjob : h.jobs i = some handler) (herror : (perform answers handler h.server).error = some ec)
    (hec : ec ≠ .notConnected) (hstep : h.step (.service (.worker i turn) answers) = some h') :
    Stranded h.server.log h' := by
  have ha := hr.aligned hready.attached
  obtain ⟨returned, hidle⟩ := hready.idle
  obtain ⟨-, p, strand, hthread⟩ := ha.job i handler hjob
  obtain ⟨s, hmove, hattend⟩ := Option.bind_eq_some_iff.mp hstep
  obtain ⟨rfl, rfl⟩ : turn = .throw (.system ec) ∧ h' = { h with
      service := s
      jobs := Function.update h.jobs i none
      server := (perform answers handler h.server).final } := by
    cases turn with
    | take strand' =>
        obtain ⟨p', -, hserving, -⟩ := workerStep_take hmove
        cases hthread.symm.trans hserving
    | advance => simp [attend, hjob, herror] at hattend
    | throw failure =>
        simp only [attend, hjob, herror, Option.all_some, decide_eq_true_eq] at hattend
        split at hattend
        · cases hattend
          exact ⟨‹_›, rfl⟩
        · cases hattend
  have hleft : s = { h.service.leave i with thrown := true } := by
    simp only [Service.step, workerStep, hthread, Job.throws, if_true, catchStep, if_neg hec,
      Option.some.injEq] at hmove
    exact hmove.symm
  refine ⟨hr.orderly.step hmove, ⟨?_, fun k hk => ?_, ?_⟩, hplace, fun k => ?_,
    perform_throws herror⟩
  · rw [hleft]
    exact (leave_field State.started fun _ _ => rfl).trans hready.started
  · obtain rfl := (hsole k).mp hk
    rw [hleft]
    change ((h.service.leave k).threads k).departed = true
    rw [leave_threads, setThread_self]
    rfl
  · have hcaller : (h.service.leave i).caller = h.service.caller :=
      leave_field State.caller fun _ _ => rfl
    rw [hleft]
    change (h.service.leave i).caller.ending = true
    rw [hcaller, hidle]
    rfl
  · by_cases hki : k = i
    · subst hki
      exact Function.update_self ..
    · refine (Function.update_of_ne hki _ _).trans ?_
      by_contra hsome
      obtain ⟨other, hother⟩ := Option.ne_none_iff_exists'.mp hsome
      exact hki ((hsole k).mp (ha.job k other hother).1)

end Hosted

/--
A server whose start handler throws on the only thread of the first `io_service` takes the
service with it: neither `Stop` nor `Restart` of the service ever returns, the service stays
started, and no handler of the server runs again.
-/
theorem failed_start_strands_service {threads : Nat} {pool : Bool} (hthreads : 1 ≤ threads)
    (hsole : threads = 1 ∨ pool = false)
    {s : State (serviceCount threads pool) threads} {before : List (Move _ threads)}
    (hs : Steps.run step (ofThreads threads pool) before = some s)
    (hplace : (getAsioService s).1 = 0) (server : Server)
    {h : Hosted (serviceCount threads pool) threads} {ms : List (HostedMove _ threads)}
    (hrun : Steps.run Hosted.step (.construct s server) ms = some h) (hready : h.Ready)
    {i : Fin threads} (hjob : h.jobs i = some .start) {answers : SocketAnswers} {ec : ErrorCode}
    (herror : (perform answers .start h.server).error = some ec) (hec : ec ≠ .notConnected)
    {h' : Hosted (serviceCount threads pool) threads} {turn : Turn}
    (hstep : h.step (.service (.worker i turn) answers) = some h')
    (ms' : List (HostedMove _ threads)) :
    (∀ h'' ∈ Steps.states Hosted.step h' ms', h''.service.started = true ∧
      h''.server.running = false ∧ h''.server.log = h.server.log) ∧
      ∀ t ∈ Steps.trace Hosted.step h' ms', ∀ answers, t.move = .service .caller answers →
        t.post.service.caller ≠ .idle (some true) := by
  have hhome : ∀ k : Fin threads,
      home k = (0 : Fin (serviceCount threads pool)) ↔ k = ⟨0, hthreads⟩ :=
    sole_thread hthreads hsole
  obtain ⟨hfirst, hr⟩ := Hosted.regular_run (orderly_run hs) server hhome hplace hrun
  obtain rfl := (hhome i).mp ((hr.aligned hready.attached).job i .start hjob).1
  have hstranded := Hosted.stranded_of_throw hhome hfirst hr hready hjob herror hec hstep
  constructor
  · intro h'' hh''
    have hlast := Steps.states_invariant (f := Hosted.step)
      (I := Hosted.Stranded h.server.log) (P := fun _ => True)
      (fun _ hpre hstep _ => hpre.step hstep) hstranded (fun _ _ => trivial) h'' hh''
    exact ⟨hlast.deserted.started, hlast.server⟩
  · intro t ht answers hmove
    obtain ⟨hpre, hnext, -⟩ := Steps.trace_invariant (f := Hosted.step)
      (I := Hosted.Stranded h.server.log) (P := fun _ => True)
      (fun _ hpre hstep _ => hpre.step hstep) hstranded (fun _ _ => trivial) t ht
    rw [hmove] at hnext
    exact hpre.waits hnext

def bindRefused : SocketAnswers := { SocketAnswers.clean 65536 with binding := .addressInUse }

def stopInVain : List (Move 1 1) :=
  [.call .stop, .caller, .caller, .worker onlyThread .advance, .caller, .caller]

theorem failed_start_strands_service_bind :
    ∃ s, Steps.run step (ofThreads 1 false) startOne = some s ∧
      ∃ h, Steps.run Hosted.step (.construct s hostedServer)
          (.call .start :: serviced [.worker onlyThread (.take none)]) = some h ∧
        ∃ h', h.step (.service (.worker onlyThread (.throw (.system .addressInUse))) bindRefused) =
            some h' ∧
          (∃ h'', Steps.run Hosted.step h' (serviced stopInVain) = some h'' ∧
            h''.service.caller = .awaitingStop none) ∧
          (∀ h'' ∈ Steps.states Hosted.step h' (serviced stopInVain),
            h''.service.started = true ∧ h''.server.running = false ∧
              h''.server.log = h.server.log) ∧
          ∀ t ∈ Steps.trace Hosted.step h' (serviced stopInVain), ∀ answers,
            t.move = .service .caller answers → t.post.service.caller ≠ .idle (some true) := by
  obtain ⟨s, hs, hplace, h, hrun, hready, hjob, herror, h', hstep, hwaits⟩ :
      ∃ s, Steps.run step (ofThreads 1 false) startOne = some s ∧ (getAsioService s).1 = 0 ∧
        ∃ h, Steps.run Hosted.step (.construct s hostedServer)
            (.call .start :: serviced [.worker onlyThread (.take none)]) = some h ∧ h.Ready ∧
          h.jobs onlyThread = some .start ∧
          (perform bindRefused .start h.server).error = some .addressInUse ∧
          ∃ h', h.step (.service (.worker onlyThread (.throw (.system .addressInUse)))
              bindRefused) = some h' ∧
            ∃ h'', Steps.run Hosted.step h' (serviced stopInVain) = some h'' ∧
              h''.service.caller = .awaitingStop none :=
    ⟨_, rfl, rfl, _, rfl, ⟨⟨_, rfl⟩, rfl, rfl⟩, rfl, rfl, _, rfl, _, rfl, rfl⟩
  exact ⟨s, hs, h, hrun, h', hstep, hwaits, failed_start_strands_service (by decide) (Or.inl rfl)
    hs hplace hostedServer hrun hready hjob herror (by decide) hstep _⟩

end AsioWrapper.Service
