import AsioWrapper.Service.Attendance

/-!
# Workers stay in their loops while the service runs

A worker that waits in `run` cannot leave before its `io_service` is stopped.  A
polling worker looks at the flag after its first `poll`, and the start handler
that sets it runs in one worker only: any other one may be faster and leave.
-/

namespace AsioWrapper.Service

open AsioWrapper.Asio
open AsioWrapper.Foundation
open State

variable {m n : Nat} {s s' : State m n} {i : Fin n}

def Worker.gone : Worker → Bool
  | left | exited => true
  | _ => false

def Caller.hasJoined : Caller → Bool
  | joining (_ + 1) _ | awaitingStop _ => true
  | _ => false

structure InLoop (s : State m n) : Prop where
  threads : ∀ i, (s.threads i).gone = false
  unjoined : s.caller.hasJoined = false

structure Whole (s : State m n) : Prop where
  services : ∀ j, (s.services j).stopped = false
  inLoop : InLoop s

/-- The configurations in which the workers wait for one another. -/
def Robust (s : State m n) : Prop := s.polling = false ∨ n = 1

theorem whole_ofThreads (threads : Nat) (pool : Bool) : Whole (ofThreads threads pool) where
  services _ := rfl
  inLoop := ⟨fun _ => rfl, rfl⟩

theorem Whole.setThread (hs : Whole s) {w : Worker} (hw : w.gone = false) :
    Whole (s.setThread i w) := by
  refine ⟨hs.services, fun k => ?_, hs.inLoop.unjoined⟩
  by_cases hk : k = i
  · subst hk
    rw [setThread_self]
    exact hw
  · rw [setThread_of_ne hk]
    exact hs.inLoop.threads k

theorem Whole.modifyService {j : Fin m} {f : IoService Task → IoService Task}
    (hs : Whole s) (hf : ∀ io, (f io).stopped = io.stopped) : Whole (s.modifyService j f) where
  services k := (modifyService_stopped hf k).trans (hs.services k)
  inLoop := ⟨hs.inLoop.threads, hs.inLoop.unjoined⟩

theorem Whole.proceed (hs : Whole s) {c : Caller} {p : Bool} {index : Nat}
    (hc : c.hasJoined = false) :
    Whole { s with polling := p, roundRobinIndex := index, caller := c } where
  services := hs.services
  inLoop := ⟨hs.inLoop.threads, hc⟩

variable [NeZero m]

private theorem not_robust_of_quit (hs : Served s) (hthrown : s.thrown = false)
    (hlive : s.halted = false) {p : Bool} (h : s.threads i = .checking p)
    (hstarted : s.started = false) : ¬Robust s := by
  have ha := hs.attended hthrown
  have hpolling : s.polling = true :=
    (hs.orderly.mode i p (by rw [h]; rfl)).symm.trans (ha.polled i p h)
  rintro (hwaiting | rfl)
  · cases hpolling.symm.trans hwaiting
  · have hpresent := hs.orderly.present i (by simp [h])
    obtain ⟨k, -, hstays⟩ := ha.manned (Caller.manned_of_admits hpresent) hlive
    obtain rfl : k = i := Subsingleton.elim k i
    simp [h, hstarted, Worker.stays] at hstays

private theorem whole_works (hs : Served s) (hthrown : s'.thrown = false) (hrobust : Robust s')
    (hwhole : Robust s → s.halted = false → Whole s) (h : Works s i s')
    (hlive : s'.halted = false) : Whole s' := by
  have hh' := hs.halting.works hs.orderly h
  cases h with
  | readMode h => exact (hwhole hrobust hlive).setThread rfl
  | enter h => exact (hwhole hrobust hlive).setThread rfl
  | @take p strand handler h hlive' hfront =>
      have hkept : (s.modifyService (home i) (.pop strand)).halted = s.halted :=
        modifyService_stopped (f := .pop strand) (fun _ => rfl) 0
      have hpopped : Whole (s.modifyService (home i) (.pop strand)) :=
        (hwhole hrobust (hkept ▸ hlive)).modifyService fun _ => rfl
      exact hpopped.setThread rfl
  | polled h hready => exact (hwhole hrobust hlive).setThread rfl
  | ran h hstopped =>
      have hbefore := not_halted_of_leave hlive
      rw [Robust, leave_polling] at hrobust
      cases hstopped.symm.trans ((hwhole hrobust hbefore).services (home i))
  | @announce p strand h hstarted =>
      have hnext :=
        (hwhole hrobust hlive).setThread (i := i) (w := .running p strand .onStarted) rfl
      exact ⟨hnext.services, hnext.inLoop.threads, hnext.inLoop.unjoined⟩
  | halt h hstarted => exact (hwhole hrobust hlive).setThread rfl
  | @stopOne p strand k h hk =>
      have hhalted := hh'.stopping i p strand k (by rw [modifyService_threads, setThread_self])
      cases hlive.symm.trans hhalted
  | @halted p strand k h hk =>
      have hnext :=
        (hwhole hrobust hlive).setThread (i := i) (w := .running p strand .onStopped) rfl
      exact ⟨hnext.services, hnext.inLoop.threads, hnext.inLoop.unjoined⟩
  | finish h hjob => exact (hwhole hrobust hlive).setThread rfl
  | again h hstarted => exact (hwhole hrobust hlive).setThread rfl
  | quit h hstarted =>
      have hbefore := not_halted_of_leave hlive
      rw [Robust, leave_polling] at hrobust
      rw [leave_thrown] at hthrown
      exact absurd hrobust (not_robust_of_quit hs hthrown hbefore h hstarted)
  | retry h hjob => cases hthrown
  | fail h hjob => cases hthrown
  | exit h =>
      have hgone := (hwhole hrobust hlive).inLoop.threads i
      rw [h] at hgone
      cases hgone

private theorem whole_calls (hs : Served s) (ha : Attended s') (hrobust : Robust s')
    (hwhole : Robust s → s.halted = false → Whole s) (h : Calls s s')
    (hlive : s'.halted = false) : Whole s' := by
  have hposted {task : Task} (hlive : (s.post task).halted = false) (hrobust : Robust s) :
      Whole (s.post task) := by
    have hkept : (s.post task).halted = s.halted :=
      modifyService_stopped (f := .post ⟨s.strand, task⟩) (fun _ => rfl) 0
    exact (hwhole hrobust (hkept ▸ hlive)).modifyService fun _ => rfl
  cases h with
  | alreadyStarted h hstarted => exact (hwhole hrobust hlive).proceed rfl
  | prepare h hstarted =>
      have hpolling := hs.orderly.resting (by simp [h, Caller.resting]) hstarted
      exact (hwhole (Or.inl hpolling) hlive).proceed rfl
  | post h => exact (hposted hlive hrobust).proceed rfl
  | spawn h hk =>
      have hnext := (hwhole hrobust hlive).setThread (i := ⟨_, hk⟩) (w := .created) rfl
      exact hnext.proceed rfl
  | spawned h hk => exact (hwhole hrobust hlive).proceed rfl
  | started h hstarted => exact (hwhole hrobust hlive).proceed rfl
  | notStarted h hstarted => exact (hwhole hrobust hlive).proceed rfl
  | accept h hstarted => exact (hwhole hrobust hlive).proceed rfl
  | postStop h => exact (hposted hlive hrobust).proceed rfl
  | join h hk hexited =>
      have hgone := (hwhole hrobust hlive).inLoop.threads ⟨_, hk⟩
      rw [hexited] at hgone
      cases hgone
  | joined h hk => cases hlive.symm.trans (ha.joined _ rfl)
  | stopped h hstarted => exact (hwhole hrobust hlive).proceed rfl
  | renew h hstarted => exact (hwhole hrobust hlive).proceed rfl
  | renewed h =>
      have hnone : ∀ i, s.threads i = .absent := fun i =>
        hs.orderly.absent (by simp [h, Caller.admits])
      refine ⟨fun _ => rfl, fun i => ?_, rfl⟩
      change (s.threads i).gone = false
      rw [hnone i]
      rfl

theorem whole_step (hs : Served s) (hn : 0 < n) (hthrown : s'.thrown = false)
    (hrobust : Robust s') (hwhole : Robust s → s.halted = false → Whole s) {move : Move m n}
    (h : step s move = some s') (hlive : s'.halted = false) : Whole s' := by
  have ha := (hs.step hn h).attended hthrown
  cases step_changes h with
  | start hidle => exact (hwhole hrobust hlive).proceed rfl
  | stop hidle hcall => exact (hwhole hrobust hlive).proceed rfl
  | caller h => exact whole_calls hs ha hrobust hwhole h hlive
  | worker h => exact whole_works hs hthrown hrobust hwhole h hlive
  | submit hmove h =>
      rw [Robust, h.polling] at hrobust
      rw [State.halted, h.stopped] at hlive
      have hbefore := hwhole hrobust hlive
      refine ⟨fun j => (h.stopped j).trans (hbefore.services j), ?_, ?_⟩
      · rw [h.threads]
        exact hbefore.inLoop.threads
      · rw [h.caller]
        exact hbefore.inLoop.unjoined

structure Staffed (s : State m n) : Prop where
  served : Served s
  whole : s.thrown = false → Robust s → s.halted = false → Whole s

theorem staffed_ofThreads (threads : Nat) (pool : Bool) : Staffed (ofThreads threads pool) where
  served := served_ofThreads threads pool
  whole _ _ _ := whole_ofThreads threads pool

theorem Staffed.step (hs : Staffed s) (hn : 0 < n) {move : Move m n}
    (h : step s move = some s') : Staffed s' where
  served := hs.served.step hn h
  whole hthrown hrobust :=
    whole_step hs.served hn hthrown hrobust (hs.whole (thrown_step h hthrown)) h

private theorem halted_of_started (hs : Served s) (hthrown : s.thrown = false)
    (hstarted : s.started = true)
    (hstopping : ∀ i p strand k, s.threads i ≠ .running p strand (.stopping k)) :
    s.halted = false := by
  by_contra hhalted
  rw [Bool.not_eq_false] at hhalted
  obtain ⟨i, p, strand, k, h⟩ := (hs.attended hthrown).halting hstarted hhalted
  exact hstopping i p strand k h

theorem Staffed.whole_of_started (hs : Staffed s) (hthrown : s.thrown = false)
    (hrobust : Robust s) (hstarted : s.started = true)
    (hstopping : ∀ i p strand k, s.threads i ≠ .running p strand (.stopping k)) : Whole s :=
  hs.whole hthrown hrobust (halted_of_started hs.served hthrown hstarted hstopping)

/-! ## A worker that is too fast -/

private theorem busy_of_not_running (h : ∀ i p strand job, s.threads i ≠ .running p strand job)
    (j : Fin m) (strand : Option Nat) : s.busy j strand = false := by
  simp only [State.busy, decide_eq_false_iff_not, not_exists, not_and]
  intro i _
  cases hthread : s.threads i with
  | running p held job => exact absurd hthread (h i p held job)
  | _ => simp [Worker.occupies]

/-- While the first thread has taken the start handler, the second one polls in vain and
leaves; then the handler sets the flag. -/
def overtake (first second : Fin n) (strand : Option Nat) : List (Move m n) :=
  [.worker first (.take strand), .worker second .advance, .worker second .advance,
    .worker second .advance, .worker second .advance, .worker first .advance]

theorem overtake_run (first second : Fin n) {strand : Option Nat} (hne : second ≠ first)
    (hfirst : s.threads first = .serving true) (hsecond : s.threads second = .created)
    (hpolling : s.polling = true) (hstarted : s.started = false)
    (hlive : (s.services (home first)).stopped = false)
    (hbusy : s.busy (home first) strand = false)
    (hfront : (s.services (home first)).front strand = some ⟨strand, .start⟩)
    (hempty : ((s.modifyService (home first) (.pop strand)).services (home second)).queue = []) :
    ∃ s', Steps.run step s (overtake first second strand) = some s' ∧
      s'.polling = true ∧ s'.started = true ∧ s'.thrown = s.thrown ∧
      s'.threads first = .running true strand .onStarted ∧ s'.threads second = .left ∧
      ∀ k, k ≠ first → k ≠ second → s'.threads k = s.threads k := by
  let s₁ := (s.modifyService (home first) (.pop strand)).setThread first
    (.running true strand .start)
  let s₂ := s₁.setThread second (.initialized true)
  let s₃ := s₂.setThread second (.serving true)
  let s₄ := s₃.setThread second (.checking true)
  let s₅ := s₄.leave second
  have htake : step s (.worker first (.take strand)) = some s₁ := by
    simp [step, workerStep, hfirst, hlive, hbusy, hfront, s₁, Task.job]
  have hread : step s₁ (.worker second .advance) = some s₂ := by
    have hthread : s₁.threads second = .created := (setThread_of_ne hne).trans hsecond
    have hmode : s₁.polling = true := hpolling
    simp [step, workerStep, hthread, hmode, s₂]
  have henter : step s₂ (.worker second .advance) = some s₃ := by
    simp [step, workerStep, s₂, s₃]
  have hpoll : step s₃ (.worker second .advance) = some s₄ := by
    have hquiescent : s₃.quiescent (home second) = true := by
      change List.all ((s.modifyService (home first) (.pop strand)).services
        (home second)).queue _ = true
      rw [hempty]
      rfl
    have hthread : s₃.threads second = .serving true := setThread_self
    simp [step, workerStep, hthread, hquiescent, s₄]
  have hleave : step s₄ (.worker second .advance) = some s₅ := by
    have hthread : s₄.threads second = .checking true := setThread_self
    have hflag : s₄.started = false := hstarted
    simp [step, workerStep, hthread, hflag, s₅]
  have hkept : ∀ k, k ≠ second → s₅.threads k = s₁.threads k := by
    intro k hk
    rw [leave_threads, setThread_of_ne hk, setThread_of_ne hk, setThread_of_ne hk,
      setThread_of_ne hk]
  have hrunning : s₅.threads first = .running true strand .start :=
    (hkept first hne.symm).trans setThread_self
  have hannounce : step s₅ (.worker first .advance) =
      some { s₅.setThread first (.running true strand .onStarted) with started := true } := by
    have hflag : s₅.started = false := leave_started.trans hstarted
    simp [step, workerStep, hrunning, handlerStep, hflag]
  refine ⟨{ s₅.setThread first (.running true strand .onStarted) with started := true },
    ?_, ?_, rfl, ?_, ?_, ?_, fun k hfirst' hsecond' => ?_⟩
  · simp only [overtake, Steps.run, htake, hread, henter, hpoll, hleave, hannounce]
  · exact leave_polling.trans hpolling
  · exact leave_thrown
  · exact setThread_self
  · change (s₅.setThread first (.running true strand .onStarted)).threads second = .left
    rw [setThread_of_ne hne, leave_threads, setThread_self]
  · change (s₅.setThread first (.running true strand .onStarted)).threads k = s.threads k
    rw [setThread_of_ne hfirst', hkept k hsecond', setThread_of_ne hfirst']
    rfl

def twoThreads (first : Fin n) : List (Move m n) :=
  [.call (.start true), .caller, .caller, .caller, .caller, .worker first .advance,
    .worker first .advance]

theorem twoThreads_run (k : Nat) (pool : Bool) :
    ∃ s, Steps.run step (ofThreads (k + 2) pool) (twoThreads 0) = some s ∧
      s.threads 0 = .serving true ∧ s.threads 1 = .created ∧
      (∀ i, i ≠ 0 → i ≠ 1 → s.threads i = .absent) ∧
      s.polling = true ∧ s.started = false ∧ s.thrown = false ∧
      (s.services 0).stopped = false ∧
      (s.services 0).queue = [⟨(ofThreads (k + 2) pool).strand, .start⟩] ∧
      ∀ j, j ≠ 0 → (s.services j).queue = [] := by
  refine ⟨_, rfl, rfl, rfl, fun i hfirst hsecond => ?_, rfl, rfl, rfl, rfl, rfl, fun j hj => ?_⟩
  · change Function.update (Function.update (Function.update (Function.update
      (fun _ => Worker.absent) 0 .created) 1 .created) 0 (.initialized true)) 0
        (.serving true) i = .absent
    rw [Function.update_of_ne hfirst, Function.update_of_ne hfirst,
      Function.update_of_ne hsecond, Function.update_of_ne hfirst]
  · change (Function.update (fun _ => IoService.fresh) 0 _ j).queue = []
    rw [Function.update_of_ne hj]
    rfl

private theorem overtaken (k : Nat) (pool : Bool) :
    ∃ ms s, Steps.run step (ofThreads (k + 2) pool) ms = some s ∧ s.polling = true ∧
      s.started = true ∧ s.thrown = false ∧
      (∀ i p strand service, s.threads i ≠ .running p strand (.stopping service)) ∧
      ¬InLoop s := by
  obtain ⟨s, hrun, hfirst, hsecond, hothers, hpolling, hstarted, hthrown, hlive, hqueue, hempty⟩ :=
    twoThreads_run k pool
  have hbusy : s.busy (home (0 : Fin (k + 2))) (ofThreads (k + 2) pool).strand = false := by
    refine busy_of_not_running (fun i p strand job h => ?_) _ _
    by_cases hi : i = 0
    · subst hi
      cases hfirst.symm.trans h
    · by_cases hi' : i = 1
      · subst hi'
        cases hsecond.symm.trans h
      · cases (hothers i hi hi').symm.trans h
  have hsingle := IoService.front_of_singleton hqueue
  have hpopped : ((s.modifyService 0 (.pop (ofThreads (k + 2) pool).strand)).services
      (home (1 : Fin (k + 2)))).queue = [] := by
    rw [modifyService_services]
    by_cases hhome : home (1 : Fin (k + 2)) = (0 : Fin (serviceCount (k + 2) pool))
    · rw [hhome, Function.update_self]
      exact hsingle.2
    · rw [Function.update_of_ne hhome]
      exact hempty _ hhome
  obtain ⟨s', hrun', hpolling', hstarted', hthrown', hfirst', hsecond', hothers'⟩ :=
    overtake_run 0 1 (by simp) hfirst hsecond hpolling hstarted hlive hbusy hsingle.1 hpopped
  refine ⟨_, s', (Steps.run_append hrun).trans hrun', hpolling', hstarted',
    hthrown'.trans hthrown, fun i p strand service h => ?_, fun hloop => ?_⟩
  · by_cases hi : i = 0
    · subst hi
      cases hfirst'.symm.trans h
    · by_cases hi' : i = 1
      · subst hi'
        cases hsecond'.symm.trans h
      · cases ((hothers' i hi hi').trans (hothers i hi hi')).symm.trans h
  · have hgone := hloop.threads 1
    rw [hsecond'] at hgone
    cases hgone

/--
Once the flag is set, and until the stop handler sets to work or a handler throws, all
workers are in their loops: this holds in every run exactly if the workers do not poll or
there is only one.
-/
theorem workers_stay_iff (threads : Nat) (hthreads : 1 ≤ threads) (pool polling : Bool) :
    (∀ ms, ∀ s ∈ Steps.states step (ofThreads threads pool) ms, s.polling = polling →
      s.started = true → s.thrown = false →
      (∀ i p strand service, s.threads i ≠ .running p strand (.stopping service)) → InLoop s) ↔
    polling = false ∨ threads = 1 := by
  constructor
  · intro hstay
    by_contra hfragile
    simp only [not_or, Bool.not_eq_false] at hfragile
    obtain ⟨rfl, hone⟩ := hfragile
    obtain ⟨k, rfl⟩ : ∃ k, threads = k + 2 := ⟨threads - 2, by omega⟩
    obtain ⟨ms, s, hrun, hpolling, hstarted, hthrown, hstopping, hloop⟩ := overtaken k pool
    exact hloop (hstay ms s (Steps.run_mem_states hrun) hpolling hstarted hthrown hstopping)
  · intro hrobust ms s hs hpolling hstarted hthrown hstopping
    have hstaffed : Staffed s :=
      Steps.states_invariant (f := step) (I := Staffed) (P := fun _ => True)
        (fun _ hpre hstep _ => hpre.step hthreads hstep) (staffed_ofThreads threads pool)
        (fun _ _ => trivial) s hs
    have hwhole := hstaffed.whole_of_started hthrown (hrobust.imp_left hpolling.trans) hstarted
      hstopping
    exact hwhole.inLoop

def startTwo (strand : Option Nat) : List (Move m 2) :=
  [.call (.start false), .caller, .caller, .caller, .caller, .caller, .worker 1 .advance,
    .worker 1 .advance, .worker 0 .advance, .worker 0 .advance, .worker 0 (.take strand),
    .worker 0 .advance, .worker 0 .advance, .caller]

theorem workers_stay_iff_waiting :
    ∃ s, Steps.run step (ofThreads 2 false) (startTwo none) = some s ∧
      s.caller = .idle (some true) ∧ s.threads 0 = .serving false ∧
      s.threads 1 = .serving false ∧ InLoop s := by
  refine ⟨_, rfl, rfl, rfl, rfl, ?_⟩
  refine (workers_stay_iff 2 (by decide) false false).mpr (Or.inl rfl) (startTwo none) _
    (Steps.run_mem_states rfl) rfl rfl rfl (fun i p strand service h => ?_)
  have hserving : i = 0 ∨ i = 1 := by omega
  rcases hserving with rfl | rfl
  · change Worker.serving false = _ at h
    cases h
  · change Worker.serving false = _ at h
    cases h

/-- The second of two polling workers leaves before the flag is set, and nobody serves its
`io_service` any more. -/
theorem polling_worker_leaves :
    ∃ s, Steps.run step (ofThreads 2 false) (twoThreads 0 ++ overtake 0 1 none) = some s ∧
      s.started = true ∧ s.thrown = false ∧
      s.threads 0 = .running true none .onStarted ∧ s.threads 1 = .left ∧ ¬InLoop s := by
  refine ⟨_, rfl, rfl, rfl, rfl, rfl, fun hloop => ?_⟩
  exact nomatch hloop.threads 1

end AsioWrapper.Service
