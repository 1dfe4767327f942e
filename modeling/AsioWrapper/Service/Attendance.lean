import AsioWrapper.Service.Lifecycle

/-!
# Who serves the first `io_service`

The handlers of `Start` and `Stop` go through the first `io_service`.  As long as
no handler throws, one of its threads stays in its loop from the creation of
the first thread on, until the stop handler has stopped that `io_service`.
-/

namespace AsioWrapper.Service

open AsioWrapper.Asio
open AsioWrapper.Foundation
open State

variable {m n : Nat} [NeZero m] {s s' : State m n} {i : Fin n}

def State.halted (s : State m n) : Bool := (s.services 0).stopped

theorem not_halted_of_leave (h : (s.leave i).halted = false) : s.halted = false := by
  by_contra hhalted
  rw [Bool.not_eq_false] at hhalted
  cases h.symm.trans (stopped_leave hhalted)

def Caller.joins : Caller → Bool
  | joining _ _ | awaitingStop _ => true
  | _ => false

/-! ## The stop handler -/

structure Halting (s : State m n) : Prop where
  cleared : s.caller.joins = true → s.started = false → s.halted = true
  stopping : ∀ i p strand k, s.threads i = .running p strand (.stopping (k + 1)) →
    s.halted = true
  starting : ∀ i, (s.threads i).errand = some .start → s.halted = false

theorem halting_ofThreads (threads : Nat) (pool : Bool) : Halting (ofThreads threads pool) where
  cleared h := by cases h
  stopping i p strand k h := by cases h
  starting i h := by cases h

theorem Halting.setThread (hs : Halting s) {w : Worker}
    (hstopping : ∀ p strand k, w ≠ .running p strand (.stopping (k + 1)))
    (hstarting : w.errand ≠ some .start) : Halting (s.setThread i w) := by
  refine ⟨hs.cleared, fun k p strand service h => ?_, fun k h => ?_⟩
  · by_cases hk : k = i
    · subst hk
      rw [setThread_self] at h
      exact absurd h (hstopping p strand service)
    · rw [setThread_of_ne hk] at h
      exact hs.stopping k p strand service h
  · by_cases hk : k = i
    · subst hk
      rw [setThread_self] at h
      exact absurd h hstarting
    · rw [setThread_of_ne hk] at h
      exact hs.starting k h

theorem Halting.leave (hs : Halting s) (ho : Orderly s) : Halting (s.leave i) := by
  have hleft := hs.setThread (i := i) (w := .left) (by simp) (by simp [Worker.errand])
  refine ⟨fun hjoins hstarted => ?_, fun k p strand service h => ?_, fun k h => ?_⟩
  · rw [leave_caller] at hjoins
    rw [leave_started] at hstarted
    exact stopped_leave (hs.cleared hjoins hstarted)
  · rw [leave_threads] at h
    exact stopped_leave (hleft.stopping k p strand service h)
  · rw [leave_threads] at h
    have hki : k ≠ i := by
      rintro rfl
      rw [setThread_self] at h
      cases h
    rw [setThread_of_ne hki] at h
    -- the thread of the start handler holds work
    have hhome := (ho.errand k _ h).1
    have hwork : (s.threads k).holdsWork = true := by
      cases hthread : s.threads k <;> simp_all [Worker.errand, Worker.holdsWork]
    by_contra hstopped
    rw [Bool.not_eq_false, State.halted, ← hhome] at hstopped
    have hbefore := leave_stopped_of_holdsWork hki hwork hstopped
    rw [hhome] at hbefore
    have hlive := hs.starting k h
    rw [State.halted, hbefore] at hlive
    cases hlive

theorem Halting.take (hs : Halting s) (ho : Orderly s) {p : Bool} {strand : Option Nat}
    {handler : Handler Task} (hlive : (s.services (home i)).stopped = false)
    (hfront : (s.services (home i)).front strand = some handler) :
    Halting ((s.modifyService (home i) (.pop strand)).setThread i
      (.running p strand handler.task.job)) := by
  have hkept : ∀ k, ((s.modifyService (home i) (.pop strand)).services k).stopped =
      (s.services k).stopped := modifyService_stopped fun _ => rfl
  refine ⟨fun hjoins hstarted => (hkept 0).trans (hs.cleared hjoins hstarted),
    fun k q held service h => (hkept 0).trans ?_, fun k h => (hkept 0).trans ?_⟩
  · by_cases hk : k = i
    · subst hk
      rw [setThread_self] at h
      cases htask : handler.task <;> simp [htask, Task.job] at h
    · rw [setThread_of_ne hk] at h
      exact hs.stopping k q held service h
  · by_cases hk : k = i
    · subst hk
      rw [setThread_self] at h
      have hsystem : handler.task.isSystem = true := by
        by_contra huser
        simp [Worker.errand, huser] at h
      rwa [(ho.queued _ handler (IoService.mem_of_front hfront).1 hsystem).1] at hlive
    · rw [setThread_of_ne hk] at h
      exact hs.starting k h

theorem Halting.works (hs : Halting s) (ho : Orderly s) (h : Works s i s') : Halting s' := by
  cases h with
  | readMode h => exact hs.setThread (by simp) (by simp [Worker.errand])
  | enter h => exact hs.setThread (by simp) (by simp [Worker.errand])
  | take h hlive hfront => exact hs.take ho hlive hfront
  | polled h hready => exact hs.setThread (by simp) (by simp [Worker.errand])
  | ran h hstopped => exact hs.leave ho
  | @announce p strand h hstarted =>
      have hnext := hs.setThread (i := i) (w := .running p strand .onStarted) (by simp)
        (by simp [Worker.errand, Job.errand])
      exact ⟨fun _ h => (by cases h), hnext.stopping, hnext.starting⟩
  | halt h hstarted => exact hs.setThread (by simp) (by simp [Worker.errand, Job.errand])
  | @stopOne p strand k h hk =>
      have hother : ∀ k', (s.threads k').errand ≠ some .start := by
        intro k' hstart
        have herrand : (s.threads i).errand = some .stop := by rw [h]; rfl
        obtain rfl := ho.errand_unique herrand hstart
        rw [herrand] at hstart
        cases hstart
      -- the handler begins with the first `io_service`
      have hhalted : State.halted ((s.setThread i
          (.running p strand (.stopping (k + 1)))).modifyService ⟨k, hk⟩ .stop) = true := by
        rw [State.halted, modifyService_stop]
        cases k with
        | zero => exact Or.inr rfl
        | succ k => exact Or.inl (hs.stopping i p strand k h)
      refine ⟨fun _ _ => hhalted, fun _ _ _ _ _ => hhalted, fun k' hstart => ?_⟩
      rw [modifyService_threads] at hstart
      by_cases hk' : k' = i
      · subst hk'
        rw [setThread_self] at hstart
        cases hstart
      · rw [setThread_of_ne hk'] at hstart
        exact absurd hstart (hother k')
  | @halted p strand k h hk =>
      have hnext := hs.setThread (i := i) (w := .running p strand .onStopped) (by simp)
        (by simp [Worker.errand, Job.errand])
      refine ⟨fun _ _ => ?_, hnext.stopping, hnext.starting⟩
      cases k with
      | zero => exact absurd (Nat.pos_of_neZero m) hk
      | succ k => exact hs.stopping i p strand k h
  | finish h hjob => exact hs.setThread (by simp) (by simp [Worker.errand])
  | again h hstarted => exact hs.setThread (by simp) (by simp [Worker.errand])
  | quit h hstarted => exact hs.leave ho
  | @retry p strand job h hjob =>
      have hnext := hs.setThread (i := i) (w := .checking p) (by simp) (by simp [Worker.errand])
      exact ⟨hnext.cleared, hnext.stopping, hnext.starting⟩
  | fail h hjob =>
      have hnext := hs.leave (i := i) ho
      exact ⟨hnext.cleared, hnext.stopping, hnext.starting⟩
  | exit h => exact hs.setThread (by simp) (by simp [Worker.errand])

theorem Halting.proceed (hs : Halting s) {c : Caller} {p : Bool} {index : Nat}
    (hjoins : c.joins = true → s.started = true ∨ s.caller.joins = true) :
    Halting { s with polling := p, roundRobinIndex := index, caller := c } where
  cleared h hstarted := by
    rcases hjoins h with hset | hjoins
    · cases hset.symm.trans hstarted
    · exact hs.cleared hjoins hstarted
  stopping := hs.stopping
  starting := hs.starting

theorem Halting.calls (hs : Halting s) (ho : Orderly s) (h : Calls s s') : Halting s' := by
  cases h with
  | alreadyStarted h hstarted => exact hs.proceed (by simp [Caller.joins])
  | prepare h hstarted => exact hs.proceed (by simp [Caller.joins])
  | post h =>
      have hkept := modifyService_stopped (s := s) (j := 0) (f := .post ⟨s.strand, .start⟩)
        (fun _ => rfl) 0
      exact ⟨fun h => (by cases h), fun i p strand k h => hkept.trans (hs.stopping i p strand k h),
        fun i h => hkept.trans (hs.starting i h)⟩
  | spawn h hk =>
      have hnext := hs.setThread (i := ⟨_, hk⟩) (w := .created) (by simp) (by simp [Worker.errand])
      exact ⟨fun h => (by cases h), hnext.stopping, hnext.starting⟩
  | spawned h hk => exact hs.proceed (by simp [Caller.joins])
  | started h hstarted => exact hs.proceed (by simp [Caller.joins])
  | notStarted h hstarted => exact hs.proceed (by simp [Caller.joins])
  | accept h hstarted => exact hs.proceed (by simp [Caller.joins])
  | postStop h =>
      have hset := ho.knows true (by simp [h, Caller.knows])
      have hkept := modifyService_stopped (s := s) (j := 0) (f := .post ⟨s.strand, .stop⟩)
        (fun _ => rfl) 0
      exact ⟨fun _ hstarted => (by cases hset.symm.trans hstarted),
        fun i p strand k h => hkept.trans (hs.stopping i p strand k h),
        fun i h => hkept.trans (hs.starting i h)⟩
  | join h hk hexited =>
      have hnext := hs.setThread (i := ⟨_, hk⟩) (w := .absent) (by simp) (by simp [Worker.errand])
      exact ⟨fun _ => hs.cleared (by rw [h]; rfl), hnext.stopping, hnext.starting⟩
  | joined h hk => exact hs.proceed fun _ => Or.inr (by rw [h]; rfl)
  | stopped h hstarted => exact hs.proceed (by simp [Caller.joins])
  | renew h hstarted => exact hs.proceed (by simp [Caller.joins])
  | renewed h =>
      have hnone : ∀ i, s.threads i = .absent := fun i => ho.absent (by simp [h, Caller.admits])
      refine ⟨fun h => (by cases h), fun i p strand k h => ?_, fun _ _ => rfl⟩
      cases (hnone i).symm.trans h

theorem Halting.step (hs : Halting s) (ho : Orderly s) {move : Move m n}
    (h : step s move = some s') : Halting s' := by
  cases step_changes h with
  | start hidle => exact hs.proceed (by simp [Caller.joins])
  | stop hidle hcall => exact hs.proceed (by simp [Caller.joins])
  | caller h => exact hs.calls ho h
  | worker h => exact hs.works ho h
  | submit hmove h =>
      refine ⟨?_, ?_, ?_⟩
      · rw [h.caller, h.started, State.halted, h.stopped]
        exact hs.cleared
      · rw [h.threads, State.halted, h.stopped]
        exact hs.stopping
      · rw [h.threads, State.halted, h.stopped]
        exact hs.starting

/-! ## The threads of the first `io_service` -/

/-- The thread has not left its loop, and will not when it next looks at the flag. -/
def Worker.stays (started : Bool) : Worker → Bool
  | created | initialized _ | serving _ | running _ _ _ => true
  | checking _ => started
  | _ => false

theorem Worker.stays_of_errand {w : Worker} {task : Task} (h : w.errand = some task)
    (started : Bool) : w.stays started = true := by
  cases w <;> simp_all [errand, stays]

theorem Worker.stays_of_occupies {w : Worker} {strand : Option Nat}
    (h : w.occupies strand = true) (started : Bool) : w.stays started = true := by
  cases w <;> simp_all [occupies, stays]

def Caller.manned (started : Bool) : Caller → Bool
  | idle _ | start _ | stop _ => started
  | spawning thread => thread != 0
  | awaitingStart | postingStop _ | joining _ _ => true
  | _ => false

theorem Caller.manned_of_admits {c : Caller} {started : Bool} {i : Nat}
    (h : c.admits started i) : c.manned started = true := by
  cases c with
  | spawning thread =>
      simp only [admits] at h
      simp only [manned, bne_iff_ne]
      omega
  | _ => simp_all [admits, manned]

def Manned (s : State m n) : Prop :=
  ∃ i, home i = (0 : Fin m) ∧ (s.threads i).stays s.started = true

theorem Manned.of_stays (hs : Manned s) (hothers : ∀ k, k ≠ i → s'.threads k = s.threads k)
    (hstarted : s'.started = s.started ∨ s'.started = true)
    (hi : (s.threads i).stays s.started = true → (s'.threads i).stays s'.started = true) :
    Manned s' := by
  obtain ⟨k, hhome, hstays⟩ := hs
  refine ⟨k, hhome, ?_⟩
  by_cases hk : k = i
  · subst hk
    exact hi hstays
  · rw [hothers k hk]
    rcases hstarted with hsame | hset
    · rw [hsame]
      exact hstays
    · rw [hset]
      cases hthread : s.threads k <;> simp_all [Worker.stays]

structure Attended (s : State m n) : Prop where
  halting : s.started = true → s.halted = true →
    ∃ i p strand k, s.threads i = .running p strand (.stopping k)
  manned : s.caller.manned s.started = true → s.halted = false → Manned s
  joined : ∀ restart, s.caller = .awaitingStop restart → s.halted = true
  polled : ∀ i p, s.threads i = .checking p → p = true

theorem attended_ofThreads (threads : Nat) (pool : Bool) :
    Attended (ofThreads threads pool) where
  halting h := by cases h
  manned h := by cases h
  joined _ h := by cases h
  polled _ _ h := by cases h

theorem Attended.setThread (hs : Attended s) {v w : Worker} (h : s.threads i = v)
    (hstopping : ∀ p strand k, v ≠ .running p strand (.stopping k))
    (hstays : v.stays s.started = true → w.stays s.started = true)
    (hpolled : ∀ p, w = .checking p → p = true) : Attended (s.setThread i w) := by
  refine ⟨fun hstarted hhalted => ?_, fun hmanned hhalted => ?_, hs.joined, fun k p hk => ?_⟩
  · obtain ⟨k, p, strand, service, hk⟩ := hs.halting hstarted hhalted
    have hki : k ≠ i := by
      rintro rfl
      exact hstopping p strand service (h.symm.trans hk)
    exact ⟨k, p, strand, service, (setThread_of_ne hki).trans hk⟩
  · refine (hs.manned hmanned hhalted).of_stays (i := i) (fun k hk => setThread_of_ne hk)
      (Or.inl rfl) fun hold => ?_
    rw [setThread_self]
    exact hstays (h ▸ hold)
  · by_cases hki : k = i
    · subst hki
      rw [setThread_self] at hk
      exact hpolled p hk
    · exact hs.polled k p (by rwa [setThread_of_ne hki] at hk)

theorem Attended.leave (hs : Attended s) {v : Worker} (h : s.threads i = v)
    (hstopping : ∀ p strand k, v ≠ .running p strand (.stopping k))
    (hreason : (s.services (home i)).stopped = true ∨
      v.stays s.started = false ∧ s.started = false) : Attended (s.leave i) := by
  refine ⟨fun hstarted hhalted => ?_, fun hmanned hhalted => ?_, fun restart hcaller => ?_,
    fun k p hk => ?_⟩
  · rw [leave_started] at hstarted
    have hbefore : s.halted = true := by
      rcases leave_stopped hhalted with hbefore | ⟨hhome, -⟩
      · exact hbefore
      · rcases hreason with hstopped | ⟨-, hcleared⟩
        · rw [State.halted, hhome]
          exact hstopped
        · cases hstarted.symm.trans hcleared
    obtain ⟨k, p, strand, service, hk⟩ := hs.halting hstarted hbefore
    have hki : k ≠ i := by
      rintro rfl
      exact hstopping p strand service (h.symm.trans hk)
    refine ⟨k, p, strand, service, ?_⟩
    rw [leave_threads, setThread_of_ne hki, hk]
  · rw [leave_caller, leave_started] at hmanned
    have hbefore := not_halted_of_leave hhalted
    obtain ⟨k, hhome, hstays⟩ := hs.manned hmanned hbefore
    have hki : k ≠ i := by
      rintro rfl
      rcases hreason with hstopped | ⟨hgone, -⟩
      · rw [hhome] at hstopped
        cases hbefore.symm.trans hstopped
      · rw [h, hgone] at hstays
        cases hstays
    refine ⟨k, hhome, ?_⟩
    rw [leave_threads, leave_started, setThread_of_ne hki]
    exact hstays
  · rw [leave_caller] at hcaller
    exact stopped_leave (hs.joined restart hcaller)
  · rw [leave_threads] at hk
    by_cases hki : k = i
    · subst hki
      rw [setThread_self] at hk
      cases hk
    · exact hs.polled k p (by rwa [setThread_of_ne hki] at hk)

/-- `poll` returns to a cleared flag only while another thread has the start handler or
the strand it waits for. -/
theorem Attended.polls (hs : Attended s) (ho : Orderly s) (hh : Halting s)
    (h : s.threads i = .serving true)
    (hready : (s.services (home i)).stopped = true ∨ s.quiescent (home i) = true) :
    Attended (s.setThread i (.checking true)) := by
  cases hstarted : s.started with
  | true => exact hs.setThread h (by simp) (by simp [Worker.stays, hstarted]) (by simp)
  | false =>
      refine ⟨fun hset => ?_, fun hmanned hhalted => ?_, hs.joined, fun k p hk => ?_⟩
      · cases hstarted.symm.trans hset
      · have hother : ∀ k, home k = (0 : Fin m) → k ≠ i → (s.threads k).stays false = true →
            Manned (s.setThread i (.checking true)) := by
          intro k hhome hki hstays
          refine ⟨k, hhome, ?_⟩
          rw [setThread_of_ne hki, setThread_started, hstarted]
          exact hstays
        by_cases hhome : home i = (0 : Fin m)
        · have hload : s.load ≠ 0 := by
            rw [ho.load, hstarted]
            rw [setThread_caller, setThread_started, hstarted] at hmanned
            have hknows := ho.knows true
            have hcleared := hh.cleared
            rw [hstarted] at hknows hcleared
            change s.halted = false at hhalted
            cases hcaller : s.caller <;>
              simp_all [Caller.expected, Caller.manned, Caller.knows, Caller.joins]
          rcases exists_of_load hload with ⟨j, handler, hmem, hsystem⟩ | ⟨k, task, herrand⟩
          · obtain ⟨rfl, -⟩ := ho.queued j handler hmem hsystem
            rw [hhome] at hready
            rcases hready with hstopped | hquiescent
            · cases hhalted.symm.trans hstopped
            · have hbusy := List.all_eq_true.mp hquiescent handler hmem
              simp only [State.busy, decide_eq_true_eq] at hbusy
              obtain ⟨k, hk, hoccupies⟩ := hbusy
              refine hother k hk ?_ (Worker.stays_of_occupies hoccupies false)
              rintro rfl
              rw [h] at hoccupies
              cases hoccupies
          · refine hother k (ho.errand k task herrand).1 ?_ (Worker.stays_of_errand herrand false)
            rintro rfl
            rw [h] at herrand
            cases herrand
        · obtain ⟨k, hk, hstays⟩ := hs.manned hmanned hhalted
          rw [hstarted] at hstays
          refine hother k hk ?_ hstays
          rintro rfl
          exact hhome hk
      · by_cases hki : k = i
        · subst hki
          rw [setThread_self] at hk
          cases hk
          rfl
        · exact hs.polled k p (by rwa [setThread_of_ne hki] at hk)

theorem Attended.take (hs : Attended s) {p : Bool} {strand : Option Nat}
    {handler : Handler Task} (h : s.threads i = .serving p) :
    Attended ((s.modifyService (home i) (.pop strand)).setThread i
      (.running p strand handler.task.job)) := by
  have hkept : State.halted (s.modifyService (home i) (.pop strand)) = s.halted :=
    modifyService_stopped (f := .pop strand) (fun _ => rfl) 0
  have hpopped : Attended (s.modifyService (home i) (.pop strand)) := by
    refine ⟨fun hstarted hhalted => hs.halting hstarted (hkept ▸ hhalted),
      fun hmanned hhalted => hs.manned hmanned (hkept ▸ hhalted),
      fun restart hcaller => hkept.trans (hs.joined restart hcaller), hs.polled⟩
  exact hpopped.setThread h (by simp) (by simp [Worker.stays]) (by simp)

theorem Attended.works (hs : Attended s) (ho : Orderly s) (hh : Halting s)
    (h : Works s i s') (hthrown : s'.thrown = false) : Attended s' := by
  have hh' := hh.works ho h
  cases h with
  | readMode h => exact hs.setThread h (by simp) (by simp [Worker.stays]) (by simp)
  | enter h => exact hs.setThread h (by simp) (by simp [Worker.stays]) (by simp)
  | take h hlive hfront => exact hs.take h
  | polled h hready => exact hs.polls ho hh h hready
  | ran h hstopped => exact hs.leave h (by simp) (Or.inl hstopped)
  | @announce p strand h hstarted =>
      have hnext := hs.setThread (w := .running p strand .onStarted) h (by simp)
        (by simp [Worker.stays]) (by simp)
      have herrand : (s.threads i).errand = some .start := by rw [h]; rfl
      refine ⟨fun _ hhalted => ?_, fun hmanned hhalted => ?_, hnext.joined, hnext.polled⟩
      · cases (hh.starting i herrand).symm.trans hhalted
      · have hbefore : s.caller.manned s.started = true := by
          rcases Caller.permits_start (ho.errand i _ herrand).2 with ⟨_, hcaller⟩ | hcaller
          · simpa [hcaller, Caller.manned] using hmanned
          · simp [hcaller, Caller.manned]
        refine (hnext.manned hbefore hhalted).of_stays (i := i) (fun _ _ => rfl) (Or.inr rfl) ?_
        simp [Worker.stays]
  | halt h hstarted => exact hs.setThread h (by simp) (by simp [Worker.stays]) (by simp)
  | @stopOne p strand k h hk =>
      have hhalted := hh'.stopping i p strand k (by rw [modifyService_threads, setThread_self])
      refine ⟨fun _ _ => ⟨i, p, strand, k + 1, ?_⟩, fun _ hlive => ?_, fun _ _ => hhalted,
        fun k' q hk' => ?_⟩
      · rw [modifyService_threads, setThread_self]
      · cases hhalted.symm.trans hlive
      · rw [modifyService_threads] at hk'
        by_cases hki : k' = i
        · subst hki
          rw [setThread_self] at hk'
          cases hk'
        · exact hs.polled k' q (by rwa [setThread_of_ne hki] at hk')
  | @halted p strand k h hk =>
      have hjoins : s.caller.joins = true := by
        have herrand : (s.threads i).errand = some .stop := by rw [h]; rfl
        rcases Caller.permits_stop (ho.errand i _ herrand).2 with ⟨_, _, hcaller⟩ | ⟨_, hcaller⟩
        · rw [hcaller]
          rfl
        · rw [hcaller]
          rfl
      have hhalted := hh'.cleared hjoins rfl
      refine ⟨fun hstarted => (by cases hstarted), fun _ hlive => ?_, fun _ _ => hhalted,
        fun k' q hk' => ?_⟩
      · cases hhalted.symm.trans hlive
      · change (s.setThread i (.running p strand .onStopped)).threads k' = .checking q at hk'
        by_cases hki : k' = i
        · subst hki
          rw [setThread_self] at hk'
          cases hk'
        · exact hs.polled k' q (by rwa [setThread_of_ne hki] at hk')
  | finish h hjob =>
      refine hs.setThread h ?_ (by simp [Worker.stays]) (by simp)
      rintro p strand k ⟨⟩
      simp [Job.throws] at hjob
  | again h hstarted => exact hs.setThread h (by simp) (by simp [Worker.stays]) (by simp)
  | quit h hstarted =>
      exact hs.leave h (by simp) (Or.inr ⟨by simp [Worker.stays, hstarted], hstarted⟩)
  | retry h hjob => cases hthrown
  | fail h hjob => cases hthrown
  | exit h => exact hs.setThread h (by simp) (by simp [Worker.stays]) (by simp)

theorem Attended.proceed (hs : Attended s) {c : Caller} {p : Bool} {index : Nat}
    (hmanned : c.manned s.started = true → s.caller.manned s.started = true)
    (hjoined : ∀ restart, c = .awaitingStop restart → s.halted = true) :
    Attended { s with polling := p, roundRobinIndex := index, caller := c } where
  halting := hs.halting
  manned h hhalted := hs.manned (hmanned h) hhalted
  joined := hjoined
  polled := hs.polled

theorem Attended.post (hs : Attended s) {task : Task} {c : Caller}
    (hmanned : c.manned s.started = true → s.caller.manned s.started = true)
    (hjoined : ∀ restart, c ≠ .awaitingStop restart) :
    Attended { s.post task with caller := c } := by
  have hkept : State.halted (s.post task) = s.halted :=
    modifyService_stopped (f := .post ⟨s.strand, task⟩) (fun _ => rfl) 0
  exact ⟨fun hstarted hhalted => hs.halting hstarted (hkept ▸ hhalted),
    fun h hhalted => hs.manned (hmanned h) (hkept ▸ hhalted),
    fun restart h => absurd h (hjoined restart), hs.polled⟩

theorem Attended.calls (hs : Attended s) (ho : Orderly s) (hn : 0 < n) (h : Calls s s') :
    Attended s' := by
  cases h with
  | alreadyStarted h hstarted => exact hs.proceed (by simp [h, Caller.manned]) (by simp)
  | prepare h hstarted => exact hs.proceed (by simp [Caller.manned]) (by simp)
  | post h => exact hs.post (by simp [Caller.manned]) (by simp)
  | @spawn k h hk =>
      have habsent := ho.absent (i := ⟨k, hk⟩) (by simp [h, Caller.admits])
      have hnext := hs.setThread (w := .created) habsent (by simp) (by simp [Worker.stays])
        (by simp)
      refine ⟨hnext.halting, fun _ hhalted => ?_, by simp, hnext.polled⟩
      cases k with
      | zero =>
          -- the first thread belongs to the first `io_service`
          refine ⟨⟨0, hk⟩, rfl, ?_⟩
          change ((s.setThread ⟨0, hk⟩ .created).threads ⟨0, hk⟩).stays s.started = true
          rw [setThread_self]
          rfl
      | succ k => exact hnext.manned (by simp [h, Caller.manned]) hhalted
  | @spawned k h hk =>
      refine hs.proceed (fun _ => ?_) (by simp)
      simp only [h, Caller.manned, bne_iff_ne]
      omega
  | started h hstarted => exact hs.proceed (by simp [h, Caller.manned]) (by simp)
  | notStarted h hstarted => exact hs.proceed (by simp [h, Caller.manned]) (by simp)
  | accept h hstarted => exact hs.proceed (by simp [h, hstarted, Caller.manned]) (by simp)
  | postStop h => exact hs.post (by simp [h, Caller.manned]) (by simp)
  | @join k restart h hk hexited =>
      have hnext := hs.setThread (w := .absent) hexited (by simp) (by simp [Worker.stays])
        (by simp)
      refine ⟨hnext.halting, fun _ hhalted => ?_, by simp, hnext.polled⟩
      exact hnext.manned (by simp [h, Caller.manned]) hhalted
  | @joined k restart h hk =>
      refine hs.proceed (by simp [Caller.manned]) fun _ _ => ?_
      by_contra hlive
      rw [Bool.not_eq_true] at hlive
      obtain ⟨i, -, hstays⟩ := hs.manned (by simp [h, Caller.manned]) hlive
      have hadmits := ho.present i fun habsent => by simp [habsent, Worker.stays] at hstays
      simp only [h, Caller.admits] at hadmits
      omega
  | stopped h hstarted => exact hs.proceed (by simp [h, hstarted, Caller.manned]) (by simp)
  | renew h hstarted => exact hs.proceed (by simp [Caller.manned]) (by simp)
  | renewed h =>
      have hstarted := ho.knows false (by simp [h, Caller.knows])
      refine ⟨fun _ hhalted => (by cases hhalted), fun hmanned => ?_, by simp, hs.polled⟩
      simp [Caller.manned, hstarted] at hmanned

theorem Attended.step (hs : Attended s) (ho : Orderly s) (hh : Halting s) (hn : 0 < n)
    {move : Move m n} (h : step s move = some s') (hthrown : s'.thrown = false) :
    Attended s' := by
  cases step_changes h with
  | start hidle => exact hs.proceed (by simp [hidle, Caller.manned]) (by simp)
  | stop hidle hcall => exact hs.proceed (by simp [hidle, Caller.manned]) (by simp)
  | caller h => exact hs.calls ho hn h
  | worker h => exact hs.works ho hh h hthrown
  | submit hmove h =>
      refine ⟨?_, ?_, ?_, ?_⟩
      · rw [h.started, h.threads, State.halted, h.stopped]
        exact hs.halting
      · rw [h.caller, h.started, State.halted, h.stopped, Manned, h.threads, h.started]
        exact hs.manned
      · rw [h.caller, State.halted, h.stopped]
        exact hs.joined
      · rw [h.threads]
        exact hs.polled

/-! ## Runs -/

theorem thrown_step {move : Move m n} (h : step s move = some s') (hthrown : s'.thrown = false) :
    s.thrown = false := by
  cases step_changes h with
  | start hidle => exact hthrown
  | stop hidle hcall => exact hthrown
  | caller h => cases h <;> exact hthrown
  | worker h =>
      cases h with
      | ran => rwa [leave_thrown] at hthrown
      | quit => rwa [leave_thrown] at hthrown
      | retry => cases hthrown
      | fail => cases hthrown
      | _ => exact hthrown
  | submit hmove h => exact h.thrown ▸ hthrown

structure Served (s : State m n) : Prop where
  orderly : Orderly s
  halting : Halting s
  attended : s.thrown = false → Attended s

theorem served_ofThreads (threads : Nat) (pool : Bool) : Served (ofThreads threads pool) where
  orderly := orderly_ofThreads threads pool
  halting := halting_ofThreads threads pool
  attended _ := attended_ofThreads threads pool

theorem Served.step (hs : Served s) (hn : 0 < n) {move : Move m n}
    (h : step s move = some s') : Served s' where
  orderly := hs.orderly.step h
  halting := hs.halting.step hs.orderly h
  attended hthrown :=
    (hs.attended (thrown_step h hthrown)).step hs.orderly hs.halting hn h hthrown

end AsioWrapper.Service
