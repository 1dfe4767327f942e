import AsioWrapper.Foundation.Variant
import AsioWrapper.Service.Joining
import Mathlib.Algebra.Order.BigOperators.Group.Finset

/-!
# Calls of the service return

A call waits for a handler that a worker has to run, and for workers that have
to leave.  The budget of a state counts the steps that are left to the caller
and to the workers until the call is over, if nothing else is posted.  Only a
worker that polls while the flag is set makes steps without spending any of it.
-/

namespace AsioWrapper.Service

open AsioWrapper.Asio
open AsioWrapper.Foundation
open State

variable {m n : Nat}

/-! ## The budget -/

def Job.rank (m : Nat) : Job → Nat
  | start => 1
  | stop => m + 2
  | stopping service => m + 1 - service
  | onStarted | onStopped | user => 0

/-- The steps of a thread until it is joined, apart from the handlers it has yet to take. -/
def Worker.rank (m : Nat) (started : Bool) : Worker → Nat
  | absent => 0
  | exited => 1
  | left => 2
  | checking _ => if started then 4 else 3
  | serving _ => 4
  | initialized _ => 5
  | running _ _ job => 5 + job.rank m
  | created => 6

def handlerCost (m : Nat) : Nat := m + 6

def flagCost (n : Nat) : Nat := n + 1

def startCost (m n : Nat) : Nat := handlerCost m + flagCost n + 7 * n

def restartCost (m n : Nat) (restart : Option Bool) : Nat :=
  if restart.isSome then 5 + startCost m n else 0

def Caller.rank (m n : Nat) : Caller → Nat
  | idle _ => 0
  | awaitingStart => 1
  | spawning thread => 2 + 7 * (n - thread)
  | posting => 3 + startCost m n
  | start _ => 4 + startCost m n
  | renewing _ => 5 + startCost m n
  | awaitingStop restart => 1 + restartCost m n restart
  | joining thread restart => 2 + (n - thread) + restartCost m n restart
  | postingStop restart => 3 + n + handlerCost m + flagCost n + restartCost m n restart
  | stop restart => 4 + n + handlerCost m + flagCost n + restartCost m n restart

def State.queued (s : State m n) : Nat := ∑ j, (s.services j).queue.length

def State.ranks (s : State m n) : Nat := ∑ i, (s.threads i).rank m s.started

def State.budget (s : State m n) : Nat :=
  s.caller.rank m n + flagCost n * s.caller.expected s.started + handlerCost m * s.queued +
    s.ranks

section Sums

variable {s s' : State m n} {i : Fin n} {j : Fin m}

theorem State.ranks_setThread (s : State m n) (i : Fin n) (w : Worker) :
    (s.setThread i w).ranks + (s.threads i).rank m s.started =
      s.ranks + w.rank m s.started :=
  sum_update s.threads i w (Worker.rank m s.started)

theorem State.queued_modifyService (s : State m n) (j : Fin m)
    (f : IoService Task → IoService Task) :
    (s.modifyService j f).queued + (s.services j).queue.length =
      s.queued + (f (s.services j)).queue.length :=
  sum_update s.services j (f (s.services j)) fun io => io.queue.length

theorem State.queued_congr (h : ∀ j, (s'.services j).queue = (s.services j).queue) :
    s'.queued = s.queued := by
  simp only [State.queued, h]

theorem State.budget_setThread (s : State m n) (i : Fin n) (w : Worker) :
    (s.setThread i w).budget + (s.threads i).rank m s.started =
      s.budget + w.rank m s.started := by
  have hranks := s.ranks_setThread i w
  have hqueued : (s.setThread i w).queued = s.queued := rfl
  simp only [State.budget, setThread_caller, setThread_started, hqueued]
  omega

theorem State.budget_stop (s : State m n) (j : Fin m) :
    (s.modifyService j .stop).budget = s.budget := by
  have hqueued : (s.modifyService j .stop).queued = s.queued :=
    queued_congr (modifyService_queue fun _ => rfl)
  have hranks : (s.modifyService j .stop).ranks = s.ranks := rfl
  simp only [State.budget, hqueued, hranks, modifyService_caller, modifyService_started]

theorem State.budget_leave [NeZero m] (s : State m n) (i : Fin n) :
    (s.leave i).budget + (s.threads i).rank m s.started = s.budget + 2 := by
  rw [leave_field State.budget State.budget_stop]
  exact s.budget_setThread i .left

theorem Job.rank_le (m : Nat) (job : Job) : job.rank m ≤ m + 2 := by
  cases job <;> simp only [rank] <;> omega

theorem Worker.rank_flag (m : Nat) (w : Worker) :
    w.rank m false ≤ w.rank m true ∧ w.rank m true ≤ w.rank m false + 1 := by
  cases w <;> simp [rank]

theorem State.ranks_flag (s : State m n) (started : Bool) :
    ({ s with started := started } : State m n).ranks ≤ s.ranks + n := by
  have hterm : ∀ i ∈ Finset.univ, (s.threads i).rank m started ≤
      (s.threads i).rank m s.started + 1 := by
    intro i _
    have hflag := (s.threads i).rank_flag m
    cases started <;> cases s.started <;> omega
  have hsum := Finset.sum_le_sum hterm
  rw [Finset.sum_add_distrib] at hsum
  simpa [State.ranks] using hsum

theorem State.budget_flag (s : State m n) (started : Bool) :
    ({ s with started := started } : State m n).budget +
        flagCost n * s.caller.expected s.started ≤
      s.budget + flagCost n * s.caller.expected started + n := by
  have hranks := s.ranks_flag started
  change s.caller.rank m n + flagCost n * s.caller.expected started + handlerCost m * s.queued +
    ({ s with started := started } : State m n).ranks + _ ≤ _
  simp only [State.budget]
  omega

end Sums

theorem Caller.expected_of_permits {c : Caller} {task : Task} (h : c.permits task = true) :
    c.expected (decide (task = .stop)) = 1 ∧ c.expected (decide (task = .start)) = 0 := by
  cases task with
  | start =>
      rcases permits_start h with ⟨_, rfl⟩ | rfl
      · exact ⟨rfl, rfl⟩
      · exact ⟨rfl, rfl⟩
  | stop =>
      rcases permits_stop h with ⟨_, _, rfl⟩ | ⟨_, rfl⟩
      · exact ⟨rfl, rfl⟩
      · exact ⟨rfl, rfl⟩
  | user => cases c <;> cases h

variable [NeZero m] {s s' : State m n} {i : Fin n}

/-! ## What a step costs -/

def Worker.polls : Worker → Bool
  | serving true | checking _ => true
  | _ => false

theorem Orderly.settle_budget (hs : Orderly s) {p : Bool} {strand : Option Nat} {job : Job}
    (job' : Job) (task : Task) (h : s.threads i = .running p strand job)
    (herrand : job.errand = some task) (hrank : job'.rank m = 0) :
    ({ s.setThread i (.running p strand job') with
      started := decide (task = .start) } : State m n).budget < s.budget := by
  have hthread : (s.threads i).errand = some task := by rw [h]; exact herrand
  obtain ⟨hbefore, hafter⟩ := Caller.expected_of_permits (hs.errand i task hthread).2
  rw [← hs.started_of_errand hthread] at hbefore
  have hset := s.budget_setThread i (.running p strand job')
  have hflag : _ + flagCost n * s.caller.expected s.started ≤
      _ + flagCost n * s.caller.expected (decide (task = .start)) + n :=
    (s.setThread i (.running p strand job')).budget_flag (decide (task = .start))
  rw [hbefore, hafter, flagCost] at hflag
  rw [h] at hset
  simp only [Worker.rank, hrank] at hset
  dsimp only
  omega

theorem take_budget {p : Bool} {strand : Option Nat} {handler : Handler Task}
    (h : s.threads i = .serving p)
    (hfront : (s.services (home i)).front strand = some handler) :
    ((s.modifyService (home i) (.pop strand)).setThread i
      (.running p strand handler.task.job)).budget < s.budget := by
  have hset := (s.modifyService (home i) (.pop strand)).budget_setThread i
    (.running p strand handler.task.job)
  have hqueued := s.queued_modifyService (home i) (.pop strand)
  obtain ⟨earlier, later, hqueue, hpop⟩ := IoService.queue_split hfront
  have hrank := handler.task.job.rank_le m
  have hranks : (s.modifyService (home i) (.pop strand)).ranks = s.ranks := rfl
  simp only [hqueue, hpop, List.length_append, List.length_cons] at hqueued
  simp only [modifyService_threads, h, Worker.rank] at hset
  have hone : s.queued = (s.modifyService (home i) (.pop strand)).queued + 1 := by omega
  have hcost : handlerCost m * s.queued =
      handlerCost m * (s.modifyService (home i) (.pop strand)).queued + (m + 6) := by
    rw [hone, Nat.mul_add, Nat.mul_one]
    rfl
  have hpopped : (s.modifyService (home i) (.pop strand)).budget + (m + 6) = s.budget := by
    simp only [State.budget, hranks, modifyService_caller, modifyService_started]
    omega
  omega

theorem Works.budget_cases (ho : Orderly s) (h : Works s i s') :
    s'.budget < s.budget ∨
      s.started = true ∧ (s.threads i).polls = true ∧ s'.budget = s.budget := by
  have hset {v w : Worker} (h : s.threads i = v) (hless : w.rank m s.started < v.rank m s.started) :
      (s.setThread i w).budget < s.budget := by
    have hbudget := s.budget_setThread i w
    rw [h] at hbudget
    omega
  have hleave (hmore : 2 < (s.threads i).rank m s.started) : (s.leave i).budget < s.budget := by
    have hbudget := s.budget_leave i
    omega
  cases h with
  | readMode h => exact Or.inl (hset h (by simp [Worker.rank]))
  | enter h => exact Or.inl (hset h (by simp [Worker.rank]))
  | take h hlive hfront => exact Or.inl (take_budget h hfront)
  | polled h hready =>
      cases hstarted : s.started with
      | true =>
          have hbudget := s.budget_setThread i (.checking true)
          simp only [h, hstarted, Worker.rank, if_true] at hbudget
          exact Or.inr ⟨rfl, by rw [h]; rfl, Nat.add_right_cancel hbudget⟩
      | false => exact Or.inl (hset h (by simp [Worker.rank, hstarted]))
  | ran h hstopped => exact Or.inl (hleave (by simp [h, Worker.rank]))
  | announce h hstarted => exact Or.inl (ho.settle_budget .onStarted .start h rfl rfl)
  | halt h hstarted => exact Or.inl (hset h (by simp [Worker.rank, Job.rank]))
  | @stopOne p strand k h hk =>
      rw [budget_stop]
      refine Or.inl (hset h ?_)
      simp only [Worker.rank, Job.rank]
      omega
  | halted h hk => exact Or.inl (ho.settle_budget .onStopped .stop h rfl rfl)
  | finish h hjob =>
      refine Or.inl (hset h ?_)
      simp only [Worker.rank]
      omega
  | @again p h hstarted =>
      have hbudget := s.budget_setThread i (.serving p)
      simp only [h, hstarted, Worker.rank, if_true] at hbudget
      exact Or.inr ⟨hstarted, by rw [h]; rfl, Nat.add_right_cancel hbudget⟩
  | quit h hstarted => exact Or.inl (hleave (by simp [h, hstarted, Worker.rank]))
  | @retry p strand job h hjob =>
      refine Or.inl (hset (w := .checking p) h ?_)
      simp only [Worker.rank]
      split <;> omega
  | fail h hjob =>
      refine Or.inl (hleave ?_)
      simp only [h, Worker.rank]
      omega
  | exit h => exact Or.inl (hset h (by simp [Worker.rank]))

omit [NeZero m] in
theorem State.budget_proceed {b c : Caller} {p : Bool} {index : Nat} (h : s.caller = b)
    (hrank : c.rank m n < b.rank m n) (hexpected : c.expected s.started = b.expected s.started) :
    ({ s with polling := p, roundRobinIndex := index, caller := c } : State m n).budget <
      s.budget := by
  subst h
  change c.rank m n + flagCost n * c.expected s.started + handlerCost m * s.queued + s.ranks < _
  rw [hexpected, State.budget]
  omega

theorem State.budget_post {task : Task} {b c : Caller} (h : s.caller = b)
    (hrank : c.rank m n + handlerCost m + flagCost n < b.rank m n)
    (hbefore : b.expected s.started = 0) :
    ({ s.post task with caller := c } : State m n).budget < s.budget := by
  subst h
  have hlength : ((s.services 0).post ⟨s.strand, task⟩).queue.length =
      (s.services 0).queue.length + 1 := by
    simp [IoService.post]
  have hqueued := s.queued_modifyService 0 (.post ⟨s.strand, task⟩)
  rw [hlength] at hqueued
  have hone : (s.post task).queued = s.queued + 1 := by
    change (s.modifyService 0 (.post ⟨s.strand, task⟩)).queued = _
    omega
  have hexpected := Nat.mul_le_mul_left (flagCost n) (c.expected_le s.started)
  change c.rank m n + flagCost n * c.expected s.started + handlerCost m * (s.post task).queued +
    s.ranks < _
  rw [hone, Nat.mul_add, State.budget, hbefore]
  omega

omit [NeZero m] in
theorem State.budget_replace {v w : Worker} {b c : Caller} (h : s.caller = b)
    (hthread : s.threads i = v)
    (hrank : c.rank m n + w.rank m s.started < b.rank m n + v.rank m s.started)
    (hexpected : c.expected s.started = b.expected s.started) :
    ({ s.setThread i w with caller := c } : State m n).budget < s.budget := by
  subst h hthread
  have hranks := s.ranks_setThread i w
  change c.rank m n + flagCost n * c.expected s.started + handlerCost m * s.queued +
    (s.setThread i w).ranks < _
  rw [hexpected, State.budget]
  omega

theorem Calls.budget_lt (ho : Orderly s) (h : Calls s s') : s'.budget < s.budget := by
  cases h with
  | alreadyStarted h hstarted =>
      exact State.budget_proceed h (by simp only [Caller.rank]; omega) rfl
  | prepare h hstarted => exact State.budget_proceed h (by simp only [Caller.rank]; omega) rfl
  | post h => exact State.budget_post h (by simp only [Caller.rank, startCost]; omega) rfl
  | spawn h hk =>
      have habsent := ho.absent (i := ⟨_, hk⟩) (by simp [h, Caller.admits])
      refine State.budget_replace h habsent ?_ rfl
      simp only [Caller.rank, Worker.rank]
      omega
  | spawned h hk => exact State.budget_proceed h (by simp only [Caller.rank]; omega) rfl
  | started h hstarted =>
      exact State.budget_proceed h Nat.zero_lt_one (by rw [hstarted]; rfl)
  | notStarted h hstarted => exact State.budget_proceed h (by simp only [Caller.rank]; omega) rfl
  | accept h hstarted => exact State.budget_proceed h (by simp only [Caller.rank]; omega) rfl
  | postStop h => exact State.budget_post h (by simp only [Caller.rank]; omega) rfl
  | join h hk hexited =>
      refine State.budget_replace h hexited ?_ rfl
      simp only [Caller.rank, Worker.rank]
      omega
  | joined h hk => exact State.budget_proceed h (by simp only [Caller.rank]; omega) rfl
  | stopped h hstarted =>
      exact State.budget_proceed h Nat.zero_lt_one (by rw [hstarted]; rfl)
  | renew h hstarted =>
      exact State.budget_proceed h (by simp [Caller.rank, restartCost]) (by rw [hstarted]; rfl)
  | renewed h =>
      change 4 + startCost m n + flagCost n * 0 +
        handlerCost m * (∑ _ : Fin m, ([] : List (Handler Task)).length) + s.ranks < s.budget
      rw [State.budget, h]
      simp only [List.length_nil, Finset.sum_const_zero, Caller.rank]
      omega

/-! ## The steps of the service -/

/-- A step of the calling thread or of a worker, in which no handler throws. -/
def Move.isOwn : Move m n → Bool
  | .caller | .worker _ .advance | .worker _ (.take _) => true
  | _ => false

/-- A worker polls while the flag is set. -/
def idles (t : Transition (State m n) (Move m n)) : Bool :=
  match t.move with
  | .worker i .advance => t.pre.started && (t.pre.threads i).polls
  | _ => false

omit [NeZero m] in
private theorem handlerStep_thrown {p : Bool} {strand : Option Nat} {job : Job} :
    (handlerStep s i p strand job).thrown = s.thrown := by
  cases job with
  | start =>
      simp only [handlerStep]
      split <;> rfl
  | stop =>
      simp only [handlerStep]
      split <;> rfl
  | stopping service =>
      simp only [handlerStep]
      split <;> rfl
  | _ => rfl

theorem Works.thrown_eq (h : Works s i s')
    (hidle : ∀ p strand job, s.threads i ≠ .running p strand job) : s'.thrown = s.thrown := by
  cases h with
  | ran => exact leave_thrown
  | quit => exact leave_thrown
  | retry h hjob => exact absurd h (hidle _ _ _)
  | fail h hjob => exact absurd h (hidle _ _ _)
  | _ => rfl

theorem step_thrown {move : Move m n} (hown : move.isOwn = true) (h : step s move = some s') :
    s'.thrown = s.thrown := by
  cases move with
  | caller => cases callerStep_calls h <;> rfl
  | worker i turn =>
      cases turn with
      | take strand =>
          obtain ⟨p, handler, -, -, rfl⟩ := workerStep_take h
          rfl
      | advance =>
          by_cases hrunning : ∃ p strand job, s.threads i = .running p strand job
          · obtain ⟨p, strand, job, hthread⟩ := hrunning
            simp only [step, workerStep, hthread] at h
            cases h
            exact handlerStep_thrown
          · refine (workerStep_works h).thrown_eq fun p strand job hthread => ?_
            exact hrunning ⟨p, strand, job, hthread⟩
      | throw failure => cases hown
  | _ => cases hown

structure Responsive (s : State m n) : Prop where
  served : Served s
  live : Live s
  joinable : Joinable s
  thrown : s.thrown = false

private theorem startsStopped_own {t : Transition (State m n) (Move m n)}
    (h : t.move.isOwn = true) : startsStopped t = false := by
  unfold startsStopped
  split
  · rename_i hmove
    rw [hmove] at h
    cases h
  · rfl

theorem Responsive.step (hs : Responsive s) (hn : 0 < n) {move : Move m n}
    (hown : move.isOwn = true) (h : step s move = some s') : Responsive s' where
  served := hs.served.step hn h
  live := hs.live.step hs.served.orderly h (startsStopped_own hown)
  joinable := hs.joinable.step h
  thrown := (step_thrown hown h).trans hs.thrown

theorem budget_variant (hn : 0 < n) :
    Steps.Variant (step (m := m) (n := n)) Responsive Move.isOwn idles State.budget where
  keeps t hpre hstep hown := hpre.step hn hown hstep
  idles t hpre hstep hown hidle := by
    unfold Service.idles at hidle
    split at hidle
    · rename_i i hmove
      rw [hmove] at hstep
      rcases (workerStep_works hstep).budget_cases hpre.served.orderly with hless | ⟨-, -, heq⟩
      · exact Nat.le_of_lt hless
      · exact Nat.le_of_eq heq
    · cases hidle
  lowers t hpre hstep hown hidle := by
    cases hmove : t.move with
    | caller =>
        rw [hmove] at hstep
        exact (callerStep_calls hstep).budget_lt hpre.served.orderly
    | worker i turn =>
        rw [hmove] at hstep
        cases turn with
        | advance =>
            rcases (workerStep_works hstep).budget_cases hpre.served.orderly with
              hless | ⟨hstarted, hpolls, -⟩
            · exact hless
            · simp [Service.idles, hmove, hstarted, hpolls] at hidle
        | take strand =>
            obtain ⟨p, handler, hthread, hfront, hpost⟩ := workerStep_take hstep
            rw [hpost]
            exact take_budget hthread hfront
        | throw failure =>
            rw [hmove] at hown
            cases hown
    | _ =>
        rw [hmove] at hown
        cases hown

/-! ## There is always something to do -/

def Spends (s : State m n) : Prop :=
  ∃ ms s', (∀ move ∈ ms, Move.isOwn move = true) ∧ Steps.run step s ms = some s' ∧
    s'.budget < s.budget

theorem first_of_spends (h : Spends s) :
    ∃ move s', Move.isOwn move = true ∧ Service.step s move = some s' := by
  obtain ⟨ms, s', hown, hrun, hless⟩ := h
  cases ms with
  | nil =>
      cases hrun
      exact absurd hless (Nat.lt_irrefl _)
  | cons move ms =>
      cases hstep : Service.step s move with
      | none => simp [Steps.run, hstep] at hrun
      | some next => exact ⟨move, next, hown move List.mem_cons_self, hstep⟩

theorem spends_of_caller (hs : Responsive s) (h : (callerStep s).isSome = true) : Spends s := by
  obtain ⟨s', hs'⟩ := Option.isSome_iff_exists.mp h
  refine ⟨[.caller], s', by simp [Move.isOwn], ?_, ?_⟩
  · simp [Steps.run, step, hs']
  · exact (callerStep_calls hs').budget_lt hs.served.orderly

theorem spends_of_advance (hs : Responsive s) (h : (workerStep s i .advance).isSome = true)
    (hbusy : s.started = false ∨ (s.threads i).polls = false) : Spends s := by
  obtain ⟨s', hs'⟩ := Option.isSome_iff_exists.mp h
  refine ⟨[.worker i .advance], s', by simp [Move.isOwn], ?_, ?_⟩
  · simp [Steps.run, step, hs']
  · rcases (workerStep_works hs').budget_cases hs.served.orderly with hless | ⟨hset, hpolls, -⟩
    · exact hless
    · simp [hset, hpolls] at hbusy

theorem spends_of_running (hs : Responsive s) {p : Bool} {strand : Option Nat} {job : Job}
    (h : s.threads i = .running p strand job) : Spends s :=
  spends_of_advance (i := i) hs (by simp [workerStep, h]) (Or.inr (by rw [h]; rfl))

theorem spends_of_errand (hs : Responsive s) {task : Task}
    (h : (s.threads i).errand = some task) : Spends s := by
  cases hthread : s.threads i with
  | running p strand job => exact spends_of_running hs hthread
  | _ =>
      rw [hthread] at h
      cases h

/-- A thread in its loop takes the first queued handler, unless the strand of that handler is
busy in another thread. -/
private theorem spends_of_serving (hs : Responsive s) {p : Bool} (h : s.threads i = .serving p)
    (hlive : (s.services (home i)).stopped = false) (hqueue : (s.services (home i)).queue ≠ []) :
    Spends s := by
  obtain ⟨handler, rest, hhead⟩ := List.exists_cons_of_ne_nil hqueue
  cases hbusy : s.busy (home i) handler.strand with
  | true =>
      simp only [State.busy, decide_eq_true_eq] at hbusy
      obtain ⟨k, -, hoccupies⟩ := hbusy
      cases hthread : s.threads k with
      | running q strand job => exact spends_of_running hs hthread
      | _ =>
          rw [hthread] at hoccupies
          cases hoccupies
  | false =>
      have hfront : (s.services (home i)).front handler.strand = some handler := by
        simp [IoService.front, hhead]
      have hstep : workerStep s i (.take handler.strand) =
          some ((s.modifyService (home i) (.pop handler.strand)).setThread i
            (.running p handler.strand handler.task.job)) := by
        simp [workerStep, h, hlive, hbusy, hfront]
      refine ⟨[.worker i (.take handler.strand)], _, by simp [Move.isOwn], ?_,
        take_budget h hfront⟩
      simp [Steps.run, step, hstep]

theorem spends_of_stays (hs : Responsive s) (hn : 0 < n)
    (h : (s.threads i).stays s.started = true)
    (hlive : (s.services (home i)).stopped = false) (hqueue : (s.services (home i)).queue ≠ []) :
    Spends s := by
  cases hthread : s.threads i with
  | created =>
      refine spends_of_advance (i := i) hs (by simp [workerStep, hthread]) (Or.inr ?_)
      rw [hthread]
      rfl
  | initialized p =>
      refine spends_of_advance (i := i) hs (by simp [workerStep, hthread]) (Or.inr ?_)
      rw [hthread]
      rfl
  | serving p => exact spends_of_serving hs hthread hlive hqueue
  | running p strand job => exact spends_of_running hs hthread
  | checking p =>
      -- it looks at the flag and goes on
      have hstarted : s.started = true := by
        rw [hthread] at h
        exact h
      have hstep : step s (.worker i .advance) = some (s.setThread i (.serving p)) := by
        simp [step, workerStep, hthread, hstarted]
      have hsame : (s.setThread i (.serving p)).budget = s.budget := by
        have hbudget := s.budget_setThread i (.serving p)
        simp only [hthread, hstarted, Worker.rank, if_true] at hbudget
        exact Nat.add_right_cancel hbudget
      obtain ⟨ms, s', hown, hrun, hless⟩ :=
        spends_of_serving (hs.step hn rfl hstep) setThread_self hlive hqueue
      refine ⟨.worker i .advance :: ms, s', ?_, ?_, hsame ▸ hless⟩
      · exact List.forall_mem_cons.mpr ⟨rfl, hown⟩
      · simp [Steps.run, hstep, hrun]
  | _ =>
      rw [hthread] at h
      cases h

theorem Responsive.spends_awaitingStart (hs : Responsive s) (hn : 0 < n)
    (hcaller : s.caller = .awaitingStart) : Spends s := by
  cases hstarted : s.started with
  | true => exact spends_of_caller hs (by simp [callerStep, hcaller, hstarted])
  | false =>
      have hserved : StartServed s := by
        by_contra hunserved
        exact hs.served.not_stuck hs.live hs.thrown ⟨hcaller, hstarted, hunserved⟩
      rcases hserved with ⟨i, herrand⟩ | ⟨j, ⟨handler, hmem, -⟩, hlive, i, rfl, hstays⟩
      · exact spends_of_errand hs herrand
      · exact spends_of_stays hs hn (by rw [hstarted]; exact hstays) hlive (List.ne_nil_of_mem hmem)

theorem Responsive.spends_stopping (hs : Responsive s) (hn : 0 < n) {k : Nat}
    {restart : Option Bool} (hcaller : s.caller = .joining k restart)
    (hstarted : s.started = true) : Spends s := by
  have ho := hs.served.orderly
  have ha := hs.served.attended hs.thrown
  cases hhalted : s.halted with
  | true =>
      obtain ⟨i, p, strand, service, hthread⟩ := ha.halting hstarted hhalted
      exact spends_of_running hs hthread
  | false =>
      have hload : s.load ≠ 0 := by
        rw [ho.load, hcaller, hstarted]
        simp [Caller.expected]
      rcases exists_of_load hload with ⟨j, handler, hmem, hsystem⟩ | ⟨i, task, herrand⟩
      · obtain ⟨rfl, -⟩ := ho.queued j handler hmem hsystem
        obtain ⟨i, hhome, hstays⟩ := ha.manned (by rw [hcaller]; rfl) hhalted
        rw [← hhome] at hmem
        refine spends_of_stays hs hn hstays ?_ (List.ne_nil_of_mem hmem)
        rw [hhome]
        exact hhalted
      · exact spends_of_errand hs herrand

theorem Responsive.spends_joining (hs : Responsive s) {k : Nat} {restart : Option Bool}
    (hcaller : s.caller = .joining k restart) (hstarted : s.started = false) : Spends s := by
  by_cases hk : k < n
  · have hstopped := hs.joinable.swept.cleared (by rw [hcaller]; rfl) hstarted
      (home (⟨k, hk⟩ : Fin n))
    have hadvance (h : (workerStep s ⟨k, hk⟩ .advance).isSome = true) : Spends s :=
      spends_of_advance hs h (Or.inl hstarted)
    cases hthread : s.threads ⟨k, hk⟩ with
    | absent =>
        have hadmits : s.caller.admits s.started k := by
          rw [hcaller]
          exact Nat.le_refl k
        exact absurd hthread (hs.joinable.populated ⟨k, hk⟩ hadmits)
    | serving p =>
        apply hadvance
        cases p <;> simp [workerStep, hthread, hstopped]
    | running p strand job => exact spends_of_running hs hthread
    | checking p => exact hadvance (by simp [workerStep, hthread, hstarted])
    | exited => exact spends_of_caller hs (by simp [callerStep, hcaller, hk, hthread])
    | _ => exact hadvance (by simp [workerStep, hthread])
  · exact spends_of_caller hs (by simp [callerStep, hcaller, hk])

theorem Responsive.not_started (hs : Responsive s) {restart : Option Bool}
    (hcaller : s.caller = .awaitingStop restart) : s.started = false := by
  by_contra hstarted
  rw [Bool.not_eq_false] at hstarted
  have ha := hs.served.attended hs.thrown
  obtain ⟨i, p, strand, service, hthread⟩ := ha.halting hstarted (ha.joined restart hcaller)
  have habsent := hs.served.orderly.absent (i := i) (by simp [hcaller, Caller.admits])
  cases habsent.symm.trans hthread

theorem Responsive.spends (hs : Responsive s) (hn : 0 < n)
    (hbusy : ∀ returned, s.caller ≠ .idle returned) : Spends s := by
  have hcall := spends_of_caller hs
  cases hcaller : s.caller with
  | idle returned => exact absurd hcaller (hbusy returned)
  | start p =>
      apply hcall
      simp only [callerStep, hcaller]
      split <;> rfl
  | posting => exact hcall (by simp [callerStep, hcaller])
  | spawning k =>
      apply hcall
      simp only [callerStep, hcaller]
      split <;> rfl
  | awaitingStart => exact hs.spends_awaitingStart hn hcaller
  | stop restart =>
      apply hcall
      simp only [callerStep, hcaller]
      split <;> rfl
  | postingStop restart => exact hcall (by simp [callerStep, hcaller])
  | joining k restart =>
      cases hstarted : s.started with
      | true => exact hs.spends_stopping hn hcaller hstarted
      | false => exact hs.spends_joining hcaller hstarted
  | awaitingStop restart =>
      apply hcall
      simp only [callerStep, hcaller, hs.not_started hcaller]
      cases restart <;> rfl
  | renewing p => exact hcall (by simp [callerStep, hcaller])

/-! ## Runs -/

/--
Every call of `Start`, `Stop` and `Restart` can return from wherever a run has led, as long as
no handler has thrown and `Start` was never called on a stopped `io_service`: some steps of the
caller and of the workers take it to its end.  Whichever of these steps are taken, in any order,
at most `budget` of them are not the polling of a worker while the flag is set; without polling
they come to an end, and there the call has returned.
-/
theorem calls_return {threads : Nat} (hthreads : 1 ≤ threads) (pool : Bool)
    (ms : List (Move (serviceCount threads pool) threads))
    (hlive : ∀ t ∈ Steps.trace step (ofThreads threads pool) ms, startsStopped t = false)
    {s : State (serviceCount threads pool) threads}
    (hs : s ∈ Steps.states step (ofThreads threads pool) ms) (hthrown : s.thrown = false) :
    (∃ ms' s', (∀ move ∈ ms', Move.isOwn move = true) ∧ Steps.run step s ms' = some s' ∧
      ∃ returned, s'.caller = .idle returned) ∧
    (∀ ms' : List (Move (serviceCount threads pool) threads),
      (∀ move ∈ ms', Move.isOwn move = true) →
      ((Steps.trace step s ms').filter fun t => !idles t).length ≤ s.budget) ∧
    ∀ ms' s', (∀ move ∈ ms', Move.isOwn move = true) → Steps.run step s ms' = some s' →
      (∀ t ∈ Steps.trace step s ms', idles t = false) →
      ms'.length ≤ s.budget ∧
        ((∀ move, Move.isOwn move = true → step s' move = none) →
          ∃ returned, s'.caller = .idle returned) := by
  obtain ⟨hserved, hopen, hjoinable⟩ := Steps.states_invariant (f := step)
    (I := fun s => Served s ∧ Live s ∧ Joinable s) (P := fun t => startsStopped t = false)
    (fun t hpre hstep hcall => ⟨hpre.1.step hthreads hstep,
      hpre.2.1.step hpre.1.orderly hstep hcall, hpre.2.2.step hstep⟩)
    ⟨served_ofThreads threads pool, fun hopening => (by cases hopening),
      joinable_ofThreads threads pool⟩ hlive s hs
  have hresponsive : Responsive s := ⟨hserved, hopen, hjoinable, hthrown⟩
  have hvariant := budget_variant (m := serviceCount threads pool) hthreads
  have hprogress (s : State (serviceCount threads pool) threads) (hs : Responsive s)
      (hbusy : ¬∃ returned, s.caller = .idle returned) : Spends s :=
    hs.spends hthreads fun returned hidle => hbusy ⟨returned, hidle⟩
  refine ⟨hvariant.reaches hprogress hresponsive, fun ms' hown => ?_,
    fun ms' s' hown hrun hbusy => ⟨?_, fun hstuck => ?_⟩⟩
  · exact hvariant.bound hresponsive hown
  · exact Nat.le_trans (Nat.le_add_right _ _) (hvariant.run_length hresponsive hown hbusy hrun)
  · by_contra hcaller
    obtain ⟨move, next, hmove, hstep⟩ :=
      first_of_spends (hprogress s' (hvariant.run_keeps hresponsive hown hrun) hcaller)
    cases (hstuck move hmove).symm.trans hstep

theorem calls_return_restarting :
    ∃ s, Steps.run step (ofThreads 1 false) (startOne ++ [.call .restart, .caller, .caller]) =
        some s ∧ s.caller = .joining 0 (some false) ∧ s.started = true ∧ s.budget = 37 ∧
      (∃ ms' s', (∀ move ∈ ms', Move.isOwn move = true) ∧ Steps.run step s ms' = some s' ∧
        ∃ returned, s'.caller = .idle returned) ∧
      (∀ ms' : List (Move 1 1), (∀ move ∈ ms', Move.isOwn move = true) →
        ((Steps.trace step s ms').filter fun t => !idles t).length ≤ s.budget) ∧
      ∀ ms' s', (∀ move ∈ ms', Move.isOwn move = true) → Steps.run step s ms' = some s' →
        (∀ t ∈ Steps.trace step s ms', idles t = false) →
        ms'.length ≤ s.budget ∧
          ((∀ move, Move.isOwn move = true → step s' move = none) →
            ∃ returned, s'.caller = .idle returned) := by
  refine ⟨_, rfl, rfl, rfl, rfl, ?_⟩
  refine calls_return (by decide) false (startOne ++ [.call .restart, .caller, .caller])
    (fun t ht => ?_) (Steps.run_mem_states rfl) rfl
  have hall : (Steps.trace step (ofThreads 1 false)
      (startOne ++ [.call .restart, .caller, .caller])).all
      (fun t => !startsStopped t) = true := rfl
  simpa using List.all_eq_true.mp hall t ht

end AsioWrapper.Service
