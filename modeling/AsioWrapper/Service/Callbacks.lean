import AsioWrapper.Service.Serial
import AsioWrapper.Service.Starting

/-!
# The callbacks of the service

The handlers of `Start` and `Stop` go through the strand of the service, or to
an `io_service` with a single thread, and each ends with its callback.  So
`onStarted` and `onStopped` come one at a time and in turn.
-/

namespace AsioWrapper.Service

open AsioWrapper.Asio
open AsioWrapper.Foundation
open State

variable {m n : Nat} [NeZero m] {s s' : State m n} {i : Fin n}

/-! ## The handlers of the service itself -/

/-- The strand of a handler of `Start` or `Stop`, up to the return of its callback. -/
def Worker.own : Worker → Option (Option Nat)
  | running _ strand job => if job = .user then none else some strand
  | _ => none

structure OwnStrand (s : State m n) : Prop where
  queued : ∀ j, ∀ h ∈ (s.services j).queue, h.task.isSystem = true → h.strand = s.strand
  held : ∀ i strand, (s.threads i).own = some strand → home i = (0 : Fin m) ∧ strand = s.strand

theorem ownStrand_ofThreads (threads : Nat) (pool : Bool) :
    OwnStrand (ofThreads threads pool) where
  queued j h hmem := by simp [ofThreads, IoService.fresh] at hmem
  held i strand h := by cases h

omit [NeZero m] in
theorem Worker.holds_of_own {w : Worker} {strand : Option Nat} (h : w.own = some strand) :
    w.holds = some strand := by
  cases w with
  | running p held job =>
      simp only [own] at h
      split at h
      · cases h
      · exact h
  | _ => cases h

omit [NeZero m] in
theorem State.strand_congr (h : s'.strandRequired = s.strandRequired) : s'.strand = s.strand := by
  simp only [State.strand, h]

theorem OwnStrand.alone (hs : OwnStrand s) (hserial : Serial s) {k : Fin n}
    {strand strand' : Option Nat} (hi : (s.threads i).own = some strand)
    (hk : (s.threads k).own = some strand') : i = k := by
  obtain ⟨hhome, rfl⟩ := hs.held i strand hi
  obtain ⟨hhome', rfl⟩ := hs.held k strand' hk
  cases hrequired : s.strandRequired with
  | false => exact hserial.sole hrequired i k (hhome.trans hhome'.symm)
  | true =>
      have hstrand : s.strand = some 0 := by simp [State.strand, hrequired]
      rw [hstrand] at hi hk
      exact hserial.exclusive i k 0 (hhome.trans hhome'.symm) (Worker.holds_of_own hi)
        (Worker.holds_of_own hk)

theorem Works.own_cases (h : Works s i s') {strand : Option Nat}
    (hown : (s'.threads i).own = some strand) :
    (s.threads i).own = some strand ∨
      ∃ handler ∈ (s.services (home i)).queue, handler.task.isSystem = true ∧
        handler.strand = strand := by
  have hleave : ((s.leave i).threads i).own = none := by
    rw [leave_threads, setThread_self]
    rfl
  have hset {w : Worker} : ((s.setThread i w).threads i).own = w.own := by rw [setThread_self]
  -- a handler of the service goes on
  have hkept {p : Bool} {held : Option Nat} {job job' : Job}
      (h : s.threads i = .running p held job) (hjob : job ≠ .user) (hjob' : job' ≠ .user)
      (hown : ((s.setThread i (.running p held job')).threads i).own = some strand) :
      (s.threads i).own = some strand := by
    rw [setThread_self] at hown
    rw [h]
    simp only [Worker.own, if_neg hjob, if_neg hjob'] at hown ⊢
    exact hown
  cases h with
  | take h hlive hfront =>
      obtain ⟨hmem, hstrand⟩ := IoService.mem_of_front hfront
      have hown := hset.symm.trans hown
      simp only [Worker.own] at hown
      split at hown
      · cases hown
      · rename_i hjob
        cases hown
        refine Or.inr ⟨_, hmem, ?_, hstrand⟩
        rw [Task.isSystem, bne_iff_ne]
        rintro htask
        rw [htask] at hjob
        exact hjob rfl
  | ran => cases hleave.symm.trans hown
  | quit => cases hleave.symm.trans hown
  | fail => cases hleave.symm.trans hown
  | announce h hstarted => exact Or.inl (hkept h (by simp) (by simp) hown)
  | halt h hstarted => exact Or.inl (hkept h (by simp) (by simp) hown)
  | stopOne h hk => exact Or.inl (hkept h (by simp) (by simp) hown)
  | halted h hk => exact Or.inl (hkept h (by simp) (by simp) hown)
  | _ => cases hset.symm.trans hown

theorem Works.queue_mem (h : Works s i s') {j : Fin m} {handler : Handler Task}
    (hmem : handler ∈ (s'.services j).queue) : handler ∈ (s.services j).queue := by
  cases h with
  | take h hlive hfront =>
      simp only [setThread_services, modifyService_services] at hmem
      by_cases hj : j = home i
      · subst hj
        rw [Function.update_self] at hmem
        exact IoService.mem_of_mem_pop hmem
      · rwa [Function.update_of_ne hj] at hmem
  | ran => rwa [leave_queue] at hmem
  | quit => rwa [leave_queue] at hmem
  | fail => exact leave_queue (s := s) (i := i) j ▸ hmem
  | stopOne h hk => exact modifyService_queue (f := .stop) (fun _ => rfl) j ▸ hmem
  | _ => exact hmem

theorem OwnStrand.works (hs : OwnStrand s) (ho : Orderly s) (h : Works s i s') :
    OwnStrand s' := by
  have hstrand : s'.strand = s.strand := State.strand_congr h.strandRequired_eq
  constructor
  · intro j handler hmem
    rw [hstrand]
    exact hs.queued j handler (h.queue_mem hmem)
  · intro k strand hown
    rw [hstrand]
    by_cases hk : k = i
    · subst hk
      rcases h.own_cases hown with hown | ⟨handler, hmem, hsystem, rfl⟩
      · exact hs.held k strand hown
      · exact ⟨(ho.queued _ handler hmem hsystem).1, hs.queued _ handler hmem hsystem⟩
    · rw [h.others hk] at hown
      exact hs.held k strand hown

theorem OwnStrand.post (hs : OwnStrand s) {task : Task} {c : Caller} :
    OwnStrand { s.post task with caller := c } := by
  constructor
  · intro j handler hmem hsystem
    change handler ∈ (Function.update s.services 0 ((s.services 0).post ⟨s.strand, task⟩) j).queue
      at hmem
    by_cases hj : j = 0
    · subst hj
      rw [Function.update_self] at hmem
      rcases List.mem_append.mp hmem with hmem | hmem
      · exact hs.queued 0 handler hmem hsystem
      · rw [List.mem_singleton.mp hmem]
        rfl
    · rw [Function.update_of_ne hj] at hmem
      exact hs.queued j handler hmem hsystem
  · exact hs.held

theorem OwnStrand.calls (hs : OwnStrand s) (h : Calls s s') : OwnStrand s' := by
  have hheld {k : Fin n} {strand : Option Nat}
      (hk : s'.threads k = s.threads k ∨ (s'.threads k).holds = none)
      (hown : (s'.threads k).own = some strand) : (s.threads k).own = some strand := by
    rcases hk with hsame | hnone
    · rwa [hsame] at hown
    · cases hnone.symm.trans (Worker.holds_of_own hown)
  cases h with
  | post h => exact hs.post
  | postStop h => exact hs.post
  | spawn h hk =>
      exact ⟨hs.queued, fun k strand hown =>
        hs.held k strand (hheld ((Calls.spawn h hk).threads_cases k) hown)⟩
  | join h hk hexited =>
      exact ⟨hs.queued, fun k strand hown =>
        hs.held k strand (hheld ((Calls.join h hk hexited).threads_cases k) hown)⟩
  | renewed h => exact ⟨fun j handler hmem => by simp [IoService.fresh] at hmem, hs.held⟩
  | _ => exact ⟨hs.queued, hs.held⟩

theorem OwnStrand.step (hs : OwnStrand s) (ho : Orderly s) {move : Move m n}
    (h : step s move = some s') : OwnStrand s' := by
  have hstrand : s'.strand = s.strand := State.strand_congr (step_strandRequired h)
  cases step_changes h with
  | start hidle => exact ⟨hs.queued, hs.held⟩
  | stop hidle hcall => exact ⟨hs.queued, hs.held⟩
  | caller hcalls => exact hs.calls hcalls
  | worker hworks => exact hs.works ho hworks
  | submit hmove hsubmits =>
      constructor
      · intro j handler hmem hsystem
        rw [hstrand]
        obtain ⟨added, hqueue, huser⟩ := hsubmits.queue j
        rw [hqueue, List.mem_append] at hmem
        rcases hmem with hmem | hmem
        · exact hs.queued j handler hmem hsystem
        · rw [huser handler hmem] at hsystem
          cases hsystem
      · rw [hsubmits.threads, hstrand]
        exact hs.held

/-! ## The callbacks -/

inductive Notice where
  | started
  | stopped
  deriving DecidableEq, Repr

def Job.notice : Job → Option Notice
  | onStarted => some .started
  | onStopped => some .stopped
  | _ => none

def Worker.notice : Worker → Option Notice
  | running _ _ job => job.notice
  | _ => none

inductive Mark where
  | entered (notice : Notice)
  | left (notice : Notice)
  deriving DecidableEq, Repr

def mark (t : Transition (State m n) (Move m n)) : Option Mark :=
  match t.move with
  | .worker i _ =>
      match (t.pre.threads i).notice, (t.post.threads i).notice with
      | none, some notice => some (.entered notice)
      | some notice, none => some (.left notice)
      | _, _ => none
  | _ => none

def callbacks (ts : List (Transition (State m n) (Move m n))) : List Mark := ts.filterMap mark

def callbackCycle (k : Nat) : Mark :=
  match k % 4 with
  | 0 => .entered .started
  | 1 => .left .started
  | 2 => .entered .stopped
  | _ => .left .stopped

def Notice.task : Notice → Task
  | started => .start
  | stopped => .stop

omit [NeZero m] in
theorem Worker.own_of_notice {w : Worker} {notice : Notice} (h : w.notice = some notice) :
    ∃ strand, w.own = some strand := by
  cases w with
  | running p strand job =>
      refine ⟨strand, if_neg ?_⟩
      rintro rfl
      cases h
  | _ => cases h

omit [NeZero m] in
theorem Worker.own_of_errand {w : Worker} {task : Task} (h : w.errand = some task) :
    ∃ strand, w.own = some strand := by
  cases w with
  | running p strand job =>
      refine ⟨strand, if_neg ?_⟩
      rintro rfl
      cases h
  | _ => cases h

omit [NeZero m] in
theorem Worker.notice_of_errand {w : Worker} {task : Task} (h : w.errand = some task) :
    w.notice = none := by
  cases w with
  | running p strand job => cases job <;> simp_all [errand, Job.errand, notice, Job.notice]
  | _ => rfl

theorem Works.notice_cases (h : Works s i s') :
    s'.started = s.started ∧ (s'.threads i).notice = none ∨
      ∃ notice : Notice, (s.threads i).errand = some notice.task ∧
        (s'.threads i).notice = some notice ∧ s'.started = decide (notice = .started) := by
  have hset {w : Worker} : ((s.setThread i w).threads i).notice = w.notice := by
    rw [setThread_self]
  have hleave : ((s.leave i).threads i).notice = none := by
    rw [leave_threads, setThread_self]
    rfl
  cases h with
  | @take p strand handler h hlive hfront =>
      refine Or.inl ⟨rfl, hset.trans ?_⟩
      cases htask : handler.task <;> rfl
  | ran => exact Or.inl ⟨leave_started, hleave⟩
  | quit => exact Or.inl ⟨leave_started, hleave⟩
  | fail => exact Or.inl ⟨leave_started, hleave⟩
  | announce h hstarted => exact Or.inr ⟨.started, by rw [h]; rfl, hset, rfl⟩
  | halted h hk => exact Or.inr ⟨.stopped, by rw [h]; rfl, hset, rfl⟩
  | _ => exact Or.inl ⟨rfl, hset⟩

def Flagged (s : State m n) : Prop :=
  ∀ i notice, (s.threads i).notice = some notice → s.started = decide (notice = .started)

theorem Calls.started_eq (h : Calls s s') : s'.started = s.started := by
  cases h <;> rfl

theorem Calls.notice_eq (ho : Orderly s) (h : Calls s s') (k : Fin n) :
    (s'.threads k).notice = (s.threads k).notice := by
  have hset {a : Fin n} {w : Worker} (hold : (s.threads a).notice = none)
      (hnew : w.notice = none) :
      ((s.setThread a w).threads k).notice = (s.threads k).notice := by
    by_cases hk : k = a
    · subst hk
      rw [setThread_self, hnew, hold]
    · rw [setThread_of_ne hk]
  cases h with
  | spawn h hk =>
      have habsent := ho.absent (i := ⟨_, hk⟩) (by simp [h, Caller.admits])
      exact hset (by rw [habsent]; rfl) rfl
  | join h hk hexited => exact hset (by rw [hexited]; rfl) rfl
  | _ => rfl

structure Mannered (s : State m n) : Prop where
  orderly : Orderly s
  serial : Serial s
  ownStrand : OwnStrand s
  flagged : Flagged s

theorem Mannered.notice_other (hs : Mannered s) {strand : Option Nat}
    (hown : (s.threads i).own = some strand) {k : Fin n} (hk : k ≠ i) :
    (s.threads k).notice = none := by
  cases hnotice : (s.threads k).notice with
  | none => rfl
  | some notice =>
      obtain ⟨strand', hown'⟩ := Worker.own_of_notice hnotice
      exact absurd (hs.ownStrand.alone hs.serial hown' hown) hk

theorem Mannered.flagged_works (hs : Mannered s) (h : Works s i s') : Flagged s' := by
  intro k notice hnotice
  by_cases hk : k = i
  · subst hk
    rcases h.notice_cases with ⟨-, hnone⟩ | ⟨entered, -, hentered, hstarted⟩
    · cases hnone.symm.trans hnotice
    · cases hentered.symm.trans hnotice
      exact hstarted
  · rw [h.others hk] at hnotice
    rcases h.notice_cases with ⟨hstarted, -⟩ | ⟨entered, herrand, -, -⟩
    · rw [hstarted]
      exact hs.flagged k notice hnotice
    · obtain ⟨strand, hown⟩ := Worker.own_of_errand herrand
      cases (hs.notice_other hown hk).symm.trans hnotice

theorem Mannered.step (hs : Mannered s) {move : Move m n} (h : step s move = some s') :
    Mannered s' := by
  refine ⟨hs.orderly.step h, hs.serial.step h, hs.ownStrand.step hs.orderly h, ?_⟩
  cases step_changes h with
  | start hidle => exact hs.flagged
  | stop hidle hcall => exact hs.flagged
  | caller hcalls =>
      intro k notice hnotice
      rw [hcalls.notice_eq hs.orderly] at hnotice
      rw [hcalls.started_eq]
      exact hs.flagged k notice hnotice
  | worker hworks => exact hs.flagged_works hworks
  | submit hmove hsubmits =>
      intro k notice hnotice
      rw [hsubmits.threads] at hnotice
      rw [hsubmits.started]
      exact hs.flagged k notice hnotice

/-- The callbacks so far are the first `k` of the cycle, and the state is the one after them. -/
structure TakenTurns (k : Nat) (ts : List (Transition (State m n) (Move m n)))
    (s : State m n) : Prop where
  callbacks : callbacks ts = (List.range k).map callbackCycle
  started : s.started = true ↔ k % 4 = 1 ∨ k % 4 = 2
  inside : (∃ i, (s.threads i).notice.isSome = true) ↔ k % 2 = 1

variable {ts : List (Transition (State m n) (Move m n))} {move : Move m n} {k : Nat}

omit [NeZero m] in
theorem TakenTurns.unmarked (hs : TakenTurns k ts s) (hmark : mark ⟨s, move, s'⟩ = none)
    (hstarted : s'.started = s.started)
    (hnotice : ∀ i, (s'.threads i).notice = (s.threads i).notice) :
    TakenTurns k (ts ++ [⟨s, move, s'⟩]) s' where
  callbacks := by
    rw [← hs.callbacks]
    simp [Service.callbacks, hmark]
  started := by rw [hstarted, hs.started]
  inside := by simp only [hnotice, hs.inside]

omit [NeZero m] in
theorem TakenTurns.marked (hs : TakenTurns k ts s)
    (hmark : mark ⟨s, move, s'⟩ = some (callbackCycle k))
    (hstarted : s'.started = true ↔ (k + 1) % 4 = 1 ∨ (k + 1) % 4 = 2)
    (hinside : (∃ i, (s'.threads i).notice.isSome = true) ↔ (k + 1) % 2 = 1) :
    TakenTurns (k + 1) (ts ++ [⟨s, move, s'⟩]) s' where
  callbacks := by
    rw [List.range_succ, List.map_append, ← hs.callbacks]
    simp [Service.callbacks, hmark]
  started := hstarted
  inside := hinside

theorem callbackCycle_entered (notice : Notice) (heven : k % 2 = 0)
    (hflag : notice = .stopped ↔ k % 4 = 1 ∨ k % 4 = 2) :
    callbackCycle k = .entered notice := by
  cases notice with
  | started =>
      have hk : k % 4 = 0 := by
        simp only [reduceCtorEq, false_iff, not_or] at hflag
        omega
      simp [callbackCycle, hk]
  | stopped =>
      have hk : k % 4 = 2 := by
        simp only [true_iff] at hflag
        omega
      simp [callbackCycle, hk]

private theorem callbackCycle_left (notice : Notice) (hodd : k % 2 = 1)
    (hflag : notice = .started ↔ k % 4 = 1 ∨ k % 4 = 2) :
    callbackCycle k = .left notice := by
  cases notice with
  | started =>
      have hk : k % 4 = 1 := by
        simp only [true_iff] at hflag
        omega
      simp [callbackCycle, hk]
  | stopped =>
      have hk : k % 4 = 3 := by
        simp only [reduceCtorEq, false_iff, not_or] at hflag
        omega
      simp [callbackCycle, hk]

theorem TakenTurns.enter (hs : TakenTurns k ts s) (hm : Mannered s) {turn : Turn}
    (h : Works s i s') {notice : Notice} (herrand : (s.threads i).errand = some notice.task)
    (hnotice : (s'.threads i).notice = some notice)
    (hstarted : s'.started = decide (notice = .started)) :
    TakenTurns (k + 1) (ts ++ [⟨s, .worker i turn, s'⟩]) s' := by
  have hbefore := Worker.notice_of_errand herrand
  obtain ⟨strand, hown⟩ := Worker.own_of_errand herrand
  have heven : k % 2 = 0 := by
    have hnone : ¬∃ a, (s.threads a).notice.isSome = true := by
      rintro ⟨a, ha⟩
      by_cases hai : a = i
      · subst hai
        rw [hbefore] at ha
        cases ha
      · rw [hm.notice_other hown hai] at ha
        cases ha
    rw [hs.inside] at hnone
    omega
  have hflag : notice = .stopped ↔ k % 4 = 1 ∨ k % 4 = 2 := by
    rw [← hs.started, hm.orderly.started_of_errand herrand]
    cases notice <;> simp [Notice.task]
  refine hs.marked ?_ ?_ ?_
  · simp [mark, hbefore, hnotice, callbackCycle_entered notice heven hflag]
  · rw [hstarted]
    cases notice with
    | started =>
        simp only [reduceCtorEq, false_iff, not_or] at hflag
        simp only [decide_true, true_iff]
        omega
    | stopped =>
        simp only [true_iff] at hflag
        simp only [reduceCtorEq, decide_false, Bool.false_eq_true, false_iff, not_or]
        omega
  · have hinside : ∃ a, (s'.threads a).notice.isSome = true := ⟨i, by rw [hnotice]; rfl⟩
    simp only [hinside, true_iff]
    omega

theorem TakenTurns.leave (hs : TakenTurns k ts s) (hm : Mannered s) {turn : Turn}
    (h : Works s i s') {notice : Notice} (hbefore : (s.threads i).notice = some notice)
    (hnotice : (s'.threads i).notice = none) (hstarted : s'.started = s.started) :
    TakenTurns (k + 1) (ts ++ [⟨s, .worker i turn, s'⟩]) s' := by
  obtain ⟨strand, hown⟩ := Worker.own_of_notice hbefore
  have hodd : k % 2 = 1 := hs.inside.mp ⟨i, by rw [hbefore]; rfl⟩
  have hflag : notice = .started ↔ k % 4 = 1 ∨ k % 4 = 2 := by
    rw [← hs.started, hm.flagged i notice hbefore, decide_eq_true_eq]
  refine hs.marked ?_ ?_ ?_
  · simp [mark, hbefore, hnotice, callbackCycle_left notice hodd hflag]
  · rw [hstarted, hs.started]
    omega
  · have hnone : ¬∃ a, (s'.threads a).notice.isSome = true := by
      rintro ⟨a, ha⟩
      by_cases hai : a = i
      · subst hai
        rw [hnotice] at ha
        cases ha
      · rw [h.others hai, hm.notice_other hown hai] at ha
        cases ha
    simp only [hnone, false_iff]
    omega

theorem TakenTurns.step (hs : TakenTurns k ts s) (hm : Mannered s)
    (h : step s move = some s') : ∃ k', TakenTurns k' (ts ++ [⟨s, move, s'⟩]) s' := by
  cases move with
  | worker i turn =>
      have hworks := workerStep_works h
      rcases hworks.notice_cases with ⟨hstarted, hnone⟩ | ⟨notice, herrand, hnotice, hstarted⟩
      · cases hbefore : (s.threads i).notice with
        | none =>
            refine ⟨k, hs.unmarked (by simp [mark, hbefore, hnone]) hstarted fun a => ?_⟩
            by_cases hai : a = i
            · subst hai
              rw [hnone, hbefore]
            · rw [hworks.others hai]
        | some notice => exact ⟨k + 1, hs.leave hm hworks hbefore hnone hstarted⟩
      · exact ⟨k + 1, hs.enter hm hworks herrand hnotice hstarted⟩
  | caller =>
      have hcalls := callerStep_calls h
      exact ⟨k, hs.unmarked rfl hcalls.started_eq (hcalls.notice_eq hm.orderly)⟩
  | call call =>
      cases step_changes h with
      | start hidle => exact ⟨k, hs.unmarked rfl rfl fun _ => rfl⟩
      | stop hidle hcall => exact ⟨k, hs.unmarked rfl rfl fun _ => rfl⟩
      | submit hmove _ => exact absurd rfl (hmove call)
  | submit j strand =>
      cases h
      exact ⟨k, hs.unmarked rfl rfl fun _ => rfl⟩
  | initiate j =>
      cases h
      exact ⟨k, hs.unmarked rfl rfl fun _ => rfl⟩
  | complete j strand =>
      simp only [Service.step] at h
      split at h
      · cases h
      · cases h
        exact ⟨k, hs.unmarked rfl rfl fun _ => rfl⟩
  | getAsioService =>
      cases h
      exact ⟨k, hs.unmarked rfl rfl fun _ => rfl⟩

/-! ## Runs -/

end AsioWrapper.Service
