import AsioWrapper.Service.Returning
import AsioWrapper.Service.Starting

/-!
# Services on an `io_service` of the application

A service made from an `io_service` has no thread of its own: the handlers of
its `Start` and `Stop` are run by whoever runs that `io_service`, which several
services may share.  The stop handler of one of them stops it for all, and
`Restart` puts an `io_service` in its place that nobody runs.
-/

namespace AsioWrapper.Service

open AsioWrapper.Asio
open AsioWrapper.Foundation
open State

def ofService (strands : Bool) : State 1 0 where
  services _ := .fresh
  threads _ := .absent
  strandRequired := strands
  polling := false
  started := false
  roundRobinIndex := 0
  generation := 0
  caller := .idle none
  thrown := false

structure Engagement (r : Nat) where
  owner : Fin r
  strand : Option Nat
  job : Job
  deriving DecidableEq, Repr

/-- `io` holds the handlers of `r` services, each with its owner.  A service that has replaced
its `io_service` keeps the new one itself; nobody runs it. -/
structure Adopted (r k : Nat) where
  io : IoService (Fin r × Task)
  members : Fin r → State 1 0
  threads : Fin k → Option (Engagement r)

inductive AdoptedMove (r k : Nat) where
  | call (owner : Fin r) (call : Call)
  | caller (owner : Fin r)
  | take (thread : Fin k) (strand : Option Nat)
  | advance (thread : Fin k)
  | throw (thread : Fin k)
  | halt
  | reset
  deriving DecidableEq, Repr

variable {r k : Nat}

def State.staffed (s : State 1 0) (w : Worker) : State 1 1 where
  services := s.services
  threads _ := w
  strandRequired := s.strandRequired
  polling := s.polling
  started := s.started
  roundRobinIndex := s.roundRobinIndex
  generation := s.generation
  caller := s.caller
  thrown := s.thrown

def State.unstaffed (s : State 1 1) : State 1 0 where
  services := s.services
  threads _ := .absent
  strandRequired := s.strandRequired
  polling := s.polling
  started := s.started
  roundRobinIndex := s.roundRobinIndex
  generation := s.generation
  caller := s.caller
  thrown := s.thrown

def State.held (s : State 1 0) : IoService Task := s.services ⟨0, Nat.zero_lt_one⟩

namespace Caller

private theorem knows_of_permits {c : Caller} {task : Task} (h : c.permits task = true) :
    c.knows = none := by
  cases c <;> cases task <;> simp_all [permits, knows]

end Caller

namespace Adopted

def owned (j : Fin r) (handler : Handler Task) : Handler (Fin r × Task) :=
  ⟨handler.strand.map fun _ => j.val, (j, handler.task)⟩

/-- Service `j` goes on to `s`.  What it has done to the `io_service` it holds is done to the
one of the application, unless it has replaced that. -/
def deliver (a : Adopted r k) (j : Fin r) (s : State 1 0) : Adopted r k :=
  if s.generation = 0 then
    { a with
      io := { a.io with
        stopped := a.io.stopped || s.held.stopped
        queue := a.io.queue ++ s.held.queue.map (owned j) }
      members := Function.update a.members j { s with services := fun _ => .fresh } }
  else
    { a with members := Function.update a.members j s }

def busy (a : Adopted r k) (strand : Option Nat) : Bool :=
  decide (∃ i, ((a.threads i).any fun e => strand.isSome && e.strand == strand) = true)

def handled (s : State 1 0) (e : Engagement r) : State 1 1 :=
  handlerStep (s.staffed (.running false e.strand e.job)) ⟨0, Nat.zero_lt_one⟩ false e.strand e.job

def remaining (e : Engagement r) : Worker → Option (Engagement r)
  | .running _ _ job => some { e with job := job }
  | _ => none

def step (a : Adopted r k) : AdoptedMove r k → Option (Adopted r k)
  | .call j call => (callStep (a.members j) call).map (a.deliver j)
  | .caller j => (@callerStep 1 0 ⟨Nat.one_ne_zero⟩ (a.members j)).map (a.deliver j)
  | .take i strand =>
      if (a.threads i).isSome || a.io.stopped || a.busy strand then
        none
      else
        (a.io.front strand).map fun handler =>
          { a with
            io := a.io.pop strand
            threads := Function.update a.threads i
              (some ⟨handler.task.1, strand, handler.task.2.job⟩) }
  | .advance i =>
      (a.threads i).map fun e =>
        { a.deliver e.owner (handled (a.members e.owner) e).unstaffed with
          threads := Function.update a.threads i
            (remaining e ((handled (a.members e.owner) e).threads ⟨0, Nat.zero_lt_one⟩)) }
  | .throw i =>
      match a.threads i with
      | some e => if e.job.throws then
          some { a with threads := Function.update a.threads i none } else none
      | none => none
  | .halt => some { a with io := a.io.stop }
  | .reset => some { a with io := { a.io with stopped := false } }

def construct (strands : Fin r → Bool) (stopped : Bool) : Adopted r k where
  io := { IoService.fresh with stopped := stopped }
  members j := ofService (strands j)
  threads _ := none

/-! ## The handlers of one service -/

section Sound

variable {a : Adopted r k} {j j' : Fin r} {s : State 1 0} {task : Task}

def weight (j : Fin r) : Option (Engagement r) → Nat
  | some e => if decide (e.owner = j) && e.job.errand.isSome then 1 else 0
  | none => 0

def isErrand (j : Fin r) (handler : Handler (Fin r × Task)) : Bool :=
  decide (handler.task.1 = j) && handler.task.2.isSystem

def load (a : Adopted r k) (j : Fin r) : Nat :=
  a.io.queue.countP (isErrand j) + ∑ i, weight j (a.threads i)

def Under (a : Adopted r k) (j : Fin r) (task : Task) : Prop :=
  (∃ handler ∈ a.io.queue, isErrand j handler = true ∧ handler.task.2 = task) ∨
    ∃ i e, a.threads i = some e ∧ e.owner = j ∧ e.job.errand = some task

theorem not_under_of_load (h : a.load j = 0) : ¬a.Under j task := by
  unfold load at h
  rintro (⟨handler, hmem, hisErrand, -⟩ | ⟨i, e, hthread, howner, herrand⟩)
  · have hnone := List.countP_eq_zero.mp (Nat.eq_zero_of_add_eq_zero_right h) handler hmem
    exact hnone hisErrand
  · have hsum := Nat.eq_zero_of_add_eq_zero_left h
    have hzero := Finset.sum_eq_zero_iff.mp hsum i (Finset.mem_univ i)
    simp [weight, hthread, howner, herrand] at hzero

/-- What is known of service `j` and of its handlers. -/
structure Sound (j : Fin r) (a : Adopted r k) : Prop where
  load : a.load j = if (a.members j).generation = 0 then
    (a.members j).caller.expected (a.members j).started else 0
  permits : ∀ task, a.Under j task → (a.members j).caller.permits task = true
  knows : ∀ b, (a.members j).caller.knows = some b → (a.members j).started = b
  attached : (a.members j).generation = 0 → (a.members j).held = .fresh
  detached : (a.members j).generation ≠ 0 →
    (a.members j).started = false ∧ (a.members j).caller.opening = true

private theorem sound_construct (strands : Fin r → Bool) (stopped : Bool) :
    Sound j (construct strands stopped : Adopted r k) where
  load := by
    have hthreads : ∑ i, weight j ((construct strands stopped : Adopted r k).threads i) = 0 :=
      Finset.sum_eq_zero fun i _ => rfl
    rw [Adopted.load, hthreads]
    rfl
  permits task hunder := by
    rcases hunder with ⟨handler, hmem, -⟩ | ⟨i, e, hthread, -⟩
    · cases hmem
    · cases hthread
  knows b h := by cases h
  attached _ := rfl
  detached h := absurd rfl h

theorem Sound.congr (ha : Sound j a) {a' : Adopted r k} (hmember : a'.members j = a.members j)
    (hload : a'.load j = a.load j) (hunder : ∀ task, a'.Under j task → a.Under j task) :
    Sound j a' where
  load := by rw [hload, hmember, ha.load]
  permits task h := by
    rw [hmember]
    exact ha.permits task (hunder task h)
  knows := hmember ▸ ha.knows
  attached := hmember ▸ ha.attached
  detached := hmember ▸ ha.detached

theorem deliver_threads : (a.deliver j s).threads = a.threads := by
  unfold deliver
  split <;> rfl

theorem deliver_members_of_ne (hne : j ≠ j') : (a.deliver j' s).members j = a.members j := by
  unfold deliver
  split
  · exact Function.update_of_ne hne _ _
  · exact Function.update_of_ne hne _ _

theorem not_isErrand_owned (hne : j ≠ j') (handler : Handler Task) :
    isErrand j (owned j' handler) = false := by
  simp [isErrand, owned, hne.symm]

private theorem load_deliver_of_ne (hne : j ≠ j') : (a.deliver j' s).load j = a.load j := by
  have hcount : (a.deliver j' s).io.queue.countP (isErrand j) =
      a.io.queue.countP (isErrand j) := by
    unfold deliver
    split
    · have hnone : (s.held.queue.map (owned j')).countP (isErrand j) = 0 := by
        refine List.countP_eq_zero.mpr fun handler hmem => ?_
        obtain ⟨posted, -, rfl⟩ := List.mem_map.mp hmem
        rw [not_isErrand_owned hne]
        exact Bool.false_ne_true
      rw [List.countP_append, hnone, Nat.add_zero]
    · rfl
  rw [load, load, hcount, deliver_threads]

private theorem under_deliver_of_ne (hne : j ≠ j') (h : (a.deliver j' s).Under j task) :
    a.Under j task := by
  rcases h with ⟨handler, hmem, hisErrand, htask⟩ | hthread
  · refine Or.inl ⟨handler, ?_, hisErrand, htask⟩
    unfold deliver at hmem
    split at hmem
    · rcases List.mem_append.mp hmem with hmem | hmem
      · exact hmem
      · obtain ⟨posted, -, rfl⟩ := List.mem_map.mp hmem
        rw [not_isErrand_owned hne] at hisErrand
        cases hisErrand
    · exact hmem
  · rw [deliver_threads] at hthread
    exact Or.inr hthread

theorem Sound.deliver_other (ha : Sound j a) (hne : j ≠ j') : Sound j (a.deliver j' s) :=
  ha.congr (deliver_members_of_ne hne) (load_deliver_of_ne hne)
    fun _ => under_deliver_of_ne hne

private theorem isErrand_owned (handler : Handler Task) :
    isErrand j (owned j handler) = handler.task.isSystem := by
  simp [isErrand, owned]

theorem deliver_attached (hgen : s.generation = 0) :
    (a.deliver j s).members j = { s with services := fun _ => .fresh } ∧
      (a.deliver j s).io.queue = a.io.queue ++ s.held.queue.map (owned j) := by
  rw [deliver, if_pos hgen]
  exact ⟨Function.update_self .., rfl⟩

theorem deliver_detached (hgen : s.generation ≠ 0) :
    (a.deliver j s).members j = s ∧ (a.deliver j s).io = a.io := by
  rw [deliver, if_neg hgen]
  exact ⟨Function.update_self .., rfl⟩

theorem Sound.deliver_attached (hgen : s.generation = 0)
    (hload : a.load j + queuedErrands s.held = s.caller.expected s.started)
    (hpermits : ∀ task, a.Under j task → s.caller.permits task = true)
    (hposted : ∀ handler ∈ s.held.queue, handler.task.isSystem = true →
      s.caller.permits handler.task = true)
    (hknows : ∀ b, s.caller.knows = some b → s.started = b) : Sound j (a.deliver j s) := by
  obtain ⟨hmember, hqueue⟩ := Adopted.deliver_attached (a := a) (j := j) hgen
  refine ⟨?_, fun task hunder => ?_, by rw [hmember]; exact hknows, fun _ => by rw [hmember]; rfl,
    fun hne => absurd (by rw [hmember]; exact hgen) hne⟩
  · have hcount : (s.held.queue.map (owned j)).countP (isErrand j) = queuedErrands s.held := by
      rw [List.countP_map, queuedErrands]
      exact List.countP_congr fun handler _ => by simp [isErrand_owned]
    rw [hmember, if_pos (by exact hgen), Adopted.load, hqueue, deliver_threads, List.countP_append,
      hcount]
    refine Eq.trans ?_ hload
    rw [Adopted.load]
    omega
  · rw [hmember]
    rcases hunder with ⟨handler, hmem, hisErrand, rfl⟩ | hthread
    · rw [hqueue] at hmem
      rcases List.mem_append.mp hmem with hmem | hmem
      · exact hpermits _ (Or.inl ⟨handler, hmem, hisErrand, rfl⟩)
      · obtain ⟨posted, hposts, rfl⟩ := List.mem_map.mp hmem
        rw [isErrand_owned] at hisErrand
        exact hposted posted hposts hisErrand
    · rw [deliver_threads] at hthread
      exact hpermits task (Or.inr hthread)

theorem Sound.deliver_detached (hgen : s.generation ≠ 0) (hload : a.load j = 0)
    (hstarted : s.started = false) (hopening : s.caller.opening = true) :
    Sound j (a.deliver j s) := by
  obtain ⟨hmember, hio⟩ := Adopted.deliver_detached (a := a) (j := j) hgen
  have hsame : (a.deliver j s).load j = a.load j := by
    rw [Adopted.load, hio, deliver_threads]
    rfl
  refine ⟨?_, fun task hunder => absurd hunder (not_under_of_load (hsame.trans hload)), ?_,
    fun hzero => absurd (by rw [← hmember]; exact hzero) hgen, fun _ => ?_⟩
  · rw [hmember, if_neg hgen, hsame, hload]
  · rw [hmember]
    intro b hb
    cases hcaller : s.caller <;> simp_all [Caller.knows, Caller.opening]
  · rw [hmember]
    exact ⟨hstarted, hopening⟩

theorem Sound.attached_of (ha : Sound j a) (h : (a.members j).caller.opening = false) :
    (a.members j).generation = 0 := by
  by_contra hgen
  cases h.symm.trans (ha.detached hgen).2

theorem Sound.proceed (ha : Sound j a) (hgen : (a.members j).generation = 0) {c : Caller}
    {p : Bool} {index : Nat}
    (hexpected : c.expected (a.members j).started =
      (a.members j).caller.expected (a.members j).started)
    (hpermits : ∀ task, a.Under j task → c.permits task = true)
    (hknows : ∀ b, c.knows = some b → (a.members j).started = b) :
    Sound j (a.deliver j
      { a.members j with polling := p, roundRobinIndex := index, caller := c }) := by
  have hheld : State.held { a.members j with polling := p, roundRobinIndex := index, caller := c } =
      .fresh := ha.attached hgen
  refine .deliver_attached hgen ?_ hpermits (by simp [hheld, IoService.fresh]) hknows
  rw [hheld, ha.load, if_pos hgen]
  exact hexpected.symm

theorem Sound.advance_idle (ha : Sound j a) (hgen : (a.members j).generation = 0) {c : Caller}
    {p : Bool} {index : Nat}
    (hbefore : (a.members j).caller.expected (a.members j).started = 0)
    (hafter : c.expected (a.members j).started = 0)
    (hknows : ∀ b, c.knows = some b → (a.members j).started = b) :
    Sound j (a.deliver j
      { a.members j with polling := p, roundRobinIndex := index, caller := c }) := by
  have hload : a.load j = 0 := by rw [ha.load, if_pos hgen, hbefore]
  exact ha.proceed hgen (hafter.trans hbefore.symm)
    (fun task hunder => absurd hunder (not_under_of_load hload)) hknows

theorem Sound.call (ha : Sound j a) {call : Call} (h : callStep (a.members j) call = some s) :
    Sound j (a.deliver j s) := by
  have hstep : Service.step (a.members j) (.call call) = some s := h
  cases step_changes hstep with
  | start hidle =>
      exact ha.advance_idle (ha.attached_of (by rw [hidle]; rfl)) (by rw [hidle]; rfl) rfl
        fun b hb => by cases hb
  | stop hidle hcall =>
      exact ha.advance_idle (ha.attached_of (by rw [hidle]; rfl)) (by rw [hidle]; rfl) rfl
        fun b hb => by cases hb
  | submit hmove _ => exact absurd rfl (hmove call)

theorem Sound.post (ha : Sound j a) (hgen : (a.members j).generation = 0) {c : Caller}
    (hsystem : task.isSystem = true)
    (hbefore : (a.members j).caller.expected (a.members j).started = 0)
    (hafter : c.expected (a.members j).started = 1) (hpermits : c.permits task = true)
    (hknows : c.knows = none) :
    Sound j (a.deliver j { (a.members j).post task with caller := c }) := by
  have hload : a.load j = 0 := by rw [ha.load, if_pos hgen, hbefore]
  have hheld : State.held { (a.members j).post task with caller := c } =
      IoService.fresh.post ⟨(a.members j).strand, task⟩ := by
    rw [← ha.attached hgen]
    change Function.update (a.members j).services 0 _ 0 = _
    rw [Function.update_self]
    rfl
  refine .deliver_attached hgen ?_ (fun _ hunder => absurd hunder (not_under_of_load hload)) ?_
    fun b hb => ?_
  · rw [hheld, hload, queuedErrands_post, hsystem]
    exact hafter.symm
  · rw [hheld]
    intro handler hmem _
    obtain rfl := List.mem_singleton.mp hmem
    exact hpermits
  · cases hknows.symm.trans hb

theorem Sound.caller (ha : Sound j a) (h : Calls (a.members j) s) : Sound j (a.deliver j s) := by
  by_cases hgen : (a.members j).generation = 0
  · cases h with
    | alreadyStarted h hstarted =>
        exact ha.advance_idle hgen (by rw [h]; rfl) rfl fun b hb => by cases hb
    | prepare h hstarted =>
        refine ha.advance_idle hgen (by rw [h]; rfl) rfl fun b hb => ?_
        cases hb
        exact hstarted
    | post h =>
        have hstarted := ha.knows false (by rw [h]; rfl)
        exact ha.post hgen rfl (by rw [h]; rfl) (by rw [hstarted]; rfl) rfl rfl
    | spawn h hk => exact absurd hk (Nat.not_lt_zero _)
    | spawned h hk =>
        refine ha.proceed hgen (by rw [h]; rfl) (fun task hunder => ?_) fun b hb => by cases hb
        have hpermits := ha.permits task hunder
        rw [h] at hpermits
        cases task <;> exact hpermits
    | started h hstarted =>
        exact ha.advance_idle hgen (by rw [h, hstarted]; rfl) rfl fun b hb => by cases hb
    | notStarted h hstarted =>
        exact ha.advance_idle hgen (by rw [h]; rfl) rfl fun b hb => by cases hb
    | accept h hstarted =>
        refine ha.advance_idle hgen (by rw [h]; rfl) rfl fun b hb => ?_
        cases hb
        exact hstarted
    | postStop h =>
        have hstarted := ha.knows true (by rw [h]; rfl)
        exact ha.post hgen rfl (by rw [h]; rfl) (by rw [hstarted]; rfl) rfl rfl
    | join h hk hexited => exact absurd hk (Nat.not_lt_zero _)
    | joined h hk =>
        refine ha.proceed hgen (by rw [h]; rfl) (fun task hunder => ?_) fun b hb => by cases hb
        have hpermits := ha.permits task hunder
        rw [h] at hpermits
        cases task <;> exact hpermits
    | stopped h hstarted =>
        exact ha.advance_idle hgen (by rw [h, hstarted]; rfl) rfl fun b hb => by cases hb
    | renew h hstarted =>
        refine ha.advance_idle hgen (by rw [h, hstarted]; rfl) rfl fun b hb => ?_
        cases hb
        exact hstarted
    | renewed h =>
        have hload := ha.load
        rw [if_pos hgen, h] at hload
        exact .deliver_detached (Nat.succ_ne_zero _) hload (ha.knows false (by rw [h]; rfl)) rfl
  · obtain ⟨hstarted, hopening⟩ := ha.detached hgen
    have hload := ha.load
    rw [if_neg hgen] at hload
    cases h with
    | prepare h _ => exact .deliver_detached hgen hload hstarted rfl
    | post h => exact .deliver_detached hgen hload hstarted rfl
    | spawn h hk => exact absurd hk (Nat.not_lt_zero _)
    | spawned h hk => exact .deliver_detached hgen hload hstarted rfl
    | _ => simp_all [Caller.opening]

/-! ## The threads of the application -/

def errandOf (engaged : Option (Engagement r)) : Option Task := engaged.bind fun e => e.job.errand

private theorem weight_eq {engaged : Option (Engagement r)}
    (h : ∀ e, engaged = some e → e.owner = j) :
    weight j engaged = if (errandOf engaged).isSome then 1 else 0 := by
  cases engaged with
  | none => rfl
  | some e =>
      obtain rfl := h e rfl
      cases herrand : e.job.errand <;> simp [weight, errandOf, herrand]

private theorem weight_of_ne {engaged : Option (Engagement r)}
    (h : ∀ e, engaged = some e → e.owner ≠ j) : weight j engaged = 0 := by
  cases engaged with
  | none => rfl
  | some e => simp [weight, h e rfl]

def engage (a : Adopted r k) (i : Fin k) (engaged : Option (Engagement r)) : Adopted r k :=
  { a with threads := Function.update a.threads i engaged }

theorem load_engage (i : Fin k) (engaged : Option (Engagement r)) :
    (a.engage i engaged).load j + weight j (a.threads i) = a.load j + weight j engaged := by
  have hsum := sum_update a.threads i engaged (weight j)
  simp only [load, engage]
  omega

theorem under_engage {i : Fin k} {engaged : Option (Engagement r)}
    (h : (a.engage i engaged).Under j task) :
    a.Under j task ∨ ∃ e, engaged = some e ∧ e.owner = j ∧ e.job.errand = some task := by
  rcases h with hqueued | ⟨i', e, hthread, hrest⟩
  · exact Or.inl (Or.inl hqueued)
  · change Function.update a.threads i engaged i' = some e at hthread
    by_cases hi : i' = i
    · rw [hi, Function.update_self] at hthread
      exact Or.inr ⟨e, hthread, hrest⟩
    · rw [Function.update_of_ne hi] at hthread
      exact Or.inl (Or.inr ⟨i', e, hthread, hrest⟩)

theorem Sound.engage (ha : Sound j a) {i : Fin k} {engaged : Option (Engagement r)}
    (hbefore : weight j (a.threads i) = 0) (hafter : weight j engaged = 0) :
    Sound j (a.engage i engaged) := by
  have hload := load_engage (a := a) (j := j) i engaged
  refine ha.congr rfl (by omega) fun task hunder => ?_
  rcases under_engage hunder with hunder | ⟨e, rfl, howner, herrand⟩
  · exact hunder
  · simp [weight, howner, herrand] at hafter

theorem Sound.take (ha : Sound j a) {i : Fin k} {strand : Option Nat}
    {handler : Handler (Fin r × Task)} (hfree : a.threads i = none)
    (hfront : a.io.front strand = some handler) :
    Sound j ({ a with io := a.io.pop strand }.engage i
      (some ⟨handler.task.1, strand, handler.task.2.job⟩)) := by
  obtain ⟨earlier, later, hqueue, hpop⟩ := IoService.queue_split hfront
  refine ha.congr rfl ?_ fun task hunder => ?_
  · have hload := load_engage (a := { a with io := a.io.pop strand }) (j := j) i
      (some ⟨handler.task.1, strand, handler.task.2.job⟩)
    have hweight : weight j (some ⟨handler.task.1, strand, handler.task.2.job⟩) =
        if isErrand j handler then 1 else 0 := by
      simp only [weight, isErrand, Task.errand_job]
      split_ifs <;> simp_all
    have hnone : weight j (a.threads i) = 0 := by rw [hfree]; rfl
    rw [hweight] at hload
    simp only [Adopted.load, hpop, hqueue, List.countP_append, List.countP_cons] at hload ⊢
    omega
  · rcases under_engage hunder with (⟨queued, hmem, hrest⟩ | hthread) | ⟨e, he, howner, herrand⟩
    · exact Or.inl ⟨queued, IoService.mem_of_mem_pop hmem, hrest⟩
    · exact Or.inr hthread
    · cases he
      refine Or.inl ⟨handler, (IoService.mem_of_front hfront).1, ?_⟩
      simp only [Task.errand_job] at herrand
      split at herrand
      · cases herrand
        exact ⟨by simp_all [isErrand], rfl⟩
      · cases herrand

/-- The handler goes on, or sets or clears the flag; it touches nothing else of its service but
the `io_service`. -/
theorem handled_spec (s : State 1 0) (e : Engagement r) {s' : State 1 0}
    {engaged : Option (Engagement r)} (hs' : (handled s e).unstaffed = s')
    (hengaged : remaining e ((handled s e).threads ⟨0, Nat.zero_lt_one⟩) = engaged) :
    s'.caller = s.caller ∧ s'.generation = s.generation ∧ s'.held.queue = s.held.queue ∧
      (∀ e', engaged = some e' → e'.owner = e.owner) ∧
      (s'.started = s.started ∧ errandOf engaged = e.job.errand ∨
        ∃ task, e.job.errand = some task ∧ errandOf engaged = none ∧
          s'.started = decide (task = .start)) := by
  subst hs' hengaged
  obtain ⟨owner, strand, job⟩ := e
  unfold handled
  have hkept {w : Worker} (e' : Engagement r) (he' : remaining ⟨owner, strand, job⟩ w = some e') :
      e'.owner = owner := by
    cases w <;> cases he'
    rfl
  cases job with
  | start =>
      simp only [handlerStep]
      split_ifs with hstarted
      · exact ⟨rfl, rfl, rfl, hkept, Or.inr ⟨.start, rfl, rfl, hstarted⟩⟩
      · exact ⟨rfl, rfl, rfl, hkept, Or.inr ⟨.start, rfl, rfl, rfl⟩⟩
  | stop =>
      simp only [handlerStep]
      split_ifs with hstarted
      · exact ⟨rfl, rfl, rfl, hkept, Or.inl ⟨rfl, rfl⟩⟩
      · exact ⟨rfl, rfl, rfl, hkept, Or.inr ⟨.stop, rfl, rfl, Bool.eq_false_iff.mpr hstarted⟩⟩
  | stopping service =>
      simp only [handlerStep]
      split_ifs with hservice
      · obtain rfl : service = 0 := Nat.lt_one_iff.mp hservice
        exact ⟨rfl, rfl, rfl, hkept, Or.inl ⟨rfl, rfl⟩⟩
      · exact ⟨rfl, rfl, rfl, hkept, Or.inr ⟨.stop, rfl, rfl, rfl⟩⟩
  | _ => exact ⟨rfl, rfl, rfl, hkept, Or.inl ⟨rfl, rfl⟩⟩

theorem Sound.advance_self {i : Fin k} {e : Engagement r} (ha : Sound e.owner a)
    (hthread : a.threads i = some e) {engaged : Option (Engagement r)}
    (hcaller : s.caller = (a.members e.owner).caller)
    (hgen : s.generation = (a.members e.owner).generation)
    (hqueue : s.held.queue = (a.members e.owner).held.queue)
    (howner : ∀ e', engaged = some e' → e'.owner = e.owner)
    (hcases : s.started = (a.members e.owner).started ∧ errandOf engaged = e.job.errand ∨
      ∃ task, e.job.errand = some task ∧ errandOf engaged = none ∧
        s.started = decide (task = .start)) :
    Sound e.owner ((a.engage i engaged).deliver e.owner s) := by
  have hload := load_engage (a := a) (j := e.owner) i engaged
  rw [hthread, weight_eq howner, weight_eq fun e' he' => by cases he'; rfl] at hload
  have hunder {task : Task} (herrand : e.job.errand = some task) : a.Under e.owner task :=
    Or.inr ⟨i, e, hthread, rfl, herrand⟩
  have hsome : errandOf (some e) = e.job.errand := rfl
  by_cases hattached : (a.members e.owner).generation = 0
  · have hheld : s.held.queue = [] := by
      rw [hqueue, ha.attached hattached]
      rfl
    have hbefore := ha.load
    rw [if_pos hattached] at hbefore
    have hengaged (task : Task) (h : (a.engage i engaged).Under e.owner task) :
        s.caller.permits task = true := by
      rw [hcaller]
      rcases under_engage h with h | ⟨e', rfl, -, herrand⟩
      · exact ha.permits task h
      · rcases hcases with ⟨-, hsame⟩ | ⟨-, -, hnone, -⟩
        · exact ha.permits task (hunder (hsame.symm.trans herrand))
        · cases hnone.symm.trans herrand
    refine .deliver_attached (hgen.trans hattached) ?_ hengaged (by simp [hheld]) fun b hb => ?_
    · have hposts : queuedErrands s.held = 0 := by
        rw [queuedErrands, hheld]
        rfl
      rw [hposts, hcaller]
      rcases hcases with ⟨hstarted, hsame⟩ | ⟨task, herrand, hnone, hstarted⟩
      · rw [hsame, hsome] at hload
        rw [hstarted]
        omega
      · have hpermits := ha.permits task (hunder herrand)
        have hafter := (Caller.expected_of_permits hpermits).2
        have hle := Caller.expected_le (a.members e.owner).started (a.members e.owner).caller
        rw [hsome, herrand, hnone] at hload
        rw [hstarted, hafter]
        simp only [Option.isSome_some, Option.isSome_none, if_true, Bool.false_eq_true,
          if_false] at hload
        omega
    · rw [hcaller] at hb
      rcases hcases with ⟨hstarted, -⟩ | ⟨task, herrand, -⟩
      · exact hstarted.trans (ha.knows b hb)
      · cases (Caller.knows_of_permits (ha.permits task (hunder herrand))).symm.trans hb
  · obtain ⟨hstarted, hopening⟩ := ha.detached hattached
    have hbefore := ha.load
    rw [if_neg hattached] at hbefore
    rcases hcases with ⟨hsame, herrand⟩ | ⟨task, herrand, -⟩
    · refine .deliver_detached (hgen ▸ hattached) ?_ (hsame.trans hstarted) (hcaller ▸ hopening)
      rw [herrand, hsome] at hload
      omega
    · exact absurd (hunder herrand) (not_under_of_load hbefore)

theorem Sound.advance (ha : Sound j a) {i : Fin k} {e : Engagement r}
    (hthread : a.threads i = some e) :
    Sound j { a.deliver e.owner (handled (a.members e.owner) e).unstaffed with
      threads := Function.update a.threads i
        (remaining e ((handled (a.members e.owner) e).threads ⟨0, Nat.zero_lt_one⟩)) } := by
  obtain ⟨hcaller, hgen, hqueue, howner, hcases⟩ := handled_spec (a.members e.owner) e rfl rfl
  generalize hengaged : remaining e ((handled (a.members e.owner) e).threads
    ⟨0, Nat.zero_lt_one⟩) = engaged at howner hcases ⊢
  generalize (handled (a.members e.owner) e).unstaffed = s at hcaller hgen hqueue hcases ⊢
  have hswap : { a.deliver e.owner s with threads := Function.update a.threads i engaged } =
      (a.engage i engaged).deliver e.owner s := by
    unfold deliver
    split <;> rfl
  rw [hswap]
  by_cases hj : e.owner = j
  · subst hj
    exact ha.advance_self hthread hcaller hgen hqueue howner hcases
  · refine Sound.deliver_other (ha.engage ?_ ?_) fun h => hj h.symm
    · rw [hthread]
      exact weight_of_ne fun e' he' => by cases he'; exact hj
    · exact weight_of_ne fun e' he' => by rw [howner e' he']; exact hj

theorem Sound.step (ha : Sound j a) {move : AdoptedMove r k} {a' : Adopted r k}
    (h : a.step move = some a') : Sound j a' := by
  have hdeliver {j' : Fin r} {s : State 1 0} (hself : j' = j → Sound j (a.deliver j' s)) :
      Sound j (a.deliver j' s) := by
    by_cases hne : j' = j
    · exact hself hne
    · exact ha.deliver_other fun hj => hne hj.symm
  cases move with
  | call j' call =>
      obtain ⟨s, hcall, rfl⟩ := Option.map_eq_some_iff.mp h
      refine hdeliver ?_
      rintro rfl
      exact ha.call hcall
  | caller j' =>
      obtain ⟨s, hcaller, rfl⟩ := Option.map_eq_some_iff.mp h
      refine hdeliver ?_
      rintro rfl
      exact ha.caller (callerStep_calls hcaller)
  | take i strand =>
      simp only [Adopted.step] at h
      split at h
      · cases h
      · rename_i hfree
        obtain ⟨handler, hfront, rfl⟩ := Option.map_eq_some_iff.mp h
        simp only [Bool.or_eq_true, not_or, Bool.not_eq_true, Option.isSome_eq_false_iff,
          Option.isNone_iff_eq_none] at hfree
        exact ha.take hfree.1.1 hfront
  | advance i =>
      obtain ⟨e, hthread, rfl⟩ := Option.map_eq_some_iff.mp h
      exact ha.advance hthread
  | throw i =>
      simp only [Adopted.step] at h
      split at h
      · rename_i e hthread
        split at h
        · rename_i hthrows
          cases h
          refine ha.engage ?_ rfl
          rw [hthread]
          simp [weight, errand_of_throws hthrows]
        · cases h
      · cases h
  | halt =>
      cases h
      exact ⟨ha.load, ha.permits, ha.knows, ha.attached, ha.detached⟩
  | reset =>
      cases h
      exact ⟨ha.load, ha.permits, ha.knows, ha.attached, ha.detached⟩

end Sound

theorem sound_run {strands : Fin r → Bool} {stopped : Bool} {ms : List (AdoptedMove r k)}
    {a : Adopted r k} (hrun : Steps.run step (construct strands stopped) ms = some a)
    (j : Fin r) : Sound j a :=
  Steps.states_invariant (f := step) (I := Sound j) (P := fun _ => True)
    (fun _ hpre hstep _ => hpre.step hstep) (sound_construct strands stopped)
    (fun _ _ => trivial) a (Steps.run_mem_states hrun)

end Adopted

end AsioWrapper.Service
