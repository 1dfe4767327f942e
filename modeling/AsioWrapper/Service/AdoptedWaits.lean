import AsioWrapper.Service.Adopted

/-!
# Waiting on an `io_service` of the application

`Restart` leaves an `io_service` of the application for one that nobody runs, so
its `Start` waits for ever.  Once the shared `io_service` is stopped, be it by
another service, every call waits for ever until the application resets it.
-/

namespace AsioWrapper.Service

open AsioWrapper.Asio
open AsioWrapper.Foundation
open State

def Caller.within (started : Bool) : Caller → Bool
  | idle _ | start _ | stop _ => true
  | posting | spawning _ | awaitingStart => !started
  | postingStop _ | joining _ _ | awaitingStop _ => started
  | renewing _ => false

variable {r k : Nat}

namespace Adopted

section Steps

variable {a : Adopted r k} {j : Fin r} {s : State 1 0}

/-! ## What a step does to one service -/

variable {a' : Adopted r k} {move : AdoptedMove r k}

inductive Touches (j : Fin r) (a : Adopted r k) : AdoptedMove r k → State 1 0 → Prop where
  | call {call : Call} {s : State 1 0} (h : callStep (a.members j) call = some s) :
      Touches j a (.call j call) s
  | caller {s : State 1 0} (h : Calls (a.members j) s) : Touches j a (.caller j) s
  | handler {i : Fin k} {e : Engagement r} {s : State 1 0} (hthread : a.threads i = some e)
      (howner : e.owner = j) (hcaller : s.caller = (a.members j).caller)
      (hgen : s.generation = (a.members j).generation)
      (hstarted : e.job.errand = none → s.started = (a.members j).started) :
      Touches j a (.advance i) s

theorem deliver_self : ∃ services, (a.deliver j s).members j = { s with services := services } := by
  by_cases hgen : s.generation = 0
  · exact ⟨_, (Adopted.deliver_attached hgen).1⟩
  · exact ⟨s.services, (Adopted.deliver_detached hgen).1⟩

theorem step_touches (h : a.step move = some a') : a'.members j = a.members j ∨
    ∃ s services, Touches j a move s ∧ a'.members j = { s with services := services } := by
  have hdeliver {j' : Fin r} {s : State 1 0} (hself : j' = j → Touches j a move s)
      (hmember : a'.members j = (a.deliver j' s).members j) : a'.members j = a.members j ∨
      ∃ s services, Touches j a move s ∧ a'.members j = { s with services := services } := by
    by_cases hj : j' = j
    · subst hj
      obtain ⟨services, hservices⟩ := deliver_self (a := a) (j := j') (s := s)
      exact Or.inr ⟨s, services, hself rfl, hmember.trans hservices⟩
    · exact Or.inl (hmember.trans (deliver_members_of_ne fun h => hj h.symm))
  cases move with
  | call j' call =>
      obtain ⟨s, hcall, rfl⟩ := Option.map_eq_some_iff.mp h
      refine hdeliver ?_ rfl
      rintro rfl
      exact .call hcall
  | caller j' =>
      obtain ⟨s, hcaller, rfl⟩ := Option.map_eq_some_iff.mp h
      refine hdeliver ?_ rfl
      rintro rfl
      exact .caller (callerStep_calls hcaller)
  | take i strand =>
      simp only [Adopted.step] at h
      split at h
      · cases h
      · obtain ⟨handler, -, rfl⟩ := Option.map_eq_some_iff.mp h
        exact Or.inl rfl
  | advance i =>
      obtain ⟨e, hthread, rfl⟩ := Option.map_eq_some_iff.mp h
      obtain ⟨hcaller, hgen, -, -, hcases⟩ := handled_spec (a.members e.owner) e rfl rfl
      refine hdeliver ?_ rfl
      rintro rfl
      refine .handler hthread rfl hcaller hgen fun hnone => ?_
      rcases hcases with ⟨hstarted, -⟩ | ⟨task, herrand, -⟩
      · exact hstarted
      · cases hnone.symm.trans herrand
  | throw i =>
      simp only [Adopted.step] at h
      split at h
      · split at h
        · cases h
          exact Or.inl rfl
        · cases h
      · cases h
  | halt =>
      cases h
      exact Or.inl rfl
  | reset =>
      cases h
      exact Or.inl rfl

/-! ## `Restart` -/

/-- `Restart` is about to replace the `io_service`, or has done so. -/
structure Replaced (j : Fin r) (a : Adopted r k) : Prop where
  sound : Sound j a
  renewed : (∃ p, (a.members j).caller = .renewing p) ∨ (a.members j).generation ≠ 0

theorem Replaced.waits (ha : Replaced j a) :
    (a.members j).started = false ∧ ∀ returned, (a.members j).caller ≠ .idle returned := by
  rcases ha.renewed with ⟨p, hcaller⟩ | hgen
  · rw [hcaller]
    exact ⟨ha.sound.knows false (by rw [hcaller]; rfl), by simp⟩
  · obtain ⟨hstarted, hopening⟩ := ha.sound.detached hgen
    refine ⟨hstarted, fun returned hidle => ?_⟩
    rw [hidle] at hopening
    cases hopening

theorem Replaced.step (ha : Replaced j a) (h : a.step move = some a') : Replaced j a' := by
  refine ⟨ha.sound.step h, ?_⟩
  rcases step_touches (j := j) h with hsame | ⟨s, services, htouches, hmember⟩
  · rw [hsame]
    exact ha.renewed
  · rw [hmember]
    change (∃ p, s.caller = .renewing p) ∨ s.generation ≠ 0
    cases htouches with
    | call hcall =>
        have hstep : Service.step (a.members j) (.call _) = some s := hcall
        cases step_changes hstep with
        | start hidle => exact absurd hidle (ha.waits.2 _)
        | stop hidle => exact absurd hidle (ha.waits.2 _)
        | submit hmove _ => exact absurd rfl (hmove _)
    | caller hcalls =>
        rcases ha.renewed with ⟨p, hcaller⟩ | hgen
        · cases hcalls with
          | renewed => exact Or.inr (Nat.succ_ne_zero _)
          | _ => simp_all
        · cases hcalls with
          | renewed => exact Or.inr (Nat.succ_ne_zero _)
          | _ => exact Or.inr hgen
    | handler hthread howner hcaller hgen hstarted =>
        rw [hcaller, hgen]
        exact ha.renewed

/-! ## The `io_service` is stopped -/

/-- The `io_service` is stopped, and no handler of `Start` or `Stop` of service `j` has begun. -/
structure Cut (j : Fin r) (flag : Bool) (a : Adopted r k) : Prop where
  stopped : a.io.stopped = true
  started : (a.members j).started = flag
  idle : ∀ i e, a.threads i = some e → e.owner = j → e.job.errand = none
  within : (a.members j).caller.within flag = true

theorem step_stopped (hstopped : a.io.stopped = true) (hmove : move ≠ .reset)
    (h : a.step move = some a') : a'.io.stopped = true := by
  have hdeliver {j' : Fin r} {s : State 1 0} : (a.deliver j' s).io.stopped = true := by
    unfold deliver
    split
    · change (a.io.stopped || _) = true
      rw [hstopped]
      rfl
    · exact hstopped
  cases move with
  | call j' call =>
      obtain ⟨s, -, rfl⟩ := Option.map_eq_some_iff.mp h
      exact hdeliver
  | caller j' =>
      obtain ⟨s, -, rfl⟩ := Option.map_eq_some_iff.mp h
      exact hdeliver
  | take i strand => simp [Adopted.step, hstopped] at h
  | advance i =>
      obtain ⟨e, -, rfl⟩ := Option.map_eq_some_iff.mp h
      exact hdeliver
  | throw i =>
      simp only [Adopted.step] at h
      split at h
      · split at h
        · cases h
          exact hstopped
        · cases h
      · cases h
  | halt =>
      cases h
      rfl
  | reset => exact absurd rfl hmove

variable {flag : Bool}

theorem Cut.threads (ha : Cut j flag a) (h : a.step move = some a') (i : Fin k)
    (e : Engagement r) (hthread : a'.threads i = some e) (howner : e.owner = j) :
    e.job.errand = none := by
  cases move with
  | call j' call =>
      obtain ⟨s, -, rfl⟩ := Option.map_eq_some_iff.mp h
      rw [deliver_threads] at hthread
      exact ha.idle i e hthread howner
  | caller j' =>
      obtain ⟨s, -, rfl⟩ := Option.map_eq_some_iff.mp h
      rw [deliver_threads] at hthread
      exact ha.idle i e hthread howner
  | take i' strand => simp [Adopted.step, ha.stopped] at h
  | advance i' =>
      obtain ⟨e', hbefore, rfl⟩ := Option.map_eq_some_iff.mp h
      obtain ⟨-, -, -, hkept, hcases⟩ := handled_spec (a.members e'.owner) e' rfl rfl
      change Function.update a.threads i' _ i = some e at hthread
      by_cases hi : i = i'
      · rw [hi, Function.update_self] at hthread
        have hnone := ha.idle i' e' hbefore ((hkept e hthread).symm.trans howner)
        rw [hthread, hnone] at hcases
        rcases hcases with ⟨-, herrand⟩ | ⟨task, herrand, -⟩
        · exact herrand
        · cases herrand
      · rw [Function.update_of_ne hi] at hthread
        exact ha.idle i e hthread howner
  | throw i' =>
      simp only [Adopted.step] at h
      split at h
      · split at h
        · cases h
          change Function.update a.threads i' none i = some e at hthread
          by_cases hi : i = i'
          · rw [hi, Function.update_self] at hthread
            cases hthread
          · rw [Function.update_of_ne hi] at hthread
            exact ha.idle i e hthread howner
        · cases h
      · cases h
  | halt =>
      cases h
      exact ha.idle i e hthread howner
  | reset =>
      cases h
      exact ha.idle i e hthread howner

theorem within_calls (hwithin : s.caller.within s.started = true) {s' : State 1 0}
    (h : Calls s s') : s'.started = s.started ∧ s'.caller.within s.started = true ∧
      s'.caller ≠ .idle (some true) := by
  have hpost {task : Task} : (s.post task).started = s.started := rfl
  cases h <;> simp_all [Caller.within]

theorem Cut.step (ha : Cut j flag a) (hmove : move ≠ .reset) (h : a.step move = some a') :
    Cut j flag a' := by
  have hcut (hstarted : (a'.members j).started = flag)
      (hwithin : (a'.members j).caller.within flag = true) : Cut j flag a' :=
    ⟨step_stopped ha.stopped hmove h, hstarted, ha.threads h, hwithin⟩
  obtain ⟨hstopped, rfl, hidle, hwithin⟩ := ha
  rcases step_touches (j := j) h with hsame | ⟨s, services, htouches, hmember⟩
  · exact hcut (by rw [hsame]) (by rw [hsame]; exact hwithin)
  · rw [hmember] at hcut
    cases htouches with
    | call hcall =>
        have hstep : Service.step (a.members j) (.call _) = some s := hcall
        cases step_changes hstep with
        | start => exact hcut rfl rfl
        | stop => exact hcut rfl rfl
        | submit hne _ => exact absurd rfl (hne _)
    | caller hcalls =>
        obtain ⟨hstarted, hwithin', -⟩ := within_calls hwithin hcalls
        exact hcut hstarted hwithin'
    | handler hthread howner hcaller _ hstarted =>
        refine hcut (hstarted (hidle _ _ hthread howner)) ?_
        rw [← hcaller] at hwithin
        exact hwithin

theorem Cut.waits (ha : Cut j flag a) (h : a.step (.caller j) = some a') :
    (a'.members j).caller ≠ .idle (some true) := by
  obtain ⟨s, hcaller, rfl⟩ := Option.map_eq_some_iff.mp h
  obtain ⟨services, hmember⟩ := deliver_self (a := a) (j := j) (s := s)
  rw [hmember]
  obtain ⟨-, rfl, -, hwithin⟩ := ha
  exact (within_calls hwithin (callerStep_calls hcaller)).2.2

private theorem cut_of_idle (ha : Sound j a) (hstopped : a.io.stopped = true)
    {returned : Option Bool} (hidle : (a.members j).caller = .idle returned) :
    Cut j (a.members j).started a := by
  have hload := ha.load
  rw [if_pos (ha.attached_of (by rw [hidle]; rfl)), hidle] at hload
  refine ⟨hstopped, rfl, fun i e hthread howner => ?_, by rw [hidle]; rfl⟩
  rw [Option.eq_none_iff_forall_ne_some]
  intro task herrand
  exact not_under_of_load hload (Or.inr ⟨i, e, hthread, howner, herrand⟩)

end Steps

end Adopted

/--
Once `Restart` has stopped a service that runs on an `io_service` of the application, it never
returns, and the service is never started again.
-/
theorem adopted_restart_never_returns {strands : Fin r → Bool} {stopped : Bool}
    {ms : List (AdoptedMove r k)} {a : Adopted r k}
    (hrun : Steps.run Adopted.step (.construct strands stopped) ms = some a) {j : Fin r} {p : Bool}
    (hcaller : (a.members j).caller = .renewing p) (ms' : List (AdoptedMove r k)) :
    ∀ a' ∈ Steps.states Adopted.step a ms', (a'.members j).started = false ∧
      ∀ returned, (a'.members j).caller ≠ .idle returned := by
  intro a' ha'
  have hreplaced := Steps.states_invariant (f := Adopted.step) (I := Adopted.Replaced j)
    (P := fun _ => True) (fun _ hpre hstep _ => hpre.step hstep)
    ⟨Adopted.sound_run hrun j, Or.inl ⟨p, hcaller⟩⟩ (fun _ _ => trivial) a' ha'
  exact hreplaced.waits

def runner : Fin 1 := ⟨0, Nat.zero_lt_one⟩

def adoptedStart (j : Fin r) : List (AdoptedMove r 1) :=
  [.call j (.start false), .caller j, .caller j, .caller j, .take runner none, .advance runner,
    .advance runner, .caller j]

def adoptedStop (j : Fin r) (call : Call) : List (AdoptedMove r 1) :=
  [.call j call, .caller j, .caller j, .caller j, .take runner none, .advance runner,
    .advance runner, .advance runner, .advance runner, .caller j]

def onlyService : Fin 1 := ⟨0, Nat.zero_lt_one⟩

theorem adopted_restart_never_returns_once :
    ∃ a : Adopted 1 1, Steps.run Adopted.step (.construct (fun _ => false) false)
        (adoptedStart onlyService ++ adoptedStop onlyService .restart) = some a ∧
      (∃ a', Steps.run Adopted.step a (List.replicate 4 (.caller onlyService)) = some a' ∧
        (a'.members onlyService).caller = .awaitingStart) ∧
      ∀ a' ∈ Steps.states Adopted.step a (List.replicate 4 (.caller onlyService)),
        (a'.members onlyService).started = false ∧
          ∀ returned, (a'.members onlyService).caller ≠ .idle returned := by
  obtain ⟨a, hrun, hcaller, hwaits⟩ :
      ∃ a : Adopted 1 1, Steps.run Adopted.step (.construct (fun _ => false) false)
          (adoptedStart onlyService ++ adoptedStop onlyService .restart) = some a ∧
        (a.members onlyService).caller = .renewing false ∧
        ∃ a', Steps.run Adopted.step a (List.replicate 4 (.caller onlyService)) = some a' ∧
          (a'.members onlyService).caller = .awaitingStart :=
    ⟨_, rfl, rfl, _, rfl, rfl⟩
  exact ⟨a, hrun, hwaits, adopted_restart_never_returns hrun hcaller _⟩

/--
Once the shared `io_service` is stopped, and until the application resets it, no call that a
service on it begins ever succeeds, and no flag changes.
-/
theorem adopted_stop_strands_others {strands : Fin r → Bool} {stopped : Bool}
    {ms : List (AdoptedMove r k)} {a : Adopted r k}
    (hrun : Steps.run Adopted.step (.construct strands stopped) ms = some a)
    (hstopped : a.io.stopped = true) {j : Fin r} {returned : Option Bool}
    (hidle : (a.members j).caller = .idle returned) {ms' : List (AdoptedMove r k)}
    (hreset : .reset ∉ ms') :
    (∀ a' ∈ Steps.states Adopted.step a ms',
      (a'.members j).started = (a.members j).started) ∧
      ∀ t ∈ Steps.trace Adopted.step a ms', t.move = .caller j →
        (t.post.members j).caller ≠ .idle (some true) := by
  have hcut := Adopted.cut_of_idle (Adopted.sound_run hrun j) hstopped hidle
  have hsteps : ∀ t ∈ Steps.trace Adopted.step a ms', t.move ≠ .reset :=
    fun t ht hmove => hreset (hmove ▸ Steps.trace_move_mem t ht)
  constructor
  · intro a' ha'
    exact (Steps.states_invariant (f := Adopted.step) (I := Adopted.Cut j (a.members j).started)
      (P := fun t => t.move ≠ .reset) (fun _ hpre hstep hmove => hpre.step hmove hstep) hcut
      hsteps a' ha').started
  · intro t ht hmove
    obtain ⟨hpre, hnext, -⟩ := Steps.trace_invariant (f := Adopted.step)
      (I := Adopted.Cut j (a.members j).started) (P := fun t => t.move ≠ .reset)
      (fun _ hpre hstep hmove => hpre.step hmove hstep) hcut hsteps t ht
    rw [hmove] at hnext
    exact hpre.waits hnext

def firstService : Fin 2 := ⟨0, Nat.zero_lt_two⟩

def secondService : Fin 2 := ⟨1, Nat.one_lt_two⟩

theorem adopted_stop_strands_others_second :
    ∃ a : Adopted 2 1, Steps.run Adopted.step (.construct (fun _ => false) false)
        (adoptedStart firstService ++ adoptedStart secondService ++
          adoptedStop firstService .stop) = some a ∧
      (a.members firstService).caller = .idle (some true) ∧
      (a.members secondService).started = true ∧
      (∃ a', Steps.run Adopted.step a ((adoptedStop secondService .stop).take 4) = some a' ∧
        (a'.members secondService).caller = .awaitingStop none) ∧
      (∀ a' ∈ Steps.states Adopted.step a ((adoptedStop secondService .stop).take 4),
        (a'.members secondService).started = (a.members secondService).started) ∧
      ∀ t ∈ Steps.trace Adopted.step a ((adoptedStop secondService .stop).take 4),
        t.move = .caller secondService →
          (t.post.members secondService).caller ≠ .idle (some true) := by
  obtain ⟨a, hrun, hfirst, hstarted, hstopped, hidle, hwaits⟩ :
      ∃ a : Adopted 2 1, Steps.run Adopted.step (.construct (fun _ => false) false)
          (adoptedStart firstService ++ adoptedStart secondService ++
            adoptedStop firstService .stop) = some a ∧
        (a.members firstService).caller = .idle (some true) ∧
        (a.members secondService).started = true ∧ a.io.stopped = true ∧
        (a.members secondService).caller = .idle (some true) ∧
        ∃ a', Steps.run Adopted.step a ((adoptedStop secondService .stop).take 4) = some a' ∧
          (a'.members secondService).caller = .awaitingStop none :=
    ⟨_, rfl, rfl, rfl, rfl, rfl, _, rfl, rfl⟩
  exact ⟨a, hrun, hfirst, hstarted, hwaits,
    adopted_stop_strands_others hrun hstopped hidle (by decide)⟩

end AsioWrapper.Service
