import AsioWrapper.Service.Starting
import AsioWrapper.Service.Workers

/-!
# The endpoints of a service

A server, a client or a resolver asks its service for an `io_service` once, in
its constructor, and posts its handlers there for as long as it exists.
`Restart` replaces all `io_service`s of the service and tells nobody.
-/

namespace AsioWrapper.Service

open AsioWrapper.Asio
open AsioWrapper.Foundation
open State

variable {m n : Nat}

inductive EndpointKind where
  | server
  | client
  | resolver
  deriving DecidableEq, Repr

/-- The `io_service` an endpoint keeps a pointer to is the one `Restart` number `generation`
has put at the index `service`. -/
structure Endpoint (m : Nat) where
  kind : EndpointKind
  generation : Nat
  service : Fin m
  strandRequired : Bool
  deriving DecidableEq, Repr

structure Deployment (m n : Nat) where
  service : State m n
  endpoints : List (Endpoint m)

inductive DeploymentMove (m n : Nat) where
  | service (move : Move m n)
  | construct (kind : EndpointKind)
  | destroy (index : Nat)
  deriving DecidableEq, Repr

variable [NeZero m]

def getAsioService (s : State m n) : Fin m × State m n :=
  let index := (s.roundRobinIndex + 1) % 2 ^ 64
  (Fin.ofNat m index, { s with roundRobinIndex := index })

def Endpoint.construct (kind : EndpointKind) (s : State m n) : Endpoint m × State m n :=
  let (service, s) := getAsioService s
  (⟨kind, s.generation, service, s.strandRequired⟩, s)

namespace Deployment

def ofThreads (threads : Nat) (pool : Bool) : Deployment (serviceCount threads pool) threads :=
  ⟨Service.ofThreads threads pool, []⟩

def step (d : Deployment m n) : DeploymentMove m n → Option (Deployment m n)
  | .service move => (Service.step d.service move).map fun s => { d with service := s }
  | .construct kind =>
      let (endpoint, s) := Endpoint.construct kind d.service
      some ⟨s, d.endpoints ++ [endpoint]⟩
  | .destroy index =>
      if index < d.endpoints.length then
        some { d with endpoints := d.endpoints.eraseIdx index }
      else none

end Deployment

def Worker.entering : Worker → Bool
  | absent | created | initialized _ => true
  | _ => false

/-- The service holds the `io_service` of the endpoint and runs it. -/
structure Endpoint.Attached (e : Endpoint m) (s : State m n) : Prop where
  held : e.generation = s.generation
  live : (s.services e.service).stopped = false
  run : ∃ i : Fin n, home i = e.service ∧ (s.threads i).holdsWork = true

/-- A thread has come to its loop on the `io_service` of the endpoint, whether or not it is
still there. -/
def Endpoint.Reached (e : Endpoint m) (s : State m n) : Prop :=
  ∃ i : Fin n, home i = e.service ∧ (s.threads i).entering = false

/-- The service is started and not about to stop, and no thread of it can have left. -/
structure Settled (s : State m n) : Prop where
  started : s.started = true
  thrown : s.thrown = false
  robust : Robust s
  stopping : ∀ i p strand k, s.threads i ≠ .running p strand (.stopping k)

/-- `Restart` replaces the `io_service`s while an endpoint exists. -/
def abandons (t : Transition (Deployment m n) (DeploymentMove m n)) : Bool :=
  match t.move, t.pre.service.caller with
  | .service .caller, .renewing _ => !t.pre.endpoints.isEmpty
  | _, _ => false

/-! ## What becomes of the `io_service`s -/

section Generation

variable {s s' : State m n} {i : Fin n}

omit [NeZero m] in
@[simp]
theorem State.setThread_generation {w : Worker} :
    (s.setThread i w).generation = s.generation := rfl

@[simp]
theorem State.leave_generation : (s.leave i).generation = s.generation :=
  leave_field State.generation fun _ _ => rfl

theorem Works.generation_eq (h : Works s i s') : s'.generation = s.generation := by
  cases h with
  | ran h hstopped => exact leave_generation
  | quit h hstarted => exact leave_generation
  | fail h hjob => exact leave_generation
  | _ => rfl

theorem Calls.generation_cases (h : Calls s s') :
    s'.generation = s.generation ∨
      (∃ p, s.caller = .renewing p) ∧ s'.generation = s.generation + 1 := by
  cases h with
  | renewed h => exact Or.inr ⟨⟨_, h⟩, rfl⟩
  | _ => exact Or.inl rfl

/-- Only the last step of `Restart` before its `Start` replaces the `io_service`s. -/
theorem step_generation {move : Move m n} (h : step s move = some s') :
    s'.generation = s.generation ∨
      move = .caller ∧ (∃ p, s.caller = .renewing p) ∧ s'.generation = s.generation + 1 := by
  cases move with
  | call call =>
      cases step_changes h with
      | start hidle => exact Or.inl rfl
      | stop hidle hcall => exact Or.inl rfl
      | submit hmove _ => exact absurd rfl (hmove call)
  | caller => exact (callerStep_calls h).generation_cases.imp_right fun hrenewed => ⟨rfl, hrenewed⟩
  | worker i turn => exact Or.inl (workerStep_works h).generation_eq
  | submit j strand =>
      cases h
      exact Or.inl rfl
  | initiate j =>
      cases h
      exact Or.inl rfl
  | complete j strand =>
      simp only [step] at h
      split at h
      · cases h
      · cases h
        exact Or.inl rfl
  | getAsioService =>
      cases h
      exact Or.inl rfl

theorem step_started {move : Move m n} (h : step s move = some s') (hstarted : s'.started = true) :
    s.started = true ∨ 0 < n := by
  cases step_changes h with
  | start hidle => exact Or.inl hstarted
  | stop hidle hcall => exact Or.inl hstarted
  | caller h => cases h <;> exact Or.inl hstarted
  | @worker i turn s' h => exact Or.inr i.pos
  | submit hmove h => exact Or.inl (h.started ▸ hstarted)

end Generation

/-! ## What a step does to the endpoints -/

section Steps

variable {d d' : Deployment m n}

def Deployment.Dated (d : Deployment m n) : Prop :=
  ∀ e ∈ d.endpoints, e.generation ≤ d.service.generation

def Deployment.Current (d : Deployment m n) : Prop :=
  ∀ e ∈ d.endpoints, e.generation = d.service.generation

theorem Deployment.step_cases {move : DeploymentMove m n} (h : d.step move = some d') :
    (d'.endpoints = d.endpoints ∧ d'.service.generation = d.service.generation + 1 ∧
        move = .service .caller ∧ ∃ p, d.service.caller = .renewing p) ∨
      d'.service.generation = d.service.generation ∧
        ∀ e ∈ d'.endpoints, e ∈ d.endpoints ∨ e.generation = d.service.generation := by
  cases move with
  | service move =>
      obtain ⟨s, hstep, rfl⟩ := Option.map_eq_some_iff.mp h
      rcases step_generation hstep with hsame | ⟨rfl, hcaller, hnext⟩
      · exact Or.inr ⟨hsame, fun e he => Or.inl he⟩
      · exact Or.inl ⟨rfl, hnext, rfl, hcaller⟩
  | construct kind =>
      cases h
      refine Or.inr ⟨rfl, fun e he => ?_⟩
      rcases List.mem_append.mp he with he | he
      · exact Or.inl he
      · rw [List.mem_singleton.mp he]
        exact Or.inr rfl
  | destroy index =>
      simp only [Deployment.step] at h
      split at h
      · cases h
        exact Or.inr ⟨rfl, fun e he => Or.inl (List.mem_of_mem_eraseIdx he)⟩
      · cases h

theorem Deployment.step_service {move : DeploymentMove m n} (h : d.step move = some d') :
    d'.service = d.service ∨ ∃ move', Service.step d.service move' = some d'.service := by
  cases move with
  | service move =>
      obtain ⟨s, hstep, rfl⟩ := Option.map_eq_some_iff.mp h
      exact Or.inr ⟨move, hstep⟩
  | construct kind =>
      cases h
      exact Or.inr ⟨.getAsioService, rfl⟩
  | destroy index =>
      simp only [Deployment.step] at h
      split at h
      · cases h
        exact Or.inl rfl
      · cases h

theorem Deployment.step_started {move : DeploymentMove m n} (h : d.step move = some d')
    (hstarted : d'.service.started = true) : d.service.started = true ∨ 0 < n := by
  rcases Deployment.step_service h with hsame | ⟨move', hstep⟩
  · exact Or.inl (hsame ▸ hstarted)
  · exact Service.step_started hstep hstarted

theorem Deployment.step_staffed {move : DeploymentMove m n} (hs : Staffed d.service) (hn : 0 < n)
    (h : d.step move = some d') : Staffed d'.service := by
  rcases Deployment.step_service h with hsame | ⟨move', hstep⟩
  · rw [hsame]
    exact hs
  · exact hs.step hn hstep

theorem Deployment.Dated.step (hd : d.Dated) {move : DeploymentMove m n}
    (h : d.step move = some d') : d'.Dated := by
  intro e he
  rcases Deployment.step_cases h with ⟨hsame, hnext, -⟩ | ⟨hgeneration, hendpoints⟩
  · rw [hsame] at he
    have := hd e he
    omega
  · rcases hendpoints e he with he | heq
    · exact hgeneration ▸ hd e he
    · exact (heq.trans hgeneration.symm).le

theorem Deployment.Current.step (hd : d.Current) {move : DeploymentMove m n}
    (h : d.step move = some d') (hkept : abandons ⟨d, move, d'⟩ = false) : d'.Current := by
  intro e he
  rcases Deployment.step_cases h with ⟨hsame, -, rfl, p, hcaller⟩ | ⟨hgeneration, hendpoints⟩
  · -- no endpoint is there to be left behind
    have hnone : d.endpoints = [] := by simpa [abandons, hcaller] using hkept
    rw [hsame, hnone] at he
    cases he
  · rw [hgeneration]
    exact (hendpoints e he).elim (hd e) id

theorem Settled.attached {s : State m n} (hs : Settled s) (hstaffed : Staffed s)
    {e : Endpoint m} (hheld : e.generation = s.generation) (hreached : e.Reached s) :
    e.Attached s := by
  have hwhole := hstaffed.whole_of_started hs.thrown hs.robust hs.started hs.stopping
  obtain ⟨i, hhome, hentered⟩ := hreached
  refine ⟨hheld, hwhole.services e.service, i, hhome, ?_⟩
  have hloop := hwhole.inLoop.threads i
  cases hthread : s.threads i <;> simp_all [Worker.entering, Worker.gone, Worker.holdsWork]

end Steps

/-! ## Runs -/

private theorem detached_of_abandons {d : Deployment m n} {move : DeploymentMove m n}
    {d' : Deployment m n} (hd : d.Dated) (h : d.step move = some d')
    (habandons : abandons ⟨d, move, d'⟩ = true) :
    d'.endpoints = d.endpoints ∧ d.endpoints ≠ [] ∧
      ∀ e ∈ d.endpoints, e.generation < d'.service.generation := by
  unfold abandons at habandons
  split at habandons
  · rename_i p hmove hcaller
    obtain rfl : move = .service .caller := hmove
    replace hcaller : d.service.caller = .renewing p := hcaller
    simp only [Deployment.step, Service.step, callerStep, hcaller, Option.map_some] at h
    cases h
    exact ⟨rfl, by simpa using habandons, fun e he => Nat.lt_succ_of_le (hd e he)⟩
  · cases habandons

theorem generation_le_of_mem_states {d : Deployment m n} {ms : List (DeploymentMove m n)} :
    ∀ d' ∈ Steps.states Deployment.step d ms, d.service.generation ≤ d'.service.generation := by
  refine Steps.states_invariant (f := Deployment.step)
    (I := fun d' => d.service.generation ≤ d'.service.generation) (P := fun _ => True)
    (fun t hpre hstep _ => ?_) le_rfl fun _ _ => trivial
  rcases Deployment.step_cases hstep with ⟨-, hnext, -⟩ | ⟨hsame, -⟩
  · omega
  · exact hsame ▸ hpre

/--
As long as `Restart` replaces the `io_service`s only while no endpoint exists, every
endpoint is attached in every settled state, once a thread has come to its `io_service`.
An endpoint that exists when `Restart` does so is detached for the rest of its life.
-/
theorem endpoints_attached_iff (threads : Nat) (pool : Bool) :
    ∀ ms,
      ((∀ t ∈ Steps.trace Deployment.step (.ofThreads threads pool) ms, abandons t = false) →
        ∀ d ∈ Steps.states Deployment.step (.ofThreads threads pool) ms, Settled d.service →
          ∀ e ∈ d.endpoints, e.Reached d.service → e.Attached d.service) ∧
      ∀ t ∈ Steps.trace Deployment.step (.ofThreads threads pool) ms, abandons t = true →
        t.post.endpoints ≠ [] ∧ ∀ e ∈ t.post.endpoints,
          ∀ ms', ∀ d ∈ Steps.states Deployment.step t.post ms', ¬e.Attached d.service := by
  intro ms
  constructor
  · intro hkept d hd hsettled e he hreached
    obtain ⟨hcurrent, hthreads, hstaffed⟩ := Steps.states_invariant (f := Deployment.step)
      (I := fun d => d.Current ∧ (d.service.started = true → 0 < threads) ∧
        (0 < threads → Staffed d.service))
      (P := fun t => abandons t = false)
      (fun t hpre hstep hok => ⟨hpre.1.step hstep hok,
        fun hset => (Deployment.step_started hstep hset).elim hpre.2.1 id,
        fun hn => Deployment.step_staffed (hpre.2.2 hn) hn hstep⟩)
      ⟨fun e he => (by cases he), fun hset => (by cases hset),
        fun _ => staffed_ofThreads threads pool⟩ hkept d hd
    exact hsettled.attached (hstaffed (hthreads hsettled.started)) (hcurrent e he) hreached
  · intro t ht habandons
    obtain ⟨hdated, hstep, -⟩ := Steps.trace_invariant (f := Deployment.step)
      (I := Deployment.Dated) (P := fun _ => True) (fun _ hpre hstep _ => hpre.step hstep)
      (fun e he => by cases he) (fun _ _ => trivial) t ht
    obtain ⟨hsame, hsome, hearlier⟩ := detached_of_abandons hdated hstep habandons
    refine ⟨hsame ▸ hsome, fun e he ms' d hd hattached => ?_⟩
    have hlater := generation_le_of_mem_states d hd
    have hbefore := hearlier e (hsame ▸ he)
    have hnow := hattached.held
    omega

def startDeployed : List (DeploymentMove 1 1) := startOne.map .service

def restartDeployed : List (DeploymentMove 1 1) :=
  (restartOne.drop startOne.length ++ startOne.drop 5).map .service

def redeployOne : List (DeploymentMove 1 1) :=
  startDeployed ++ [.construct .server, .destroy 0] ++ restartDeployed ++
    [.construct .client, .construct .resolver]

theorem endpoints_attached_iff_redeployed :
    ∃ d, Steps.run Deployment.step (.ofThreads 1 false) redeployOne = some d ∧
      Settled d.service ∧ d.service.generation = 1 ∧ d.endpoints.length = 2 ∧
      ∀ e ∈ d.endpoints, e.Attached d.service := by
  have hsettled {s : State 1 1} (hstarted : s.started = true) (hthrown : s.thrown = false)
      (hthread : s.threads 0 = .serving false) : Settled s :=
    ⟨hstarted, hthrown, Or.inr rfl, fun i p strand k h => by
      rw [Subsingleton.elim i 0, hthread] at h
      cases h⟩
  refine ⟨_, rfl, hsettled rfl rfl rfl, rfl, rfl, fun e he => ?_⟩
  refine (endpoints_attached_iff 1 false redeployOne).1 (fun t ht => ?_) _
    (Steps.run_mem_states rfl) (hsettled rfl rfl rfl) e he
    ⟨0, @Subsingleton.elim (Fin 1) _ _ _, rfl⟩
  have hall : (Steps.trace Deployment.step (.ofThreads 1 false) redeployOne).all
      (fun t => !abandons t) = true := rfl
  simpa using List.all_eq_true.mp hall t ht

def deployUnserved : List (DeploymentMove 2 2) :=
  (twoThreads ⟨0, Nat.zero_lt_two⟩ ++
    overtake ⟨0, Nat.zero_lt_two⟩ ⟨1, Nat.one_lt_two⟩ none).map .service ++ [.construct .server]

/-- `Start`, a server, `Restart`: the service is started on a new `io_service`, and the
server keeps the old one.  Or a server gets an `io_service` that its only thread has left. -/
theorem endpoint_detached :
    (∃ d, Steps.run Deployment.step (.ofThreads 1 false)
        (startDeployed ++ [.construct .server] ++ restartDeployed) = some d ∧
      d.service.started = true ∧ d.service.caller = .idle (some true) ∧
      d.endpoints = [⟨.server, 0, 0, false⟩] ∧ d.service.generation = 1 ∧
      ∃ e ∈ d.endpoints, ¬e.Attached d.service) ∧
    ∃ d, Steps.run Deployment.step (.ofThreads 2 false) deployUnserved = some d ∧
      d.service.started = true ∧ d.service.thrown = false ∧
      d.endpoints = [⟨.server, 0, 1, false⟩] ∧ ∃ e ∈ d.endpoints, ¬e.Attached d.service := by
  constructor
  · refine ⟨_, rfl, rfl, rfl, rfl, rfl, ⟨.server, 0, 0, false⟩, List.mem_singleton_self _, ?_⟩
    intro hattached
    cases hattached.held
  · refine ⟨_, rfl, rfl, rfl, rfl, ⟨.server, 0, 1, false⟩, List.mem_singleton_self _, ?_⟩
    intro hattached
    cases hattached.live

end AsioWrapper.Service
