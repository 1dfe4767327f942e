import AsioWrapper.Foundation.Simulation
import AsioWrapper.Service.Serial
import AsioWrapper.Service.Shutdown
import AsioWrapper.Udp.Neutral
import AsioWrapper.Udp.ServerProtocol

/-!
# The server behind its service

Seen from the server, a service of any number of threads only decides when the
posted handlers run.  Each of them is queued or in the hands of one thread until
it has run, so none is lost and none runs twice, and what happens to the server
is a run of the server on its own.
-/

namespace AsioWrapper.Service

open AsioWrapper.Asio
open AsioWrapper.Foundation
open AsioWrapper.Foundation.Program
open AsioWrapper.Udp
open State

variable {m n : Nat}

/-! ## A posted handler, performed at once -/

section Performing

variable {answers : SocketAnswers} {handler : Server.Handler} {s : Server}

private theorem postedHandler_unblocked : (Server.postedHandler answers handler s).Unblocked := by
  have horigin : some (Origin.posted handler) ≠ none := by simp
  cases handler with
  | start =>
      exact Outcome.unblocked_of_segments (fun _ _ _ h => horigin h.1)
        (Server.startHandler_turns answers horigin Server.Still.rfl)
  | stop =>
      exact Outcome.unblocked_of_segments (fun _ _ _ h => horigin h.1)
        (Server.stopHandler_turns horigin Server.Still.rfl)

private theorem neutral_own : Neutral (fun _ (start : Server) _ finish => finish.own = start.own)
    (fun _ start s => s.own = start.own) where
  keep hs hown _ := hown.trans hs
  ends _ hs hown _ := hown.trans hs
  resume _ _ := rfl

theorem postedHandler_own :
    (Server.postedHandler answers handler s).final.own = s.own := by
  cases handler with
  | start =>
      have hopen : Leaves _ _ (Server.startHandler answers) :=
        Leaves.state fun s => Triple.ite (fun _ => Triple.pure ()) fun _ =>
          neutral_own.openSession answers (fun s => s.endpoint) .onStarted
      have hsegments : (Server.startHandler answers s).Segments
          (fun _ start _ finish => finish.own = start.own)
          (fun _ _ start finish => finish.own = start.own) none s :=
        Outcome.segments_mono (fun _ _ _ _ h => h) (fun _ _ _ _ h => h.1)
          (hopen none s s rfl trivial)
      exact Outcome.final_of_segments (R := fun s s' : Server => s'.own = s.own)
        (fun h h' => h'.trans h) hsegments
  | stop =>
      change ((if !s.running then pure () else _ : Server.Code Unit) s).final.own = _
      split
      · rfl
      · rfl

theorem perform_posted : (perform answers handler s).final.own.posted =
    s.own.posted.eraseIdx (s.own.posted.idxOf handler) :=
  congrArg (fun own => own.posted) (postedHandler_own (s := unposted handler s))

end Performing

/-! ## Where the posted handlers are -/

def Hosted.outstanding (h : Hosted m n) (handler : Server.Handler) : Nat :=
  (h.queue.filterMap Handler.task).count handler + ∑ i, (h.jobs i).toList.count handler

private theorem count_filterMap_eraseP {α β : Type} [DecidableEq β] (p : α → Bool)
    (f : α → Option β) (l : List α) (b : β) :
    ((l.eraseP p).filterMap f).count b + ((l.find? p).bind f).toList.count b =
      (l.filterMap f).count b := by
  induction l with
  | nil => rfl
  | cons a l ih =>
      by_cases hp : p a = true
      · rw [List.eraseP_cons_of_pos hp, List.find?_cons_of_pos hp, Option.bind_some,
          List.filterMap_cons]
        cases hf : f a with
        | none => rfl
        | some b' => simp only [Option.toList_some, List.count_cons, List.count_nil, Nat.zero_add]
      · rw [List.eraseP_cons_of_neg hp, List.find?_cons_of_neg hp, List.filterMap_cons,
          List.filterMap_cons]
        cases hf : f a with
        | none => exact ih
        | some b' =>
            rw [List.count_cons, List.count_cons]
            omega

variable [NeZero m] {s s' : State m n} {move : Move m n}

theorem Orderly.threads_kept (hs : Orderly s) (h : Service.step s move = some s') {k : Fin n}
    (hk : (s.threads k).holds ≠ none) (hother : ∀ turn, move ≠ .worker k turn) :
    s'.threads k = s.threads k := by
  cases step_changes h with
  | start => rfl
  | stop => rfl
  | caller hcalls =>
      cases hcalls with
      | spawn hcaller hlt =>
          refine setThread_of_ne fun hk' => hk ?_
          rw [hk', hs.absent (by simp [hcaller, Caller.admits])]
          rfl
      | join hcaller hlt hexited =>
          refine setThread_of_ne fun hk' => hk ?_
          rw [hk', hexited]
          rfl
      | _ => rfl
  | worker hworks => exact hworks.others fun hk' => hother _ (by rw [hk'])
  | submit _ hsubmits => rw [hsubmits.threads]

theorem step_take_holds {i : Fin n} {strand : Option Nat}
    (h : step s (.worker i (.take strand)) = some s') :
    (s.threads i).holds = none ∧ (s'.threads i).holds ≠ none := by
  obtain ⟨p, handler, hthread, -, rfl⟩ := workerStep_take h
  rw [hthread, setThread_self]
  exact ⟨rfl, by simp [Worker.holds]⟩

namespace Hosted

inductive Attends (h : Hosted m n) (s : State m n) (answers : SocketAnswers) :
    Move m n → Hosted m n → Prop where
  | taken {i : Fin n} {strand : Option Nat} :
      Attends h s answers (.worker i (.take strand)) { h with
        service := s
        queue := h.queue.eraseP fun handler => handler.strand = strand
        jobs := Function.update h.jobs i
          ((h.queue.find? fun handler => handler.strand = strand).bind Handler.task) }
  | performed {i : Fin n} {turn : Turn} {handler : Server.Handler}
      (hjob : h.jobs i = some handler) :
      Attends h s answers (.worker i turn) { h with
        service := s
        jobs := Function.update h.jobs i none
        server := (perform answers handler h.server).final }
  | passed {move : Move m n} {added : List (Handler Task)}
      (hidle : ∀ k turn, move = .worker k turn → h.jobs k = none ∨ ∃ strand, turn = .take strand) :
      Attends h s answers move { h with service := s, queue := h.queue ++ added.map foreign }

section Booked

variable {h h' : Hosted m n} {answers : SocketAnswers}

theorem attend_attends (hattend : h.attend s answers move = some h') :
    h.Attends s answers move h' := by
  have hpassed (hidle : ∀ k turn, move = .worker k turn →
      h.jobs k = none ∨ ∃ strand, turn = .take strand) :
      h.Attends s answers move { h with service := s } := by
    have hsame : h.Attends s answers move
        { h with service := s, queue := h.queue ++ [].map foreign } := .passed hidle
    simpa using hsame
  unfold attend at hattend
  split at hattend
  · split at hattend
    · cases hattend
      exact .taken
    · cases hattend
      refine hpassed fun k turn hmove => ?_
      cases hmove
      exact Or.inr ⟨_, rfl⟩
  · split at hattend
    · rename_i hjob
      cases hattend
      refine hpassed fun k turn hmove => ?_
      cases hmove
      exact Or.inl hjob
    · rename_i hjob
      split at hattend
      · cases hattend
        exact .performed hjob
      · cases hattend
  · rename_i hturn
    have hidle : ∀ k turn, move = .worker k turn →
        h.jobs k = none ∨ ∃ strand, turn = .take strand :=
      fun k turn hmove => absurd hmove (hturn k turn)
    cases hattend
    by_cases hattached : h.attached = true
    · simp only [hattached, if_true]
      exact .passed hidle
    · simp only [hattached]
      exact hpassed hidle

/-- A handler of the server is posted until it has run, and a thread that has one runs it. -/
structure Booked (h : Hosted m n) : Prop where
  orderly : Orderly h.service
  job : ∀ i, h.jobs i ≠ none → (h.service.threads i).holds ≠ none
  posted : ∀ handler, h.server.own.posted.count handler = h.outstanding handler

private theorem booked_construct (ho : Orderly s) {server : Server}
    (hserver : server.own.posted = []) : (construct s server).Booked where
  orderly :=
    have hstep : Service.step s .getAsioService = some (construct s server).service := rfl
    ho.step hstep
  job i hjob := absurd rfl hjob
  posted handler := by
    have hqueue : (construct s server).queue.filterMap Handler.task = [] := filterMap_foreign _
    have hjobs : ∑ i, ((construct s server).jobs i).toList.count handler = 0 := by
      refine Finset.sum_eq_zero fun i _ => ?_
      rfl
    rw [outstanding, hqueue, hjobs]
    exact congrArg (List.count handler) hserver

theorem Booked.mem_posted (hb : h.Booked) {i : Fin n} {handler : Server.Handler}
    (hjob : h.jobs i = some handler) : handler ∈ h.server.own.posted := by
  by_contra hmem
  have hnone := (hb.posted handler).symm.trans (List.count_eq_zero.mpr hmem)
  have hsum : ∑ k, (h.jobs k).toList.count handler = 0 := by
    rw [outstanding] at hnone
    omega
  have hzero := Finset.sum_eq_zero_iff.mp hsum i (Finset.mem_univ i)
  rw [hjob, Option.toList_some, List.count_singleton_self] at hzero
  cases hzero

theorem Booked.attends (hb : h.Booked) (hs : Service.step h.service move = some s)
    (hattends : h.Attends s answers move h') : h'.Booked := by
  have horderly := hb.orderly.step hs
  have hkept (k : Fin n) (hk : h.jobs k ≠ none) (hother : ∀ turn, move ≠ .worker k turn) :
      (s.threads k).holds ≠ none := by
    rw [hb.orderly.threads_kept hs (hb.job k hk) hother]
    exact hb.job k hk
  cases hattends with
  | @taken i strand =>
      obtain ⟨hbefore, hafter⟩ := step_take_holds hs
      have hidle : h.jobs i = none := by
        by_contra hjob
        exact hb.job i hjob hbefore
      refine ⟨horderly, fun k hk => ?_, fun handler => ?_⟩
      · by_cases hki : k = i
        · subst hki
          exact hafter
        · refine hkept k ?_ fun turn hmove => ?_
          · rwa [← Function.update_of_ne hki _ h.jobs]
          · cases hmove
            exact hki rfl
      · have hcount := count_filterMap_eraseP (fun handler => decide (handler.strand = strand))
          Handler.task h.queue handler
        have hsum := sum_update h.jobs i
          ((h.queue.find? fun handler => handler.strand = strand).bind Handler.task)
          fun job => job.toList.count handler
        have hposted := hb.posted handler
        simp only [hidle, Option.toList_none, List.count_nil] at hsum
        simp only [outstanding] at hposted ⊢
        omega
  | @performed i turn handler hjob =>
      refine ⟨horderly, fun k hk => ?_, fun handler' => ?_⟩
      · have hki : k ≠ i := by
          rintro rfl
          exact hk (Function.update_self ..)
        refine hkept k ?_ fun turn hmove => ?_
        · rwa [← Function.update_of_ne hki _ h.jobs]
        · cases hmove
          exact hki rfl
      · have hsum := sum_update h.jobs i none fun job => job.toList.count handler'
        have hposted := hb.posted handler'
        simp only [hjob, Option.toList_none, Option.toList_some, List.count_nil,
          List.count_singleton] at hsum
        simp only [outstanding] at hposted ⊢
        rw [perform_posted, List.eraseIdx_idxOf_eq_erase, List.count_erase]
        omega
  | @passed move added hidle =>
      refine ⟨horderly, fun k hk => ?_, fun handler => ?_⟩
      · refine hkept k hk ?_
        rintro turn rfl
        rcases hidle k turn rfl with hnone | ⟨strand, rfl⟩
        · exact hk hnone
        · exact hb.job k hk (step_take_holds hs).1
      · rw [hb.posted, outstanding, outstanding, List.filterMap_append, filterMap_foreign,
          List.append_nil]

theorem Booked.call (hb : h.Booked) {handler : Server.Handler}
    (hstep : h.step (.call handler) = some h') : h'.Booked := by
  rcases step_call hstep with rfl | ⟨-, rfl⟩
  · exact hb
  · have hservice := (step_service hstep).2
    refine ⟨?_, fun k hk => ?_, fun handler' => ?_⟩
    · rcases hservice with hsame | ⟨move', hmove'⟩
      · rw [hsame]
        exact hb.orderly
      · exact hb.orderly.step hmove'
    · have hthreads : (if h.attached then
          h.service.modifyService h.endpoint.service (.post ⟨h.strand, .user⟩)
          else h.service).threads k = h.service.threads k := by
        split <;> rfl
      rw [hthreads]
      exact hb.job k hk
    · have hposted := hb.posted handler'
      simp only [outstanding, Service.posted, List.filterMap_append, List.count_append] at hposted ⊢
      have hlast : [(⟨h.strand, some handler⟩ : Handler _)].filterMap Handler.task = [handler] :=
        rfl
      rw [hposted, hlast]
      omega

/-! ## The run of the server alone -/

def Brings : Foundation.Move Server.Call Pending Stimulus → Prop
  | .call .start none | .call .stop none | .handler (.posted _ _) | .resume _ => True
  | _ => False

/-- The server alone is in the state of the hosted one, and nothing of it is running. -/
def Mirrors (h : Hosted m n) (c : PeerConfig Server.Members Server.Handler) : Prop :=
  h.Booked ∧ c.frames = [] ∧ c.world = h.server

private theorem mirrors_call (net : Net) {c : PeerConfig Server.Members Server.Handler}
    {handler : Server.Handler} (hm : h.Mirrors c) (hstep : h.step (.call handler) = some h') :
    ∃ ms c', (∀ m ∈ ms, Brings m) ∧ (Server.system net).run c ms = some c' ∧ h'.Mirrors c' := by
  obtain ⟨hb, hidle, hworld⟩ := hm
  obtain ⟨k, hk, hcall⟩ : ∃ k, Brings (.call k none) ∧
      (Server.system net).call k false = discard (calling handler) := by
    cases handler with
    | start => exact ⟨.start, trivial, rfl⟩
    | stop => exact ⟨.stop, trivial, rfl⟩
  have hreturns : (Server.system net).call k false c.world = .ret () h'.server := by
    rw [hcall, hworld]
    cases hstep
    change (calling handler h.server).bind (fun _ s => .ret () s) =
      .ret () (h.invoke handler).server
    rw [invoke, calling_eq]
    split_ifs <;> rfl
  obtain ⟨count, c', hrun, hframes, hfinal⟩ :=
    System.run_call (S := Server.system net) hidle (k := k) (by rw [hreturns]; trivial)
  refine ⟨_, c', fun m hm => ?_, hrun, hb.call hstep, hframes, ?_⟩
  · rcases List.mem_cons.mp hm with rfl | hm
    · exact hk
    · rw [List.eq_of_mem_replicate hm]
      trivial
  · rw [hfinal, hreturns]
    rfl

private theorem mirrors_performed (net : Net) {c : PeerConfig Server.Members Server.Handler}
    {i : Fin n} {handler : Server.Handler} (hm : h.Mirrors c) (hjob : h.jobs i = some handler) :
    ∃ ms c', (∀ m ∈ ms, Brings m) ∧ (Server.system net).run c ms = some c' ∧ c'.frames = [] ∧
      c'.world = (perform answers handler h.server).final := by
  obtain ⟨hb, hidle, hworld⟩ := hm
  have hfound : (Server.system net).handler (.posted (c.world.own.posted.idxOf handler) answers)
      c.world = some (.posted handler, do
        Server.unpost (c.world.own.posted.idxOf handler)
        Server.postedHandler answers handler) := by
    have hget : c.world.own.posted[c.world.own.posted.idxOf handler]? = some handler :=
      List.getElem?_idxOf (hworld ▸ hb.mem_posted hjob)
    simp only [Server.system, Server.handler, hget]
  obtain ⟨count, c', hrun, hframes, hfinal⟩ :=
    System.run_handler hidle hfound postedHandler_unblocked
  refine ⟨_, c', fun m hm => ?_, hrun, hframes, hworld ▸ hfinal⟩
  rcases List.mem_cons.mp hm with rfl | hm
  · trivial
  · rw [List.eq_of_mem_replicate hm]
    trivial

theorem hosted_simulates (net : Net) :
    Steps.Simulates (Hosted.step (m := m) (n := n)) (Server.system net).step Brings Mirrors := by
  intro h move h' c hm hstep
  cases move with
  | call handler => exact mirrors_call net hm hstep
  | service move answers =>
      obtain ⟨s, hs, hattend⟩ := Option.bind_eq_some_iff.mp hstep
      have hattends := attend_attends hattend
      have hb := hm.1.attends hs hattends
      cases hattends with
      | taken => exact ⟨[], c, by simp, rfl, hb, hm.2⟩
      | performed hjob =>
          obtain ⟨ms, c', hms, hrun, hdone⟩ := mirrors_performed net hm hjob
          exact ⟨ms, c', hms, hrun, hb, hdone⟩
      | passed => exact ⟨[], c, by simp, rfl, hb, hm.2⟩

end Booked

end Hosted

/--
Whatever the service, a server on it runs as a server alone would under some order of its calls
and handlers, and each handler that it has posted and that has not run is in one place.
-/
theorem hosted_server_refines {threads : Nat} {pool : Bool}
    {s : State (serviceCount threads pool) threads} {before : List (Move _ threads)}
    (hs : Steps.run step (ofThreads threads pool) before = some s) (net : Net) {server : Server}
    (hserver : Server.Constructed net server) {h : Hosted (serviceCount threads pool) threads}
    {ms : List (HostedMove _ threads)}
    (hrun : Steps.run Hosted.step (.construct s server) ms = some h) :
    (∃ ms' c, (∀ m ∈ ms', Hosted.Brings m) ∧
      (Server.system net).run (.initial server) ms' = some c ∧ c.frames = [] ∧
        c.world = h.server) ∧
      ∀ handler, h.server.own.posted.count handler = h.outstanding handler := by
  have horderly := orderly_run hs
  have hposted : server.own.posted = [] := by
    obtain ⟨endpoint, own, rfl, hown⟩ := hserver.fresh
    exact hown
  have hinitial : (Hosted.construct s server).Mirrors (.initial server) :=
    ⟨Hosted.booked_construct horderly hposted, rfl, rfl⟩
  obtain ⟨ms', c, hms, hrun', hb, hframes, hworld⟩ :=
    (Hosted.hosted_simulates net).run hinitial hrun
  exact ⟨⟨ms', c, hms, hrun', hframes, hworld⟩, hb.posted⟩

def stopTaken : List (HostedMove 1 2) :=
  .call .start :: serviced [.worker firstThread (.take (some 1)), .worker firstThread .advance] ++
    .call .stop :: serviced [.worker secondThread (.take (some 1))]

theorem hosted_server_refines_pooled :
    ∃ s, Steps.run step (ofThreads 2 true) (startTwo (some 0)) = some s ∧
      ∃ h, Steps.run Hosted.step (.construct s hostedServer) stopTaken = some h ∧
        h.server.running = true ∧ h.jobs secondThread = some .stop ∧
        (∃ ms' c, (∀ m ∈ ms', Hosted.Brings m) ∧
          (Server.system .loopback).run (.initial hostedServer) ms' = some c ∧ c.frames = [] ∧
            c.world = h.server) ∧
        ∀ handler, h.server.own.posted.count handler = h.outstanding handler := by
  obtain ⟨s, hs, h, hrun, hrunning, hjob⟩ :
      ∃ s, Steps.run step (ofThreads 2 true) (startTwo (some 0)) = some s ∧
        ∃ h, Steps.run Hosted.step (.construct s hostedServer) stopTaken = some h ∧
          h.server.running = true ∧ h.jobs secondThread = some .stop :=
    ⟨_, rfl, _, rfl, rfl, rfl⟩
  exact ⟨s, hs, h, hrun, hrunning, hjob,
    hosted_server_refines hs .loopback (.ofPort 3334 .ipv4) hrun⟩

end AsioWrapper.Service
