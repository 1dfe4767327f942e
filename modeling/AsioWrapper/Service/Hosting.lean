import AsioWrapper.Service.Callbacks
import AsioWrapper.Service.Endpoints
import AsioWrapper.Udp.Server

/-!
# A server on its service

`UDPServer::Start` and `UDPServer::Stop` post a handler to the `io_service` of
the server, and a thread of the service performs it.  All of them go through one
strand, or through none, so where one thread runs the `io_service` they are
performed in the order of the calls, whatever else is queued there.
-/

namespace AsioWrapper.Service

open AsioWrapper.Asio
open AsioWrapper.Foundation
open AsioWrapper.Udp
open State

variable {m n : Nat}

/-! ## A server on its service -/

/-- `queue` are the handlers of the `io_service` object of the server, each with the handler of
the server it is, if it is one; `jobs` says the same of the handlers that are running. -/
structure Hosted (m n : Nat) where
  service : State m n
  endpoint : Endpoint m
  queue : List (Handler (Option Server.Handler))
  jobs : Fin n → Option Server.Handler
  server : Server

/-- `answers` are for the socket calls of a start handler that ends with the move.  A call of
`UDPServer::Start` or `UDPServer::Stop` is named by the handler it posts. -/
inductive HostedMove (m n : Nat) where
  | service (move : Move m n) (answers : SocketAnswers)
  | call (handler : Server.Handler)
  deriving DecidableEq, Repr

def foreign (handler : Handler Task) : Handler (Option Server.Handler) := ⟨handler.strand, none⟩

def calling : Server.Handler → Server.Code Bool
  | .start => Server.start
  | .stop => Server.stop

def perform (answers : SocketAnswers) (handler : Server.Handler) : Server.Code Unit := do
  let s ← Program.state
  Server.unpost (s.own.posted.idxOf handler)
  Server.postedHandler answers handler

variable [NeZero m]

namespace Hosted

def construct (s : State m n) (server : Server) : Hosted m n :=
  let (endpoint, s) := Endpoint.construct .server s
  { service := s
    endpoint := endpoint
    queue := (s.services endpoint.service).queue.map foreign
    jobs := fun _ => none
    server := server }

def attached (h : Hosted m n) : Bool := h.endpoint.generation == h.service.generation

def strand (h : Hosted m n) : Option Nat := if h.endpoint.strandRequired then some 1 else none

def invoke (h : Hosted m n) (handler : Server.Handler) : Hosted m n :=
  match calling handler h.server with
  | .ret true server =>
      { h with
        service :=
          if h.attached then
            h.service.modifyService h.endpoint.service (.post ⟨h.strand, .user⟩)
          else h.service
        queue := h.queue ++ [⟨h.strand, some handler⟩]
        server := server }
  | outcome => { h with server := outcome.reached }

/-- The service goes on to `s`.  A thread that takes a handler of the server performs it
before its next move ends it. -/
def attend (h : Hosted m n) (s : State m n) (answers : SocketAnswers) :
    Move m n → Option (Hosted m n)
  | .worker i (.take strand) =>
      if h.attached && decide (home i = h.endpoint.service) then
        some { h with
          service := s
          queue := h.queue.eraseP fun handler => handler.strand = strand
          jobs := Function.update h.jobs i
            ((h.queue.find? fun handler => handler.strand = strand).bind Handler.task) }
      else
        some { h with service := s }
  | .worker i turn =>
      match h.jobs i with
      | none => some { h with service := s }
      | some handler =>
          if (perform answers handler h.server).error.all
              fun ec => decide (turn = .throw (.system ec)) then
            some { h with
              service := s
              jobs := Function.update h.jobs i none
              server := (perform answers handler h.server).final }
          else none
  | _ =>
      some { h with
        service := s
        queue :=
          if h.attached then
            h.queue ++ ((s.services h.endpoint.service).queue.drop
              (h.service.services h.endpoint.service).queue.length).map foreign
          else h.queue }

def step (h : Hosted m n) : HostedMove m n → Option (Hosted m n)
  | .service move answers =>
      (Service.step h.service move).bind fun s => h.attend s answers move
  | .call handler => some (h.invoke handler)

end Hosted

/-! ## The steps of the service -/

section Steps

variable {s s' : State m n} {i : Fin n} {strand : Option Nat} {turn : Turn} {move : Move m n}

private theorem workerStep_serving {p : Bool} (h : workerStep s i turn = some s')
    (hthread : s.threads i = .serving p) (hturn : ∀ strand, turn ≠ .take strand) :
    s'.threads i = .checking true ∨ s'.threads i = .left := by
  cases turn with
  | take strand => exact absurd rfl (hturn strand)
  | throw failure => simp [workerStep, hthread] at h
  | advance =>
      cases p with
      | true =>
          simp only [workerStep, hthread] at h
          split at h
          · cases h
            exact Or.inl setThread_self
          · cases h
      | false =>
          simp only [workerStep, hthread] at h
          split at h
          · cases h
            exact Or.inr (by rw [leave_threads, setThread_self])
          · cases h

theorem Orderly.not_takes (hs : Orderly s) (h : workerStep s i turn = some s')
    (hturn : ∀ strand, turn ≠ .take strand) : Shifts s i s' ∨ Settles s i s' := by
  rcases hs.works_cases (workerStep_works h) with hshifts | htakes | hsettles
  · exact Or.inl hshifts
  · obtain ⟨p, strand, handler, hthread, -, rfl⟩ := htakes
    rcases workerStep_serving h hthread hturn with hnext | hnext
    · rw [setThread_self] at hnext
      cases hnext
    · rw [setThread_self] at hnext
      cases hnext
  · exact Or.inr hsettles

theorem Orderly.workerStep_queue (hs : Orderly s) (h : workerStep s i turn = some s')
    (hturn : ∀ strand, turn ≠ .take strand) (j : Fin m) :
    (s'.services j).queue = (s.services j).queue := by
  rcases hs.not_takes h hturn with hshifts | ⟨p, strand, job, job', task, -, -, -, rfl⟩
  · exact hshifts.queue j
  · rfl

structure Passive (s : State m n) (move : Move m n) (s' : State m n) : Prop where
  queue : ∃ added, (s'.services 0).queue = (s.services 0).queue ++ added
  errand : ∀ k, (s'.threads k).errand = some .stop → (s.threads k).errand = some .stop
  started : s.started = true → s'.started = true ∨ ∃ k, (s.threads k).errand = some .stop
  others : ∀ k, (∀ turn, move ≠ .worker k turn) → ∀ p strand,
    s.threads k = .running p strand .user → s'.threads k = .running p strand .user

theorem passive_of_eq (hqueue : (s'.services 0).queue = (s.services 0).queue)
    (hstarted : s'.started = s.started) (hthreads : s'.threads = s.threads) :
    Passive s move s' where
  queue := ⟨[], by rw [hqueue, List.append_nil]⟩
  errand k h := by rwa [hthreads] at h
  started h := Or.inl (hstarted.trans h)
  others k _ p strand h := by rwa [hthreads]

private theorem passive_post {task : Task} {c : Caller} :
    Passive s move { s.post task with caller := c } where
  queue := by
    refine ⟨[⟨s.strand, task⟩], ?_⟩
    change (Function.update s.services 0 _ 0).queue = _
    rw [Function.update_self]
    rfl
  errand _ h := h
  started := Or.inl
  others _ _ _ _ h := h

private theorem passive_replace {w : Worker} {c : Caller} (hw : w.errand = none)
    (hidle : ∀ p strand, s.threads i ≠ .running p strand .user) :
    Passive s move { s.setThread i w with caller := c } where
  queue := ⟨[], by rw [List.append_nil]; rfl⟩
  errand k h := by
    change ((s.setThread i w).threads k).errand = _ at h
    by_cases hk : k = i
    · subst hk
      rw [setThread_self, hw] at h
      cases h
    · rwa [setThread_of_ne hk] at h
  started := Or.inl
  others k _ p strand h := by
    change (s.setThread i w).threads k = _
    by_cases hk : k = i
    · subst hk
      exact absurd h (hidle p strand)
    · rwa [setThread_of_ne hk]

theorem Orderly.passive_worker (hs : Orderly s) (h : workerStep s i turn = some s')
    (hturn : ∀ strand, turn ≠ .take strand) : Passive s (.worker i turn) s' := by
  rcases hs.not_takes h hturn with hshifts |
    ⟨p, strand, job, job', task, hthread, herrand, herrand', rfl⟩
  · refine ⟨⟨[], by rw [hshifts.queue 0, List.append_nil]⟩, fun k hk => ?_,
      fun hstarted => Or.inl (hshifts.started.trans hstarted), fun k hother p strand hk => ?_⟩
    · by_cases hki : k = i
      · subst hki
        exact hshifts.errand ▸ hk
      · rwa [hshifts.others k hki] at hk
    · rwa [hshifts.others k fun hki => hother turn (by rw [hki])]
  · refine ⟨⟨[], by rw [List.append_nil]; rfl⟩, fun k hk => ?_, fun hstarted => ?_,
      fun k hother q strand' hk => ?_⟩
    · change ((s.setThread i _).threads k).errand = _ at hk
      by_cases hki : k = i
      · subst hki
        rw [setThread_self] at hk
        cases herrand'.symm.trans hk
      · rwa [setThread_of_ne hki] at hk
    · -- only the stop handler clears the flag
      cases task with
      | start => exact Or.inl rfl
      | stop => exact Or.inr ⟨i, by rw [hthread]; exact herrand⟩
      | user => cases job <;> cases herrand
    · change (s.setThread i _).threads k = _
      rwa [setThread_of_ne fun hki => hother turn (by rw [hki])]

theorem Orderly.passive_caller (hs : Orderly s) (h : Calls s s')
    (hkept : s'.generation = s.generation) : Passive s .caller s' := by
  cases h with
  | post h => exact passive_post
  | postStop h => exact passive_post
  | spawn h hk =>
      have habsent := hs.absent (i := ⟨_, hk⟩) (by simp [h, Caller.admits])
      exact passive_replace rfl (by simp [habsent])
  | join h hk hexited => exact passive_replace rfl (by simp [hexited])
  | renewed h => simp at hkept
  | _ => exact passive_of_eq rfl rfl rfl

theorem Orderly.passive (hs : Orderly s) (h : Service.step s move = some s')
    (hkept : s'.generation = s.generation) (hmove : ∀ i strand, move ≠ .worker i (.take strand)) :
    Passive s move s' := by
  cases step_changes h with
  | start hidle => exact passive_of_eq rfl rfl rfl
  | stop hidle hcall => exact passive_of_eq rfl rfl rfl
  | caller hcalls => exact hs.passive_caller hcalls hkept
  | worker hworks =>
      refine hs.passive_worker h fun strand hturn => ?_
      exact hmove _ strand (by rw [hturn])
  | submit _ hsubmits =>
      refine ⟨?_, ?_, fun hstarted => Or.inl (hsubmits.started.trans hstarted), ?_⟩
      · obtain ⟨added, hqueue, -⟩ := hsubmits.queue 0
        exact ⟨added, hqueue⟩
      · rw [hsubmits.threads]
        exact fun _ herrand => herrand
      · rw [hsubmits.threads]
        exact fun _ _ _ _ hk => hk

theorem Orderly.passive_take (hs : Orderly s)
    (h : Service.step s (.worker i (.take strand)) = some s') (hhome : home i ≠ (0 : Fin m)) :
    Passive s (.worker i (.take strand)) s' := by
  obtain ⟨p, handler, hthread, hfront, rfl⟩ := workerStep_take h
  refine ⟨⟨[], ?_⟩, fun k hk => ?_, Or.inl, fun k hother q strand' hk => ?_⟩
  · rw [setThread_services, modifyService_services, Function.update_of_ne hhome.symm,
      List.append_nil]
  · by_cases hki : k = i
    · subst hki
      rw [setThread_self] at hk
      simp only [Worker.errand, Task.errand_job] at hk
      split at hk
      · have hsystem := hs.queued _ handler (IoService.mem_of_front hfront).1 ‹_›
        exact absurd hsystem.1 hhome
      · cases hk
    · rwa [setThread_of_ne hki] at hk
  · rwa [setThread_of_ne fun hki => hother _ (by rw [hki])]

end Steps

/-! ## The handlers of the server -/

def acceptable (running : Bool) : Server.Handler := if running then .stop else .start

section Performing

variable {answers : SocketAnswers} {handler : Server.Handler} {s : Server}

def posted (handler : Server.Handler) (s : Server) : Server :=
  { s with own := { s.own with posted := s.own.posted ++ [handler] } }

def unposted (handler : Server.Handler) (s : Server) : Server :=
  { s with own := { s.own with posted := s.own.posted.eraseIdx (s.own.posted.idxOf handler) } }

theorem calling_eq : calling handler s =
    if handler = acceptable s.running then .ret true (posted handler s) else .ret false s := by
  cases handler with
  | start =>
      change (if s.running then (pure false : Server.Code Bool) else _) s = _
      cases hrunning : s.running <;> rfl
  | stop =>
      change (if !s.running then (pure false : Server.Code Bool) else _) s = _
      cases hrunning : s.running <;> rfl

theorem perform_of_ne (h : handler ≠ acceptable s.running) :
    perform answers handler s = .ret () (unposted handler s) := by
  cases handler with
  | start =>
      have hrunning : s.running = true := by
        by_contra hnot
        exact h (if_neg hnot).symm
      change (if s.running then (pure () : Server.Code Unit) else _) (unposted .start s) = _
      rw [if_pos hrunning]
      rfl
  | stop =>
      have hstopped : ¬s.running = true := fun hrunning => h (if_pos hrunning).symm
      change (if !s.running then (pure () : Server.Code Unit) else _) (unposted .stop s) = _
      rw [if_pos (by simp [hstopped])]
      rfl

theorem perform_stop (h : s.running = true) :
    (perform answers .stop s).final =
      (unposted .stop s).closeSocket.leaveSession.clearBuffers.logged .onStopped := by
  have hrun : perform answers .stop s =
      fire .onStopped (unposted .stop s).closeSocket.leaveSession.clearBuffers := by
    change (if !s.running then (pure () : Server.Code Unit) else _) (unposted .stop s) = _
    rw [if_neg (by simp [h])]
    rfl
  rw [hrun]
  rfl

end Performing

/-! ## What a step does to a hosted server -/

namespace Hosted

section Cases

variable {h h' : Hosted m n} {move : HostedMove m n}

theorem step_call {handler : Server.Handler} (hstep : h.step (.call handler) = some h') :
    h' = h ∨ handler = acceptable h.server.running ∧
      h' = { h with
        service :=
          if h.attached then
            h.service.modifyService h.endpoint.service (.post ⟨h.strand, .user⟩)
          else h.service
        queue := h.queue ++ [⟨h.strand, some handler⟩]
        server := posted handler h.server } := by
  cases hstep
  by_cases hhandler : handler = acceptable h.server.running
  · exact Or.inr ⟨hhandler, by rw [invoke, calling_eq, if_pos hhandler]⟩
  · exact Or.inl (by rw [invoke, calling_eq, if_neg hhandler]; rfl)

theorem attend_service {s : State m n} {answers : SocketAnswers} {move : Move m n}
    (hattend : h.attend s answers move = some h') :
    h'.service = s ∧ h'.endpoint = h.endpoint := by
  unfold attend at hattend
  split at hattend
  · split at hattend
    · cases hattend
      exact ⟨rfl, rfl⟩
    · cases hattend
      exact ⟨rfl, rfl⟩
  · split at hattend
    · cases hattend
      exact ⟨rfl, rfl⟩
    · split at hattend
      · cases hattend
        exact ⟨rfl, rfl⟩
      · cases hattend
  · cases hattend
    exact ⟨rfl, rfl⟩

theorem step_service (hstep : h.step move = some h') :
    h'.endpoint = h.endpoint ∧
      (h'.service = h.service ∨ ∃ move', Service.step h.service move' = some h'.service) := by
  cases move with
  | service move answers =>
      obtain ⟨s, hs, hattend⟩ := Option.bind_eq_some_iff.mp hstep
      obtain ⟨rfl, hendpoint⟩ := attend_service hattend
      exact ⟨hendpoint, Or.inr ⟨move, hs⟩⟩
  | call handler =>
      rcases step_call hstep with rfl | ⟨-, rfl⟩
      · exact ⟨rfl, Or.inl rfl⟩
      · refine ⟨rfl, ?_⟩
        by_cases hattached : h.attached = true
        · exact Or.inr ⟨.submit h.endpoint.service h.strand, by simp [hattached, Service.step]⟩
        · exact Or.inl (by simp [hattached])

def Matches (own : Handler (Option Server.Handler)) (queued : Handler Task) : Prop :=
  own.strand = queued.strand ∧ (own.task ≠ none → queued.task = .user)

theorem matches_foreign (queued : List (Handler Task)) :
    List.Forall₂ Matches (queued.map foreign) queued := by
  induction queued with
  | nil => exact .nil
  | cons first rest ih => exact .cons ⟨rfl, fun hnone => absurd rfl hnone⟩ ih

section Matches

variable {own : List (Handler (Option Server.Handler))} {queue : List (Handler Task)}
  {strand : Option Nat}

private theorem matches_front (h : List.Forall₂ Matches own queue) {queued : Handler Task}
    (hfront : queue.find? (fun handler => handler.strand = strand) = some queued) :
    ∃ first, own.find? (fun handler => handler.strand = strand) = some first ∧
      Matches first queued := by
  induction h with
  | nil => cases hfront
  | @cons first queued' own queue hmatches _ ih =>
      by_cases hstrand : queued'.strand = strand
      · rw [List.find?_cons_of_pos (by simpa using hstrand)] at hfront
        cases hfront
        exact ⟨first, List.find?_cons_of_pos (by simpa [hmatches.1] using hstrand), hmatches⟩
      · rw [List.find?_cons_of_neg (by simpa using hstrand)] at hfront
        rw [List.find?_cons_of_neg (by simpa [hmatches.1] using hstrand)]
        exact ih hfront

private theorem matches_pop (h : List.Forall₂ Matches own queue) :
    List.Forall₂ Matches (own.eraseP fun handler => handler.strand = strand)
      (queue.eraseP fun handler => handler.strand = strand) := by
  induction h with
  | nil => exact .nil
  | @cons first queued own queue hmatches hrest ih =>
      by_cases hstrand : queued.strand = strand
      · rw [List.eraseP_cons_of_pos (by simpa [hmatches.1] using hstrand),
          List.eraseP_cons_of_pos (by simpa using hstrand)]
        exact hrest
      · rw [List.eraseP_cons_of_neg (by simpa [hmatches.1] using hstrand),
          List.eraseP_cons_of_neg (by simpa using hstrand)]
        exact .cons hmatches ih

/-- The handlers of the server are taken in their order, since they share a strand. -/
private theorem filterMap_pop {shared : Option Nat}
    (hshared : ∀ handler ∈ own, handler.task ≠ none → handler.strand = shared)
    {first : Handler (Option Server.Handler)}
    (hfirst : own.find? (fun handler => handler.strand = strand) = some first) :
    own.filterMap Handler.task = first.task.toList ++
      (own.eraseP fun handler => handler.strand = strand).filterMap Handler.task := by
  induction own with
  | nil => cases hfirst
  | cons head own ih =>
      by_cases hstrand : head.strand = strand
      · rw [List.find?_cons_of_pos (by simpa using hstrand)] at hfirst
        rw [List.eraseP_cons_of_pos (by simpa using hstrand), List.filterMap_cons]
        cases hfirst
        cases first.task <;> rfl
      · rw [List.find?_cons_of_neg (by simpa using hstrand)] at hfirst
        rw [List.eraseP_cons_of_neg (by simpa using hstrand), List.filterMap_cons,
          List.filterMap_cons, ih (fun handler hmem => hshared handler (.tail _ hmem)) hfirst]
        cases hhead : head.task with
        | none => rfl
        | some handler =>
            -- what is taken from behind a handler of the server is not one of the server
            have hforeign : first.task = none := by
              by_contra hsome
              have hmem := List.mem_of_find?_eq_some hfirst
              have hfound : first.strand = strand := by simpa using List.find?_some hfirst
              have hone := hshared first (.tail _ hmem) hsome
              have hother := hshared head List.mem_cons_self (by simp [hhead])
              exact hstrand (hother.trans (hone.symm.trans hfound))
            rw [hforeign]
            rfl

end Matches

structure Aligned (h : Hosted m n) : Prop where
  queue : List.Forall₂ Matches h.queue (h.service.services 0).queue
  strand : ∀ handler ∈ h.queue, handler.task ≠ none → handler.strand = h.strand
  job : ∀ i handler, h.jobs i = some handler →
    home i = (0 : Fin m) ∧ ∃ p strand, h.service.threads i = .running p strand .user

inductive Progress (i : Fin n) (h : Hosted m n) : HostedMove m n → Hosted m n → Prop where
  | refused {handler : Server.Handler} : Progress i h (.call handler) h
  | posted {handler : Server.Handler} (hhandler : handler = acceptable h.server.running) :
      Progress i h (.call handler) { h with
        service := h.service.modifyService 0 (.post ⟨h.strand, .user⟩)
        queue := h.queue ++ [⟨h.strand, some handler⟩]
        server := Service.posted handler h.server }
  | taken {move : HostedMove m n} {strand : Option Nat} {own : Handler (Option Server.Handler)}
      {queued : Handler Task} {p : Bool}
      (hown : h.queue.find? (fun handler => handler.strand = strand) = some own)
      (hfront : (h.service.services 0).front strand = some queued)
      (hmatches : Matches own queued) (hthread : h.service.threads i = .serving p) :
      Progress i h move { h with
        service := (h.service.modifyService 0 (.pop strand)).setThread i
          (.running p strand queued.task.job)
        queue := h.queue.eraseP fun handler => handler.strand = strand
        jobs := Function.update h.jobs i own.task }
  | passed {move : Move m n} {answers : SocketAnswers} {s : State m n}
      {added : List (Handler Task)} (hpassive : Passive h.service move s)
      (hqueue : (s.services 0).queue = (h.service.services 0).queue ++ added)
      (hjob : ∀ k handler, h.jobs k = some handler → ∀ turn, move ≠ .worker k turn) :
      Progress i h (.service move answers) { h with
        service := s
        queue := h.queue ++ added.map foreign }
  | performed {turn : Turn} {answers : SocketAnswers} {s : State m n} {handler : Server.Handler}
      (hpassive : Passive h.service (.worker i turn) s)
      (hqueue : (s.services 0).queue = (h.service.services 0).queue)
      (hjob : h.jobs i = some handler) :
      Progress i h (.service (.worker i turn) answers) { h with
        service := s
        jobs := Function.update h.jobs i none
        server := (perform answers handler h.server).final }

section Attending

variable {i k : Fin n} {s : State m n} {answers : SocketAnswers}

private theorem attend_take {strand : Option Nat}
    (hsingle : ∀ k : Fin n, home k = (0 : Fin m) → k = i)
    (hplace : h.endpoint.service = 0) (ho : Orderly h.service) (ha : h.Aligned)
    (hattached : h.attached = true)
    (hs : Service.step h.service (.worker k (.take strand)) = some s)
    (hattend : h.attend s answers (.worker k (.take strand)) = some h') :
    h.Progress i (.service (.worker k (.take strand)) answers) h' := by
  simp only [attend, hattached, hplace, Bool.true_and, decide_eq_true_eq] at hattend
  by_cases hk : home k = (0 : Fin m)
  · obtain rfl := hsingle k hk
    rw [if_pos hk] at hattend
    cases hattend
    obtain ⟨p, queued, hthread, hfront, rfl⟩ := workerStep_take hs
    rw [hk] at hfront
    obtain ⟨own, hown, hmatches⟩ := matches_front ha.queue hfront
    rw [hk, hown, Option.bind_some]
    exact .taken hown hfront hmatches hthread
  · rw [if_neg hk] at hattend
    cases hattend
    have hqueue : (s.services 0).queue = (h.service.services 0).queue ++ [] := by
      obtain ⟨p, queued, -, -, rfl⟩ := workerStep_take hs
      rw [setThread_services, modifyService_services, Function.update_of_ne (Ne.symm hk),
        List.append_nil]
    have hpassed : h.Progress i (.service (.worker k (.take strand)) answers)
        { h with service := s, queue := h.queue ++ [].map foreign } := by
      refine .passed (ho.passive_take hs hk) hqueue fun other handler hjob turn hmove => ?_
      cases hmove
      exact hk (ha.job k handler hjob).1
    simpa using hpassed

private theorem attend_turn {turn : Turn} (hsingle : ∀ k : Fin n, home k = (0 : Fin m) → k = i)
    (ho : Orderly h.service) (ha : h.Aligned) (hturn : ∀ strand, turn ≠ .take strand)
    (hs : Service.step h.service (.worker k turn) = some s)
    (hattend : h.attend s answers (.worker k turn) = some h') :
    h.Progress i (.service (.worker k turn) answers) h' := by
  have hpassive := ho.passive_worker hs hturn
  have hqueue := ho.workerStep_queue hs hturn 0
  have hattend' : (match h.jobs k with
      | none => some { h with service := s }
      | some handler =>
          if (perform answers handler h.server).error.all
              fun ec => decide (turn = .throw (.system ec)) then
            some { h with
              service := s
              jobs := Function.update h.jobs k none
              server := (perform answers handler h.server).final }
          else none) = some h' := by
    cases turn with
    | take strand => exact absurd rfl (hturn strand)
    | advance => exact hattend
    | throw failure => exact hattend
  cases hjob : h.jobs k with
  | none =>
      rw [hjob] at hattend'
      cases hattend'
      have hpassed : h.Progress i (.service (.worker k turn) answers)
          { h with service := s, queue := h.queue ++ [].map foreign } := by
        refine .passed hpassive (by rw [hqueue, List.append_nil])
          fun other handler hsome t hmove => ?_
        cases hmove
        cases hjob.symm.trans hsome
      simpa using hpassed
  | some handler =>
      rw [hjob] at hattend'
      dsimp only at hattend'
      split at hattend'
      · cases hattend'
        obtain rfl := hsingle k (ha.job k handler hjob).1
        exact .performed hpassive hqueue hjob
      · cases hattend'

private theorem attend_other {move : Move m n} (hplace : h.endpoint.service = 0)
    (ho : Orderly h.service) (hattached : h.attached = true)
    (hmove : ∀ k turn, move ≠ .worker k turn) (hs : Service.step h.service move = some s)
    (hkept : s.generation = h.service.generation)
    (hattend : h.attend s answers move = some h') :
    h.Progress i (.service move answers) h' := by
  have hpassive := ho.passive hs hkept fun k strand => hmove k _
  obtain ⟨added, hqueue⟩ := hpassive.queue
  have hdrop : (s.services 0).queue.drop (h.service.services 0).queue.length = added := by
    rw [hqueue, List.drop_left]
  have hattend' : h' = { h with service := s, queue := h.queue ++ added.map foreign } := by
    cases move with
    | worker k turn => exact absurd rfl (hmove k turn)
    | _ =>
        simp only [attend, hattached, hplace, if_true, hdrop] at hattend
        cases hattend
        rfl
  rw [hattend']
  exact .passed hpassive hqueue fun k handler _ turn => hmove k turn

end Attending

theorem progress {i : Fin n} (hsingle : ∀ k : Fin n, home k = (0 : Fin m) → k = i)
    (hplace : h.endpoint.service = 0) (ho : Orderly h.service) (ha : h.Aligned)
    (hattached : h.attached = true) (hstep : h.step move = some h')
    (hkept : h'.service.generation = h.service.generation) : h.Progress i move h' := by
  cases move with
  | call handler =>
      rcases step_call hstep with rfl | ⟨hhandler, rfl⟩
      · exact .refused
      · rw [if_pos hattached, hplace]
        exact .posted hhandler
  | service move answers =>
      obtain ⟨s, hs, hattend⟩ := Option.bind_eq_some_iff.mp hstep
      obtain ⟨rfl, -⟩ := attend_service hattend
      cases move with
      | worker k turn =>
          cases turn with
          | take strand => exact attend_take hsingle hplace ho ha hattached hs hattend
          | advance => exact attend_turn hsingle ho ha (by simp) hs hattend
          | throw failure => exact attend_turn hsingle ho ha (by simp) hs hattend
      | _ => exact attend_other hplace ho hattached (by simp) hs hkept hattend

end Cases

/-! ## The order of the handlers -/

/-- Handlers that come too late may be pending; those that do not come after all of them. -/
def Alternating (running : Bool) (pending : List Server.Handler) : Prop :=
  pending.Pairwise fun earlier later =>
    earlier = acceptable running → later = acceptable running

section Alternating

variable {running : Bool} {pending : List Server.Handler} {handler : Server.Handler}

theorem Alternating.concat (h : Alternating running pending) :
    Alternating running (pending ++ [acceptable running]) := by
  refine List.pairwise_append.mpr ⟨h, List.pairwise_singleton _ _, ?_⟩
  intro earlier _ later hlater _
  exact List.mem_singleton.mp hlater

private theorem alternating_of_forall (h : ∀ later ∈ pending, later = handler) :
    Alternating running pending := by
  refine List.Pairwise.imp_of_mem ?_ (List.pairwise_of_forall fun _ _ => trivial)
  intro earlier later hearlier hlater _ hacceptable
  rw [h later hlater, ← h earlier hearlier, hacceptable]

theorem Alternating.next {running' : Bool} (h : Alternating running (handler :: pending))
    (hkept : handler ≠ acceptable running → running' = running) :
    Alternating running' pending := by
  by_cases hhandler : handler = acceptable running
  · exact alternating_of_forall fun later hlater => List.rel_of_pairwise_cons h hlater hhandler
  · rw [hkept hhandler]
    exact h.of_cons

end Alternating

def pending (i : Fin n) (h : Hosted m n) : List Server.Handler :=
  (h.jobs i).toList ++ h.queue.filterMap Handler.task

structure Regular (i : Fin n) (h : Hosted m n) : Prop where
  orderly : Orderly h.service
  dated : h.endpoint.generation ≤ h.service.generation
  aligned : h.attached = true → h.Aligned
  alternating : h.attached = true → Alternating h.server.running (h.pending i)

section Regular

variable {i : Fin n} {h h' : Hosted m n} {move : HostedMove m n}

theorem job_of_serving {p : Bool} (ha : h.Aligned) (hthread : h.service.threads i = .serving p) :
    h.jobs i = none := by
  by_contra hjob
  obtain ⟨handler, hsome⟩ := Option.ne_none_iff_exists'.mp hjob
  obtain ⟨-, q, strand, hrunning⟩ := ha.job i handler hsome
  cases hthread.symm.trans hrunning

theorem pending_of_serving {p : Bool} {strand : Option Nat}
    {own : Handler (Option Server.Handler)} (ha : h.Aligned)
    (hthread : h.service.threads i = .serving p)
    (hown : h.queue.find? (fun handler => handler.strand = strand) = some own) :
    h.pending i = own.task.toList ++
      (h.queue.eraseP fun handler => handler.strand = strand).filterMap Handler.task := by
  rw [pending, job_of_serving ha hthread, Option.toList_none, List.nil_append]
  exact filterMap_pop ha.strand hown

theorem filterMap_foreign (added : List (Handler Task)) :
    (added.map foreign).filterMap Handler.task = [] := by
  simp [List.filterMap_map, foreign]

theorem Progress.aligned (hsole : ∀ k : Fin n, home k = (0 : Fin m) ↔ k = i) (ha : h.Aligned)
    (hprogress : h.Progress i move h') : h'.Aligned := by
  cases hprogress with
  | refused => exact ha
  | posted hhandler =>
      refine ⟨?_, fun handler hmem htask => ?_, ha.job⟩
      · change List.Forall₂ Matches _ (Function.update h.service.services 0 _ 0).queue
        rw [Function.update_self]
        exact List.rel_append ha.queue (.cons ⟨rfl, fun _ => rfl⟩ .nil)
      · rcases List.mem_append.mp hmem with hmem | hmem
        · exact ha.strand handler hmem htask
        · rw [List.mem_singleton.mp hmem]
          rfl
  | @taken move strand own queued p hown hfront hmatches hthread =>
      refine ⟨?_, fun handler hmem => ha.strand handler (List.mem_of_mem_eraseP hmem),
        fun k handler hjob => ?_⟩
      · change List.Forall₂ Matches _
          (Function.update h.service.services 0 ((h.service.services 0).pop strand) 0).queue
        rw [Function.update_self]
        exact matches_pop ha.queue
      · change Function.update h.jobs i own.task k = some handler at hjob
        by_cases hk : k = i
        · subst hk
          rw [Function.update_self] at hjob
          have huser : queued.task = .user := hmatches.2 (by simp [hjob])
          refine ⟨(hsole k).mpr rfl, p, strand, ?_⟩
          change (State.setThread _ k _).threads k = _
          rw [setThread_self, huser]
          rfl
        · rw [Function.update_of_ne hk] at hjob
          exact absurd ((hsole k).mp (ha.job k handler hjob).1) hk
  | @passed move answers s added hpassive hqueue hjob =>
      refine ⟨?_, fun handler hmem htask => ?_, fun k handler hsome => ?_⟩
      · change List.Forall₂ Matches _ (s.services 0).queue
        rw [hqueue]
        exact List.rel_append ha.queue (matches_foreign added)
      · rcases List.mem_append.mp hmem with hmem | hmem
        · exact ha.strand handler hmem htask
        · obtain ⟨queued, -, rfl⟩ := List.mem_map.mp hmem
          exact absurd rfl htask
      · obtain ⟨hhome, p, strand, hthread⟩ := ha.job k handler hsome
        exact ⟨hhome, p, strand, hpassive.others k (hjob k handler hsome) p strand hthread⟩
  | @performed turn answers s handler hpassive hqueue hjob =>
      refine ⟨?_, ha.strand, fun k handler' hsome => ?_⟩
      · change List.Forall₂ Matches _ (s.services 0).queue
        rw [hqueue]
        exact ha.queue
      · change Function.update h.jobs i none k = some handler' at hsome
        by_cases hk : k = i
        · subst hk
          rw [Function.update_self] at hsome
          cases hsome
        · rw [Function.update_of_ne hk] at hsome
          exact absurd ((hsole k).mp (ha.job k handler' hsome).1) hk

theorem Progress.alternating (ha : h.Aligned)
    (hpending : Alternating h.server.running (h.pending i)) (hprogress : h.Progress i move h') :
    Alternating h'.server.running (h'.pending i) := by
  cases hprogress with
  | refused => exact hpending
  | @posted handler hhandler =>
      subst hhandler
      have hnext := hpending.concat
      simpa [pending, Service.posted, List.filterMap_append] using hnext
  | @taken move strand own queued p hown hfront hmatches hthread =>
      rw [pending_of_serving ha hthread hown] at hpending
      simpa [pending] using hpending
  | @passed move answers s added hpassive hqueue hjob =>
      rw [pending, List.filterMap_append, filterMap_foreign, List.append_nil]
      exact hpending
  | @performed turn answers s handler hpassive hqueue hjob =>
      have hfirst : pending i h = handler :: h.queue.filterMap Handler.task := by
        rw [pending, hjob]
        rfl
      rw [hfirst] at hpending
      have hnext : Alternating (perform answers handler h.server).final.running
          (h.queue.filterMap Handler.task) :=
        hpending.next fun hlate => by rw [perform_of_ne hlate]; rfl
      simpa [pending] using hnext

theorem Regular.kept (hr : Regular i h) (hstep : h.step move = some h')
    (hattached : h'.attached = true) :
    h.attached = true ∧ h'.service.generation = h.service.generation := by
  obtain ⟨hendpoint, hservice⟩ := step_service hstep
  have hdated := hr.dated
  simp only [attached, beq_iff_eq, hendpoint] at hattached ⊢
  rcases hservice with hsame | ⟨move', hmove'⟩
  · rw [hsame] at hattached ⊢
    exact ⟨hattached, rfl⟩
  · rcases step_generation hmove' with hsame | ⟨-, -, hnext⟩
    · exact ⟨hattached.trans hsame, hsame⟩
    · omega

theorem Regular.step (hsole : ∀ k : Fin n, home k = (0 : Fin m) ↔ k = i)
    (hplace : h.endpoint.service = 0) (hr : Regular i h) (hstep : h.step move = some h') :
    Regular i h' := by
  obtain ⟨hendpoint, hservice⟩ := step_service hstep
  have hprogress (hattached : h'.attached = true) : h.attached = true ∧ h.Progress i move h' := by
    obtain ⟨hbefore, hkept⟩ := hr.kept hstep hattached
    exact ⟨hbefore, progress (fun k => (hsole k).mp) hplace hr.orderly (hr.aligned hbefore)
      hbefore hstep hkept⟩
  refine ⟨?_, ?_, fun hattached => ?_, fun hattached => ?_⟩
  · rcases hservice with hsame | ⟨move', hmove'⟩
    · rw [hsame]
      exact hr.orderly
    · exact hr.orderly.step hmove'
  · rw [hendpoint]
    rcases hservice with hsame | ⟨move', hmove'⟩
    · rw [hsame]
      exact hr.dated
    · have hdated := hr.dated
      rcases step_generation hmove' with hsame | ⟨-, -, hnext⟩ <;> omega
  · obtain ⟨hbefore, hnext⟩ := hprogress hattached
    exact hnext.aligned hsole (hr.aligned hbefore)
  · obtain ⟨hbefore, hnext⟩ := hprogress hattached
    exact hnext.alternating (hr.aligned hbefore) (hr.alternating hbefore)

theorem regular_construct {s : State m n} (ho : Orderly s) (server : Server)
    (hplace : (construct s server).endpoint.service = 0) : Regular i (construct s server) where
  orderly :=
    have hstep : Service.step s .getAsioService = some (construct s server).service := rfl
    ho.step hstep
  dated := le_rfl
  aligned _ := by
    refine ⟨?_, fun handler hmem htask => ?_, fun k handler hjob => by cases hjob⟩
    · change List.Forall₂ Matches ((s.services (construct s server).endpoint.service).queue.map
        foreign) (s.services 0).queue
      rw [hplace]
      exact matches_foreign _
    · obtain ⟨queued, -, rfl⟩ := List.mem_map.mp hmem
      exact absurd rfl htask
  alternating _ := by
    have hnone : pending i (construct s server) = [] := filterMap_foreign _
    rw [hnone]
    exact .nil

end Regular

end Hosted

end AsioWrapper.Service
