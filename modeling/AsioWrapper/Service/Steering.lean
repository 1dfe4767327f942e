import AsioWrapper.Service.Refinement
import AsioWrapper.Service.Returning

/-!
# A server with one caller

A thread that is alone in calling a server and that posts no handler before the
last one has run knows which state the server is heading for.  Whatever it posts
before it calls `Service::Stop` is run before the service stops.
-/

namespace AsioWrapper.Service

open AsioWrapper.Asio
open AsioWrapper.Foundation
open AsioWrapper.Foundation.Program
open AsioWrapper.Udp
open State

/-! ## A start handler that does not throw -/

section Opening

variable {δ : Type} {s : Peer δ} {log : List Event} {call : SocketCall} {ec : ErrorCode}
  {effect : Peer δ → Peer δ} {next : Unit → Proc δ Unit}

def Opens (log : List Event) (o : Outcome (Peer δ) Event ErrorCode Unit) : Prop :=
  o.error = none → o.final.running = true ∧ o.final.socket.isOpen = true ∧ o.final.log = log

theorem attempt_opens (h : Opens log (next () (effect s))) :
    Opens log ((attempt call ec effect >>= next) s) := by
  intro herror
  rw [bind_apply, attempt] at herror ⊢
  split at herror
  · cases herror
  · rename_i hec
    rw [if_neg hec]
    exact h herror

private theorem whenever_opens {c : Bool}
    (h : ∀ s', s'.log = s.log → s'.socket.isOpen = s.socket.isOpen →
      Opens log (next () s'))
    (heffect : (effect s).log = s.log ∧ (effect s).socket.isOpen = s.socket.isOpen) :
    Opens log ((whenever c (attempt call ec effect) >>= next) s) := by
  cases c with
  | false => exact h s rfl rfl
  | true => exact attempt_opens (h (effect s) heffect.1 heffect.2)

private theorem openSession_opens (answers : SocketAnswers) (bindTo : Peer δ → Asio.Endpoint)
    (announce : Event) :
    Opens (s.log ++ [announce]) (openSession answers bindTo announce s) := by
  refine attempt_opens (whenever_opens (fun s₁ hlog₁ hopen₁ => ?_) ⟨rfl, rfl⟩)
  refine whenever_opens (fun s₂ hlog₂ hopen₂ => ?_) ⟨rfl, rfl⟩
  refine attempt_opens (attempt_opens fun _ => ⟨rfl, hopen₂.trans hopen₁, ?_⟩)
  change s₂.log ++ [announce] = s.log ++ [announce]
  rw [hlog₂, hlog₁]
  rfl

theorem attempt_error (hec : ec.failed = false) (h : (next () (effect s)).error = none) :
    ((attempt call ec effect >>= next) s).error = none := by
  rw [bind_apply, attempt, if_neg (by simp [hec])]
  exact h

private theorem whenever_error {c : Bool} (hec : ec.failed = false)
    (h : ∀ s', (next () s').error = none) :
    ((whenever c (attempt call ec effect) >>= next) s).error = none := by
  cases c with
  | false => exact h s
  | true => exact attempt_error hec (h _)

private theorem openSession_clean (size : Nat) (bindTo : Peer δ → Asio.Endpoint) (announce : Event)
    (hclosed : s.socket.isOpen = false) :
    (openSession (.clean size) bindTo announce s).error = none := by
  refine attempt_error (by simp [hclosed]; rfl) ?_
  refine whenever_error rfl fun s₁ => whenever_error rfl fun s₂ => ?_
  exact attempt_error rfl (attempt_error rfl rfl)

end Opening

/-! ## Where the server is heading -/

section Steered

variable {goal : Bool} {s : Server} {answers : SocketAnswers} {handler : Server.Handler}

def announcement (running : Bool) : Event := if running then .onStopped else .onStarted

private theorem perform_acceptable (hhandler : handler = acceptable s.running)
    (herror : (perform answers handler s).error = none) :
    (perform answers handler s).final.running = !s.running ∧
      (perform answers handler s).final.socket.isOpen = !s.running ∧
      (perform answers handler s).final.log = s.log ++ [announcement s.running] := by
  subst hhandler
  cases hflag : s.running with
  | false =>
      rw [hflag] at herror
      have hstart : perform answers (acceptable false) s =
          openSession answers (fun s => s.endpoint) .onStarted (unposted .start s) := by
        change (if s.running then (pure () : Server.Code Unit) else _) (unposted .start s) = _
        rw [if_neg (by simp [hflag])]
      rw [hstart] at herror ⊢
      exact openSession_opens answers (fun s : Server => s.endpoint) .onStarted herror
  | true =>
      change (perform answers .stop s).final.running = _ ∧
        (perform answers .stop s).final.socket.isOpen = _ ∧
        (perform answers .stop s).final.log = _
      rw [perform_stop hflag]
      exact ⟨rfl, rfl, rfl⟩

/-- The server is in the state `goal`, or the one handler it has posted takes it there. -/
structure Steered (goal : Bool) (s : Server) : Prop where
  toward : s.own.posted = [] ∧ s.running = goal ∨
    s.own.posted = [acceptable s.running] ∧ s.running = !goal
  socket : s.socket.isOpen = s.running
  log : s.log.count .onStarted = s.log.count .onStopped + s.running.toNat

theorem Steered.perform (hs : Steered goal s) (hposted : handler ∈ s.own.posted)
    (herror : (perform answers handler s).error = none) :
    Steered goal (Service.perform answers handler s).final := by
  rcases hs.toward with ⟨hnone, -⟩ | ⟨hone, hrunning⟩
  · rw [hnone] at hposted
    cases hposted
  · rw [hone, List.mem_singleton] at hposted
    obtain ⟨hflag, hsocket, hlog⟩ := perform_acceptable hposted herror
    refine ⟨Or.inl ⟨?_, ?_⟩, hsocket.trans hflag.symm, ?_⟩
    · rw [perform_posted, hone, hposted, List.idxOf_cons_self]
      rfl
    · rw [hflag, hrunning, Bool.not_not]
    · have hcount := hs.log
      rw [hlog, hflag, List.count_append, List.count_append]
      cases hbefore : s.running with
      | false =>
          rw [hbefore] at hcount
          simpa [announcement] using hcount
      | true =>
          rw [hbefore] at hcount
          simpa [announcement] using hcount

theorem Steered.post (hs : Steered goal s) (hrunning : s.running = goal) :
    Steered (!goal) (posted (acceptable s.running) s) := by
  have hnone : s.own.posted = [] := by
    rcases hs.toward with ⟨hnone, -⟩ | ⟨-, hother⟩
    · exact hnone
    · rw [hrunning] at hother
      cases goal <;> cases hother
  refine ⟨Or.inr ⟨?_, ?_⟩, hs.socket, hs.log⟩
  · change s.own.posted ++ [acceptable s.running] = _
    rw [hnone]
    rfl
  · rw [Bool.not_not]
    exact hrunning

end Steered

/-! ## What is posted before the service is told to stop -/

variable {m n : Nat} [NeZero m]

namespace Hosted

/-- The handlers of the server are not behind the stop handler of the service, and none is left
once that one runs. -/
structure Sequenced (i : Fin n) (h : Hosted m n) : Prop where
  booked : h.server.own.posted = h.pending i
  ahead : (h.queue.zip (h.service.services 0).queue).Pairwise fun earlier later =>
    earlier.2.task = .stop → later.1.task = none
  exhausted : h.service.started = false ∨ (∃ k, (h.service.threads k).errand = some .stop) →
    h.pending i = []

section Sequenced

variable {i : Fin n} {h h' : Hosted m n} {move : HostedMove m n}

omit [NeZero m] in
private theorem pending_append {added : List (Handler Task)} {s : State m n} :
    pending i { h with service := s, queue := h.queue ++ added.map foreign } = h.pending i := by
  rw [pending, List.filterMap_append, filterMap_foreign, List.append_nil]
  rfl

private theorem stopping_of_passive {smove : Move m n} {s : State m n}
    (hpassive : Passive h.service smove s)
    (hover : s.started = false ∨ ∃ k, (s.threads k).errand = some .stop) :
    h.service.started = false ∨ ∃ k, (h.service.threads k).errand = some .stop := by
  rcases hover with hcleared | ⟨k, herrand⟩
  · by_cases hbefore : h.service.started = true
    · rcases hpassive.started hbefore with hset | herrand
      · cases hcleared.symm.trans hset
      · exact Or.inr herrand
    · exact Or.inl (Bool.eq_false_iff.mpr hbefore)
  · exact Or.inr ⟨k, hpassive.errand k herrand⟩

theorem Sequenced.posted {handler : Server.Handler} (hs : Sequenced i h) (ha : h.Aligned)
    (hload : h.service.load = 0) (hstarted : h.service.started = true) :
    Sequenced i { h with
      service := h.service.modifyService 0 (.post ⟨h.strand, .user⟩)
      queue := h.queue ++ [⟨h.strand, some handler⟩]
      server := Service.posted handler h.server } := by
  refine ⟨?_, ?_, fun hover => ?_⟩
  · change h.server.own.posted ++ [handler] = _ ++ (h.queue ++ [_]).filterMap Handler.task
    rw [hs.booked, List.filterMap_append, ← List.append_assoc]
    rfl
  · change List.Pairwise _ ((h.queue ++ [_]).zip
      (Function.update h.service.services 0 ((h.service.services 0).post _) 0).queue)
    rw [Function.update_self, IoService.post, List.zip_append ha.queue.length_eq]
    refine List.pairwise_append.mpr ⟨hs.ahead, List.pairwise_singleton _ _, ?_⟩
    intro earlier hmem later _ hstop
    have hsystem := queued_of_load hload (List.of_mem_zip hmem).2
    rw [hstop] at hsystem
    cases hsystem
  · rcases hover with hcleared | ⟨k, herrand⟩
    · cases hstarted.symm.trans hcleared
    · cases (errand_of_load hload k).symm.trans herrand

private theorem zip_pop {own : List (Handler (Option Server.Handler))} {queue : List (Handler Task)}
    {strand : Option Nat} (h : List.Forall₂ Matches own queue) :
    ((own.eraseP fun handler => handler.strand = strand).zip
      (queue.eraseP fun handler => handler.strand = strand)).Sublist (own.zip queue) := by
  induction h with
  | nil => exact .slnil
  | @cons first queued own queue hmatches _ ih =>
      by_cases hstrand : queued.strand = strand
      · rw [List.eraseP_cons_of_pos (by simpa [hmatches.1] using hstrand),
          List.eraseP_cons_of_pos (by simpa using hstrand)]
        exact List.sublist_cons_self _ _
      · rw [List.eraseP_cons_of_neg (by simpa [hmatches.1] using hstrand),
          List.eraseP_cons_of_neg (by simpa using hstrand)]
        exact ih.cons_cons _

/-- Nothing of the server is queued any more when the stop handler of the service is taken. -/
private theorem exhausted_of_stop {own : List (Handler (Option Server.Handler))}
    {queue : List (Handler Task)} {shared strand : Option Nat}
    (h : List.Forall₂ Matches own queue)
    (hown : ∀ handler ∈ own, handler.task ≠ none → handler.strand = shared)
    (hqueue : ∀ handler ∈ queue, handler.task.isSystem = true → handler.strand = shared)
    (hahead : (own.zip queue).Pairwise fun earlier later =>
      earlier.2.task = .stop → later.1.task = none) {queued : Handler Task}
    (hfront : queue.find? (fun handler => handler.strand = strand) = some queued)
    (hstop : queued.task = .stop) : own.filterMap Handler.task = [] := by
  induction h with
  | nil => cases hfront
  | @cons first queued' own queue hmatches hrest ih =>
      rw [List.zip_cons_cons, List.pairwise_cons] at hahead
      rw [List.filterMap_eq_nil_iff]
      by_cases hstrand : queued'.strand = strand
      · -- everything behind it is foreign, and it is not a handler of the server itself
        rw [List.find?_cons_of_pos (by simpa using hstrand)] at hfront
        cases hfront
        intro handler hmem
        rcases List.mem_cons.mp hmem with rfl | hmem
        · by_contra hsome
          cases hstop.symm.trans (hmatches.2 hsome)
        · rw [← List.map_fst_zip (Nat.le_of_eq hrest.length_eq)] at hmem
          obtain ⟨later, hlater, rfl⟩ := List.mem_map.mp hmem
          exact hahead.1 later hlater hstop
      · rw [List.find?_cons_of_neg (by simpa using hstrand)] at hfront
        have hnone := ih (fun handler hmem => hown handler (.tail _ hmem))
          (fun handler hmem => hqueue handler (.tail _ hmem)) hahead.2 hfront
        intro handler hmem
        rcases List.mem_cons.mp hmem with rfl | hmem
        · by_contra hsome
          have hfound : queued.strand = strand := by simpa using List.find?_some hfront
          have hsystem := hqueue queued (.tail _ (List.mem_of_find?_eq_some hfront))
            (by rw [hstop]; rfl)
          refine hstrand (hmatches.1.symm.trans ?_)
          exact (hown _ List.mem_cons_self hsome).trans (hsystem.symm.trans hfound)
        · exact List.filterMap_eq_nil_iff.mp hnone handler hmem

theorem Sequenced.taken {strand : Option Nat} {own : Handler (Option Server.Handler)}
    {queued : Handler Task} {p : Bool} (hs : Sequenced i h) (ha : h.Aligned)
    (hstrandless : Strandless h)
    (hown : h.queue.find? (fun handler => handler.strand = strand) = some own)
    (hfront : (h.service.services 0).front strand = some queued)
    (hthread : h.service.threads i = .serving p) :
    Sequenced i { h with
      service := (h.service.modifyService 0 (.pop strand)).setThread i
        (.running p strand queued.task.job)
      queue := h.queue.eraseP fun handler => handler.strand = strand
      jobs := Function.update h.jobs i own.task } := by
  have hpending : (Function.update h.jobs i own.task i).toList ++
      (h.queue.eraseP fun handler => handler.strand = strand).filterMap Handler.task =
        h.pending i := by
    rw [Function.update_self, pending_of_serving ha hthread hown]
  refine ⟨hs.booked.trans hpending.symm, ?_, fun hover => hpending.trans ?_⟩
  · change List.Pairwise _ (List.zip _
      (Function.update h.service.services 0 ((h.service.services 0).pop strand) 0).queue)
    rw [Function.update_self]
    exact hs.ahead.sublist (zip_pop ha.queue)
  · rcases hover with hcleared | ⟨k, herrand⟩
    · exact hs.exhausted (Or.inl hcleared)
    · change ((State.setThread _ i _).threads k).errand = _ at herrand
      by_cases hk : k = i
      · subst hk
        rw [setThread_self] at herrand
        simp only [Worker.errand, Task.errand_job] at herrand
        split at herrand
        · obtain ⟨hserver, hservice⟩ := hstrandless.queued ha
          have hnone := exhausted_of_stop ha.queue hserver hservice hs.ahead hfront
            (Option.some.inj herrand)
          rw [pending, job_of_serving ha hthread, hnone]
          rfl
        · cases herrand
      · rw [setThread_of_ne hk] at herrand
        exact hs.exhausted (Or.inr ⟨k, herrand⟩)

theorem Sequenced.progress (hs : Sequenced i h) (ha : h.Aligned) (hstrandless : Strandless h)
    (hcall : ∀ handler, move = .call handler →
      h.service.load = 0 ∧ h.service.started = true)
    (hprogress : h.Progress i move h') : Sequenced i h' := by
  cases hprogress with
  | refused => exact hs
  | @posted handler hhandler =>
      obtain ⟨hload, hstarted⟩ := hcall handler rfl
      exact hs.posted ha hload hstarted
  | taken hown hfront hmatches hthread => exact hs.taken ha hstrandless hown hfront hthread
  | @passed smove answers s added hpassive hqueue hjob =>
      refine ⟨hs.booked.trans pending_append.symm, ?_, fun hover => ?_⟩
      · change List.Pairwise _ ((h.queue ++ added.map foreign).zip (s.services 0).queue)
        have hforeign : ∀ later ∈ (added.map foreign).zip added, later.1.task = none := by
          intro later hlater
          obtain ⟨queued, -, hqueued⟩ := List.mem_map.mp (List.of_mem_zip hlater).1
          rw [← hqueued]
          rfl
        rw [hqueue, List.zip_append ha.queue.length_eq]
        refine List.pairwise_append.mpr ⟨hs.ahead, ?_, ?_⟩
        · refine List.Pairwise.imp_of_mem ?_ (List.pairwise_of_forall fun _ _ => trivial)
          intro _ later _ hlater _ _
          exact hforeign later hlater
        · intro _ _ later hlater _
          exact hforeign later hlater
      · exact pending_append.trans (hs.exhausted (stopping_of_passive hpassive hover))
  | @performed turn answers s handler hpassive hqueue hjob =>
      have hfirst : h.pending i = handler :: h.queue.filterMap Handler.task := by
        rw [pending, hjob]
        rfl
      refine ⟨?_, ?_, fun hover => ?_⟩
      · change (perform answers handler h.server).final.own.posted =
          (Function.update h.jobs i none i).toList ++ h.queue.filterMap Handler.task
        rw [perform_posted, hs.booked, hfirst, List.idxOf_cons_self, Function.update_self]
        rfl
      · change List.Pairwise _ (h.queue.zip (s.services 0).queue)
        rw [hqueue]
        exact hs.ahead
      · have hnone := hs.exhausted (stopping_of_passive hpassive hover)
        cases hfirst.symm.trans hnone

end Sequenced

end Hosted

/-! ## A service that is started once -/

section Plain

variable {s s' : State m n} {i : Fin n} {move : Move m n}

def Caller.plain : Caller → Bool
  | start polling => !polling
  | renewing _ => false
  | stop restart | postingStop restart | joining _ restart | awaitingStop restart =>
      restart.isNone
  | _ => true

structure Plain (s : State m n) : Prop where
  caller : s.caller.plain = true
  polling : s.polling = false

def Move.isTame : Move m n → Bool
  | .call .stop => true
  | move => move.isOwn

omit [NeZero m] in
theorem Move.isTame_of_isOwn (h : move.isOwn = true) : move.isTame = true := by
  cases move with
  | call call => cases h
  | _ => exact h

theorem Plain.calls (hs : Plain s) (h : Calls s s') : Plain s' := by
  obtain ⟨hcaller, hpolling⟩ := hs
  cases h with
  | prepare h hstarted =>
      rw [h] at hcaller
      exact ⟨rfl, by simpa [Caller.plain] using hcaller⟩
  | joined h hk => exact ⟨by rw [h] at hcaller; exact hcaller, rfl⟩
  | accept h => exact ⟨by rw [h] at hcaller; exact hcaller, hpolling⟩
  | postStop h => exact ⟨by rw [h] at hcaller; exact hcaller, hpolling⟩
  | join h => exact ⟨by rw [h] at hcaller; exact hcaller, hpolling⟩
  | renew h => simp [h, Caller.plain] at hcaller
  | renewed h => simp [h, Caller.plain] at hcaller
  | _ => exact ⟨rfl, hpolling⟩

theorem Plain.works (hs : Plain s) (ho : Orderly s) (h : Works s i s') : Plain s' := by
  refine ⟨by rw [h.caller_eq]; exact hs.caller, ?_⟩
  rcases ho.works_cases h with hshifts | ⟨p, strand, handler, -, -, rfl⟩ |
    ⟨p, strand, job, job', task, -, -, -, rfl⟩
  · exact hshifts.polling.trans hs.polling
  · exact hs.polling
  · exact hs.polling

theorem step_stop (h : step s (.call .stop) = some s') : s' = { s with caller := .stop none } := by
  simp only [step, callStep] at h
  split at h
  · exact (Option.some.inj h).symm
  · cases h

theorem Plain.step (hs : Plain s) (ho : Orderly s) (htame : move.isTame = true)
    (h : step s move = some s') : Plain s' := by
  cases move with
  | call call =>
      cases call with
      | stop =>
          rw [step_stop h]
          exact ⟨rfl, hs.polling⟩
      | _ => cases htame
  | caller => exact hs.calls (callerStep_calls h)
  | worker i turn => exact hs.works ho (workerStep_works h)
  | _ => cases htame

theorem Plain.budget_lt (hs : Plain s) (hr : Responsive s) (hn : 0 < n)
    (hown : move.isOwn = true) (h : Service.step s move = some s') : s'.budget < s.budget := by
  refine (budget_variant hn).lowers ⟨s, move, s'⟩ hr h hown ?_
  cases move with
  | worker i turn =>
      cases turn with
      | advance =>
          have hpolls : (s.threads i).polls = false := by
            have hmode := hr.served.orderly.mode i
            cases hthread : s.threads i with
            | serving p =>
                rw [hthread] at hmode
                rw [(hmode p rfl).trans hs.polling]
                rfl
            | checking p =>
                -- only a thread that polls looks at the flag
                rw [hthread] at hmode
                have hset := (hr.served.attended hr.thrown).polled i p hthread
                cases hset.symm.trans ((hmode p rfl).trans hs.polling)
            | _ => rfl
          simp [idles, hpolls]
      | _ => rfl
  | _ => rfl

omit [NeZero m] in
theorem State.budget_submit (s : State m n) (j : Fin m) (handler : Handler Task) :
    (s.modifyService j (.post handler)).budget = s.budget + handlerCost m := by
  have hqueued := s.queued_modifyService j (.post handler)
  have hlength : ((s.services j).post handler).queue.length = (s.services j).queue.length + 1 := by
    simp [IoService.post]
  have hone : (s.modifyService j (.post handler)).queued = s.queued + 1 := by
    rw [hlength] at hqueued
    omega
  have hranks : (s.modifyService j (.post handler)).ranks = s.ranks := rfl
  simp only [State.budget, hone, hranks, modifyService_caller, modifyService_started,
    Nat.mul_add, Nat.mul_one]
  omega

theorem budget_stop_call {returned : Option Bool} (hidle : s.caller = .idle returned)
    (h : Service.step s (.call .stop) = some s') :
    s'.budget = s.budget + Caller.rank m n (.stop none) := by
  rw [step_stop h]
  change Caller.rank m n (.stop none) + flagCost n * 0 + handlerCost m * s.queued + s.ranks = _
  simp only [State.budget, hidle, Caller.rank, Caller.expected]
  omega

theorem Responsive.kept (hs : Responsive s) (hn : 0 < n) (h : Service.step s move = some s')
    (hcall : startsStopped ⟨s, move, s'⟩ = false) (hthrown : s'.thrown = s.thrown) :
    Responsive s' where
  served := hs.served.step hn h
  live := hs.live.step hs.served.orderly h hcall
  joinable := hs.joinable.step h
  thrown := hthrown.trans hs.thrown

theorem Responsive.tame (hs : Responsive s) (hn : 0 < n) (htame : move.isTame = true)
    (h : Service.step s move = some s') : Responsive s' := by
  cases move with
  | call call =>
      cases call with
      | stop =>
          refine hs.kept hn h rfl ?_
          rw [step_stop h]
      | _ => cases htame
  | _ =>
      refine hs.step hn ?_ h
      exact htame

theorem started_of_idle (ho : Orderly s) (hidle : ∃ returned, s.caller = .idle returned)
    {k : Fin n} (hworks : Works s k s') : s'.started = s.started := by
  obtain ⟨returned, hcaller⟩ := hidle
  have hzero : s.load = 0 := by
    rw [ho.load, hcaller]
    rfl
  rcases ho.works_cases hworks with hshifts | ⟨q, strand, handler, -, -, rfl⟩ |
    ⟨q, strand, job, job', task, hthread, herrand, -, rfl⟩
  · exact hshifts.started
  · rfl
  · have hnone := errand_of_load hzero k
    rw [hthread] at hnone
    cases hnone.symm.trans herrand

theorem Plain.closes (hplain : Plain s) (hcalls : Calls s s')
    (hopening : s.caller.opening = false) :
    s'.caller.opening = false ∧ ∀ returned, s'.caller = .idle returned → s'.started = false := by
  have hcaller := hplain.caller
  cases hcalls with
  | notStarted h hstarted => exact ⟨rfl, fun _ _ => hstarted⟩
  | stopped h hstarted => exact ⟨rfl, fun _ _ => hstarted⟩
  | accept | postStop | join | joined | renew => exact ⟨rfl, fun _ hidle => by cases hidle⟩
  | renewed h =>
      rw [h] at hcaller
      cases hcaller
  | alreadyStarted h | prepare h | post h | spawn h | spawned h | started h =>
      rw [h] at hopening
      cases hopening

theorem Calls.opens (h : Calls s s') (hopening : s.caller.opening = true) :
    s'.caller.opening = true ∨ (∃ returned, s'.caller = .idle returned) ∧ s'.started = true := by
  cases h with
  | alreadyStarted h hstarted => exact Or.inr ⟨⟨_, rfl⟩, hstarted⟩
  | started h hstarted => exact Or.inr ⟨⟨_, rfl⟩, hstarted⟩
  | prepare | post | spawn | spawned => exact Or.inl rfl
  | notStarted h | accept h | postStop h | join h | joined h | stopped h | renew h | renewed h =>
      rw [h] at hopening
      cases hopening

end Plain

/-! ## The two together -/

namespace Hosted

structure Conducted (i : Fin n) (goal : Bool) (h : Hosted m n) : Prop where
  place : h.endpoint.service = 0
  regular : Regular i h
  strandless : Strandless h
  attached : h.attached = true
  responsive : Responsive h.service
  plain : Plain h.service
  sequenced : Sequenced i h
  steered : Steered goal h.server

section Conducted

variable {i : Fin n} {goal : Bool} {h h' : Hosted m n} {move : Move m n} {answers : SocketAnswers}

private theorem perform_of_advance {handler : Server.Handler} {k : Fin n}
    (hstep : h.step (.service (.worker k .advance) answers) = some h')
    (hjob : h.jobs k = some handler) : (perform answers handler h.server).error = none := by
  obtain ⟨s, -, hattend⟩ := Option.bind_eq_some_iff.mp hstep
  simp only [attend, hjob] at hattend
  cases herror : (perform answers handler h.server).error with
  | none => rfl
  | some ec => simp [herror] at hattend

theorem Sequenced.mem_posted {handler : Server.Handler} (hs : Sequenced i h)
    (hjob : h.jobs i = some handler) : handler ∈ h.server.own.posted := by
  rw [hs.booked, pending, hjob]
  exact List.mem_cons_self

theorem Conducted.steered_step (hc : Conducted i goal h) (htame : move.isTame = true)
    (hprogress : h.Progress i (.service move answers) h')
    (hstep : h.step (.service move answers) = some h') : Steered goal h'.server := by
  cases hprogress with
  | taken => exact hc.steered
  | passed => exact hc.steered
  | @performed turn answers s handler hpassive hqueue hjob =>
      refine hc.steered.perform (hc.sequenced.mem_posted hjob) ?_
      cases turn with
      | advance => exact perform_of_advance hstep hjob
      | take strand =>
          -- a thread that runs a handler takes none
          obtain ⟨s', hs', -⟩ := Option.bind_eq_some_iff.mp hstep
          obtain ⟨p, queued, hserving, -, -⟩ := workerStep_take hs'
          obtain ⟨-, q, strand', hrunning⟩ := (hc.regular.aligned hc.attached).job i handler hjob
          cases hserving.symm.trans hrunning
      | throw failure => cases htame

theorem Conducted.service_step (hsole : ∀ k : Fin n, home k = (0 : Fin m) ↔ k = i) (hn : 0 < n)
    (hc : Conducted i goal h) (htame : move.isTame = true)
    (hstep : h.step (.service move answers) = some h') :
    Service.step h.service move = some h'.service ∧ Conducted i goal h' := by
  obtain ⟨s, hs, hattend⟩ := Option.bind_eq_some_iff.mp hstep
  obtain ⟨rfl, hendpoint⟩ := attend_service hattend
  have hkept : h'.service.generation = h.service.generation := by
    rcases step_generation hs with hsame | ⟨-, ⟨p, hcaller⟩, -⟩
    · exact hsame
    · have hplain := hc.plain.caller
      rw [hcaller] at hplain
      cases hplain
  have hprogress := progress (fun k => (hsole k).mp) hc.place hc.regular.orderly
    (hc.regular.aligned hc.attached) hc.attached hstep hkept
  have hattached : h'.attached = true := by
    rw [Hosted.attached, hendpoint, hkept]
    exact hc.attached
  refine ⟨hs, ?_⟩
  exact {
    place := hendpoint ▸ hc.place
    regular := hc.regular.step hsole hc.place hstep
    strandless := hc.strandless.step hc.regular.orderly hstep
    attached := hattached
    responsive := hc.responsive.tame hn htame hs
    plain := hc.plain.step hc.regular.orderly htame hs
    sequenced := hc.sequenced.progress (hc.regular.aligned hc.attached) hc.strandless
      (fun handler hmove => by cases hmove) hprogress
    steered := hc.steered_step htame hprogress hstep }

theorem conducted_construct {s : State m n} (hn : 0 < n) (hs : Responsive s) (hplain : Plain s)
    (hown : OwnStrand s) (hrequired : s.strandRequired = false) {server : Server}
    (hplace : (construct s server).endpoint.service = 0)
    (hposted : server.own.posted = []) (hserver : Steered goal server) :
    Conducted i goal (construct s server) := by
  have hnone : (construct s server).pending i = [] := filterMap_foreign _
  have hget : Service.step s .getAsioService = some (construct s server).service := rfl
  exact {
    place := hplace
    regular := regular_construct hs.served.orderly server hplace
    strandless := ⟨hrequired, hrequired, hown.step hs.served.orderly hget⟩
    attached := beq_self_eq_true _
    responsive := hs.kept hn hget rfl rfl
    plain := ⟨hplain.caller, hplain.polling⟩
    sequenced := {
      booked := hposted.trans hnone.symm
      ahead := by
        refine List.Pairwise.imp_of_mem ?_ (List.pairwise_of_forall fun _ _ => trivial)
        intro _ later _ hlater _ _
        obtain ⟨queued, -, hqueued⟩ := List.mem_map.mp (List.of_mem_zip hlater).1
        rw [← hqueued]
        rfl
      exhausted := fun _ => hnone }
    steered := hserver }

/-! ### The calls of the server -/

omit [NeZero m] in
theorem invoke_refused {handler : Server.Handler}
    (hhandler : handler ≠ acceptable h.server.running) : h.invoke handler = h := by
  rw [invoke, calling_eq, if_neg hhandler]
  rfl

theorem Conducted.invoke_eq (hc : Conducted i goal h) :
    h.invoke (acceptable h.server.running) = { h with
      service := h.service.modifyService 0 (.post ⟨h.strand, .user⟩)
      queue := h.queue ++ [⟨h.strand, some (acceptable h.server.running)⟩]
      server := posted (acceptable h.server.running) h.server } := by
  rw [invoke, calling_eq, if_pos rfl]
  simp only [hc.attached, if_true, hc.place]

structure Idle (h : Hosted m n) : Prop where
  caller : ∃ returned, h.service.caller = .idle returned
  started : h.service.started = true

theorem Idle.load (hidle : h.Idle) (ho : Orderly h.service) : h.service.load = 0 := by
  obtain ⟨returned, hcaller⟩ := hidle.caller
  rw [ho.load, hcaller]
  rfl

theorem Conducted.invoke (hsole : ∀ k : Fin n, home k = (0 : Fin m) ↔ k = i) (hn : 0 < n)
    (hc : Conducted i goal h) (hidle : h.Idle) (hrunning : h.server.running = goal) :
    Conducted i (!goal) (h.invoke (acceptable h.server.running)) := by
  have hsubmit : Service.step h.service (.submit 0 h.strand) =
      some (h.service.modifyService 0 (.post ⟨h.strand, .user⟩)) := rfl
  have hstep : h.step (.call (acceptable h.server.running)) =
      some (h.invoke (acceptable h.server.running)) := rfl
  have hregular := hc.regular.step hsole hc.place hstep
  have hstrandless := hc.strandless.step hc.regular.orderly hstep
  rw [hc.invoke_eq] at hregular hstrandless ⊢
  exact {
    place := hc.place
    regular := hregular
    strandless := hstrandless
    attached := hc.attached
    responsive := hc.responsive.kept hn hsubmit rfl rfl
    plain := ⟨hc.plain.caller, hc.plain.polling⟩
    sequenced := hc.sequenced.posted (hc.regular.aligned hc.attached)
      (hidle.load hc.regular.orderly) hidle.started
    steered := hc.steered.post hrunning }

theorem Conducted.server (hc : Conducted i goal h) {s : Server}
    (hposted : s.own.posted = h.server.own.posted) (hrunning : s.running = h.server.running)
    (hs : Steered goal s) : Conducted i goal { h with server := s } where
  place := hc.place
  regular := {
    orderly := hc.regular.orderly
    dated := hc.regular.dated
    aligned := fun hattached => ⟨(hc.regular.aligned hattached).queue,
      (hc.regular.aligned hattached).strand, (hc.regular.aligned hattached).job⟩
    alternating := fun hattached => by
      change Alternating s.running (h.pending i)
      rw [hrunning]
      exact hc.regular.alternating hattached }
  strandless := ⟨hc.strandless.endpoint, hc.strandless.service, hc.strandless.ownStrand⟩
  attached := hc.attached
  responsive := hc.responsive
  plain := hc.plain
  sequenced := ⟨hposted.trans hc.sequenced.booked, hc.sequenced.ahead, hc.sequenced.exhausted⟩
  steered := hs

theorem Idle.works (hidle : h.Idle) (ho : Orderly h.service) {k : Fin n}
    (hworks : Works h.service k h'.service) : h'.Idle where
  caller := hworks.caller_eq ▸ hidle.caller
  started := (started_of_idle ho hidle.caller hworks).trans hidle.started

theorem Idle.invoke (hidle : h.Idle) (handler : Server.Handler) : (h.invoke handler).Idle := by
  have hstep : h.step (.call handler) = some (h.invoke handler) := rfl
  rcases step_call hstep with hsame | ⟨-, hposted⟩
  · rw [hsame]
    exact hidle
  · rw [hposted]
    refine ⟨?_, ?_⟩
    · change ∃ returned, (if h.attached then _ else h.service : State m n).caller = _
      split
      · exact hidle.caller
      · exact hidle.caller
    · change (if h.attached then _ else h.service : State m n).started = _
      split
      · exact hidle.started
      · exact hidle.started

theorem invoke_budget (handler : Server.Handler) :
    (h.invoke handler).service.budget ≤ h.service.budget + handlerCost m := by
  have hstep : h.step (.call handler) = some (h.invoke handler) := rfl
  rcases step_call hstep with hsame | ⟨-, hposted⟩
  · rw [hsame]
    exact Nat.le_add_right _ _
  · rw [hposted]
    change (if h.attached then _ else h.service : State m n).budget ≤ _
    split
    · exact Nat.le_of_eq (State.budget_submit _ _ _)
    · exact Nat.le_add_right _ _

theorem Conducted.settled (hc : Conducted i goal h) (hrunning : h.server.running = goal)
    (hsole : ∀ k : Fin n, home k = (0 : Fin m) ↔ k = i)
    (hstep : h.step (.service move answers) = some h') :
    h'.server = h.server := by
  have hnone : h.server.own.posted = [] := by
    rcases hc.steered.toward with ⟨hnone, -⟩ | ⟨-, hother⟩
    · exact hnone
    · rw [hrunning] at hother
      cases goal <;> cases hother
  obtain ⟨s, -, hattend⟩ := Option.bind_eq_some_iff.mp hstep
  cases attend_attends hattend with
  | @performed k turn handler hjob =>
      have hk : k = i := (hsole k).mp ((hc.regular.aligned hc.attached).job k handler hjob).1
      have hmem := hc.sequenced.mem_posted (hk ▸ hjob)
      rw [hnone] at hmem
      cases hmem
  | _ => rfl

/-! ### There is always something to do -/

private theorem perform_clean {s : Server} (hsocket : s.socket.isOpen = s.running)
    (handler : Server.Handler) : (perform (.clean 0) handler s).error = none := by
  by_cases hhandler : handler = acceptable s.running
  · subst hhandler
    cases hflag : s.running with
    | false =>
        have hstart : perform (.clean 0) (acceptable false) s =
            openSession (.clean 0) (fun s => s.endpoint) .onStarted (unposted .start s) := by
          change (if s.running then (pure () : Server.Code Unit) else _) (unposted .start s) = _
          rw [if_neg (by simp [hflag])]
        rw [hstart]
        exact openSession_clean 0 _ .onStarted (hsocket.trans hflag)
    | true =>
        change ((if !s.running then (pure () : Server.Code Unit) else _)
          (unposted .stop s)).error = _
        rw [if_neg (by simp [hflag])]
        rfl
  · rw [perform_of_ne hhandler]
    rfl

theorem step_isSome {s : State m n} (hs : Service.step h.service move = some s)
    (hattend : (h.attend s answers move).isSome = true) :
    (h.step (.service move answers)).isSome = true := by
  rw [Hosted.step, hs]
  exact hattend

theorem Conducted.lifts (hc : Conducted i goal h) {s : State m n}
    (hown : move.isOwn = true) (hs : Service.step h.service move = some s) :
    (h.step (.service move (.clean 0))).isSome = true := by
  refine step_isSome hs ?_
  cases move with
  | caller => rfl
  | worker k turn =>
      cases turn with
      | advance =>
          cases hjob : h.jobs k with
          | none => simp [attend, hjob]
          | some handler => simp [attend, hjob, perform_clean hc.steered.socket handler]
      | take strand =>
          simp only [attend]
          split
          · rfl
          · rfl
      | throw failure => cases hown
  | _ => cases hown

theorem Conducted.spends (hn : 0 < n) (hc : Conducted i goal h) (hidle : h.Idle)
    (hposted : h.server.own.posted ≠ []) : Spends h.service := by
  have ho := hc.regular.orderly
  have ha := hc.responsive.served.attended hc.responsive.thrown
  have haligned := hc.regular.aligned hc.attached
  obtain ⟨returned, hcaller⟩ := hidle.caller
  rw [hc.sequenced.booked, pending] at hposted
  cases hjob : h.jobs i with
  | some handler =>
      obtain ⟨-, p, strand, hthread⟩ := haligned.job i handler hjob
      exact spends_of_running hc.responsive hthread
  | none =>
      have hqueue : (h.service.services 0).queue ≠ [] := by
        intro hempty
        have hown := haligned.queue
        rw [hempty, List.forall₂_nil_right_iff] at hown
        rw [hjob, hown] at hposted
        exact hposted rfl
      have hlive : h.service.halted = false := by
        by_contra hhalted
        rw [Bool.not_eq_false] at hhalted
        obtain ⟨k, p, strand, service, hthread⟩ := ha.halting hidle.started hhalted
        have hnone := errand_of_load (hidle.load ho) k
        rw [hthread] at hnone
        cases hnone
      obtain ⟨k, hhome, hstays⟩ := ha.manned (by rw [hcaller]; exact hidle.started) hlive
      refine spends_of_stays hc.responsive hn hstays ?_ ?_
      · rw [hhome]
        exact hlive
      · rw [hhome]
        exact hqueue

end Conducted

end Hosted

end AsioWrapper.Service
