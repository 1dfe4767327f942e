import AsioWrapper.Service.Hosting

/-!
# Shutting down a server and its service

`UDPServer::Stop` and `Service::Stop` both only post a handler, the one to the
`io_service` of the server, the other to the first one of the service.  The
handler of the service stops every `io_service`, whatever is queued there.  The
two keep their order if they are queued on one `io_service` and use no strand.
-/

namespace AsioWrapper.Service

open AsioWrapper.Asio
open AsioWrapper.Foundation
open AsioWrapper.Udp
open State

variable {m n : Nat} [NeZero m]

namespace Hosted

/-! ## From the call of `Stop` to its handler -/

/-- A stop handler of the server is queued, and no stop handler of the service before it. -/
inductive Ahead : List (Handler (Option Server.Handler)) → List (Handler Task) → Prop where
  | here {own : Handler (Option Server.Handler)} {later : List (Handler (Option Server.Handler))}
      {queued : Handler Task} {later' : List (Handler Task)} (h : own.task = some .stop) :
      Ahead (own :: later) (queued :: later')
  | there {own : Handler (Option Server.Handler)} {later : List (Handler (Option Server.Handler))}
      {queued : Handler Task} {later' : List (Handler Task)} (h : queued.task ≠ .stop)
      (hlater : Ahead later later') : Ahead (own :: later) (queued :: later')

structure Closing (i : Fin n) (log : List Event) (h : Hosted m n) : Prop where
  attached : h.attached = true
  started : h.service.started = true
  running : h.server.running = true
  log : h.server.log = log
  idle : ∀ k, (h.service.threads k).errand ≠ some .stop
  ahead : h.jobs i = some .stop ∨ Ahead h.queue (h.service.services 0).queue

structure Closed (log : List Event) (h : Hosted m n) : Prop where
  running : h.server.running = false
  socket : h.server.socket.isOpen = false
  log : .onStopped ∈ h.server.log.drop log.length
  queue : ∀ handler ∈ h.queue, handler.task ≠ some .start
  jobs : ∀ k, h.jobs k ≠ some .start

structure Strandless (h : Hosted m n) : Prop where
  endpoint : h.endpoint.strandRequired = false
  service : h.service.strandRequired = false
  ownStrand : OwnStrand h.service

section Ahead

variable {own : List (Handler (Option Server.Handler))} {queue : List (Handler Task)}

theorem Ahead.append (h : Ahead own queue) (added : List (Handler (Option Server.Handler)))
    (added' : List (Handler Task)) : Ahead (own ++ added) (queue ++ added') := by
  induction h with
  | here h => exact .here h
  | there h _ ih => exact .there h ih

private theorem ahead_concat (h : List.Forall₂ Matches own queue)
    (hnone : ∀ handler ∈ queue, handler.task ≠ .stop) {last : Handler (Option Server.Handler)}
    (hlast : last.task = some .stop) (last' : Handler Task) :
    Ahead (own ++ [last]) (queue ++ [last']) := by
  induction h with
  | nil => exact .here hlast
  | cons _ _ ih =>
      exact .there (hnone _ List.mem_cons_self)
        (ih fun handler hmem => hnone handler (.tail _ hmem))

/-- Where both use the same strand, what a thread takes is not the stop handler of the
service. -/
theorem Ahead.take {shared strand : Option Nat} (hahead : Ahead own queue)
    (hmatches : List.Forall₂ Matches own queue)
    (hown : ∀ handler ∈ own, handler.task ≠ none → handler.strand = shared)
    (hqueue : ∀ handler ∈ queue, handler.task.isSystem = true → handler.strand = shared)
    {first : Handler (Option Server.Handler)} {queued : Handler Task}
    (hfirst : own.find? (fun handler => handler.strand = strand) = some first)
    (hfront : queue.find? (fun handler => handler.strand = strand) = some queued) :
    queued.task ≠ .stop ∧ (first.task = some .stop ∨
      Ahead (own.eraseP fun handler => handler.strand = strand)
        (queue.eraseP fun handler => handler.strand = strand)) := by
  induction hahead with
  | @here head later head' later' hstop =>
      obtain ⟨⟨hsame, huser⟩, -⟩ := List.forall₂_cons.mp hmatches
      by_cases hstrand : head.strand = strand
      · rw [List.find?_cons_of_pos (by simpa using hstrand)] at hfirst
        rw [List.find?_cons_of_pos (by simpa [← hsame] using hstrand)] at hfront
        cases hfirst
        cases hfront
        refine ⟨?_, Or.inl hstop⟩
        rw [huser (by simp [hstop])]
        simp
      · -- another strand is taken from, and the service does not use that one
        rw [List.eraseP_cons_of_neg (by simpa using hstrand),
          List.eraseP_cons_of_neg (by simpa [← hsame] using hstrand)]
        refine ⟨fun hstop' => hstrand ?_, Or.inr (.here hstop)⟩
        have hfound : queued.strand = strand := by simpa using List.find?_some hfront
        have hsystem := hqueue queued (List.mem_of_find?_eq_some hfront) (by rw [hstop']; rfl)
        exact (hown head List.mem_cons_self (by simp [hstop])).trans (hsystem.symm.trans hfound)
  | @there head later head' later' hother _ ih =>
      obtain ⟨⟨hsame, -⟩, hrest⟩ := List.forall₂_cons.mp hmatches
      by_cases hstrand : head.strand = strand
      · rw [List.find?_cons_of_pos (by simpa [← hsame] using hstrand)] at hfront
        rw [List.eraseP_cons_of_pos (by simpa using hstrand),
          List.eraseP_cons_of_pos (by simpa [← hsame] using hstrand)]
        cases hfront
        exact ⟨hother, Or.inr ‹_›⟩
      · rw [List.find?_cons_of_neg (by simpa using hstrand)] at hfirst
        rw [List.find?_cons_of_neg (by simpa [← hsame] using hstrand)] at hfront
        rw [List.eraseP_cons_of_neg (by simpa using hstrand),
          List.eraseP_cons_of_neg (by simpa [← hsame] using hstrand)]
        obtain ⟨hqueued, hnext⟩ := ih hrest (fun handler hmem => hown handler (.tail _ hmem))
          (fun handler hmem => hqueue handler (.tail _ hmem)) hfirst hfront
        exact ⟨hqueued, hnext.imp_right (.there hother)⟩

end Ahead

section Closing

variable {i : Fin n} {log : List Event} {h h' : Hosted m n} {move : HostedMove m n}

theorem Strandless.step (hs : Strandless h) (ho : Orderly h.service)
    (hstep : h.step move = some h') : Strandless h' := by
  obtain ⟨hendpoint, hservice⟩ := step_service hstep
  refine ⟨by rw [hendpoint]; exact hs.endpoint, ?_, ?_⟩
  · rcases hservice with hsame | ⟨move', hmove'⟩
    · rw [hsame]
      exact hs.service
    · exact (step_strandRequired hmove').trans hs.service
  · rcases hservice with hsame | ⟨move', hmove'⟩
    · rw [hsame]
      exact hs.ownStrand
    · exact hs.ownStrand.step ho hmove'

theorem Strandless.queued (hs : Strandless h) (ha : h.Aligned) :
    (∀ handler ∈ h.queue, handler.task ≠ none → handler.strand = none) ∧
      ∀ handler ∈ (h.service.services 0).queue, handler.task.isSystem = true →
        handler.strand = none := by
  have hstrand : h.strand = none := by simp [Hosted.strand, hs.endpoint]
  have hservice : h.service.strand = none := by simp [State.strand, hs.service]
  exact ⟨fun handler hmem htask => (ha.strand handler hmem htask).trans hstrand,
    fun handler hmem hsystem => (hs.ownStrand.queued 0 handler hmem hsystem).trans hservice⟩

theorem Closing.kept (hc : Closing i log h) (hr : Regular i h) (hstep : h.step move = some h') :
    h'.service.generation = h.service.generation := by
  rcases (step_service hstep).2 with hsame | ⟨move', hmove'⟩
  · rw [hsame]
  · rcases step_generation hmove' with hsame | ⟨-, ⟨p, hcaller⟩, -⟩
    · exact hsame
    · have hcleared := hr.orderly.knows false (by rw [hcaller]; rfl)
      cases hc.started.symm.trans hcleared

theorem Closing.passive {smove : Move m n} {s : State m n} (hc : Closing i log h)
    (hpassive : Passive h.service smove s) :
    s.started = true ∧ ∀ k, (s.threads k).errand ≠ some .stop := by
  refine ⟨?_, fun k herrand => hc.idle k (hpassive.errand k herrand)⟩
  exact (hpassive.started hc.started).resolve_right fun ⟨k, herrand⟩ => hc.idle k herrand

theorem Closing.taken {strand : Option Nat} {own : Handler (Option Server.Handler)}
    {queued : Handler Task} {p : Bool} (hc : Closing i log h) (ha : h.Aligned)
    (hs : Strandless h)
    (hown : h.queue.find? (fun handler => handler.strand = strand) = some own)
    (hfront : (h.service.services 0).front strand = some queued)
    (hthread : h.service.threads i = .serving p) :
    Closing i log { h with
      service := (h.service.modifyService 0 (.pop strand)).setThread i
        (.running p strand queued.task.job)
      queue := h.queue.eraseP fun handler => handler.strand = strand
      jobs := Function.update h.jobs i own.task } := by
  have hfree := job_of_serving ha hthread
  have hahead := hc.ahead.resolve_left fun hjob => by cases hfree.symm.trans hjob
  obtain ⟨hserver, hservice⟩ := hs.queued ha
  obtain ⟨hother, hnext⟩ := hahead.take ha.queue hserver hservice hown hfront
  refine ⟨hc.attached, hc.started, hc.running, hc.log, fun k herrand => ?_, ?_⟩
  · change ((State.setThread _ i _).threads k).errand = _ at herrand
    by_cases hk : k = i
    · subst hk
      rw [setThread_self] at herrand
      simp only [Worker.errand, Task.errand_job] at herrand
      split at herrand
      · exact hother (Option.some.inj herrand)
      · cases herrand
    · rw [setThread_of_ne hk] at herrand
      exact hc.idle k herrand
  · refine hnext.imp (fun hstop => (Function.update_self ..).trans hstop) fun hrest => ?_
    change Ahead _ (Function.update h.service.services 0 ((h.service.services 0).pop strand)
      0).queue
    rw [Function.update_self]
    exact hrest

theorem Closing.performed {turn : Turn} {answers : SocketAnswers} {s : State m n}
    {handler : Server.Handler} (hsole : ∀ k : Fin n, home k = (0 : Fin m) ↔ k = i)
    (hc : Closing i log h) (hr : Regular i h) (hpassive : Passive h.service (.worker i turn) s)
    (hqueue : (s.services 0).queue = (h.service.services 0).queue)
    (hkept : s.generation = h.service.generation) (hjob : h.jobs i = some handler) :
    let h' : Hosted m n := { h with
      service := s
      jobs := Function.update h.jobs i none
      server := (perform answers handler h.server).final }
    Closing i log h' ∨ Closed log h' := by
  have ha := hr.aligned hc.attached
  have hpending := hr.alternating hc.attached
  obtain ⟨hstarted, hidle⟩ := hc.passive hpassive
  have hattached : (h.endpoint.generation == s.generation) = true := by
    rw [hkept]
    exact hc.attached
  cases handler with
  | start =>
      have hlate : Server.Handler.start ≠ acceptable h.server.running := by
        rw [hc.running]
        simp [acceptable]
      have hahead := hc.ahead.resolve_left fun hstop => by cases hjob.symm.trans hstop
      rw [perform_of_ne hlate]
      exact Or.inl ⟨hattached, hstarted, hc.running, hc.log, hidle, Or.inr (hqueue ▸ hahead)⟩
  | stop =>
      right
      rw [perform_stop hc.running]
      refine ⟨rfl, rfl, ?_, fun handler hmem htask => ?_, fun k hk => ?_⟩
      · change Event.onStopped ∈ (h.server.log ++ [Event.onStopped]).drop log.length
        rw [hc.log, List.drop_left]
        exact List.mem_singleton_self _
      · -- nothing that waits behind a stop handler would start the server
        rw [pending, hjob, hc.running] at hpending
        have hlast := List.rel_of_pairwise_cons hpending
          (List.mem_filterMap.mpr ⟨handler, hmem, htask⟩) rfl
        cases hlast
      · change Function.update h.jobs i none k = _ at hk
        by_cases hki : k = i
        · subst hki
          rw [Function.update_self] at hk
          cases hk
        · rw [Function.update_of_ne hki] at hk
          exact hki ((hsole k).mp (ha.job k _ hk).1)

theorem Closing.step (hsole : ∀ k : Fin n, home k = (0 : Fin m) ↔ k = i)
    (hplace : h.endpoint.service = 0) (hc : Closing i log h) (hr : Regular i h)
    (hs : Strandless h) (hstep : h.step move = some h') : Closing i log h' ∨ Closed log h' := by
  have ha := hr.aligned hc.attached
  have hkept := hc.kept hr hstep
  cases progress (fun k => (hsole k).mp) hplace hr.orderly ha hc.attached hstep hkept with
  | refused => exact Or.inl hc
  | @posted handler hhandler =>
      have hqueue : ((h.service.modifyService 0 (.post ⟨h.strand, .user⟩)).services 0).queue =
          (h.service.services 0).queue ++ [⟨h.strand, .user⟩] := by
        rw [modifyService_services, Function.update_self]
        rfl
      exact Or.inl ⟨hc.attached, hc.started, hc.running, hc.log, hc.idle,
        hc.ahead.imp_right fun hahead => hqueue ▸ hahead.append _ _⟩
  | taken hown hfront hmatches hthread => exact Or.inl (hc.taken ha hs hown hfront hthread)
  | @passed smove answers s added hpassive hqueue hjob =>
      obtain ⟨hstarted, hidle⟩ := hc.passive hpassive
      have hattached : (h.endpoint.generation == s.generation) = true := by
        rw [hkept]
        exact hc.attached
      exact Or.inl ⟨hattached, hstarted, hc.running, hc.log, hidle,
        hc.ahead.imp_right fun hahead => hqueue ▸ hahead.append _ _⟩
  | performed hpassive hqueue hjob => exact hc.performed hsole hr hpassive hqueue hkept hjob

theorem Closed.attend {smove : Move m n} {s : State m n} {answers : SocketAnswers}
    (hc : Closed log h) (hattend : h.attend s answers smove = some h') : Closed log h' := by
  unfold Hosted.attend at hattend
  split at hattend
  · split at hattend
    · rename_i thread strand _
      cases hattend
      refine ⟨hc.running, hc.socket, hc.log, fun handler hmem => ?_, fun k hk => ?_⟩
      · exact hc.queue handler (List.mem_of_mem_eraseP hmem)
      · change Function.update h.jobs thread _ k = _ at hk
        by_cases hkt : k = thread
        · subst hkt
          rw [Function.update_self] at hk
          obtain ⟨handler, hfound, htask⟩ := Option.bind_eq_some_iff.mp hk
          exact hc.queue handler (List.mem_of_find?_eq_some hfound) htask
        · rw [Function.update_of_ne hkt] at hk
          exact hc.jobs k hk
    · cases hattend
      exact ⟨hc.running, hc.socket, hc.log, hc.queue, hc.jobs⟩
  · split at hattend
    · cases hattend
      exact ⟨hc.running, hc.socket, hc.log, hc.queue, hc.jobs⟩
    · rename_i thread turn _ _ handler hjob
      split at hattend
      · cases hattend
        -- a further stop handler finds the server stopped
        have hlate : handler ≠ acceptable h.server.running := by
          rw [hc.running]
          rintro rfl
          exact hc.jobs thread hjob
        rw [perform_of_ne hlate]
        refine ⟨hc.running, hc.socket, hc.log, hc.queue, fun k hk => ?_⟩
        change Function.update h.jobs thread none k = _ at hk
        by_cases hkt : k = thread
        · subst hkt
          rw [Function.update_self] at hk
          cases hk
        · rw [Function.update_of_ne hkt] at hk
          exact hc.jobs k hk
      · cases hattend
  · cases hattend
    refine ⟨hc.running, hc.socket, hc.log, fun handler hmem htask => ?_, hc.jobs⟩
    change handler ∈ (if h.attached then _ else h.queue) at hmem
    split at hmem
    · rcases List.mem_append.mp hmem with hmem | hmem
      · exact hc.queue handler hmem htask
      · obtain ⟨queued, -, rfl⟩ := List.mem_map.mp hmem
        cases htask
    · exact hc.queue handler hmem htask

theorem Closed.step (hc : Closed log h) (hstep : h.step move = some h')
    (hmove : move ≠ .call .start) : Closed log h' := by
  cases move with
  | call handler =>
      rcases step_call hstep with rfl | ⟨hhandler, -⟩
      · exact hc
      · rw [hc.running] at hhandler
        exact absurd (by rw [hhandler]; rfl) hmove
  | service smove answers =>
      obtain ⟨s, -, hattend⟩ := Option.bind_eq_some_iff.mp hstep
      exact hc.attend hattend

end Closing

/-! ## The shutdown -/

def stopReturns (t : Transition (Hosted m n) (HostedMove m n)) : Bool :=
  match t.move, t.pre.service.caller, t.post.service.caller with
  | .service .caller _, .stop none, .idle _ => true
  | .service .caller _, .awaitingStop none, .idle _ => true
  | _, _, _ => false

private theorem stopped_of_stopReturns {t : Transition (Hosted m n) (HostedMove m n)}
    (hstep : t.pre.step t.move = some t.post) (hreturns : stopReturns t = true) :
    t.post.service.started = false := by
  obtain ⟨h, move, h'⟩ := t
  have hcaller {answers : SocketAnswers} (hmove : move = .service .caller answers) :
      Calls h.service h'.service := by
    subst hmove
    obtain ⟨s, hs, hattend⟩ := Option.bind_eq_some_iff.mp hstep
    rw [(attend_service hattend).1]
    exact callerStep_calls hs
  unfold stopReturns at hreturns
  split at hreturns
  case h_3 => cases hreturns
  all_goals
    rename_i hmove hpre hpost
    dsimp only at hmove hpre hpost
    have hcalls := hcaller hmove
    generalize h'.service = s' at hcalls hpost ⊢
    cases hcalls <;> simp_all

end Hosted

theorem sole_thread {threads : Nat} {pool : Bool} (hthreads : 1 ≤ threads)
    (hsole : threads = 1 ∨ pool = false) (k : Fin threads) :
    home k = (0 : Fin (serviceCount threads pool)) ↔ k = ⟨0, hthreads⟩ := by
  rcases hsole with rfl | rfl
  · exact ⟨fun _ => Subsingleton.elim _ _, fun hk => by rw [hk]; rfl⟩
  · have hcount : serviceCount threads false = threads := by
      rw [serviceCount, if_neg (by omega)]
      rfl
    have hval : (home k : Fin (serviceCount threads false)).val = k :=
      Nat.mod_eq_of_lt (lt_of_lt_of_eq k.isLt hcount.symm)
    rw [Fin.ext_iff, Fin.ext_iff, hval, Fin.val_zero]

namespace Hosted

/-- In the shutdown `UDPServer::Stop` is called by the thread that is to call `Service::Stop`,
while the service is started and still holds the `io_service` of the server. -/
structure Ready (h : Hosted m n) : Prop where
  idle : ∃ returned, h.service.caller = .idle returned
  started : h.service.started = true
  attached : h.attached = true

section Runs

variable {i : Fin n} {h : Hosted m n}

private theorem closing_invoke (hready : h.Ready) (hplace : h.endpoint.service = 0)
    (hr : Regular i h) (hrunning : h.server.running = true) :
    Closing i h.server.log (h.invoke .stop) := by
  obtain ⟨returned, hidle⟩ := hready.idle
  have hzero : h.service.load = 0 := by
    rw [hr.orderly.load, hidle]
    rfl
  have hinvoke : h.invoke .stop = { h with
      service := h.service.modifyService 0 (.post ⟨h.strand, .user⟩)
      queue := h.queue ++ [⟨h.strand, some .stop⟩]
      server := posted .stop h.server } := by
    rw [invoke, calling_eq, if_pos (by rw [hrunning]; rfl)]
    simp only [hready.attached, if_true, hplace]
  rw [hinvoke]
  refine ⟨hready.attached, hready.started, hrunning, rfl, fun k herrand => ?_, Or.inr ?_⟩
  · have hnone := errand_of_load hzero k
    cases hnone.symm.trans herrand
  · -- the service has no handler queued, so the one of the server is ahead of any to come
    rw [modifyService_services, Function.update_self]
    refine ahead_concat (hr.aligned hready.attached).queue (fun handler hmem htask => ?_) rfl _
    have huser := queued_of_load hzero hmem
    rw [htask] at huser
    cases huser

theorem shutdown_run {log : List Event} (hsole : ∀ k : Fin n, home k = (0 : Fin m) ↔ k = i)
    (hplace : h.endpoint.service = 0) (hr : Regular i h) (hs : Strandless h)
    (hc : Closing i log h) {ms : List (HostedMove m n)} (hstart : .call .start ∉ ms) :
    ∀ t ∈ Steps.trace Hosted.step h ms,
      t.pre.step t.move = some t.post ∧ (Closing i log t.post ∨ Closed log t.post) := by
  intro t ht
  have hinvariant := Steps.trace_invariant (f := Hosted.step)
    (I := fun h : Hosted m n => (h.endpoint.service = 0 ∧ Regular i h ∧ Strandless h) ∧
      (Closing i log h ∨ Closed log h))
    (P := fun t => t.move ≠ .call .start)
    (fun t hpre hstep hmove => by
      obtain ⟨⟨hplace, hr, hs⟩, hphase⟩ := hpre
      refine ⟨⟨(step_service hstep).1 ▸ hplace, hr.step hsole hplace hstep,
        hs.step hr.orderly hstep⟩, ?_⟩
      rcases hphase with hc | hc
      · exact hc.step hsole hplace hr hs hstep
      · exact Or.inr (hc.step hstep hmove))
    ⟨⟨hplace, hr, hs⟩, Or.inl hc⟩
    (fun t ht hmove => hstart (hmove ▸ Steps.trace_move_mem t ht)) t ht
  exact ⟨hinvariant.2.1, hinvariant.2.2.2⟩

theorem regular_run {s : State m n} (ho : Orderly s) (server : Server)
    (hsole : ∀ k : Fin n, home k = (0 : Fin m) ↔ k = i) (hplace : (getAsioService s).1 = 0)
    {ms : List (HostedMove m n)} (hrun : Steps.run Hosted.step (construct s server) ms = some h) :
    h.endpoint.service = 0 ∧ Regular i h :=
  Steps.states_invariant (f := Hosted.step)
    (I := fun h : Hosted m n => h.endpoint.service = 0 ∧ Regular i h) (P := fun _ => True)
    (fun _ hpre hstep _ =>
      ⟨(step_service hstep).1 ▸ hpre.1, hpre.2.step hsole hpre.1 hstep⟩)
    ⟨hplace, regular_construct ho server hplace⟩ (fun _ _ => trivial) h
    (Steps.run_mem_states hrun)

theorem strandless_run {s : State m n} (ho : Orderly s) (hown : OwnStrand s)
    (hrequired : s.strandRequired = false) (server : Server) {ms : List (HostedMove m n)}
    (hrun : Steps.run Hosted.step (construct s server) ms = some h) : Strandless h := by
  have hconstruct : Service.step s .getAsioService = some (construct s server).service := rfl
  have hlast := Steps.states_invariant (f := Hosted.step)
    (I := fun h : Hosted m n => Orderly h.service ∧ Strandless h) (P := fun _ => True)
    (fun t hpre hstep _ => by
      refine ⟨?_, hpre.2.step hpre.1 hstep⟩
      rcases (step_service hstep).2 with hsame | ⟨move', hmove'⟩
      · rw [hsame]
        exact hpre.1
      · exact hpre.1.step hmove')
    ⟨ho.step hconstruct, hrequired, hrequired, hown.step ho hconstruct⟩ (fun _ _ => trivial) h
    (Steps.run_mem_states hrun)
  exact hlast.2

end Runs

end Hosted

theorem strandRequired_run {threads : Nat} {s : State (serviceCount threads false) threads}
    {ms : List (Move _ threads)} (hs : Steps.run step (ofThreads threads false) ms = some s) :
    Orderly s ∧ OwnStrand s ∧ s.strandRequired = false :=
  Steps.states_invariant (f := step)
    (I := fun s => Orderly s ∧ OwnStrand s ∧ s.strandRequired = false) (P := fun _ => True)
    (fun _ hpre hstep _ => ⟨hpre.1.step hstep, hpre.2.1.step hpre.1 hstep,
      (step_strandRequired hstep).trans hpre.2.2⟩)
    ⟨orderly_ofThreads threads false, ownStrand_ofThreads threads false, Bool.and_false _⟩
    (fun _ _ => trivial) s (Steps.run_mem_states hs)

/--
Where every thread has an `io_service` of its own and the server has been given the first
one, every call of `Service::Stop` that returns after a successful `UDPServer::Stop` returns
when the stop handler of the server has run.
-/
theorem shutdown_stops_server {threads : Nat} (hthreads : 1 ≤ threads)
    {s : State (serviceCount threads false) threads} {before : List (Move _ threads)}
    (hs : Steps.run step (ofThreads threads false) before = some s)
    (hplace : (getAsioService s).1 = 0) (server : Server)
    {h : Hosted (serviceCount threads false) threads} {ms : List (HostedMove _ threads)}
    (hrun : Steps.run Hosted.step (.construct s server) ms = some h) (hready : h.Ready)
    {stopped : Server} (hstop : Server.stop h.server = .ret true stopped)
    {ms' : List (HostedMove _ threads)} (hstart : .call .start ∉ ms') :
    ∀ t ∈ Steps.trace Hosted.step (h.invoke .stop) ms', Hosted.stopReturns t = true →
      t.post.server.running = false ∧ t.post.server.socket.isOpen = false ∧
        .onStopped ∈ t.post.server.log.drop h.server.log.length := by
  intro t ht hreturns
  have hhome : ∀ k : Fin threads,
      home k = (0 : Fin (serviceCount threads false)) ↔ k = ⟨0, hthreads⟩ :=
    sole_thread hthreads (Or.inr rfl)
  obtain ⟨horderly, hown, hrequired⟩ := strandRequired_run hs
  obtain ⟨hfirst, hr⟩ := Hosted.regular_run horderly server hhome hplace hrun
  have hstrandless := Hosted.strandless_run horderly hown hrequired server hrun
  have hrunning : h.server.running = true := by
    by_contra hnot
    have hrefused : Server.stop h.server = .ret false h.server :=
      (@calling_eq .stop h.server).trans (if_neg (by simp [acceptable, hnot]))
    cases hstop.symm.trans hrefused
  have hinvoke : h.step (.call .stop) = some (h.invoke .stop) := rfl
  obtain ⟨hstep, hphase⟩ := Hosted.shutdown_run hhome
    ((Hosted.step_service hinvoke).1 ▸ hfirst) (hr.step hhome hfirst hinvoke)
    (hstrandless.step hr.orderly hinvoke) (Hosted.closing_invoke hready hfirst hr hrunning)
    hstart t ht
  rcases hphase with hc | hc
  · have hcleared := Hosted.stopped_of_stopReturns hstep hreturns
    cases hc.started.symm.trans hcleared
  · exact ⟨hc.running, hc.socket, hc.log⟩

/-! ## Runs of the shutdown -/

def serviced (moves : List (Move m n)) : List (HostedMove m n) :=
  moves.map fun move => .service move (.clean 65536)

omit [NeZero m] in
private theorem call_notMem_serviced {moves : List (Move m n)} {handler : Server.Handler} :
    .call handler ∉ serviced moves := by
  simp [serviced]

def hostedServer : Server := Server.ofPort 3334 .ipv4

def onlyThread : Fin 1 := ⟨0, Nat.zero_lt_one⟩

def firstThread : Fin 2 := ⟨0, Nat.zero_lt_two⟩

def secondThread : Fin 2 := ⟨1, Nat.one_lt_two⟩

def startServerOne : List (HostedMove 1 1) :=
  .call .start :: serviced [.worker onlyThread (.take none), .worker onlyThread .advance]

def shutdownOne : List (Move 1 1) :=
  [.call .stop, .caller, .caller, .worker onlyThread (.take none), .worker onlyThread .advance] ++
    stopOne.drop 2

theorem shutdown_stops_server_one :
    ∃ s, Steps.run step (ofThreads 1 false) startOne = some s ∧
      ∃ h, Steps.run Hosted.step (.construct s hostedServer) startServerOne = some h ∧
        ∃ t ∈ Steps.trace Hosted.step (h.invoke .stop) (serviced shutdownOne),
          Hosted.stopReturns t = true ∧ t.post.server.running = false ∧
            t.post.server.socket.isOpen = false ∧
            .onStopped ∈ t.post.server.log.drop h.server.log.length := by
  obtain ⟨s, hs, hplace, h, hrun, hready, hstop, hany⟩ :
      ∃ s, Steps.run step (ofThreads 1 false) startOne = some s ∧ (getAsioService s).1 = 0 ∧
        ∃ h, Steps.run Hosted.step (.construct s hostedServer) startServerOne = some h ∧
          h.Ready ∧ Server.stop h.server = .ret true (posted .stop h.server) ∧
          (Steps.trace Hosted.step (h.invoke .stop) (serviced shutdownOne)).any
            Hosted.stopReturns = true :=
    ⟨_, rfl, rfl, _, rfl, ⟨⟨_, rfl⟩, rfl, rfl⟩, rfl, rfl⟩
  obtain ⟨t, ht, hreturns⟩ := List.any_eq_true.mp hany
  exact ⟨s, hs, h, hrun, t, ht, hreturns, shutdown_stops_server (by decide) hs hplace
    hostedServer hrun hready hstop call_notMem_serviced t ht hreturns⟩

/-- Each thread has an `io_service`, and the server is on the second one: the first thread
stops both before the second one has looked at its queue. -/
def shutdownApart : List (Move 2 2) :=
  [.call .stop, .caller, .caller, .worker firstThread (.take none), .worker firstThread .advance,
    .worker firstThread .advance, .worker firstThread .advance, .worker firstThread .advance,
    .worker firstThread .advance, .worker firstThread .advance, .worker firstThread .advance,
    .worker secondThread .advance, .worker secondThread .advance, .caller, .caller, .caller,
    .caller]

/-- Both threads run one `io_service`, and the second one runs another handler of the server:
the stop handler of the server waits for its strand, the one of the service does not. -/
def shutdownPooled : List (Move 1 2) :=
  [.call .stop, .caller, .caller, .worker firstThread (.take (some 0)),
    .worker firstThread .advance, .worker firstThread .advance, .worker firstThread .advance,
    .worker firstThread .advance, .worker firstThread .advance, .worker firstThread .advance,
    .worker secondThread .advance, .worker secondThread .advance, .worker secondThread .advance,
    .caller, .caller, .caller, .caller]

def startPool : List (Move 1 1) :=
  [.call (.start false), .caller, .caller, .caller, .caller, .worker onlyThread .advance,
    .worker onlyThread .advance, .worker onlyThread (.take (some 0)),
    .worker onlyThread .advance, .worker onlyThread .advance, .caller]

/-- The only thread runs another handler of the server when both are told to stop: the stop
handler of the server waits for its strand and comes up after the one of the service. -/
def shutdownPool : List (Move 1 1) :=
  [.call .stop, .caller, .caller, .worker onlyThread .advance,
    .worker onlyThread (.take (some 0))] ++ stopOne.drop 3

def LosesStop (threads : Nat) (pool : Bool)
    (before : List (Move (serviceCount threads pool) threads))
    (ms ms' : List (HostedMove (serviceCount threads pool) threads)) : Prop :=
  ∃ s, Steps.run step (ofThreads threads pool) before = some s ∧
    ∃ h, Steps.run Hosted.step (.construct s hostedServer) ms = some h ∧ h.Ready ∧
      (∃ stopped, Server.stop h.server = .ret true stopped) ∧
      ∃ h', Steps.run Hosted.step (h.invoke .stop) ms' = some h' ∧
        h'.service.caller = .idle (some true) ∧ h'.server.running = true ∧
        h'.server.socket.isOpen = true ∧ .onStopped ∉ h'.server.log

/-- The stop is lost by two threads, with one `io_service` for each of them and with one for
both, and by the one thread of a pool. -/
theorem shutdown_loses_stop :
    LosesStop 2 false (startTwo none)
        (.call .start :: serviced [.worker 1 (.take none), .worker 1 .advance])
        (serviced shutdownApart) ∧
      LosesStop 2 true (startTwo (some 0))
        (.call .start :: serviced [.worker 0 (.take (some 1)), .worker 0 .advance,
          .submit 0 (some 1), .worker 1 (.take (some 1))])
        (serviced shutdownPooled) ∧
      LosesStop 1 true startPool
        (.call .start :: serviced [.worker 0 (.take (some 1)), .worker 0 .advance,
          .submit 0 (some 1), .worker 0 (.take (some 1))])
        (serviced shutdownPool) := by
  have hlost {log : List Event} (hlog : log = [.onStarted]) : .onStopped ∉ log := by
    rw [hlog]
    decide
  exact ⟨⟨_, rfl, _, rfl, ⟨⟨_, rfl⟩, rfl, rfl⟩, ⟨_, rfl⟩, _, rfl, rfl, rfl, rfl, hlost rfl⟩,
    ⟨_, rfl, _, rfl, ⟨⟨_, rfl⟩, rfl, rfl⟩, ⟨_, rfl⟩, _, rfl, rfl, rfl, rfl, hlost rfl⟩,
    ⟨_, rfl, _, rfl, ⟨⟨_, rfl⟩, rfl, rfl⟩, ⟨_, rfl⟩, _, rfl, rfl, rfl, rfl, hlost rfl⟩⟩

end AsioWrapper.Service
