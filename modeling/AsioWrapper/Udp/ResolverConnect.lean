import AsioWrapper.Udp.LedgerRuns

/-!
# Connecting through a resolver

`Connect(resolver)` and `ConnectAsync(resolver)` conclude a resolve in the same
way.  Only the synchronous one first tests the address and the port, which the
constructor with a scheme leaves at 0.
-/

namespace AsioWrapper.Udp

open AsioWrapper.Asio
open AsioWrapper.Foundation
open AsioWrapper.Foundation.Program

theorem BookedFrom.unblocked {δ π : Type} {announce : Event} {receives : Bool}
    {origin : Option (Origin π)} {point : Option Event} {s : Peer δ}
    {o : Outcome (Peer δ) Event ErrorCode Unit}
    (h : BookedFrom announce receives origin point s o) : o.Unblocked := by
  induction o generalizing point s with
  | ret value s' => trivial
  | throw error s' => trivial
  | call event s' resume ih => exact ih s' (h.2 s')
  | wait ready s' resume => exact h.1.elim

namespace Client

/-- The state of a client the two ways to connect are compared in. -/
def observed (s : Client) : Bool × Bool × Endpoint × UInt64 × Ledger × Nat × Socket :=
  (s.running, s.own.resolving, s.endpoint, s.bytesSending, s.ledger, s.receiveBuffer, s.socket)

def connectViaMoves (resolver : Bool) (resolution : ErrorCode × Endpoint)
    (answers : SocketAnswers) (n : Nat) : List (Move Call Pending Stimulus) :=
  .call (.connectVia resolver resolution answers) none :: List.replicate n (.resume 0)

/-- `ConnectAsync(resolver)`, the handler it posts, the completion of the resolve and its
handler, whose callbacks return at once.  Without a resolver nothing is posted. -/
def connectAsyncViaMoves (s : Client) (resolver : Bool) (resolution : ErrorCode × Endpoint)
    (answers : SocketAnswers) (n : Nat) : List (Move Call Pending Stimulus) :=
  .call (.connectAsyncVia resolver) none ::
    if resolver then
      .handler (.posted s.own.posted.length answers) ::
        .environment (.resolve s.own.resolves.length resolution) ::
          .handler (.resolved s.own.resolves.length answers) :: List.replicate n (.resume 2)
    else []

def EndsIn (net : Net) (s : Client) (ms : Nat → List (Move Call Pending Stimulus))
    (s' : Client) : Prop :=
  ∃ n c, (system net).run (.initial s) (ms n) = some c ∧ c.frames = [] ∧ c.world = s'

def conclude (resolution : ErrorCode × Endpoint) (answers : SocketAnswers) : Code Unit :=
  if !resolution.1.failed then do
    setEndpoint resolution.2
    openSession answers bindTo .onConnected
  else do
    sendError resolution.1
    fire .onDisconnected

theorem EndsIn.unique {net : Net} {s s' s'' : Client} {i : Nat}
    (ms : List (Move Call Pending Stimulus))
    (h : EndsIn net s (fun n => ms ++ List.replicate n (.resume i)) s')
    (h' : EndsIn net s (fun n => ms ++ List.replicate n (.resume i)) s'') : s' = s'' := by
  obtain ⟨n, c, hend, hframes, rfl⟩ := h
  obtain ⟨n', c', hend', hframes', rfl⟩ := h'
  rw [Steps.run_append_replicate_unique hend ((system net).resume_idle hframes i) hend'
    ((system net).resume_idle hframes' i)]

section Paths

variable {s : Client} (resolver : Bool) (resolution : ErrorCode × Endpoint)
  (answers : SocketAnswers)

private theorem connectVia_final (hrun : s.running = false) :
    (connectVia resolver resolution answers s).final =
      if resolver = true ∧ s.own.address.isEmpty = false ∧ 0 < s.own.port then
        (conclude resolution answers s).final
      else s := by
  by_cases hvalid : resolver = true ∧ s.own.address.isEmpty = false ∧ 0 < s.own.port
  · obtain ⟨hresolver, haddress, hport⟩ := hvalid
    rw [if_pos ⟨hresolver, haddress, hport⟩]
    simp only [connectVia, conclude, bind_apply, Program.state, Outcome.bind, hresolver, haddress,
      hrun, Int.not_le.mpr hport, Bool.not_true, Bool.false_eq_true, if_false]
    cases resolution.1.failed with
    | true => exact Outcome.final_bind_congr fun _ _ => Outcome.final_bind_ret fun _ _ => rfl
    | false => exact Outcome.final_bind_congr fun _ _ => Outcome.final_bind_ret fun _ _ => rfl
  · rw [if_neg hvalid]
    simp only [connectVia, bind_apply, Program.state, Outcome.bind, hrun, Bool.false_eq_true,
      if_false]
    split_ifs with hresolver haddress hport
    · rfl
    · rfl
    · rfl
    · refine (hvalid ⟨?_, ?_, by omega⟩).elim
      · simpa using hresolver
      · simpa using haddress
    · refine (hvalid ⟨?_, ?_, by omega⟩).elim
      · simpa using hresolver
      · simpa using haddress

private theorem asyncResolveHandler_final (query : Resolve) (hrun : s.running = false)
    (hresolving : s.own.resolving = false) :
    (asyncResolveHandler s.own.resolves.length resolution answers
      { s with
        own := { s.own with resolving := true, resolves := s.own.resolves ++ [query] } }).final =
      (conclude resolution answers s).final := by
  have hresolves : (s.own.resolves ++ [query]).eraseIdx s.own.resolves.length =
      s.own.resolves := by
    simp [List.eraseIdx_append_of_length_le]
  have hown : { s.own with resolving := false } = s.own := by
    rw [← hresolving]
  simp only [asyncResolveHandler, conclude, setResolving, bind_apply, Program.state, Program.update,
    Outcome.bind, hresolves, hown]
  rw [if_neg (by simp [hrun, hresolving])]

theorem attempt_generation {g : Nat} {call : SocketCall} {ec : ErrorCode}
    {effect : Client → Client} {next : Unit → Code Unit}
    (heffect : ∀ s, (effect s).socket.generation = s.socket.generation)
    (hs : s.socket.generation = g)
    (hnext : ∀ s', s'.socket.generation = g → (next () s').final.socket.generation = g) :
    ((attempt call ec effect s).bind next).final.socket.generation = g := by
  unfold attempt
  split
  · exact hs
  · exact hnext _ ((heffect s).trans hs)

private theorem whenever_generation {g : Nat} {c : Bool} {call : SocketCall} {ec : ErrorCode}
    {effect : Client → Client} {next : Unit → Code Unit}
    (heffect : ∀ s, (effect s).socket.generation = s.socket.generation)
    (hs : s.socket.generation = g)
    (hnext : ∀ s', s'.socket.generation = g → (next () s').final.socket.generation = g) :
    ((whenever c (attempt call ec effect) s).bind next).final.socket.generation = g := by
  unfold whenever
  split
  · exact attempt_generation heffect hs hnext
  · exact hnext s hs

private theorem openSession_generation (bindTo : Client → Endpoint) (announce : Event)
    (hclosed : s.socket.isOpen = false) (hopening : answers.opening.failed = false) :
    (openSession answers bindTo announce s).final.socket.generation =
      s.socket.generation + 1 := by
  have hopened : attempt .open answers.opening (fun s => s.withSocket Socket.opened) s =
      .ret () (s.withSocket Socket.opened) := by
    simp [attempt, hopening, Program.update]
  simp only [openSession, bind_apply, Program.state, Outcome.bind, hclosed, Bool.false_eq_true,
    if_false, hopened]
  refine whenever_generation (fun _ => rfl) rfl fun s₁ h₁ => ?_
  refine whenever_generation (fun _ => rfl) h₁ fun s₂ h₂ => ?_
  refine attempt_generation (fun _ => rfl) h₂ fun s₃ h₃ => ?_
  exact attempt_generation (fun _ => rfl) h₃ fun s₄ h₄ => h₄

private theorem openSession_refused (bindTo : Client → Endpoint) (announce : Event)
    (hopen : s.socket.isOpen = true ∨ answers.opening.failed = true) :
    ∃ ec, (openSession answers bindTo announce s).final = s.noteFailure .open ec := by
  refine ⟨if s.socket.isOpen then .alreadyOpen else answers.opening, ?_⟩
  have hfailed :
      (if s.socket.isOpen = true then ErrorCode.alreadyOpen else answers.opening).failed =
        true := by
    split
    · rfl
    · exact hopen.resolve_left ‹_›
  simp only [openSession, bind_apply, Program.state, Outcome.bind, attempt, hfailed, if_true]
  rfl

/-- The conclusion changes nothing a user can see only where `open` fails after the resolve
has given the endpoint the client already had. -/
theorem conclude_observed_iff :
    observed (conclude resolution answers s).final = observed s ↔
      resolution.1.failed = false ∧ resolution.2 = s.endpoint ∧
        (s.socket.isOpen = true ∨ answers.opening.failed = true) := by
  cases hresolved : resolution.1.failed with
  | true =>
      have hlog : (conclude resolution answers s).final.log ≠ s.log := by
        simp only [conclude, hresolved, sendError, Bool.not_true, Bool.false_eq_true, if_false]
        intro h
        have hlength := congrArg List.length h
        by_cases hquiet : resolution.1 = .connectionAborted ∨ resolution.1 = .connectionRefused ∨
            resolution.1 = .connectionReset ∨ resolution.1 = .eof ∨
            resolution.1 = .operationAborted
        · rw [if_pos hquiet] at hlength
          change (s.log ++ [Event.onDisconnected]).length = s.log.length at hlength
          simp at hlength
        · rw [if_neg hquiet] at hlength
          change (s.log ++ [Event.onError resolution.1] ++ [Event.onDisconnected]).length =
            s.log.length at hlength
          simp at hlength
      refine iff_of_false (fun h => hlog ?_) (by simp)
      exact congrArg (fun observed => observed.2.2.2.2.1.log) h
  | false =>
      have hconclude : conclude resolution answers s =
          openSession answers bindTo .onConnected { s with endpoint := resolution.2 } := by
        simp only [conclude, hresolved, Bool.not_false, if_true]
        rfl
      rw [hconclude, and_iff_right rfl]
      by_cases hopen : s.socket.isOpen = true ∨ answers.opening.failed = true
      · obtain ⟨ec, hrefused⟩ := openSession_refused answers bindTo .onConnected
          (s := { s with endpoint := resolution.2 }) hopen
        rw [hrefused, and_iff_left hopen]
        constructor
        · exact fun h => congrArg (fun observed => observed.2.2.1) h
        · rintro h
          rw [h]
          rfl
      · simp only [not_or, Bool.not_eq_true] at hopen
        have hgeneration := openSession_generation answers bindTo .onConnected
          (s := { s with endpoint := resolution.2 }) hopen.1 hopen.2
        refine iff_of_false (fun h => ?_) fun h => ?_
        · have hsame : _ = s.socket.generation :=
            congrArg (fun observed => observed.2.2.2.2.2.2.generation) h
          exact Nat.succ_ne_self _ (hgeneration.symm.trans hsame)
        · simp [hopen.1, hopen.2] at h

private theorem connectVia_endsIn (net : Net) (hrun : s.running = false) :
    EndsIn net s (connectViaMoves resolver resolution answers)
      (if resolver = true ∧ s.own.address.isEmpty = false ∧ 0 < s.own.port then
        (conclude resolution answers s).final
      else s) := by
  have hentered : Entered false none (discard (connectVia resolver resolution answers)) :=
    (connectVia_entered resolver resolution answers).discard
  have hunblocked := (hentered.bookedFrom s).unblocked
  obtain ⟨n, c, hend, hframes, hworld⟩ :=
    (system net).run_spawned (c := .initial s) rfl none hunblocked
  refine ⟨n, c, hend, hframes, hworld.trans ?_⟩
  rw [← connectVia_final resolver resolution answers hrun]
  exact Outcome.final_bind_ret fun _ _ => rfl

def query (s : Client) (result : Option (ErrorCode × Endpoint)) : Resolve :=
  ⟨s.own.address, if s.own.scheme.isEmpty then toString s.own.port else s.own.scheme, result⟩

section Async

def requested (s : Client) : Client :=
  { s with own := { s.own with posted := s.own.posted ++ [.connectVia] } }

def asked (s : Client) (result : Option (ErrorCode × Endpoint)) : Client :=
  { s with own := { s.own with
      resolving := true, resolves := s.own.resolves ++ [query s result] } }

variable (net : Net)

theorem step_connectAsyncVia (hrun : s.running = false) (hresolving : s.own.resolving = false) :
    (system net).step (.initial s) (.call (.connectAsyncVia true) none) =
      some ⟨requested s, [[]], []⟩ := by
  have hposts : (discard (connectAsyncVia true) : Code Unit) s = .ret () (requested s) := by
    change (connectAsyncVia true s).bind _ = _
    simp only [connectAsyncVia, bind_apply, Program.state, Outcome.bind, hrun, hresolving,
      Bool.not_true, Bool.or_self, Bool.false_eq_true, if_false]
    rfl
  change some (Config.spawn _ none ((discard (connectAsyncVia true) : Code Unit) s)) = _
  rw [hposts]
  rfl

theorem step_connectVia (answers : SocketAnswers) (hrun : s.running = false)
    (hresolving : s.own.resolving = false) :
    (system net).step ⟨requested s, [[]], []⟩
        (.handler (.posted s.own.posted.length answers)) =
      some ⟨asked s none, [[], []], []⟩ := by
  have hlookup : (requested s).own.posted[s.own.posted.length]? = some .connectVia := by
    simp [requested]
  have hunpost : (requested s).own.posted.eraseIdx s.own.posted.length = s.own.posted := by
    simp [requested, List.eraseIdx_append_of_length_le]
  have hasks : (do unpost s.own.posted.length; connectViaHandler : Code Unit) (requested s) =
      .ret () (asked s none) := by
    simp only [unpost, connectViaHandler, setResolving, bind_apply, Program.state,
      Program.update, Outcome.bind, hunpost]
    rw [if_neg (by simp [requested, hrun, hresolving])]
    rfl
  have hhandler : (system net).handler (.posted s.own.posted.length answers) (requested s) =
      some (.posted .connectVia, do unpost s.own.posted.length; connectViaHandler) := by
    simp only [system, handler, hlookup]
    rfl
  simp only [System.step, hhandler, hasks]
  rfl

theorem step_resolve (resolution : ErrorCode × Endpoint) :
    (system net).step ⟨asked s none, [[], []], []⟩
        (.environment (.resolve s.own.resolves.length resolution)) =
      some ⟨asked s (some resolution), [[], []], []⟩ := by
  have hlookup : (asked s none).own.resolves[s.own.resolves.length]? = some (query s none) := by
    simp [asked]
  have hset : (asked s none).own.resolves.set s.own.resolves.length (query s (some resolution)) =
      (asked s (some resolution)).own.resolves := by
    simp [asked, List.set_append_right]
  have hresolved : environment (.resolve s.own.resolves.length resolution) (asked s none) =
      some { asked s none with own := { (asked s none).own with
        resolves := (asked s none).own.resolves.set s.own.resolves.length
          (query s (some resolution)) } } := by
    simp only [environment, hlookup]
    rfl
  simp only [System.step, system, hresolved, hset]
  rfl

theorem step_resolved (resolution : ErrorCode × Endpoint) (answers : SocketAnswers) :
    (system net).step ⟨asked s (some resolution), [[], []], []⟩
        (.handler (.resolved s.own.resolves.length answers)) =
      some (Config.spawn ⟨asked s (some resolution), [[], []], []⟩ (some (.posted .asyncResolve))
        (asyncResolveHandler s.own.resolves.length resolution answers
          (asked s (some resolution)))) := by
  have hlookup : (asked s (some resolution)).own.resolves[s.own.resolves.length]? =
      some (query s (some resolution)) := by
    simp [asked]
  have hhandler : (system net).handler (.resolved s.own.resolves.length answers)
      (asked s (some resolution)) =
      some (.posted .asyncResolve,
        asyncResolveHandler s.own.resolves.length resolution answers) := by
    simp only [system, handler, hlookup]
    rfl
  simp only [System.step, hhandler]
  rfl

end Async

private theorem connectAsyncVia_endsIn (net : Net) (hrun : s.running = false)
    (hresolving : s.own.resolving = false) :
    EndsIn net s (connectAsyncViaMoves s resolver resolution answers)
      (if resolver = true then (conclude resolution answers s).final else s) := by
  cases resolver with
  | false => exact ⟨0, ⟨s, [[]], []⟩, rfl, rfl, rfl⟩
  | true =>
      have hentered : Entered false (some (.posted .asyncResolve))
          (asyncResolveHandler s.own.resolves.length resolution answers) :=
        asyncResolveHandler_entered _ resolution answers
      obtain ⟨n, c, hend, hframes, hworld⟩ := (system net).run_spawned
        (c := ⟨asked s (some resolution), [[], []], []⟩) rfl (some (.posted .asyncResolve))
        (hentered.bookedFrom (asked s (some resolution))).unblocked
      refine ⟨n, c, ?_, hframes, hworld.trans ?_⟩
      · simp only [connectAsyncViaMoves, if_true, System.run, Steps.run,
          step_connectAsyncVia net hrun hresolving, step_connectVia net answers hrun hresolving,
          step_resolve, step_resolved]
        exact hend
      · exact asyncResolveHandler_final resolution answers _ hrun hresolving

private theorem connectAsyncVia_unique {net : Net} {s s' s'' : Client} {resolver : Bool}
    {resolution : ErrorCode × Endpoint} {answers : SocketAnswers}
    (h : EndsIn net s (connectAsyncViaMoves s resolver resolution answers) s')
    (h' : EndsIn net s (connectAsyncViaMoves s resolver resolution answers) s'') : s' = s'' := by
  cases resolver with
  | false =>
      obtain ⟨n, c, hend, -, rfl⟩ := h
      obtain ⟨n', c', hend', -, rfl⟩ := h'
      rw [Option.some.inj (hend.symm.trans hend')]
  | true =>
      exact EndsIn.unique [.call (.connectAsyncVia true) none,
        .handler (.posted s.own.posted.length answers),
        .environment (.resolve s.own.resolves.length resolution),
        .handler (.resolved s.own.resolves.length answers)] h h'

end Paths

/-- `Connect(resolver)` gets past its tests, or they make no difference because nothing comes
of the resolve. -/
def ConnectsAlike (s : Client) (resolver : Bool) (resolution : ErrorCode × Endpoint)
    (answers : SocketAnswers) : Prop :=
  resolver = false ∨ s.own.address.isEmpty = false ∧ 0 < s.own.port ∨
    resolution.1.failed = false ∧ resolution.2 = s.endpoint ∧
      (s.socket.isOpen = true ∨ answers.opening.failed = true)

/--
A client that is neither connected nor resolving ends up in the same state and invokes the
same callbacks on both ways to connect through a resolver if and only if it has an address
and a positive port, or nothing was to be done.
-/
theorem connect_via_agrees_iff (net : Net) {s : Client} (hrun : s.running = false)
    (hresolving : s.own.resolving = false) (resolver : Bool)
    (resolution : ErrorCode × Endpoint) (answers : SocketAnswers) :
    (∃ s', EndsIn net s (connectViaMoves resolver resolution answers) s') ∧
    (∃ s', EndsIn net s (connectAsyncViaMoves s resolver resolution answers) s') ∧
    ∀ s' s'', EndsIn net s (connectViaMoves resolver resolution answers) s' →
      EndsIn net s (connectAsyncViaMoves s resolver resolution answers) s'' →
      (observed s' = observed s'' ↔ ConnectsAlike s resolver resolution answers) := by
  have hsync := connectVia_endsIn resolver resolution answers net hrun
  have hasync := connectAsyncVia_endsIn resolver resolution answers net hrun hresolving
  refine ⟨⟨_, hsync⟩, ⟨_, hasync⟩, fun s' s'' h' h'' => ?_⟩
  have hs' := EndsIn.unique [.call (.connectVia resolver resolution answers) none] h' hsync
  have hs'' := connectAsyncVia_unique h'' hasync
  subst hs' hs''
  unfold ConnectsAlike
  rw [← conclude_observed_iff]
  cases resolver with
  | false => simp
  | true =>
      by_cases hvalid : s.own.address.isEmpty = false ∧ 0 < s.own.port
      · simp [hvalid]
      · rw [if_neg fun h => hvalid h.2, if_pos rfl]
        simp only [hvalid, Bool.true_eq_false, false_or]
        exact eq_comm

/-- A client built with a scheme has port 0, so that only `ConnectAsync` connects. -/
theorem connect_via_differs_with_scheme :
    ∃ s' s'', EndsIn .loopback (ofAddressScheme "localhost" "domain")
        (connectViaMoves true (.success, ⟨.v4 0x7f000001, 53⟩) (.clean 4)) s' ∧
      EndsIn .loopback (ofAddressScheme "localhost" "domain")
        (connectAsyncViaMoves (ofAddressScheme "localhost" "domain") true
          (.success, ⟨.v4 0x7f000001, 53⟩) (.clean 4)) s'' ∧
      s'.running = false ∧ s'.log = [] ∧ s''.running = true ∧ s''.log = [.onConnected] :=
  ⟨_, _, ⟨0, _, rfl, rfl, rfl⟩, ⟨1, _, rfl, rfl, rfl⟩, rfl, rfl, rfl, rfl⟩

theorem connect_via_agrees_iff_address_port :
    ∃ s' s'', EndsIn .loopback (ofAddressPort "localhost" 53)
        (connectViaMoves true (.success, ⟨.v4 0x7f000001, 53⟩) (.clean 4)) s' ∧
      EndsIn .loopback (ofAddressPort "localhost" 53)
        (connectAsyncViaMoves (ofAddressPort "localhost" 53) true
          (.success, ⟨.v4 0x7f000001, 53⟩) (.clean 4)) s'' ∧
      s'.log = [.onConnected] ∧ observed s' = observed s'' := by
  have hagrees := connect_via_agrees_iff .loopback (s := ofAddressPort "localhost" 53) rfl rfl
    true (.success, ⟨.v4 0x7f000001, 53⟩) (.clean 4)
  refine ⟨_, _, ⟨1, _, rfl, rfl, rfl⟩, ⟨1, _, rfl, rfl, rfl⟩, rfl, ?_⟩
  refine (hagrees.2.2 _ _ ⟨1, _, rfl, rfl, rfl⟩ ⟨1, _, rfl, rfl, rfl⟩).mpr (Or.inr (Or.inl ?_))
  exact ⟨by decide, by decide⟩

end Client

end AsioWrapper.Udp
