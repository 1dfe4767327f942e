import AsioWrapper.Apps.ServerSteps

/-!
# What the server program does

The start handler of the server runs some time after `UDPServer::Start` has
returned.  Lines that are read before are lost, all others are sent, in their
order and to the endpoint the program was started with.  The program ends
whatever the schedule; it leaves the server stopped exactly if the start handler
had run when `UDPServer::Stop` was called.
-/

namespace AsioWrapper.Apps

open AsioWrapper.Asio
open AsioWrapper.Foundation
open AsioWrapper.Service
open AsioWrapper.Service.Hosted
open AsioWrapper.Udp

variable {m n : Nat} [NeZero m]

/-! ## The program ends -/

def postCost (m : Nat) : Nat := handlerCost m + 1

/-- The steps of `main`, with what it adds for the thread of the service to do. -/
def Main.cost (m n : Nat) (session : Session) : Main → Nat
  | .starting => 3 + Caller.rank m n (.stop none) + 2 * postCost m +
      2 * postCost m * session.input.length
  | .reading input => 3 + Caller.rank m n (.stop none) + postCost m +
      2 * postCost m * input.length
  | .restarting input => 3 + Caller.rank m n (.stop none) + 2 * postCost m +
      2 * postCost m * input.length
  | .stopping => 2 + Caller.rank m n (.stop none) + postCost m
  | .stopped _ => 2 + Caller.rank m n (.stop none)
  | .joining _ => 1
  | .returned _ => 0

def ServerProgram.budget (session : Session) : ServerProgram m n → Nat
  | .starting s => s.budget + Main.starting.cost m n session + 1
  | .serving main h _ => h.service.budget + main.cost m n session
  | .aborted => 0

section Budget

variable {session : Session} {address : Address} {answer : Completion} {i : Fin n}
  {h h' : Hosted m n} {main : Main} {sent : List Datagram} {p p' : ServerProgram m n}

private theorem acts_budget (hsole : ∀ k : Fin n, State.home k = (0 : Fin m) ↔ k = i) (hn : 0 < n)
    (hparse : session.net.makeAddress session.multicastAddress = some address)
    (hc : Conducted i main.goal h) (hkeeps : main.Keeps h)
    (hacts : Acts session answer h sent main p') :
    p'.budget session < h.service.budget + main.cost m n session := by
  have hinvoke := h.invoke_budget
  have hpost : postCost m = handlerCost m + 1 := rfl
  cases hacts with
  | abort hparse' => cases hparse.symm.trans hparse'
  | @start address' hparse' =>
      have hstart := (directed h (session.endpoint address')).invoke_budget .start
      change _ ≤ h.service.budget + handlerCost m at hstart
      simp only [ServerProgram.budget, Main.cost]
      omega
  | finish hinput =>
      simp only [ServerProgram.budget, Main.cost]
      omega
  | @restart input hrunning =>
      have hstop := hinvoke .stop
      simp only [ServerProgram.budget, Main.cost, List.length_cons, Nat.mul_add]
      omega
  | restartRefused hrunning =>
      simp only [ServerProgram.budget, Main.cost, List.length_cons, Nat.mul_add]
      omega
  | multicast hline hbang =>
      simp only [ServerProgram.budget, Main.cost, List.length_cons, Nat.mul_add, Apps.multicast]
      omega
  | restarted hrunning =>
      have hstart := hinvoke .start
      simp only [ServerProgram.budget, Main.cost]
      omega
  | stop =>
      have hstop := hinvoke .stop
      simp only [ServerProgram.budget, Main.cost]
      omega
  | stopService hstep =>
      obtain ⟨hs, -⟩ := hc.service_step hsole hn rfl hstep
      have hidle : h.Idle := hkeeps
      obtain ⟨returned, hcaller⟩ := hidle.caller
      have hcall := budget_stop_call hcaller hs
      simp only [ServerProgram.budget, Main.cost]
      omega
  | join hstep =>
      obtain ⟨hs, -⟩ := hc.service_step hsole hn rfl hstep
      have hless := hc.plain.budget_lt hc.responsive hn rfl hs
      simp only [ServerProgram.budget, Main.cost]
      omega
  | finished hidle =>
      simp only [ServerProgram.budget, Main.cost]
      omega

theorem Going.budget_lt (hsole : ∀ k : Fin n, State.home k = (0 : Fin m) ↔ k = i) (hn : 0 < n)
    (hparse : session.net.makeAddress session.multicastAddress = some address)
    {move : ServerMove n} (hp : Going i p) (hquiet : move.isQuiet = true)
    (hstep : p.step session move = some p') : p'.budget session < p.budget session := by
  cases p with
  | aborted => cases hp
  | starting s =>
      obtain ⟨hs, hplain, -⟩ := hp
      cases move with
      | main answer =>
          simp only [ServerProgram.step] at hstep
          split at hstep
          · cases hstep
            exact Nat.lt_succ_self _
          · obtain ⟨s', hs', rfl⟩ := Option.map_eq_some_iff.mp hstep
            have hless := hplain.budget_lt hs hn rfl hs'
            simp only [ServerProgram.budget]
            omega
      | worker k turn answers =>
          obtain ⟨s', hs', rfl⟩ := Option.map_eq_some_iff.mp hstep
          have hless := hplain.budget_lt hs hn (ServerMove.isOwn_of_isQuiet hquiet) hs'
          simp only [ServerProgram.budget]
          omega
  | serving main h sent =>
      obtain ⟨hc, hkeeps⟩ := hp
      cases move with
      | main answer => exact acts_budget hsole hn hparse hc hkeeps (mainStep_acts hstep)
      | worker k turn answers =>
          obtain ⟨h', hh', rfl⟩ := Option.map_eq_some_iff.mp hstep
          have hown := ServerMove.isOwn_of_isQuiet (m := m) hquiet
          obtain ⟨hs, -⟩ := hc.service_step hsole hn (Service.Move.isTame_of_isOwn hown) hh'
          have hless := hc.plain.budget_lt hc.responsive hn hown hs
          simp only [ServerProgram.budget]
          omega

end Budget

/-! ## The program is never stuck -/

def ServerProgram.hasReturned : ServerProgram m n → Bool
  | .serving (.returned _) _ _ => true
  | _ => false

section Progress

variable {session : Session} {address : Address} {i : Fin n} {h : Hosted m n} {main : Main}
  {sent : List Datagram} {s : State m n} {p : ServerProgram m n}

def Proceeds (session : Session) (p : ServerProgram m n) : Prop :=
  ∃ move, ServerMove.isQuiet move = true ∧ (p.step session move).isSome = true

theorem proceeds_of_main (h : (p.step session (.main .aborted)).isSome = true) :
    Proceeds session p := ⟨.main .aborted, rfl, h⟩

private theorem proceeds_starting (hn : 0 < n) (hs : Responsive s) :
    Proceeds session (.starting s) := by
  by_cases hidle : ∃ returned, s.caller = .idle returned
  · obtain ⟨returned, hcaller⟩ := hidle
    exact proceeds_of_main (by simp [ServerProgram.step, hcaller])
  · have hbusy : ∀ returned, s.caller ≠ .idle returned := fun returned hcaller =>
      hidle ⟨returned, hcaller⟩
    obtain ⟨move, s', hown, hstep⟩ := first_of_spends (hs.spends hn hbusy)
    cases move with
    | caller =>
        apply proceeds_of_main
        simp only [ServerProgram.step, hstep]
        rfl
    | worker k turn =>
        refine ⟨.worker k turn (.clean 0), ?_, ?_⟩
        · cases turn with
          | throw failure => cases hown
          | _ => rfl
        · simp [ServerProgram.step, hstep]
    | _ => cases hown

private theorem proceeds_of_spends {goal : Bool} (hc : Conducted i goal h)
    (hspends : Spends h.service)
    (hmain : ∀ h', h.step (.service .caller (.clean 0)) = some h' →
      Proceeds session (.serving main h sent)) : Proceeds session (.serving main h sent) := by
  obtain ⟨move, s', hown, hstep⟩ := first_of_spends hspends
  have hsome := hc.lifts hown hstep
  cases move with
  | caller =>
      obtain ⟨h', hh'⟩ := Option.isSome_iff_exists.mp hsome
      exact hmain h' hh'
  | worker k turn =>
      refine ⟨.worker k turn (.clean 0), ?_, ?_⟩
      · cases turn with
        | throw failure => cases hown
        | _ => rfl
      · simpa [ServerProgram.step] using hsome
  | _ => cases hown

theorem Going.proceeds (hn : 0 < n)
    (hparse : session.net.makeAddress session.multicastAddress = some address) (hp : Going i p)
    (hnot : p.hasReturned = false) : Proceeds session p := by
  cases p with
  | aborted => cases hp
  | starting s => exact proceeds_starting hn hp.1
  | serving main h sent =>
      obtain ⟨hc, hkeeps⟩ := hp
      have hmain (hsome : (ServerProgram.mainStep session .aborted h sent main).isSome = true) :
          Proceeds session (.serving main h sent) := proceeds_of_main hsome
      cases main with
      | starting => exact hmain (by simp [ServerProgram.mainStep, hparse])
      | reading input =>
          apply hmain
          cases input with
          | nil => rfl
          | cons line input =>
              simp only [ServerProgram.mainStep]
              split
              · rfl
              · split
                · split
                  · rfl
                  · rfl
                · rfl
      | restarting input =>
          have hidle : h.Idle := hkeeps
          cases hrunning : h.server.running with
          | false => exact hmain (by simp [ServerProgram.mainStep, hrunning])
          | true =>
              -- the stop handler that `main` waits for is still posted
              have hposted : h.server.own.posted ≠ [] := by
                intro hnone
                rcases hc.steered.toward with ⟨-, hstopped⟩ | ⟨hone, -⟩
                · cases hrunning.symm.trans hstopped
                · cases hnone.symm.trans hone
              refine proceeds_of_spends hc (hc.spends hn hidle hposted) fun h' hh' => ?_
              obtain ⟨returned, hcaller⟩ := hidle.caller
              obtain ⟨s', hs', -⟩ := Option.bind_eq_some_iff.mp hh'
              simp [Service.step, callerStep, hcaller] at hs'
      | stopping => exact hmain rfl
      | stopped accepted =>
          have hidle : h.Idle := hkeeps
          obtain ⟨returned, hcaller⟩ := hidle.caller
          exact hmain (by simp [ServerProgram.mainStep, Hosted.step, Service.step, callStep,
            hcaller, Hosted.attend])
      | joining accepted =>
          by_cases hidle : ∃ returned, h.service.caller = .idle returned
          · obtain ⟨returned, hcaller⟩ := hidle
            exact hmain (by simp [ServerProgram.mainStep, hcaller])
          · have hbusy : ∀ returned, h.service.caller ≠ .idle returned :=
              fun returned hcaller => hidle ⟨returned, hcaller⟩
            refine proceeds_of_spends hc (hc.responsive.spends hn hbusy) fun h' hh' => ?_
            apply hmain
            simp only [ServerProgram.mainStep, hh']
            rfl
      | returned accepted => cases hnot

end Progress

/-! ## Runs of the program -/

section Runs

variable {session : Session} {address : Address}

theorem one_service (j : Fin (serviceCount 1 false)) : j = 0 := Fin.ext (Nat.lt_one_iff.mp j.isLt)

theorem one_thread (k : Fin 1) : State.home k = (0 : Fin (serviceCount 1 false)) ↔ k = onlyThread :=
  ⟨fun _ => Subsingleton.elim k onlyThread, fun _ => one_service _⟩

theorem going_serverProgram : Going onlyThread serverProgram := by
  have hcall : Service.step (ofThreads 1 false) (.call (.start false)) =
      some { ofThreads 1 false with caller := .start false } := rfl
  have hfresh : Responsive (ofThreads 1 false) :=
    ⟨served_ofThreads 1 false, fun hopening => (by cases hopening), joinable_ofThreads 1 false, rfl⟩
  have hownStrand : OwnStrand { ofThreads 1 false with caller := .start false } :=
    (ownStrand_ofThreads 1 false).step (orderly_ofThreads 1 false) hcall
  exact ⟨hfresh.kept Nat.zero_lt_one hcall rfl rfl, ⟨rfl, rfl⟩, ⟨hownStrand, rfl⟩, Or.inl rfl⟩

private theorem program_variant
    (hparse : session.net.makeAddress session.multicastAddress = some address) :
    Steps.Variant (ServerProgram.step (m := serviceCount 1 false) (n := 1) session)
      (Going onlyThread) ServerMove.isQuiet (fun _ => false) (ServerProgram.budget session) where
  keeps _ hpre hstep hquiet :=
    Going.step one_service one_thread Nat.zero_lt_one hparse hpre hquiet hstep
  idles _ _ _ _ hidle := by cases hidle
  lowers _ hpre hstep hquiet _ :=
    Going.budget_lt one_thread Nat.zero_lt_one hparse hpre hquiet hstep

/--
Whatever is typed and whatever the schedule, the program ends, unless a handler throws: it is
never stuck and makes a bounded number of steps.  At its end the thread of the service has been
joined and no handler of the server is left; the server is stopped and has announced as many ends
as beginnings of sessions if `UDPServer::Stop` has been accepted, and otherwise it is still
started, with its socket open.
-/
theorem server_program_ends
    (hparse : session.net.makeAddress session.multicastAddress = some address)
    {ms : List (ServerMove 1)} (hquiet : ∀ move ∈ ms, move.isQuiet = true)
    {p : ServerProgram (serviceCount 1 false) 1}
    (hrun : Steps.run (ServerProgram.step session) serverProgram ms = some p) :
    ms.length ≤ 54 + 16 * session.input.length ∧
      (p.hasReturned = true ∨
        ∃ move, ServerMove.isQuiet move = true ∧ (p.step session move).isSome = true) ∧
      ∀ accepted h sent, p = .serving (.returned accepted) h sent →
        h.service.started = false ∧ (∀ k, h.service.threads k = .absent) ∧
          h.server.own.posted = [] ∧ h.server.running = !accepted ∧
          h.server.socket.isOpen = !accepted ∧
          h.server.log.count .onStarted = h.server.log.count .onStopped + (!accepted).toNat := by
  have hvariant := program_variant hparse
  have hgoing := hvariant.run_keeps going_serverProgram hquiet hrun
  refine ⟨?_, ?_, ?_⟩
  · have hlength := hvariant.run_length going_serverProgram hquiet (fun _ _ => rfl) hrun
    have hbudget : serverProgram.budget session = 54 + 16 * session.input.length := by
      change 20 + (3 + 14 + 2 * 8 + 2 * 8 * session.input.length) + 1 = _
      omega
    omega
  · cases hreturned : p.hasReturned with
    | true => exact Or.inl rfl
    | false => exact Or.inr (hgoing.proceeds Nat.zero_lt_one hparse hreturned)
  · rintro accepted h sent rfl
    obtain ⟨hc, ⟨returned, hidle⟩, hstopped⟩ := hgoing
    have hposted : h.server.own.posted = [] :=
      hc.sequenced.booked.trans (hc.sequenced.exhausted (Or.inl hstopped))
    have hrunning : h.server.running = !accepted := by
      rcases hc.steered.toward with ⟨-, hrunning⟩ | ⟨hone, -⟩
      · exact hrunning
      · cases hposted.symm.trans hone
    refine ⟨hstopped, fun k => ?_, hposted, hrunning, hc.steered.socket.trans hrunning, ?_⟩
    · exact hc.regular.orderly.absent (by simp [hidle, hstopped, Caller.admits])
    · rw [← hrunning]
      exact hc.steered.log

def greeting : Session where
  net := ⟨fun _ => some (.v4 0xefff0001)⟩
  multicastAddress := "239.255.0.1"
  multicastPort := 3334
  input := [ascii "hello", ascii "!", ascii "again", []]

def mains (count : Nat) : List (ServerMove 1) := .replicate count (.main ⟨.success, 24, default⟩)

def advances (count : Nat) : List (ServerMove 1) :=
  .replicate count (.worker onlyThread .advance (.clean 65536))

def handles : List (ServerMove 1) :=
  .worker onlyThread (.take none) (.clean 65536) :: advances 1

def greetingRun : List (ServerMove 1) :=
  mains 4 ++ advances 2 ++ handles ++ advances 1 ++ mains 3 ++ handles ++ mains 2 ++ handles ++
    mains 1 ++ handles ++ mains 6 ++ handles ++ handles ++ advances 5 ++ mains 4

theorem server_program_ends_greeting :
    ∃ h sent, Steps.run (ServerProgram.step greeting) serverProgram greetingRun =
        some (.serving (.returned true) h sent) ∧
      greetingRun.length ≤ 54 + 16 * greeting.input.length ∧ h.service.started = false ∧
      h.service.threads onlyThread = .absent ∧ h.server.running = false ∧
      h.server.socket.isOpen = false ∧
      h.server.log.count .onStarted = h.server.log.count .onStopped + (!true).toNat := by
  obtain ⟨h, sent, hrun⟩ : ∃ h sent, Steps.run (ServerProgram.step greeting) serverProgram
      greetingRun = some (.serving (.returned true) h sent) := ⟨_, _, rfl⟩
  have hquiet : greetingRun.all ServerMove.isQuiet = true := rfl
  have hparse : greeting.net.makeAddress greeting.multicastAddress = some (.v4 0xefff0001) := rfl
  obtain ⟨hlength, -, hend⟩ := server_program_ends hparse (List.all_eq_true.mp hquiet) hrun
  obtain ⟨hstopped, habsent, -, hrunning, hsocket, hlog⟩ := hend true h sent rfl
  exact ⟨h, sent, hrun, hlength, hstopped, habsent onlyThread, hrunning, hsocket, hlog⟩

end Runs

/-! ## Lines that are not lost -/

def ServerProgram.sent : ServerProgram m n → List Datagram
  | .serving _ _ sent => sent
  | _ => []

/-- A line that is to be sent is read when no handler of the server is posted. -/
def readsSettled (t : Transition (ServerProgram m n) (ServerMove n)) : Bool :=
  match t.pre, t.move with
  | .serving (.reading (line :: _)) h _, .main _ =>
      (typed [line]).isEmpty || h.server.own.posted.isEmpty
  | _, _ => true

def Complete (session : Session) : ServerProgram m n → Prop
  | .serving main _ sent =>
      sent.length + (typed (main.remaining session)).length = (typed session.input).length
  | _ => True

section Complete

variable {session : Session} {answer : Completion} {i : Fin n} {h : Hosted m n} {main : Main}
  {sent : List Datagram} {p p' : ServerProgram m n} {move : ServerMove n}

theorem Complete.acts
    (hs : sent.length + (typed (main.remaining session)).length = (typed session.input).length)
    (hrunning : ∀ line input, main = .reading (line :: input) → typed [line] ≠ [] →
      h.server.running = true)
    (hacts : Acts session answer h sent main p') : Complete session p' := by
  cases hacts with
  | finish hinput =>
      simp only [Main.remaining, hinput] at hs
      exact hs
  | restart =>
      simp only [Main.remaining, typed_bang] at hs
      exact hs
  | restartRefused =>
      simp only [Main.remaining, typed_bang] at hs
      exact hs
  | @multicast line input hline hbang =>
      have hset := hrunning line input rfl (by rw [typed_cons hline, if_neg hbang]; simp)
      simp only [Main.remaining, typed_cons hline, if_neg hbang, List.length_cons] at hs
      simp only [Complete, transmitted_message, hset, if_true, List.length_append,
        List.length_singleton, Main.remaining]
      omega
  | abort => trivial
  | _ => exact hs

theorem Complete.step (hp : Going i p) (hs : Complete session p)
    (hsettled : readsSettled ⟨p, move, p'⟩ = true) (hstep : p.step session move = some p') :
    Complete session p' := by
  cases p with
  | aborted => cases hp
  | starting s =>
      cases move with
      | main answer =>
          simp only [ServerProgram.step] at hstep
          split at hstep
          · cases hstep
            exact Nat.zero_add _
          · obtain ⟨s', -, rfl⟩ := Option.map_eq_some_iff.mp hstep
            trivial
      | worker k turn answers =>
          obtain ⟨s', -, rfl⟩ := Option.map_eq_some_iff.mp hstep
          trivial
  | serving main h sent =>
      cases move with
      | main answer =>
          refine Complete.acts hs (fun line input hmain htyped => ?_) (mainStep_acts hstep)
          subst hmain
          have hnone : h.server.own.posted = [] := by
            simpa [readsSettled, htyped] using hsettled
          rcases hp.1.steered.toward with ⟨-, hrunning⟩ | ⟨hone, -⟩
          · exact hrunning
          · cases hnone.symm.trans hone
      | worker k turn answers =>
          obtain ⟨h', -, rfl⟩ := Option.map_eq_some_iff.mp hstep
          exact hs

end Complete

def Unaddressed : ServerProgram m n → Prop
  | .serving main _ sent => main = .starting ∧ sent = []
  | _ => True

section Unaddressed

variable {session : Session} {p p' : ServerProgram m n} {move : ServerMove n}

theorem Unaddressed.step (hparse : session.net.makeAddress session.multicastAddress = none)
    (hp : Unaddressed p) (hstep : p.step session move = some p') : Unaddressed p' := by
  cases move with
  | main answer =>
      cases p with
      | starting s =>
          simp only [ServerProgram.step] at hstep
          split at hstep
          · cases hstep
            exact ⟨rfl, rfl⟩
          · obtain ⟨s', -, rfl⟩ := Option.map_eq_some_iff.mp hstep
            trivial
      | serving main h sent =>
          obtain ⟨rfl, rfl⟩ := hp
          simp only [ServerProgram.step, ServerProgram.mainStep, hparse] at hstep
          cases hstep
          trivial
      | aborted => cases hstep
  | worker k turn answers =>
      cases p with
      | starting s =>
          obtain ⟨s', -, rfl⟩ := Option.map_eq_some_iff.mp hstep
          trivial
      | serving main h sent =>
          obtain ⟨h', -, rfl⟩ := Option.map_eq_some_iff.mp hstep
          exact hp
      | aborted => cases hstep

omit [NeZero m] in
private theorem unaddressed_sent (hp : Unaddressed p) : p.sent = [] := by
  cases p with
  | serving main h sent => exact hp.2
  | _ => rfl

end Unaddressed

section Runs

variable {session : Session} {address : Address}

/--
In every run, whatever the schedule and whatever fails, the program hands nothing but lines that
are typed before the first empty one to the socket, each at most once, in their order and with the
endpoint it was started with, and nothing at all if the address of that does not parse.  It hands
over all of them if no handler throws and every line is read when no start or stop handler of the
server is pending.
-/
theorem server_program_sends {ms : List (ServerMove 1)}
    {p : ServerProgram (serviceCount 1 false) 1}
    (hrun : Steps.run (ServerProgram.step session) serverProgram ms = some p) :
    (session.net.makeAddress session.multicastAddress = none → p.sent = []) ∧
    ∀ address, session.net.makeAddress session.multicastAddress = some address →
      p.sent.Sublist ((typed session.input).map (datagram (session.endpoint address))) ∧
      ((∀ t ∈ Steps.trace (ServerProgram.step session) serverProgram ms,
          t.move.isQuiet = true ∧ readsSettled t = true) →
        p.hasReturned = true →
        p.sent = (typed session.input).map (datagram (session.endpoint address))) := by
  constructor
  · intro hparse
    exact unaddressed_sent (Steps.states_invariant (f := ServerProgram.step session)
      (I := Unaddressed) (P := fun _ => True) (fun _ hpre hstep _ => hpre.step hparse hstep)
      (show Unaddressed serverProgram from trivial) (fun _ _ => trivial) p
      (Steps.run_mem_states hrun))
  intro address hparse
  have hsending : Sending session (session.endpoint address) p :=
    Steps.states_invariant (f := ServerProgram.step session)
      (I := Sending session (session.endpoint address)) (P := fun _ => True)
      (fun _ hpre hstep _ => hpre.step hparse hstep)
      (show Sending session (session.endpoint address) serverProgram from trivial)
      (fun _ _ => trivial) p (Steps.run_mem_states hrun)
  have hsublist :
      p.sent.Sublist ((typed session.input).map (datagram (session.endpoint address))) := by
    cases p with
    | serving main h sent => exact (List.sublist_append_left _ _).trans hsending.sublist
    | _ => exact List.nil_sublist _
  refine ⟨hsublist, fun hsettled hreturned => hsublist.eq_of_length ?_⟩
  obtain ⟨-, hcomplete⟩ : Going onlyThread p ∧ Complete session p :=
    Steps.states_invariant (f := ServerProgram.step session)
      (I := fun p => Going onlyThread p ∧ Complete session p)
      (P := fun t => t.move.isQuiet = true ∧ readsSettled t = true)
      (fun t hpre hstep hok => ⟨Going.step one_service one_thread Nat.zero_lt_one hparse hpre.1
        hok.1 hstep, hpre.2.step hpre.1 hok.2 hstep⟩)
      ⟨going_serverProgram, trivial⟩ hsettled p (Steps.run_mem_states hrun)
  cases p with
  | serving main h sent =>
      cases main with
      | returned accepted =>
          rw [List.length_map]
          exact hcomplete
      | _ => cases hreturned
  | _ => cases hreturned

theorem server_program_sends_greeting :
    ∃ p, Steps.run (ServerProgram.step greeting) serverProgram greetingRun = some p ∧
      p.hasReturned = true ∧
      p.sent = (typed greeting.input).map (datagram (greeting.endpoint (.v4 0xefff0001))) := by
  obtain ⟨p, hrun, hreturned⟩ : ∃ p, Steps.run (ServerProgram.step greeting) serverProgram
      greetingRun = some p ∧ p.hasReturned = true := ⟨_, rfl, rfl⟩
  have hsettled : (Steps.trace (ServerProgram.step greeting) serverProgram greetingRun).all
      (fun t => t.move.isQuiet && readsSettled t) = true := rfl
  refine ⟨p, hrun, hreturned, ((server_program_sends hrun).2 _ rfl).2 (fun t ht => ?_) hreturned⟩
  simpa using List.all_eq_true.mp hsettled t ht

end Runs

end AsioWrapper.Apps
