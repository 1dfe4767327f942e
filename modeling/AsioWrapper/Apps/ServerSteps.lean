import AsioWrapper.Apps.ServerProgram
import AsioWrapper.Service.Steering

/-!
# The steps of the server program

What a step of `main` does to the server and to the lines that are left, and
what a step of the thread of the service does.  The server is always on its way
to the state `main` wants it in, and has at most one handler posted.
-/

namespace AsioWrapper.Apps

open AsioWrapper.Asio
open AsioWrapper.Foundation
open AsioWrapper.Foundation.Program
open AsioWrapper.Service
open AsioWrapper.Service.Hosted
open AsioWrapper.Udp

variable {m n : Nat}

/-! ## The steps of `main` -/

def typed (input : List Line) : List Line :=
  (input.takeWhile fun line => line ≠ []).filter fun line => line ≠ ascii "!"

theorem typed_cons {line : Line} {input : List Line} (hline : line ≠ []) :
    typed (line :: input) =
      if line = ascii "!" then typed input else line :: typed input := by
  rw [typed, List.takeWhile_cons_of_pos (by simpa using hline), List.filter_cons]
  split
  · rename_i hother
    rw [if_neg (by simpa using hother)]
    rfl
  · rename_i hbang
    rw [if_pos (by simpa using hbang)]
    rfl

def directed (h : Hosted m n) (endpoint : Asio.Endpoint) : Hosted m n :=
  { h with
    server := { h.server with own := { h.server.own with multicastEndpoint := endpoint } } }

def Session.endpoint (session : Session) (address : Address) : Asio.Endpoint :=
  ⟨address, toPort session.multicastPort⟩

variable [NeZero m]

inductive Acts (session : Session) (answer : Completion) (h : Hosted m n)
    (sent : List Datagram) : Main → ServerProgram m n → Prop where
  | abort (hparse : session.net.makeAddress session.multicastAddress = none) :
      Acts session answer h sent .starting .aborted
  | start {address : Address}
      (hparse : session.net.makeAddress session.multicastAddress = some address) :
      Acts session answer h sent .starting (.serving (.reading session.input)
        ((directed h (session.endpoint address)).invoke .start) sent)
  | finish {input : List Line} (hinput : typed input = []) :
      Acts session answer h sent (.reading input) (.serving .stopping h sent)
  | restart {input : List Line} (hrunning : h.server.running = true) :
      Acts session answer h sent (.reading (ascii "!" :: input))
        (.serving (.restarting input) (h.invoke .stop) sent)
  | restartRefused {input : List Line} (hrunning : h.server.running = false) :
      Acts session answer h sent (.reading (ascii "!" :: input))
        (.serving (.reading input) h sent)
  | multicast {line : Line} {input : List Line} (hline : line ≠ []) (hbang : line ≠ ascii "!") :
      Acts session answer h sent (.reading (line :: input))
        (.serving (.reading input) (multicast h (message line) answer)
          (sent ++ transmitted h (message line)))
  | restarted {input : List Line} (hrunning : h.server.running = false) :
      Acts session answer h sent (.restarting input)
        (.serving (.reading input) (h.invoke .start) sent)
  | stop : Acts session answer h sent .stopping
      (.serving (.stopped h.server.running) (h.invoke .stop) sent)
  | stopService {accepted : Bool} {h' : Hosted m n}
      (hstep : h.step (.service (.call .stop) (.clean 0)) = some h') :
      Acts session answer h sent (.stopped accepted) (.serving (.joining accepted) h' sent)
  | join {accepted : Bool} {h' : Hosted m n}
      (hstep : h.step (.service .caller (.clean 0)) = some h') :
      Acts session answer h sent (.joining accepted) (.serving (.joining accepted) h' sent)
  | finished {accepted : Bool} {returned : Option Bool}
      (hidle : h.service.caller = .idle returned) :
      Acts session answer h sent (.joining accepted) (.serving (.returned accepted) h sent)

section Acts

variable {session : Session} {answer : Completion} {h : Hosted m n} {sent : List Datagram}
  {main : Main} {p p' : ServerProgram m n}

theorem mainStep_acts (hstep : ServerProgram.mainStep session answer h sent main = some p') :
    Acts session answer h sent main p' := by
  cases main with
  | starting =>
      simp only [ServerProgram.mainStep] at hstep
      split at hstep
      · cases hstep
        exact .abort ‹_›
      · cases hstep
        exact .start ‹_›
  | reading input =>
      cases input with
      | nil =>
          cases hstep
          exact .finish rfl
      | cons line input =>
          simp only [ServerProgram.mainStep] at hstep
          split at hstep
          · rename_i hline
            cases hstep
            exact .finish (by rw [hline]; rfl)
          · rename_i hline
            split at hstep
            · rename_i hbang
              subst hbang
              split at hstep
              · cases hstep
                exact .restart ‹_›
              · rename_i hstopped
                cases hstep
                have hrefused : h.invoke .stop = h :=
                  invoke_refused (by simp [acceptable, hstopped])
                rw [hrefused]
                exact .restartRefused (Bool.eq_false_iff.mpr hstopped)
            · cases hstep
              exact .multicast hline ‹_›
  | restarting input =>
      simp only [ServerProgram.mainStep] at hstep
      split at hstep
      · cases hstep
      · cases hstep
        exact .restarted (Bool.eq_false_iff.mpr ‹_›)
  | stopping =>
      cases hstep
      exact .stop
  | stopped accepted =>
      obtain ⟨h', hh', rfl⟩ := Option.map_eq_some_iff.mp hstep
      exact .stopService hh'
  | joining accepted =>
      simp only [ServerProgram.mainStep] at hstep
      split at hstep
      · cases hstep
        exact .finished ‹_›
      · obtain ⟨h', hh', rfl⟩ := Option.map_eq_some_iff.mp hstep
        exact .join hh'
  | returned accepted => cases hstep

end Acts

/-! ## Sending -/

structure Quietly (s s' : Server) : Prop where
  own : s'.own = s.own
  running : s'.running = s.running
  socket : s'.socket = s.socket
  log : ∀ event : Event, event.isLifecycle = true → s'.log.count event = s.log.count event

section Quietly

variable {s s' : Server}

theorem Quietly.logged (h : Quietly s s') {event : Event} (hevent : event.isLifecycle = false) :
    Quietly s (s'.logged event) where
  own := h.own
  running := h.running
  socket := h.socket
  log other hother := by
    change (s'.log ++ [event]).count other = _
    rw [List.count_append, h.log other hother, List.count_singleton, if_neg, Nat.add_zero]
    intro hsame
    rw [beq_iff_eq] at hsame
    rw [hsame, hother] at hevent
    cases hevent

theorem Quietly.report (h : Quietly s s') (answer : Completion) :
    Quietly s ((do
      if answer.error.failed then Udp.sendError answer.error
      return answer.size : Server.Code Nat) s').final := by
  by_cases hfailed : answer.error.failed = true
  · simp only [hfailed, if_true]
    rw [bind_apply, Udp.sendError]
    split
    · exact h
    · exact h.logged rfl
  · simp only [hfailed]
    exact h

theorem send_quietly (s : Server) (endpoint : Asio.Endpoint) (buffer : Buffer)
    (answer : Completion) : Quietly s (Server.send endpoint buffer answer s).final := by
  have hsame : Quietly s s := ⟨rfl, rfl, rfl, fun _ _ => rfl⟩
  have hcounted : Quietly s (s.countSent answer.size) := ⟨rfl, rfl, rfl, fun _ _ => rfl⟩
  change Quietly s ((if !s.running then pure 0 else _ : Server.Code Nat) s).final
  split
  · exact hsame
  · change Quietly s ((if buffer.size = 0 then pure 0 else _ : Server.Code Nat) s).final
    split
    · exact hsame
    · change Quietly s ((if buffer.isNull then pure 0 else _ : Server.Code Nat) s).final
      split
      · exact hsame
      · change Quietly s ((if answer.size > 0 then _ else _ : Server.Code Nat) s).final
        split
        · have hsent : Quietly s
              ((s.countSent answer.size).logged (.onSent endpoint answer.size)) :=
            hcounted.logged rfl
          exact hsent.report answer
        · exact hsame.report answer

end Quietly

section Endpoint

variable {h h' : Hosted m n} {move : Service.Move m n} {answers : SocketAnswers}

theorem step_multicastEndpoint (hstep : h.step (.service move answers) = some h') :
    h'.server.own.multicastEndpoint = h.server.own.multicastEndpoint := by
  obtain ⟨s, -, hattend⟩ := Option.bind_eq_some_iff.mp hstep
  cases attend_attends hattend with
  | @performed k turn handler hjob =>
      have hown : (Server.postedHandler answers handler (unposted handler h.server)).final.own =
          (unposted handler h.server).own := postedHandler_own
      have hendpoint := congrArg Server.Members.multicastEndpoint hown
      exact hendpoint
  | _ => rfl

private theorem invoke_multicastEndpoint (handler : Server.Handler) :
    (h.invoke handler).server.own.multicastEndpoint = h.server.own.multicastEndpoint := by
  have hstep : h.step (.call handler) = some (h.invoke handler) := rfl
  rcases step_call hstep with hsame | ⟨-, hposted⟩
  · rw [hsame]
  · rw [hposted]
    rfl

end Endpoint

def datagram (endpoint : Asio.Endpoint) (line : Line) : Datagram := ⟨endpoint, message line⟩

def Main.remaining (session : Session) : Main → List Line
  | .starting => session.input
  | .reading input | .restarting input => input
  | _ => []

section Sending

variable {session : Session} {endpoint : Asio.Endpoint} {h h' : Hosted m n} {main : Main}
  {sent : List Datagram} {answer : Completion} {p p' : ServerProgram m n}

/-- What has been sent and what has not been looked at are among the lines, in their order. -/
structure Sends (session : Session) (endpoint : Asio.Endpoint) (main : Main) (h : Hosted m n)
    (sent : List Datagram) : Prop where
  directed : main ≠ .starting → h.server.own.multicastEndpoint = endpoint
  sublist : (sent ++ (typed (main.remaining session)).map (datagram endpoint)).Sublist
    ((typed session.input).map (datagram endpoint))

def Sending (session : Session) (endpoint : Asio.Endpoint) : ServerProgram m n → Prop
  | .starting _ => True
  | .serving main h sent => Sends session endpoint main h sent
  | .aborted => True

omit [NeZero m] in
/-- `Multicast` hands the data to the socket exactly if what it does depends on the answer of
the socket. -/
theorem transmitted_eq_nil_iff (h : Hosted m n) (data : List UInt8) :
    transmitted h data = [] ↔ ∀ answer,
      Server.send h.server.own.multicastEndpoint (.bytes data) answer h.server =
        .ret 0 h.server := by
  rw [transmitted]
  constructor
  · intro hnone answer
    change (if !h.server.running then pure 0 else _ : Server.Code Nat) h.server = _
    split
    · rfl
    · rename_i hrunning
      have hset : h.server.running = true := by simpa using hrunning
      have hempty : data = [] := by simpa [hset] using hnone
      rw [hempty]
      rfl
  · intro hsame
    by_contra hsome
    obtain ⟨hrunning, hdata⟩ : h.server.running = true ∧ data ≠ [] := by simpa using hsome
    have hanswered := hsame ⟨.success, 1, default⟩
    change (if !h.server.running then pure 0 else _ : Server.Code Nat) h.server = _ at hanswered
    rw [if_neg (by simp [hrunning])] at hanswered
    change (if data.length = 0 then pure 0 else _ : Server.Code Nat) h.server = _ at hanswered
    rw [if_neg (by simpa using hdata)] at hanswered
    cases hanswered

omit [NeZero m] in
theorem transmitted_message (h : Hosted m n) (line : Line) :
    transmitted h (message line) =
      if h.server.running then [datagram h.server.own.multicastEndpoint line] else [] := by
  have hmessage : (message line).isEmpty = false := rfl
  rw [transmitted, hmessage, Bool.not_false, Bool.and_true]
  rfl

theorem typed_bang (input : List Line) : typed (ascii "!" :: input) = typed input := by
  rw [typed_cons (by decide), if_pos rfl]

theorem Sends.acts {address : Address}
    (hparse : session.net.makeAddress session.multicastAddress = some address)
    (hs : Sends session (session.endpoint address) main h sent)
    (hacts : Acts session answer h sent main p') :
    Sending session (session.endpoint address) p' := by
  have hsublist := hs.sublist
  have hendpoint := hs.directed
  cases hacts with
  | abort => trivial
  | start hparse' =>
      cases hparse.symm.trans hparse'
      exact ⟨fun _ => invoke_multicastEndpoint _, hsublist⟩
  | finish hinput =>
      simp only [Main.remaining, hinput] at hsublist
      exact ⟨fun _ => hendpoint (by simp), hsublist⟩
  | restart hrunning =>
      simp only [Main.remaining, typed_bang] at hsublist
      exact ⟨fun _ => (invoke_multicastEndpoint _).trans (hendpoint (by simp)), hsublist⟩
  | restartRefused hrunning =>
      simp only [Main.remaining, typed_bang] at hsublist
      exact ⟨fun _ => hendpoint (by simp), hsublist⟩
  | @multicast line input hline hbang =>
      simp only [Main.remaining, typed_cons hline, if_neg hbang, List.map_cons] at hsublist
      refine ⟨fun _ => ?_, ?_⟩
      · exact (congrArg Server.Members.multicastEndpoint (send_quietly _ _ _ _).own).trans
          (hendpoint (by simp))
      · rw [transmitted_message, hendpoint (by simp), List.append_assoc]
        split
        · exact hsublist
        · refine List.Sublist.trans ?_ hsublist
          exact (List.append_sublist_append_left sent).mpr (List.sublist_cons_self ..)
  | restarted hrunning =>
      exact ⟨fun _ => (invoke_multicastEndpoint _).trans (hendpoint (by simp)), hsublist⟩
  | stop => exact ⟨fun _ => (invoke_multicastEndpoint _).trans (hendpoint (by simp)), hsublist⟩
  | stopService hstep =>
      exact ⟨fun _ => (step_multicastEndpoint hstep).trans (hendpoint (by simp)), hsublist⟩
  | join hstep =>
      exact ⟨fun _ => (step_multicastEndpoint hstep).trans (hendpoint (by simp)), hsublist⟩
  | finished hidle => exact ⟨fun _ => hendpoint (by simp), hsublist⟩

theorem Sending.step {address : Address} {move : ServerMove n}
    (hparse : session.net.makeAddress session.multicastAddress = some address)
    (hs : Sending session (session.endpoint address) p) (hstep : p.step session move = some p') :
    Sending session (session.endpoint address) p' := by
  cases move with
  | main answer =>
      cases p with
      | starting s =>
          simp only [ServerProgram.step] at hstep
          split at hstep
          · cases hstep
            exact ⟨fun hmain => absurd rfl hmain, List.Sublist.refl _⟩
          · obtain ⟨s', -, rfl⟩ := Option.map_eq_some_iff.mp hstep
            trivial
      | serving main h sent => exact Sends.acts hparse hs (mainStep_acts hstep)
      | aborted => cases hstep
  | worker i turn answers =>
      cases p with
      | starting s =>
          obtain ⟨s', -, rfl⟩ := Option.map_eq_some_iff.mp hstep
          trivial
      | serving main h sent =>
          obtain ⟨h', hh', rfl⟩ := Option.map_eq_some_iff.mp hstep
          exact ⟨fun hmain => (step_multicastEndpoint hh').trans (hs.directed hmain), hs.sublist⟩
      | aborted => cases hstep

end Sending

/-! ## Conducting -/

def Main.goal : Main → Bool
  | .starting | .restarting _ => false
  | .reading _ | .stopping => true
  | .stopped accepted | .joining accepted | .returned accepted => !accepted

def Main.Keeps (h : Hosted m n) : Main → Prop
  | .starting => h.Idle ∧ h.server.running = false
  | .joining _ => h.service.caller.opening = false ∧
      ∀ returned, h.service.caller = .idle returned → h.service.started = false
  | .returned _ => (∃ returned, h.service.caller = .idle returned) ∧ h.service.started = false
  | _ => h.Idle

/-- The invariant of a program whose handlers do not throw. -/
def Going (i : Fin n) : ServerProgram m n → Prop
  | .starting s => Responsive s ∧ Plain s ∧ (OwnStrand s ∧ s.strandRequired = false) ∧
      (s.caller.opening = true ∨ (∃ returned, s.caller = .idle returned) ∧ s.started = true)
  | .serving main h _ => Conducted i main.goal h ∧ main.Keeps h
  | .aborted => False

def ServerMove.isQuiet : ServerMove n → Bool
  | .worker _ (.throw _) _ => false
  | _ => true

section Going

variable {session : Session} {address : Address} {answer : Completion} {i : Fin n}
  {goal : Bool} {h h' : Hosted m n} {main : Main} {sent : List Datagram} {s s' : State m n}
  {p p' : ServerProgram m n}

private theorem keeps_works (hc : Conducted i main.goal h) (hkeeps : main.Keeps h)
    (hsole : ∀ k : Fin n, State.home k = (0 : Fin m) ↔ k = i) {k : Fin n} {turn : Turn}
    {answers : SocketAnswers} (hstep : h.step (.service (.worker k turn) answers) = some h')
    (hworks : Works h.service k h'.service) : main.Keeps h' := by
  have ho := hc.regular.orderly
  cases main with
  | starting =>
      refine ⟨hkeeps.1.works ho hworks, ?_⟩
      rw [hc.settled hkeeps.2 hsole hstep]
      exact hkeeps.2
  | joining accepted =>
      refine ⟨by rw [hworks.caller_eq]; exact hkeeps.1, fun returned hidle => ?_⟩
      rw [hworks.caller_eq] at hidle
      rw [started_of_idle ho ⟨returned, hidle⟩ hworks]
      exact hkeeps.2 returned hidle
  | returned accepted =>
      refine ⟨hworks.caller_eq ▸ hkeeps.1, ?_⟩
      rw [started_of_idle ho hkeeps.1 hworks]
      exact hkeeps.2
  | _ => exact Idle.works hkeeps ho hworks

theorem Going.acts (hsole : ∀ k : Fin n, State.home k = (0 : Fin m) ↔ k = i) (hn : 0 < n)
    (hparse : session.net.makeAddress session.multicastAddress = some address)
    (hc : Conducted i main.goal h) (hkeeps : main.Keeps h)
    (hacts : Acts session answer h sent main p') : Going i p' := by
  cases hacts with
  | abort hparse' => cases hparse.symm.trans hparse'
  | @start address' hparse' =>
      obtain ⟨hidle, hstopped⟩ := hkeeps
      have hdirected : Conducted i false (directed h (session.endpoint address')) :=
        hc.server rfl rfl ⟨hc.steered.toward, hc.steered.socket, hc.steered.log⟩
      have hstart : Server.Handler.start = acceptable h.server.running := by rw [hstopped]; rfl
      rw [hstart]
      have hready : (directed h (session.endpoint address')).Idle := ⟨hidle.caller, hidle.started⟩
      exact ⟨hdirected.invoke hsole hn hready hstopped, hready.invoke _⟩
  | finish hinput => exact ⟨hc, hkeeps⟩
  | restart hrunning =>
      have hstop : Server.Handler.stop = acceptable h.server.running := by rw [hrunning]; rfl
      rw [hstop]
      exact ⟨hc.invoke hsole hn hkeeps hrunning, Idle.invoke hkeeps _⟩
  | restartRefused hrunning => exact ⟨hc, hkeeps⟩
  | @multicast line input hline hbang =>
      have hsent := send_quietly h.server h.server.own.multicastEndpoint (.bytes (message line))
        answer
      have hidle : h.Idle := hkeeps
      refine ⟨hc.server (congrArg Server.Members.posted hsent.own) hsent.running ?_,
        hidle.caller, hidle.started⟩
      obtain ⟨htoward, hsocket, hlog⟩ := hc.steered
      refine ⟨?_, ?_, ?_⟩
      · rw [hsent.own, hsent.running]
        exact htoward
      · rw [hsent.socket, hsent.running]
        exact hsocket
      · rw [hsent.log .onStarted rfl, hsent.log .onStopped rfl, hsent.running]
        exact hlog
  | restarted hrunning =>
      have hstart : Server.Handler.start = acceptable h.server.running := by rw [hrunning]; rfl
      rw [hstart]
      exact ⟨hc.invoke hsole hn hkeeps hrunning, Idle.invoke hkeeps _⟩
  | stop =>
      refine ⟨?_, Idle.invoke hkeeps _⟩
      cases hrunning : h.server.running with
      | true =>
          have hnext := hc.invoke hsole hn hkeeps hrunning
          rw [hrunning] at hnext
          exact hnext
      | false =>
          rw [invoke_refused (by simp [acceptable, hrunning])]
          exact hc
  | stopService hstep =>
      obtain ⟨hs, hnext⟩ := hc.service_step hsole hn rfl hstep
      have hcaller := congrArg State.caller (step_stop hs)
      refine ⟨hnext, ?_, fun returned hidle => ?_⟩
      · rw [hcaller]
        rfl
      · cases hcaller.symm.trans hidle
  | join hstep =>
      obtain ⟨hs, hnext⟩ := hc.service_step hsole hn rfl hstep
      exact ⟨hnext, hc.plain.closes (callerStep_calls hs) hkeeps.1⟩
  | @finished accepted returned hidle => exact ⟨hc, ⟨returned, hidle⟩, hkeeps.2 returned hidle⟩

omit [NeZero m] in
theorem ServerMove.isOwn_of_isQuiet {k : Fin n} {turn : Turn} {answers : SocketAnswers}
    (hquiet : (ServerMove.worker k turn answers).isQuiet = true) :
    (Service.Move.worker k turn : Service.Move m n).isOwn = true := by
  cases turn with
  | throw failure => cases hquiet
  | _ => rfl

theorem Going.step (hone : ∀ j : Fin m, j = 0)
    (hsole : ∀ k : Fin n, State.home k = (0 : Fin m) ↔ k = i) (hn : 0 < n)
    (hparse : session.net.makeAddress session.multicastAddress = some address)
    {move : ServerMove n} (hp : Going i p) (hquiet : move.isQuiet = true)
    (hstep : p.step session move = some p') : Going i p' := by
  cases p with
  | aborted => cases hp
  | starting s =>
      obtain ⟨hs, hplain, ⟨hownStrand, hrequired⟩, hcaller⟩ := hp
      cases move with
      | main answer =>
          simp only [ServerProgram.step] at hstep
          split at hstep
          · rename_i returned hidle
            cases hstep
            have hstarted : s.started = true := by
              rcases hcaller with hopening | ⟨-, hstarted⟩
              · rw [hidle] at hopening
                cases hopening
              · exact hstarted
            exact ⟨conducted_construct hn hs hplain hownStrand hrequired (hone _) rfl
              ⟨Or.inl ⟨rfl, rfl⟩, rfl, rfl⟩, ⟨⟨returned, hidle⟩, hstarted⟩, rfl⟩
          · rename_i hbusy
            obtain ⟨s', hs', rfl⟩ := Option.map_eq_some_iff.mp hstep
            have hopening : s.caller.opening = true := by
              rcases hcaller with hopening | ⟨⟨returned, hidle⟩, -⟩
              · exact hopening
              · exact absurd hidle (hbusy returned)
            exact ⟨hs.step hn rfl hs', hplain.calls (callerStep_calls hs'),
              ⟨hownStrand.step hs.served.orderly hs', (step_strandRequired hs').trans hrequired⟩,
              (callerStep_calls hs').opens hopening⟩
      | worker k turn answers =>
          obtain ⟨s', hs', rfl⟩ := Option.map_eq_some_iff.mp hstep
          have hown := ServerMove.isOwn_of_isQuiet (m := m) hquiet
          have hworks := workerStep_works hs'
          refine ⟨hs.step hn hown hs', hplain.works hs.served.orderly hworks,
            ⟨hownStrand.step hs.served.orderly hs', hworks.strandRequired_eq.trans hrequired⟩, ?_⟩
          rcases hcaller with hopening | ⟨hidle, hstarted⟩
          · exact Or.inl (hworks.caller_eq ▸ hopening)
          · exact Or.inr ⟨hworks.caller_eq ▸ hidle,
              (started_of_idle hs.served.orderly hidle hworks).trans hstarted⟩
  | serving main h sent =>
      obtain ⟨hc, hkeeps⟩ := hp
      cases move with
      | main answer => exact Going.acts hsole hn hparse hc hkeeps (mainStep_acts hstep)
      | worker k turn answers =>
          obtain ⟨h', hh', rfl⟩ := Option.map_eq_some_iff.mp hstep
          have hown := ServerMove.isOwn_of_isQuiet (m := m) hquiet
          obtain ⟨hs, hnext⟩ := hc.service_step hsole hn (Service.Move.isTame_of_isOwn hown) hh'
          exact ⟨hnext, keeps_works hc hkeeps hsole hh' (workerStep_works hs)⟩

end Going

end AsioWrapper.Apps
