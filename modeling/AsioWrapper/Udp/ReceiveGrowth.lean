import AsioWrapper.Udp.ReceiveBuffer
import Mathlib.Tactic.Ring

/-!
# The growth of the receive buffer

A server sets its receive buffer to the size the socket reports when a session
begins.  From then on the only code that resizes it is the end of the receive
handler: after `onReceived` has returned it doubles a buffer that the datagram
filled, unless the limit forbids it.  The size is therefore the initial one
times two for each such completion.

A `std::vector` of bytes has fewer than `2 ^ 63` elements, so where no resize
fails the product computed by the handler does not wrap around.
-/

namespace AsioWrapper.Udp

open AsioWrapper.Asio
open AsioWrapper.Foundation
open AsioWrapper.Foundation.Program

variable {δ π κ η ν : Type}

/--
The move resumes the handler of an error-free receive from `onReceived`, the datagram is
as long as the buffer is now, and the limit allows for twice its length.
-/
def grows (S : PeerSystem δ π κ η ν) (c : PeerConfig δ π) (m : Move κ η ν) : Bool :=
  match S.segment c m with
  | some (some (.completion op completion), some (.onReceived _ size)) =>
      op.isReceive && size == completion.size && !completion.error.failed &&
        decide (Doubles c.world size)
  | _ => false

theorem grows_iff {S : PeerSystem δ π κ η ν} {c : PeerConfig δ π} {m : Move κ η ν} :
    grows S c m = true ↔ ∃ op completion endpoint,
      S.segment c m =
        some (some (.completion op completion), some (.onReceived endpoint completion.size)) ∧
      op.isReceive = true ∧ completion.error.failed = false ∧
      Doubles c.world completion.size := by
  unfold grows
  constructor
  · intro h
    split at h
    · rename_i op completion endpoint size hsegment
      simp only [Bool.and_eq_true, beq_iff_eq, Bool.not_eq_true', decide_eq_true_eq] at h
      obtain ⟨⟨⟨hreceive, rfl⟩, herror⟩, hdoubles⟩ := h
      exact ⟨op, completion, endpoint, hsegment, hreceive, herror, hdoubles⟩
    · cases h
  · rintro ⟨op, completion, endpoint, hsegment, hreceive, herror, hdoubles⟩
    simp [hsegment, hreceive, herror, hdoubles]

/-! ## Only error-free receives announce a datagram -/

def Announced (origin : Option (Origin π)) (point : Option Event) (_ : Peer δ)
    (_ : Stop Event ErrorCode) (_ : Peer δ) : Prop :=
  ∀ op completion endpoint size, origin = some (.completion op completion) →
    op.isReceive = true → point = some (.onReceived endpoint size) → size ≠ 0 →
    completion.error.failed = false

private theorem asyncReceiveHandler_announced {failed : ErrorCode → Proc δ Unit}
    (hcalls : ∀ ec point start s, (failed ec s).Calls Reports point start)
    (op : Operation) (completion : Completion) (s : Peer δ) :
    (asyncReceiveHandler failed op completion).Segments
      (Announced (some (.completion op completion : Origin π)))
      (fun _ point start state => Announced (some (.completion op completion : Origin π))
        point start .returned state) none s s := by
  have hnone (start : Peer δ) (stop : Stop Event ErrorCode) (finish : Peer δ) :
      Announced (some (.completion op completion : Origin π)) none start stop finish := by
    intro _ _ _ _ _ _ hpoint
    cases hpoint
  cases herror : completion.error.failed with
  | false =>
      have hfree (point : Option Event) (start : Peer δ) (stop : Stop Event ErrorCode)
          (finish : Peer δ) :
          Announced (some (.completion op completion : Origin π)) point start stop finish := by
        rintro _ _ _ _ ⟨⟩ _ _ _
        exact herror
      exact Outcome.segments_of_forall hfree (fun _ point start s' => hfree point start _ s') _ _ _
  | true =>
      simp only [asyncReceiveHandler, fire, segments_bind, segments_state, segments_ite,
        segments_pure, segments_update, herror, if_true]
      split
      · exact hnone _ _ _
      · refine Outcome.segments_of_calls (hcalls _ _ _ _) ?_ hnone fun _ => hnone _ _ _
        intro event start stop finish hreports _ _ _ _ _ _ hpoint hne
        cases hpoint
        exact absurd hreports hne

theorem Server.system_announced (net : Net) :
    (Server.system net).Obeys (fun _ => True) (fun _ => True) Announced := by
  refine obeys_of_receives (Server.completion_of_handler net) ?_
    fun op completion s => asyncReceiveHandler_announced Server.receiveFailed_calls op completion s
  rintro _ hother _ _ _ _ op completion _ _ rfl hreceive
  simp [Origin.isReceive, hreceive] at hother

/-! ## One step -/

section Changes

variable {P : Profile δ} {s s' : Peer δ}

private theorem quiet_receiveBuffer {scope : Scope}
    (hscope : ∀ size, scope.tail = some size → size = 0) (h : Quiet P scope s s') :
    s'.receiveBuffer = s.receiveBuffer ∧ s'.session = s.session := by
  cases h with
  | special h => exact ⟨P.inert_field h Peer.receiveBuffer, P.inert_field h Peer.session⟩
  | grow htail hfull hlimit =>
      obtain rfl := hscope _ htail
      exact ⟨hfull.symm, rfl⟩
  | _ => exact ⟨rfl, rfl⟩

private theorem effect_receiveBuffer {scope : Option Event → Scope} {point : Option Event}
    {stop : Stop Event ErrorCode} (hscope : ∀ size, (scope point).tail = some size → size = 0)
    (h : Effect P scope point s stop s') (hsession : s'.session = s.session) :
    s'.receiveBuffer = s.receiveBuffer := by
  obtain ⟨middle, hquiet, hends⟩ := h
  have hmiddle : middle.receiveBuffer = s.receiveBuffer ∧ middle.session = s.session := by
    clear hends
    induction hquiet with
    | refl => exact ⟨rfl, rfl⟩
    | tail _ hstep ih =>
        obtain ⟨hbuffer, hsame⟩ := quiet_receiveBuffer hscope hstep
        exact ⟨hbuffer.trans ih.1, hsame.trans ih.2⟩
  rw [← hmiddle.1]
  cases hends with
  | returned => rfl
  | waiting => rfl
  | called h =>
      cases h with
      | opened socket size hrun hclosed hopen hgeneration =>
          have : middle.session + 1 = s.session := hsession
          omega
      | closed hrun => split <;> rfl
      | _ => rfl
  | threw h => cases h <;> rfl

private theorem untouched_receiveBuffer (h : Untouched P s s') :
    s'.receiveBuffer = s.receiveBuffer := by
  rcases h with rfl | h | h
  · rfl
  · cases h <;> rfl
  · exact P.inert_field h Peer.receiveBuffer

end Changes

namespace Server

abbrev Handles : Option (Origin Handler) → Option Event → Server → Stop Event ErrorCode →
    Server → Prop :=
  Known profile fun origin point s stop s' =>
    TailExact origin point s stop s' ∧ Announced origin point s stop s'

abbrev ServerConfig : Type := PeerConfig Members Handler

variable {net : Net} {c c' : ServerConfig} {m : Move Call Pending Stimulus}

theorem step_handles (hc : ∀ f ∈ c.frames, f.Obeys Handles)
    (hstep : (system net).step c m = some c') :
    (∀ f ∈ c'.frames, f.Obeys Handles) ∧
      ((∃ origin point stop, (system net).segment c m = some (origin, point) ∧
          Executed Handles origin point stop c c') ∨
        (system net).segment c m = none ∧ (∀ f ∈ c'.frames, f ∈ c.frames) ∧
          c'.escaped = c.escaped ∧ Untouched profile c.world c'.world) :=
  (modelled net).step ((system_tail net).and (system_announced net)) hc hstep

theorem step_receiveBuffer (hc : ∀ f ∈ c.frames, f.Obeys Handles)
    (hstep : (system net).step c m = some c') (hsession : c'.world.session = c.world.session)
    (hpos : 0 < c.world.receiveBuffer) :
    c'.world.receiveBuffer =
      if grows (system net) c m then doubled c.world.receiveBuffer
      else c.world.receiveBuffer := by
  rcases (step_handles hc hstep).2 with ⟨origin, point, stop, hsegment, hexec⟩ |
    ⟨hsegment, -, -, hidle⟩
  · obtain ⟨heffect, htail, hannounced⟩ := hexec.world
    by_cases hsize : ∃ size, tailOf origin point = some size ∧ size ≠ 0
    · obtain ⟨size, hsize, hne⟩ := hsize
      have hexact := htail size hsize hne
      obtain ⟨op, completion, endpoint, rfl, rfl, hreceive, rfl⟩ := tailOf_eq_some hsize
      have herror := hannounced op completion endpoint _ rfl hreceive rfl hne
      by_cases hdoubles : Doubles c.world completion.size
      · rw [if_pos hdoubles] at hexact
        have hgrows : grows (system net) c m = true :=
          grows_iff.mpr ⟨op, completion, endpoint, hsegment, hreceive, herror, hdoubles⟩
        rw [if_pos hgrows, hexact, hdoubles.1]
        rfl
      · rw [if_neg hdoubles] at hexact
        have hstays : ¬grows (system net) c m = true := by
          intro hgrows
          obtain ⟨_, _, _, hsegment', _, _, hdoubles'⟩ := grows_iff.mp hgrows
          rw [hsegment] at hsegment'
          cases hsegment'
          exact hdoubles hdoubles'
        rw [if_neg hstays]
        exact hexact.1
    · have hstays : ¬grows (system net) c m = true := by
        intro hgrows
        obtain ⟨op, completion, endpoint, hsegment', hreceive, _, hdoubles⟩ := grows_iff.mp hgrows
        rw [hsegment] at hsegment'
        cases hsegment'
        refine hsize ⟨completion.size, by simp [tailOf, hreceive], ?_⟩
        rw [← hdoubles.1]
        omega
      rw [if_neg hstays]
      refine effect_receiveBuffer (fun size h => ?_) heffect hsession
      by_contra hne
      exact hsize ⟨size, h, hne⟩
  · have hstays : ¬grows (system net) c m = true := by
      simp [grows, hsegment]
    rw [if_neg hstays]
    exact untouched_receiveBuffer hidle

/-! ## The beginning of a session -/

def Sized (size : Nat) (point : Option Event) (_ : Server) (_ : Stop Event ErrorCode)
    (s' : Server) : Prop :=
  point = none → s'.running = true → s'.receiveBuffer = size

section Sized

variable {size : Nat}

theorem attempt_sized {A B : Server → Prop} (call : SocketCall) (ec : ErrorCode)
    {effect : Server → Server} (hrun : ∀ s, (effect s).running = s.running)
    (hB : ∀ s, A s → B (effect s)) :
    Triple (Sized size) (fun point _ s => point = none → s.running = false) A
      (attempt call ec effect) (fun _ => B) := by
  intro point start s hidle hA
  rw [attempt_segments]
  split
  · intro hpoint hrunning
    have : s.running = true := hrunning
    rw [hidle hpoint] at this
    cases this
  · exact ⟨fun hpoint => (hrun s).trans (hidle hpoint), hB s hA⟩

private theorem whenever_sized (c : Bool) (call : SocketCall) (ec : ErrorCode)
    {effect : Server → Server} (hrun : ∀ s, (effect s).running = s.running) :
    Triple (Sized size) (fun point _ s => point = none → s.running = false) (fun _ => True)
      (whenever c (attempt call ec effect)) (fun _ _ => True) :=
  Triple.ite (fun _ => attempt_sized call ec hrun fun _ h => h) fun _ => Triple.pure ()

private theorem openSession_sized (answers : SocketAnswers) (bindTo : Server → Endpoint)
    (announce : Event) :
    Triple (Sized answers.receiveBufferSize) (fun point _ s => point = none → s.running = false)
      (fun _ => True) (openSession answers bindTo announce) (fun _ _ => True) := by
  refine Triple.state fun s => Triple.weaken (A := fun _ => True) (B := fun _ _ => True) ?_
    (fun _ _ => trivial) fun _ _ h => h
  refine Triple.bind (B := fun _ _ => True)
    (attempt_sized _ _ (fun _ => rfl) fun _ h => h) fun _ => ?_
  refine Triple.bind (whenever_sized _ _ _ fun _ => rfl) fun _ => ?_
  refine Triple.bind (whenever_sized _ _ _ fun _ => rfl) fun _ => ?_
  refine Triple.bind (B := fun _ _ => True)
    (attempt_sized _ _ (fun _ => rfl) fun _ h => h) fun _ => ?_
  refine Triple.bind (attempt_sized (A := fun _ => True)
    (B := fun s => s.receiveBuffer = answers.receiveBufferSize) _ _ ?_ ?_) fun _ => ?_
  · exact fun _ => rfl
  · exact fun _ _ => rfl
  intro point start s hidle hsize
  rw [segments_bind, segments_update, fire, segments_bind, segments_update, segments_callback]
  exact ⟨fun _ _ => hsize, fun _ => ⟨fun h => (by cases h), trivial⟩⟩

end Sized

private theorem opened_receiveBuffer {index : Nat} {answers : SocketAnswers}
    (hstep : (system net).step c (.handler (.posted index answers)) = some c')
    (hidle : c.world.running = false) (hrun : c'.world.running = true) :
    c'.world.receiveBuffer = answers.receiveBufferSize := by
  obtain ⟨origin, program, hlookup, hworld⟩ := System.step_handler hstep
  rw [hworld] at hrun ⊢
  cases runnable_of_handler hlookup with
  | @posted _ handler _ hposted =>
      cases handler with
      | start =>
          have hsized : (do unpost index; postedHandler answers .start : Code Unit).Segments
              (Sized answers.receiveBufferSize)
              (fun _ point start s => Sized answers.receiveBufferSize point start .returned s)
              none c.world c.world := by
            rw [segments_bind, unpost, segments_update, postedHandler, startHandler,
              segments_bind, segments_state, segments_ite, if_neg (by simp [hidle])]
            refine segments_mono (fun _ _ _ _ h => h) ?_
              (openSession_sized answers _ _ none c.world _ (fun _ => hidle) trivial)
            intro _ point start s hs hpoint hrunning
            rw [hs.1 hpoint] at hrunning
            cases hrunning
          obtain ⟨stop, hstop⟩ := Outcome.segments_reached hsized
          exact hstop rfl hrun
      | stop =>
          have hstays : (do unpost index; postedHandler answers .stop : Code Unit) c.world =
              .ret () { c.world with
                own := { c.world.own with posted := c.world.own.posted.eraseIdx index } } := by
            simp [unpost, postedHandler, stopHandler, bind_apply, state, update, Outcome.bind,
              hidle]
            rfl
          rw [hstays] at hrun
          exact absurd (hidle.symm.trans hrun) Bool.false_ne_true

/-! ## A whole session -/

/-- The session goes on with the limit unchanged, and its buffer still fits into a vector:
no resize has failed. -/
structure InSession (opened : Server) (limit : Nat) (s : Server) : Prop where
  session : s.session = opened.session
  limit : s.receiveBufferLimit = limit
  fits : s.receiveBuffer < 2 ^ 63

theorem doubled_eq {size : Nat} (h : size < 2 ^ 63) : doubled size = 2 * size := by
  unfold doubled
  omega

theorem InSession.limit_of_grows {opened : Server} {limit : Nat}
    (h : InSession opened limit c.world) (hgrows : grows (system net) c m = true)
    (hlimit : 0 < limit) : 2 * c.world.receiveBuffer ≤ limit := by
  obtain ⟨op, completion, endpoint, -, -, -, hfull, hallowed⟩ := grows_iff.mp hgrows
  rw [h.limit, ← hfull, doubled_eq h.fits] at hallowed
  omega

structure Grown (initial limit : Nat) (c : ServerConfig) : Prop where
  frames : ∀ f ∈ c.frames, f.Obeys Handles
  positive : 0 < c.world.receiveBuffer
  bounded : 0 < limit → c.world.receiveBuffer ≤ max initial limit

theorem grown_step {opened : Server} {initial limit : Nat} (hgrown : Grown initial limit c)
    (hpre : InSession opened limit c.world) (hpost : InSession opened limit c'.world)
    (hstep : (system net).step c m = some c') :
    Grown initial limit c' ∧
      c'.world.receiveBuffer =
        if grows (system net) c m then 2 * c.world.receiveBuffer else c.world.receiveBuffer := by
  have hbuffer := step_receiveBuffer hgrown.frames hstep
    (hpost.session.trans hpre.session.symm) hgrown.positive
  rw [doubled_eq hpre.fits] at hbuffer
  refine ⟨⟨(step_handles hgrown.frames hstep).1, ?_, fun hlimit => ?_⟩, hbuffer⟩
  · have hpositive := hgrown.positive
    split at hbuffer <;> omega
  · have hbounded := hgrown.bounded hlimit
    split at hbuffer
    · have := hpre.limit_of_grows ‹_› hlimit
      omega
    · omega

def growths (net : Net) (ts : List (PeerTransition Members Handler Call Pending Stimulus)) :
    Nat :=
  ts.countP fun t => grows (system net) t.pre t.move

private theorem receiveBuffer_growths {opened : Server} {initial limit k : Nat}
    {ms : List (Move Call Pending Stimulus)} (hgrown : Grown initial limit c)
    (hsize : c.world.receiveBuffer = initial * 2 ^ k)
    (hsession : ∀ c' ∈ (system net).states c ms, InSession opened limit c'.world)
    (hrun : (system net).run c ms = some c') :
    c'.world.receiveBuffer = initial * 2 ^ (k + growths net ((system net).trace c ms)) := by
  refine (Steps.run_history (f := (system net).step)
    (J := fun ts c => Grown initial limit c ∧
      c.world.receiveBuffer = initial * 2 ^ (k + growths net ts))
    (P := fun t => InSession opened limit t.pre.world ∧ InSession opened limit t.post.world)
    ?_ ⟨hgrown, hsize⟩ hrun fun t ht => ?_).2
  · intro ts t hJ hstep hok
    obtain ⟨hnext, hbuffer⟩ := grown_step hJ.1 hok.1 hok.2 hstep
    refine ⟨hnext, ?_⟩
    rw [hbuffer, growths, List.countP_append, List.countP_singleton]
    split
    · rw [hJ.2, growths, ← Nat.add_assoc, Nat.pow_succ]
      ring
    · rw [hJ.2, growths, Nat.add_zero]
  · exact ⟨hsession _ (Steps.states_pre ht), hsession _ (Steps.states_post ht)⟩

private theorem run_handles {s₀ : Server} {ms : List (Move Call Pending Stimulus)}
    (hrun : (system net).run (.initial s₀) ms = some c) : ∀ f ∈ c.frames, f.Obeys Handles := by
  refine Steps.states_invariant (f := (system net).step)
    (I := fun c => ∀ f ∈ c.frames, f.Obeys Handles) (P := fun _ => True)
    (fun t hpre hstep _ => (step_handles hpre hstep).1)
    (by simp [Config.frames, Config.initial]) (fun _ _ => trivial) c (Steps.run_mem_states hrun)

/--
A session of a server whose limit does not change and in which no resize fails: the size
of the receive buffer is the initial one times two for each error-free completion that
filled the buffer and passed the check, it keeps to the limit, no step makes it smaller,
every other step leaves it as it is, and the product the handler computes does not wrap.
-/
theorem receive_buffer_growth (net : Net) (s₀ : Server)
    (before ms : List (Move Call Pending Stimulus)) (index : Nat) (answers : SocketAnswers)
    (limit : Nat) {c₀ c₁ : ServerConfig}
    (hbefore : (system net).run (.initial s₀) before = some c₀)
    (hidle : c₀.world.running = false)
    (hstart : (system net).step c₀ (.handler (.posted index answers)) = some c₁)
    (hrunning : c₁.world.running = true) (hsize : 0 < answers.receiveBufferSize)
    (hsession : ∀ c ∈ (system net).states c₁ ms, InSession c₁.world limit c.world) :
    (∀ c, (system net).run c₁ ms = some c →
      c.world.receiveBuffer =
        answers.receiveBufferSize * 2 ^ growths net ((system net).trace c₁ ms)) ∧
    (∀ c ∈ (system net).states c₁ ms, 0 < limit →
      c.world.receiveBuffer ≤ max answers.receiveBufferSize limit) ∧
    ∀ t ∈ (system net).trace c₁ ms,
      t.pre.world.receiveBuffer ≤ t.post.world.receiveBuffer ∧
      (grows (system net) t.pre t.move = false →
        t.post.world.receiveBuffer = t.pre.world.receiveBuffer) ∧
      doubled t.pre.world.receiveBuffer = 2 * t.pre.world.receiveBuffer := by
  have hopened := opened_receiveBuffer hstart hidle hrunning
  have hgrown : Grown answers.receiveBufferSize limit c₁ :=
    ⟨(step_handles (run_handles hbefore) hstart).1, by omega, fun _ => by omega⟩
  have hin (t) (ht : t ∈ (system net).trace c₁ ms) :
      InSession c₁.world limit t.pre.world ∧ InSession c₁.world limit t.post.world :=
    ⟨hsession _ (Steps.states_pre ht), hsession _ (Steps.states_post ht)⟩
  have hstep (t : PeerTransition Members Handler Call Pending Stimulus)
      (hpre : Grown answers.receiveBufferSize limit t.pre)
      (hmove : (system net).step t.pre t.move = some t.post)
      (hok : InSession c₁.world limit t.pre.world ∧ InSession c₁.world limit t.post.world) :
      Grown answers.receiveBufferSize limit t.post :=
    (grown_step hpre hok.1 hok.2 hmove).1
  refine ⟨fun c hrun => ?_, fun c hc => ?_, fun t ht => ?_⟩
  · have hcount := receiveBuffer_growths (k := 0) hgrown (by simpa using hopened) hsession hrun
    rwa [Nat.zero_add] at hcount
  · exact (Steps.states_invariant hstep hgrown hin c hc).bounded
  · obtain ⟨hpre, hmove, -⟩ := Steps.trace_invariant hstep hgrown hin t ht
    have hbuffer := (grown_step hpre (hin t ht).1 (hin t ht).2 hmove).2
    refine ⟨?_, fun hstays => ?_, doubled_eq (hin t ht).1.fits⟩
    · split at hbuffer <;> omega
    · rw [hbuffer, if_neg (by simp [hstays])]

theorem receive_buffer_growth_limited :
    ∃ c₀ c₁ c, (system .loopback).run (.initial (ofPort 5000 .ipv4))
        [.call (.setupReceiveBufferLimit 10) none, .call .start none] = some c₀ ∧
      (system .loopback).step c₀ (.handler (.posted 0 (.clean 4))) = some c₁ ∧
      (system .loopback).run c₁
        [.resume 2, .call .receiveAsync none, .environment (.complete 0 ⟨.success, 4, default⟩),
          .handler (.completion 0), .resume 4, .call .receiveAsync none,
          .environment (.complete 1 ⟨.success, 8, default⟩), .handler (.completion 1),
          .resume 6] = some c ∧
      c.world.log = [.onStarted, .onReceived default 4, .onReceived default 8,
        .onError .noBufferSpace] ∧
      c.world.receiveBuffer = 4 * 2 ^ 1 := by
  refine ⟨_, _, _, rfl, rfl, rfl, by decide, ?_⟩
  refine (receive_buffer_growth .loopback (ofPort 5000 .ipv4)
    [.call (.setupReceiveBufferLimit 10) none, .call .start none]
    [.resume 2, .call .receiveAsync none, .environment (.complete 0 ⟨.success, 4, default⟩),
      .handler (.completion 0), .resume 4, .call .receiveAsync none,
      .environment (.complete 1 ⟨.success, 8, default⟩), .handler (.completion 1), .resume 6]
    0 (.clean 4) 10 rfl rfl rfl rfl (by decide) ?_).1 _ rfl
  intro c hc
  have hchecked := List.all_eq_true (p := fun c : ServerConfig => c.world.session == 1 &&
    c.world.receiveBufferLimit == 10 && decide (c.world.receiveBuffer < 2 ^ 63)) |>.mp rfl c hc
  simp only [Bool.and_eq_true, beq_iff_eq, decide_eq_true_eq] at hchecked
  exact ⟨hchecked.1.1, hchecked.1.2, hchecked.2⟩

end Server

end AsioWrapper.Udp
