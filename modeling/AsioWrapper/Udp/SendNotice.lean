import AsioWrapper.Foundation.Attribution
import AsioWrapper.Udp.Watch

/-!
# The endpoint `onSent` is called with

`SendAsync` reports its datagram through `onSent` when it is rejected, when its
operation fails and when it succeeds.  All three read the endpoint from
`_send_endpoint`, which holds that of the `SendAsync` accepted last: a rejected
call has not written it, and the callback before a failure is reported may have
started another send.

The callbacks are attributed to the `SendAsync` they are invoked for, by its
endpoint: those of the call itself and those of the handler of its operation.
-/

namespace AsioWrapper.Udp

open AsioWrapper.Asio
open AsioWrapper.Foundation
open AsioWrapper.Foundation.Program

namespace Server

def callCause (k : Call) (s : Server) : Option Endpoint :=
  match k with
  | .sendAsync endpoint _ => some (endpoint.getD s.own.multicastEndpoint)
  | _ => none

def handlerCause : Origin Handler → Option Endpoint
  | .completion op _ =>
      match op.purpose with
      | .sendAsync _ endpoint => some endpoint
      | _ => none
  | _ => none

def attributed (net : Net) :
    System Server (Event × Option Endpoint) ErrorCode (Origin Handler) Call Pending Stimulus :=
  (system net).attributed callCause handlerCause

abbrev AttributedConfig : Type := Config Server (Event × Option Endpoint) ErrorCode (Origin Handler)

/-- Every `onSent` in progress that a `SendAsync` has caused names the endpoint of that call. -/
def NamesCause (c : AttributedConfig) : Prop :=
  ∀ f ∈ c.frames, ∀ endpoint sent cause,
    f.event = some (.onSent endpoint sent, some cause) → endpoint = cause

/-! ## The steps that notify -/

def silent (ec : ErrorCode) : Bool :=
  decide (ec = .connectionAborted ∨ ec = .connectionRefused ∨ ec = .connectionReset ∨
    ec = .eof ∨ ec = .operationAborted)

private theorem sendError_silent {ec : ErrorCode} (h : silent ec = true) :
    (sendError ec : Code Unit) = pure () :=
  if_pos (of_decide_eq_true h)

private theorem sendError_reported {ec : ErrorCode} (h : silent ec = false) :
    (sendError ec : Code Unit) = fire (.onError ec) :=
  if_neg (of_decide_eq_false h)

def notifiesAtOnce (s : Server) (completion : Completion) : Bool :=
  s.running &&
    if completion.error.failed then silent completion.error else decide (0 < completion.size)

/--
The `SendAsync` whose `onSent` the code invokes next: the handler of its operation does so,
and so does the code of the call or of the handler that is resumed from `onError`.
-/
def notifiedBy (origin : Option (Origin Handler)) (point : Option (Event × Option Endpoint))
    (s : Server) : Option Endpoint :=
  match origin, point with
  | some (.completion op completion), none =>
      if notifiesAtOnce s completion then handlerCause (.completion op completion) else none
  | _, some (.onError _, cause) => cause
  | _, _ => none

def notified (net : Net) (c : AttributedConfig) (m : Move Call Pending Stimulus) :
    Option Endpoint :=
  match (attributed net).segment c m with
  | some (origin, point) => notifiedBy origin point c.world
  | none => none

def Notice (origin : Option (Origin Handler)) (point : Option (Event × Option Endpoint))
    (s : Server) (stop : Stop (Event × Option Endpoint) ErrorCode) (s' : Server) : Prop :=
  s'.sendEndpoint = s.sendEndpoint ∧
    match notifiedBy origin point s with
    | some cause => ∃ sent, stop = .called (.onSent s.sendEndpoint sent, some cause)
    | none => ∀ endpoint sent cause, stop ≠ .called (.onSent endpoint sent, some cause)

/-! ## Code that no `SendAsync` causes -/

private theorem notifiedBy_none {origin : Option (Origin Handler)}
    (h : ∀ o, origin = some o → handlerCause o = none) (point : Option Event) (s : Server) :
    notifiedBy origin (point.map fun event => (event, none)) s = none := by
  unfold notifiedBy
  split
  · rename_i op completion _
    rw [h _ rfl]
    split <;> rfl
  · rename_i hpoint
    obtain ⟨event, -, heq⟩ := Option.map_eq_some_iff.mp hpoint
    cases heq
    rfl
  · rfl

theorem watches_sendEndpoint {origin : Option (Origin Handler)}
    (h : ∀ o, origin = some o → handlerCause o = none) :
    Watches true Aside (Same fun s => s.sendEndpoint) (Attributes Notice origin none) := by
  have hkept {point : Option Event} {s s' : Server} (stop : Stop Event ErrorCode)
      (hs : s'.sendEndpoint = s.sendEndpoint) : Attributes Notice origin none point s stop s' := by
    refine ⟨hs, ?_⟩
    rw [notifiedBy_none h]
    intro endpoint sent cause hstop
    cases stop <;> cases hstop
  exact Watches.of_view (fun h => by cases h <;> rfl) (fun h => by cases h <;> rfl) hkept
    (fun event hs _ => hkept (.called event) hs) fun event hs _ => hkept (.called event) hs

def isSendAsync : Call → Bool
  | .sendAsync _ _ => true
  | _ => false

private theorem call_notice (net : Net) {k : Call} (hk : isSendAsync k = false) :
    (call net k).Obeys (Attributes Notice none none) := by
  have hT : Watches true Aside (Same fun s => s.sendEndpoint) (Attributes Notice none none) :=
    watches_sendEndpoint fun _ h => by cases h
  have hstart (endpoint : Endpoint) :
      Viewed (Same fun s => s.sendEndpoint) (Attributes Notice none none)
        (startMulticast endpoint) :=
    Triple.bind (Viewed.update fun _ _ _ h => h) fun _ => start_viewed hT
  have hwait (s : Server) : Same (fun s => s.sendEndpoint) none s s := rfl
  cases hplain : k.isPlain with
  | true => exact hT.obeys hwait (call_viewed hT hwait net hplain)
  | false =>
      cases k with
      | startMulticastAt address port =>
          exact hT.obeys hwait ((hT.makeAddress net address).bind fun _ => hstart _).discard
      | startMulticast endpoint => exact hT.obeys hwait (hstart endpoint).discard
      | sendAsync endpoint buffer => cases hk
      | _ => cases hplain

private theorem handlerCause_of_not_send {op : Operation} (h : op.isSend = false)
    (completion : Completion) : handlerCause (.completion op completion) = none := by
  cases hpurpose : op.purpose with
  | sendAsync data endpoint => simp [Operation.isSend, hpurpose] at h
  | _ => simp [handlerCause, hpurpose]

/-! ## Code that a `SendAsync` causes -/

section Caused

variable {origin : Option (Origin Handler)} {endpoint : Endpoint}

private theorem notifiedBy_onSent (origin : Option (Origin Handler)) (named : Endpoint) (sent : Nat)
    (cause : Option Endpoint) (s : Server) :
    notifiedBy origin (some (.onSent named sent, cause)) s = none := by
  cases origin with
  | none => rfl
  | some o => cases o <;> rfl

theorem notifiedBy_onError (origin : Option (Origin Handler)) (ec : ErrorCode)
    (cause : Option Endpoint) (s : Server) :
    notifiedBy origin (some (.onError ec, cause)) s = cause := by
  cases origin with
  | none => rfl
  | some o => cases o <;> rfl

private theorem notice_onSent {point : Option Event} {s s' : Server} {sent : Nat}
    (hs : s'.sendEndpoint = s.sendEndpoint)
    (h : notifiedBy origin (point.map fun event => (event, some endpoint)) s = some endpoint) :
    Attributes Notice origin (some endpoint) point s (.called (.onSent s.sendEndpoint sent))
      s' := by
  refine ⟨hs, ?_⟩
  rw [h]
  exact ⟨sent, rfl⟩

theorem notice_other {point : Option Event} {s s' : Server} {stop : Stop Event ErrorCode}
    (hs : s'.sendEndpoint = s.sendEndpoint)
    (h : notifiedBy origin (point.map fun event => (event, some endpoint)) s = none)
    (hstop : ∀ endpoint sent, stop ≠ .called (.onSent endpoint sent)) :
    Attributes Notice origin (some endpoint) point s stop s' := by
  refine ⟨hs, ?_⟩
  rw [h]
  intro endpoint' sent cause heq
  cases stop with
  | called event =>
      cases heq
      exact hstop endpoint' sent rfl
  | _ => cases heq

theorem notice_returned {point : Option Event} {s s' : Server}
    (hs : s'.sendEndpoint = s.sendEndpoint)
    (h : notifiedBy origin (point.map fun event => (event, some endpoint)) s = none) :
    Attributes Notice origin (some endpoint) point s .returned s' :=
  notice_other hs h (by simp)

theorem fire_onSent_notice {α : Type} {point : Option Event} {start s : Server} {sent : Nat}
    (value : α) (hs : s.sendEndpoint = start.sendEndpoint)
    (h : notifiedBy origin (point.map fun event => (event, some endpoint)) start = some endpoint) :
    (do let s ← state; fire (.onSent s.sendEndpoint sent); pure value : Code α).Segments
      (Attributes Notice origin (some endpoint))
      (fun _ point start s => Attributes Notice origin (some endpoint) point start .returned s)
      point start s := by
  simp only [fire, segments_bind, segments_state, segments_update, segments_callback,
    segments_pure]
  rw [hs]
  refine ⟨notice_onSent hs h, fun s' => notice_returned rfl ?_⟩
  exact notifiedBy_onSent origin _ _ _ s'

private theorem onError_notice {α : Type} {point : Option Event} {start s : Server} {ec : ErrorCode}
    (value : α) (hs : s.sendEndpoint = start.sendEndpoint)
    (h : notifiedBy origin (point.map fun event => (event, some endpoint)) start = none) :
    (do fire (.onError ec); let s ← state; fire (.onSent s.sendEndpoint 0); pure value :
        Code α).Segments
      (Attributes Notice origin (some endpoint))
      (fun _ point start s => Attributes Notice origin (some endpoint) point start .returned s)
      point start s := by
  rw [segments_bind, fire, segments_bind, segments_update, segments_callback]
  refine ⟨notice_other hs h (by simp), fun s' => ?_⟩
  exact fire_onSent_notice value rfl (notifiedBy_onError origin ec _ s')

end Caused

private theorem asyncSendToHandler_notice {op : Operation} {data : List UInt8} {endpoint : Endpoint}
    (hpurpose : op.purpose = .sendAsync data endpoint) (completion : Completion) (s : Server) :
    (asyncSendToHandler sendFailed op completion).Segments
      (Attributes Notice (some (.completion op completion)) (some endpoint))
      (fun _ point start s' => Attributes Notice (some (.completion op completion))
        (some endpoint) point start .returned s') none s s := by
  have hcause : handlerCause (.completion op completion) = some endpoint := by
    simp [handlerCause, hpurpose]
  have hnotified : notifiedBy (some (.completion op completion)) none s =
      if notifiesAtOnce s completion then some endpoint else none := by
    rw [← hcause]
    rfl
  have hfinish : (s.finishSend op).sendEndpoint = s.sendEndpoint := rfl
  rw [asyncSendToHandler, segments_bind, segments_update, segments_bind, segments_state,
    segments_ite]
  cases hrun : s.running with
  | false =>
      have hnever : notifiedBy (some (.completion op completion)) none s = none :=
        hnotified.trans (by simp [notifiesAtOnce, hrun])
      rw [if_pos (by simp [Peer.finishSend, Peer.removeOperation, hrun])]
      exact notice_returned hfinish hnever
  | true =>
      rw [if_neg (by simp [Peer.finishSend, Peer.removeOperation, hrun]), segments_ite]
      cases herror : completion.error.failed with
      | true =>
          cases hsilent : silent completion.error with
          | true =>
              have hnow : notifiedBy (some (.completion op completion)) none s = some endpoint :=
                hnotified.trans (by simp [notifiesAtOnce, hrun, herror, hsilent])
              rw [sendFailed, sendError_silent hsilent]
              exact fire_onSent_notice () hfinish hnow
          | false =>
              have hlater : notifiedBy (some (.completion op completion)) none s = none :=
                hnotified.trans (by simp [notifiesAtOnce, hrun, herror, hsilent])
              rw [sendFailed, sendError_reported hsilent]
              exact onError_notice () hfinish hlater
      | false =>
          by_cases hsent : completion.size > 0
          · have hnow : notifiedBy (some (.completion op completion)) none s = some endpoint :=
              hnotified.trans (by simp [notifiesAtOnce, hrun, herror, hsent])
            rw [if_neg Bool.false_ne_true, if_pos hsent]
            exact fire_onSent_notice () hfinish hnow
          · rw [if_neg Bool.false_ne_true, if_neg hsent]
            have hnever : notifiedBy (some (.completion op completion)) none s = none :=
              hnotified.trans (by simp [notifiesAtOnce, hrun, herror, hsent])
            exact notice_returned hfinish hnever

private theorem attributed_obeys (net : Net) :
    (attributed net).Obeys (fun k => isSendAsync k = false) (fun _ => True) Notice := by
  refine System.attributed_obeys (fun k inside s hk => ?_) fun h s origin program _ hlookup => ?_
  · have hcause : callCause k s = none := by
      cases k with
      | sendAsync endpoint buffer => cases hk
      | _ => rfl
    rw [hcause]
    exact call_notice net hk s
  · cases runnable_of_handler hlookup with
    | @completion op completion hmem hresult =>
        cases hsend : op.isSend with
        | true =>
            rw [completionHandler, completionHandler_send completion hsend]
            cases hpurpose : op.purpose with
            | sendAsync data endpoint =>
                rw [show handlerCause (.completion op completion) = some endpoint by
                  simp [handlerCause, hpurpose]]
                exact asyncSendToHandler_notice hpurpose completion s
            | _ => simp [Operation.isSend, hpurpose] at hsend
        | false =>
            have hcause := handlerCause_of_not_send hsend completion
            have hT := watches_sendEndpoint
              (fun o (h : some (.completion op completion) = some o) =>
                (Option.some.inj h) ▸ hcause)
            rw [hcause]
            exact hT.obeys (fun _ => rfl)
              (hT.completionHandler (receiveFailed_viewed hT) hsend completion) s
    | @timer id ec hfired =>
        have hT := watches_sendEndpoint (fun o (h : some (.timer id) = some o) =>
          (Option.some.inj h) ▸ rfl)
        exact hT.obeys (fun _ => rfl) (hT.timedTimerHandler _ _) s
    | @posted index handler answers hposted =>
        have hT := watches_sendEndpoint (fun o (h : some (.posted handler) = some o) =>
          (Option.some.inj h) ▸ rfl)
        exact hT.obeys (fun _ => rfl) (postedHandler_viewed hT _ _ _) s

/-! ## The calls of `SendAsync` -/

def acceptedSend (c : AttributedConfig) (m : Move Call Pending Stimulus) : Option Endpoint :=
  match m with
  | .call (.sendAsync endpoint buffer) _ =>
      if Accepts c.world buffer then some (endpoint.getD c.world.own.multicastEndpoint) else none
  | _ => none

private theorem sendAsync_attributed (net : Net) (endpoint : Option Endpoint) (buffer : Buffer)
    (inside : Bool) (s : Server) :
    ((attributed net).call (.sendAsync endpoint buffer) inside s).reached.sendEndpoint =
        (if Accepts s buffer then some (endpoint.getD s.own.multicastEndpoint) else none).getD
          s.sendEndpoint ∧
      ((attributed net).call (.sendAsync endpoint buffer) inside s).Suspends
        (fun f => f.Obeys Notice ∧
          ∀ named sent cause, f.event ≠ some (.onSent named sent, some cause)) none := by
  have hcall : (attributed net).call (.sendAsync endpoint buffer) inside s =
      ((sendAsync (endpoint.getD s.own.multicastEndpoint) buffer s).bind
        fun _ s => .ret () s).mapEvent
          fun event => (event, some (endpoint.getD s.own.multicastEndpoint)) := rfl
  rw [hcall, sendAsync]
  generalize endpoint.getD s.own.multicastEndpoint = target
  rcases sendAsync_cases (do let s ← state; fire (.onSent s.sendEndpoint 0) : Code Unit) target
    buffer s with ⟨haccepts, heq⟩ | ⟨hrejects, ⟨value, heq⟩ | heq⟩
  · rw [heq, if_pos haccepts]
    exact ⟨rfl, trivial⟩
  · rw [heq, if_neg hrejects]
    exact ⟨rfl, trivial⟩
  · rw [heq, if_neg hrejects]
    refine ⟨rfl, fun s' _ => ?_, fun named sent cause h => by cases h⟩
    have hrest : (do let s ← state; fire (.onSent s.sendEndpoint 0); pure () : Code Unit).Segments
        (Attributes Notice none (some target))
        (fun _ point start s => Attributes Notice none (some target) point start .returned s)
        (some (.onError .noBufferSpace)) s' s' :=
      fire_onSent_notice () rfl (notifiedBy_onError none _ _ s')
    exact Outcome.segments_attributed (some target) hrest

/-! ## Runs -/

section Runs

variable {net : Net} {c c' : AttributedConfig} {m : Move Call Pending Stimulus}

private theorem namesCause_of_executed {origin : Option (Origin Handler)}
    {point : Option (Event × Option Endpoint)} {stop : Stop (Event × Option Endpoint) ErrorCode}
    (hexec : Executed Notice origin point stop c c') (hc : NamesCause c)
    (hlast : ∀ cause, notifiedBy origin point c.world = some cause →
      c.world.sendEndpoint = cause) : NamesCause c' := by
  intro f hf named sent cause hevent
  rcases hexec.frames f hf with hold | ⟨-, hstop⟩
  · exact hc f hold named sent cause hevent
  · have hcalled : stop = .called (.onSent named sent, some cause) := by
      rw [← hstop, Frame.stop, hevent]
    have hnotice := hexec.world.2
    split at hnotice
    · rename_i endpoint hnotified
      obtain ⟨_, hstop'⟩ := hnotice
      rw [hcalled] at hstop'
      cases hstop'
      exact hlast _ hnotified
    · exact absurd hcalled (hnotice named sent cause)

theorem step_namesCause (hframes : ∀ f ∈ c.frames, f.Obeys Notice)
    (hstep : (attributed net).step c m = some c') (hc : NamesCause c) :
    (∀ f ∈ c'.frames, f.Obeys Notice) ∧
      c'.world.sendEndpoint = (acceptedSend c m).getD c.world.sendEndpoint ∧
      (NamesCause c' ↔ ∀ cause, notified net c m = some cause → c.world.sendEndpoint = cause) := by
  by_cases hsend : m.Admitted (fun k => isSendAsync k = false) (fun _ => True)
  · obtain ⟨hframes', hcases⟩ := System.step_cases (attributed_obeys net) hframes hsend hstep
    refine ⟨hframes', ?_⟩
    have haccepted : acceptedSend c m = none := by
      cases m with
      | call k thread => cases k <;> first | rfl | cases hsend
      | _ => rfl
    rw [haccepted, Option.getD_none]
    rcases hcases with ⟨origin, point, stop, hsegment, hexec⟩ | ⟨hsegment, hidle⟩
    · have hnotified : notified net c m = notifiedBy origin point c.world := by
        rw [notified, hsegment]
      rw [hnotified]
      refine ⟨hexec.world.1, fun hnames cause hcause => ?_, namesCause_of_executed hexec hc⟩
      obtain ⟨f, hf, _, hevent, sent, rfl⟩ := System.invokes_of_step (attributed_obeys net) hframes
        hsend hstep hsegment (p := fun event => ∃ sent,
          event = (.onSent c.world.sendEndpoint sent, some cause)) (fun stop s hnotice => by
          have hcalled := hnotice.2
          rw [hcause] at hcalled
          obtain ⟨sent, rfl⟩ := hcalled
          exact ⟨_, rfl, sent, rfl⟩)
      exact hnames f hf _ sent cause hevent
    · refine ⟨?_, fun _ cause hcause => ?_, fun _ f hf => hc f (hidle.frames f hf)⟩
      · rcases hidle.world with h | ⟨e, -, h⟩
        · rw [h]
        · generalize c'.world = s' at h
          cases stimulate_stirred h <;> rfl
      · rw [notified, hsegment] at hcause
        cases hcause
  · cases m with
    | call k thread =>
        cases k with
        | sendAsync endpoint buffer =>
            obtain ⟨inside, hworld⟩ := System.step_call hstep
            have hnew (inside : Bool) := sendAsync_attributed net endpoint buffer inside c.world
            refine ⟨?_, ?_, fun _ cause hcause => (by cases hcause), fun _ => ?_⟩
            · exact System.frames_of_call (fun inside => (hnew inside).2.imp fun _ hf => hf.1)
                hframes hstep
            · rw [hworld]
              exact (hnew inside).1
            · exact System.frames_of_call (fun inside => (hnew inside).2.imp
                fun f hf named sent cause hevent => absurd hevent (hf.2 named sent cause)) hc hstep
        | _ => exact absurd rfl hsend
    | _ => exact absurd trivial hsend

abbrev AttributedStep : Type := Transition AttributedConfig (Move Call Pending Stimulus)

/--
Whenever an `onSent` is due to a `SendAsync`, the one accepted last before that step went to
the same endpoint.  `last` is the endpoint of the one accepted last so far.
-/
def InTurn (net : Net) : Endpoint → List AttributedStep → Prop
  | _, [] => True
  | last, t :: ts =>
      (∀ cause, notified net t.pre t.move = some cause → last = cause) ∧
        InTurn net ((acceptedSend t.pre t.move).getD last) ts

instance InTurn.decidable (net : Net) :
    (last : Endpoint) → (ts : List AttributedStep) → Decidable (InTurn net last ts)
  | _, [] => inferInstanceAs (Decidable True)
  | last, t :: ts =>
      have := InTurn.decidable net ((acceptedSend t.pre t.move).getD last) ts
      inferInstanceAs (Decidable ((∀ cause ∈ notified net t.pre t.move, last = cause) ∧
        InTurn net ((acceptedSend t.pre t.move).getD last) ts))

theorem namesCause_iff_inTurn (ms : List (Move Call Pending Stimulus))
    (hframes : ∀ f ∈ c.frames, f.Obeys Notice) (hc : NamesCause c) :
    (∀ d ∈ (attributed net).states c ms, NamesCause d) ↔
      InTurn net c.world.sendEndpoint ((attributed net).trace c ms) := by
  induction ms generalizing c with
  | nil => simp [Steps.states, Steps.trace, InTurn, hc]
  | cons m ms ih =>
      cases hstep : (attributed net).step c m with
      | none => simp [Steps.states, Steps.trace, hstep, InTurn, hc]
      | some c' =>
          obtain ⟨hframes', hendpoint, hiff⟩ := step_namesCause hframes hstep hc
          have hstates : (attributed net).states c (m :: ms) =
              c :: (attributed net).states c' ms := by
            simp [Steps.states, Steps.trace, hstep]
          have htrace : (attributed net).trace c (m :: ms) =
              ⟨c, m, c'⟩ :: (attributed net).trace c' ms := by
            simp [Steps.trace, hstep]
          rw [hstates, htrace, InTurn, List.forall_mem_cons, ← hiff, ← hendpoint]
          constructor
          · rintro ⟨-, hall⟩
            have hc' := hall c' List.mem_cons_self
            exact ⟨hc', (ih hframes' hc').mp hall⟩
          · rintro ⟨hc', hturn⟩
            exact ⟨hc, (ih hframes' hc').mpr hturn⟩

end Runs

/--
In every run of a server the attributed callbacks are those of the server.  Every `onSent`
caused by a `SendAsync` names the endpoint of that call exactly if, whenever one is due,
the `SendAsync` accepted last was to the same endpoint.
-/
theorem onSent_names_endpoint_iff (net : Net) :
    ∀ s₀, Constructed net s₀ → ∀ ms,
      ((attributed net).run (.initial s₀) ms).map Config.forget =
        (system net).run (.initial s₀) ms ∧
      ((∀ c ∈ (attributed net).states (.initial s₀) ms, NamesCause c) ↔
        InTurn net default ((attributed net).trace (.initial s₀) ms)) := by
  intro s₀ hs₀ ms
  refine ⟨((system net).run_forget callCause handlerCause (.initial s₀) ms).symm, ?_⟩
  obtain ⟨endpoint, own, rfl, -⟩ := hs₀.fresh
  apply namesCause_iff_inTurn
  · simp [Config.frames, Config.initial]
  · simp [NamesCause, Config.frames, Config.initial]

theorem onSent_names_endpoint_iff_sent :
    ∃ c, (attributed .loopback).run (.initial (ofPort 5000 .ipv4))
        [.call .start none, .handler (.posted 0 (.clean 4)), .resume 1,
          .call (.sendAsync (some ⟨.v4 1, 7000⟩) (.bytes [1])) none,
          .environment (.complete 0 ⟨.success, 1, default⟩), .handler (.completion 0)] = some c ∧
      c.frames.map Frame.event = [some (.onSent ⟨.v4 1, 7000⟩ 1, some ⟨.v4 1, 7000⟩)] ∧
      NamesCause c := by
  refine ⟨_, rfl, by decide, ?_⟩
  apply ((onSent_names_endpoint_iff .loopback _ (.ofPort 5000 .ipv4)
    [.call .start none, .handler (.posted 0 (.clean 4)), .resume 1,
      .call (.sendAsync (some ⟨.v4 1, 7000⟩) (.bytes [1])) none,
      .environment (.complete 0 ⟨.success, 1, default⟩), .handler (.completion 0)]).2.mpr ?_)
  · exact Steps.run_mem_states rfl
  · decide +kernel

/--
A datagram above the limit is reported with the endpoint of the send before it, here with
that of the construction; a failed send with the endpoint of the one `onError` has started.
-/
theorem onSent_names_other_endpoint :
    (∃ c, (attributed .loopback).run (.initial (ofPort 5000 .ipv4))
        [.call .start none, .handler (.posted 0 (.clean 4)), .resume 1,
          .call (.setupSendBufferLimit 1) none,
          .call (.sendAsync (some ⟨.v4 1, 7000⟩) (.bytes [1, 2])) none, .resume 3] = some c ∧
      c.frames.map Frame.event = [some (.onSent default 0, some ⟨.v4 1, 7000⟩)] ∧
      ¬NamesCause c) ∧
    (∃ c, (attributed .loopback).run (.initial (ofPort 5000 .ipv4))
        [.call .start none, .handler (.posted 0 (.clean 4)), .resume 1,
          .call (.sendAsync (some ⟨.v4 1, 7000⟩) (.bytes [1])) none,
          .environment (.complete 0 ⟨.noBufferSpace, 0, default⟩), .handler (.completion 0),
          .call (.sendAsync (some ⟨.v4 2, 7000⟩) (.bytes [2])) (some 3), .resume 3] = some c ∧
      c.frames.map Frame.event = [some (.onSent ⟨.v4 2, 7000⟩ 0, some ⟨.v4 1, 7000⟩)] ∧
      ¬NamesCause c) := by
  have hwrong {c : AttributedConfig} (named cause : Endpoint)
      (hevents : c.frames.map Frame.event = [some (.onSent named 0, some cause)])
      (hne : named ≠ cause) : ¬NamesCause c := by
    intro hnames
    have hmem : some (.onSent named 0, some cause) ∈ c.frames.map Frame.event := by
      simp [hevents]
    obtain ⟨f, hf, hevent⟩ := List.mem_map.mp hmem
    exact hne (hnames f hf named 0 cause hevent)
  refine ⟨⟨_, rfl, by decide, ?_⟩, _, rfl, by decide, ?_⟩
  · exact hwrong default ⟨.v4 1, 7000⟩ (by decide) (by decide)
  · exact hwrong ⟨.v4 2, 7000⟩ ⟨.v4 1, 7000⟩ (by decide) (by decide)

end Server

end AsioWrapper.Udp
