import AsioWrapper.Udp.TimedCalls

/-!
# The stages of a timed call

If no other operation is outstanding, nothing a timed call does depends on the
schedule: its operation completes, the handler of the operation is counted and
cancels the timer, the handler of the timer is counted, and the caller reports
the result and returns.
-/

namespace AsioWrapper.Udp

open AsioWrapper.Asio
open AsioWrapper.Foundation
open AsioWrapper.Foundation.Program

variable {δ : Type}

/-! ## The code of the caller and of the handlers -/

section Program

structure Kept (s s' : Peer δ) : Prop where
  running : s'.running = s.running
  socket : s'.socket = s.socket
  operations : s'.operations = s.operations
  timedCalls : s'.timedCalls = s.timedCalls

def Reporting (s : Peer δ) (events : List Event) :
    Outcome (Peer δ) Event ErrorCode Unit → Prop
  | .ret _ s' => events = [] ∧ s' = s
  | .call event s' resume =>
      events = [event] ∧ Kept s s' ∧ s'.log = s.log ++ [event] ∧
        ∀ s'', resume s'' = .ret () s''
  | _ => False

/-- A call that starts an operation and blocks, and that reports its result if that is
not an error. -/
def Waits (report : TimedCall → List Event) (s : Peer δ) (purpose : Purpose) :
    Outcome (Peer δ) Event ErrorCode Unit → Prop
  | .wait ready s' resume =>
      (∃ endpoint, s' = s.startTimed purpose endpoint) ∧
      (∀ s'', ready s'' = ((s''.timedCall s.issued).done == 2)) ∧
      ∀ s'', (s''.timedCall s.issued).error.failed = false →
        Reporting s'' (report (s''.timedCall s.issued)) (resume s'')
  | _ => False

def sentReport (endpoint : Endpoint) (call : TimedCall) : List Event :=
  if call.size > 0 then [.onSent endpoint call.size] else []

def receivedReport (call : TimedCall) : List Event := [.onReceived call.endpoint call.size]

variable {failed : ErrorCode → Proc δ Unit} {buffer : Buffer} {s : Peer δ}

theorem sendTimed_waits {endpoint : Endpoint} (hrun : s.running = true)
    (hsize : buffer.size ≠ 0) (hnull : buffer.isNull = false) :
    Waits (sentReport endpoint) s .timedSend
      ((discard (sendTimed failed endpoint buffer) : Proc δ Unit) s) := by
  change Waits _ _ _ ((sendTimed failed endpoint buffer s).bind _)
  simp only [sendTimed, bind_apply, Program.state, Outcome.bind, hrun, hsize, hnull]
  refine ⟨⟨_, rfl⟩, fun _ => rfl, fun s' hok => ?_⟩
  simp only [Outcome.bind, bind_apply, Program.state, hok, Bool.false_eq_true, false_and,
    if_false, sentReport]
  split
  · exact ⟨rfl, ⟨rfl, rfl, rfl, rfl⟩, rfl, fun _ => rfl⟩
  · exact ⟨rfl, rfl⟩

theorem receiveTimed_waits {endpoint : Endpoint} (hrun : s.running = true)
    (hsize : buffer.size ≠ 0) (hnull : buffer.isNull = false) :
    Waits receivedReport s .timedReceive
      ((discard (receiveTimed failed endpoint buffer) : Proc δ Unit) s) := by
  change Waits _ _ _ ((receiveTimed failed endpoint buffer s).bind _)
  simp only [receiveTimed, bind_apply, Program.state, Outcome.bind, hrun, hsize, hnull]
  refine ⟨⟨_, rfl⟩, fun _ => rfl, fun s' hok => ?_⟩
  simp only [Outcome.bind, bind_apply, Program.state, hok, Bool.false_eq_true, false_and,
    if_false]
  exact ⟨rfl, ⟨rfl, rfl, rfl, rfl⟩, rfl, fun _ => rfl⟩

theorem asyncDoneHandler_first {id : Nat} {ec : ErrorCode}
    (hfirst : (s.timedCall id).done = 0) (hopen : s.socket.isOpen = true) :
    asyncDoneHandler id ec s = .ret ()
      ((((s.modifyTimed id fun call => { call with done := call.done + 1 }).modifyTimed id
        fun call => { call with error := ec }).abortOperations).modifyTimed id
          TimedCall.cancelTimer) := by
  change (if (s.timedCall id).done = 0 then _ else _ : Proc δ Unit) _ = _
  rw [if_pos hfirst]
  change (if (!s.socket.isOpen) = true then _ else _ : Proc δ Unit) _ = _
  rw [hopen]
  rfl

theorem asyncDoneHandler_second {id : Nat} {ec : ErrorCode}
    (hlate : (s.timedCall id).done ≠ 0) :
    asyncDoneHandler id ec s =
      .ret () (s.modifyTimed id fun call => { call with done := call.done + 1 }) := by
  change (if (s.timedCall id).done = 0 then _ else _ : Proc δ Unit) _ = _
  rw [if_neg hlate]
  rfl

end Program

/-! ## The stages -/

def ownOperation (s : Peer δ) (purpose : Purpose) (result : Option Completion) : Operation :=
  ⟨s.issued, purpose, s.socket.generation, s.session, result⟩

/-- How far the call made in `s` is: its operation, as long as there is one, and its
locals. -/
inductive Stage (s : Peer δ) (purpose : Purpose) : List Operation → TimedCall → Prop where
  | called (endpoint : Endpoint) :
      Stage s purpose [ownOperation s purpose none] (.fresh s.issued endpoint)
  | completed (completion : Completion) (hok : completion.error.failed = false)
      (endpoint : Endpoint) :
      Stage s purpose [ownOperation s purpose (some completion)]
        (.fresh s.issued endpoint)
  | counted (error : ErrorCode) (hok : error.failed = false) (size : Nat)
      (endpoint : Endpoint) :
      Stage s purpose [] ⟨s.issued, 1, error, size, endpoint, .fired .operationAborted⟩
  | handled (error : ErrorCode) (hok : error.failed = false) (size : Nat)
      (endpoint : Endpoint) :
      Stage s purpose [] ⟨s.issued, 2, error, size, endpoint, .handled⟩

structure During (s : Peer δ) (operations : List Operation) (call : TimedCall)
    (events : List Event) (s' : Peer δ) : Prop where
  running : s'.running = true
  isOpen : s'.socket.isOpen = true
  operations : s'.operations = s.operations ++ operations
  call : s'.timedCall s.issued = call
  present : s.issued ∈ s'.timedCalls.map TimedCall.id
  log : s'.log = s.log ++ events

section Stages

variable {s s' : Peer δ} {purpose : Purpose} {operations : List Operation} {call : TimedCall}
  {events : List Event}

theorem timedCall_modifyTimed {id : Nat} {f : TimedCall → TimedCall}
    (hid : ∀ call, (f call).id = call.id) (hpresent : id ∈ s.timedCalls.map TimedCall.id) :
    (s.modifyTimed id f).timedCall id = f (s.timedCall id) := by
  simp only [Peer.timedCall, Peer.modifyTimed, List.find?_map]
  have hcomp : ((fun call : TimedCall => call.id == id) ∘ fun call =>
      if call.id = id then f call else call) = fun call => call.id == id := by
    funext call
    simp only [Function.comp_apply]
    split
    · rw [hid]
    · rfl
  rw [hcomp]
  cases hfind : s.timedCalls.find? fun call => call.id == id with
  | none =>
      obtain ⟨call, hcall, heq⟩ := List.mem_map.mp hpresent
      simpa [heq] using List.find?_eq_none.mp hfind call hcall
  | some call =>
      have heq : call.id = id := by simpa using List.find?_some hfind
      simp [heq]

theorem map_id_modifyTimed {id : Nat} {f : TimedCall → TimedCall}
    (hid : ∀ call, (f call).id = call.id) :
    (s.modifyTimed id f).timedCalls.map TimedCall.id = s.timedCalls.map TimedCall.id := by
  simp only [Peer.modifyTimed, List.map_map]
  refine List.map_congr_left fun call _ => ?_
  simp only [Function.comp_apply]
  split
  · exact hid call
  · rfl

theorem During.modify (h : During s operations call events s') {f : TimedCall → TimedCall}
    (hid : ∀ call, (f call).id = call.id) :
    During s operations (f call) events (s'.modifyTimed s.issued f) where
  running := h.running
  isOpen := h.isOpen
  operations := h.operations
  call := by rw [timedCall_modifyTimed hid h.present, h.call]
  present := by rw [map_id_modifyTimed hid]; exact h.present
  log := h.log

variable (hids : ∀ op ∈ s.operations, op.id ≠ s.issued)
  (hidle : ∀ op ∈ s.operations, op.result ≠ none)

theorem during_called (hs : Accounted s) (hrun : s.running = true) (purpose : Purpose)
    (endpoint : Endpoint) :
    During s [ownOperation s purpose none] (.fresh s.issued endpoint) []
      (s.startTimed purpose endpoint) where
  running := hrun
  isOpen := hs.tidy.socket.running hrun
  operations := rfl
  call := by
    have hold : s.timedCalls.find? (fun call => call.id == s.issued) = none := by
      refine List.find?_eq_none.mpr fun call hcall => ?_
      have := hs.numbered call hcall
      simp only [beq_iff_eq]
      omega
    simp [Peer.timedCall, Peer.startTimed, Peer.startOperation, List.find?_append, hold,
      TimedCall.fresh]
  present := by simp [Peer.startTimed, Peer.startOperation, TimedCall.fresh]
  log := (List.append_nil _).symm

include hidle in
theorem pendingOperation_during (h : During s operations call events s') :
    s'.pendingOperation s.issued =
      operations.find? fun op => op.id == s.issued && op.pending := by
  have hnone : s.operations.find? (fun op => op.id == s.issued && op.pending) = none := by
    refine List.find?_eq_none.mpr fun op hop => ?_
    have := hidle op hop
    simp [Operation.pending, this]
  rw [Peer.pendingOperation, h.operations, List.find?_append, hnone, Option.none_or]

include hids in
theorem completedOperation_during (h : During s operations call events s') :
    s'.completedOperation s.issued =
      operations.findSome? fun op =>
        if op.id = s.issued then op.result.map fun completion => (op, completion) else none := by
  have hnone : (s.operations.findSome? fun op =>
      if op.id = s.issued then op.result.map fun completion => (op, completion) else none) =
        none := by
    refine List.findSome?_eq_none_iff.mpr fun op hop => ?_
    rw [if_neg (hids op hop)]
  rw [Peer.completedOperation, h.operations, List.findSome?_append, hnone, Option.none_or]

include hids in
theorem ne_own_of_mem {op : Operation} (hop : op ∈ s.operations) {result : Option Completion} :
    op ≠ ownOperation s purpose result :=
  fun heq => hids op hop (heq ▸ rfl)

include hids in
theorem During.remove {result : Option Completion}
    (h : During s [ownOperation s purpose result] call events s') :
    During s [] call events (s'.removeOperation (ownOperation s purpose result)) where
  running := h.running
  isOpen := h.isOpen
  operations := by
    have hothers : (s.operations.filter fun other => other ≠ ownOperation s purpose result) =
        s.operations :=
      List.filter_eq_self.mpr fun op hop => decide_eq_true (ne_own_of_mem hids hop)
    simp only [Peer.removeOperation, h.operations, List.filter_append, hothers]
    simp
  call := h.call
  present := h.present
  log := h.log

include hidle in
theorem During.abort (h : During s [] call events s') :
    During s [] call events s'.abortOperations where
  running := h.running
  isOpen := h.isOpen
  operations := by
    have hothers : s.operations.map Operation.abort = s.operations := by
      refine (List.map_congr_left fun op hop => ?_).trans (List.map_id' _)
      exact if_neg (by simpa [Operation.pending] using hidle op hop)
    simp only [Peer.abortOperations, h.operations, List.append_nil, hothers]
  call := h.call
  present := h.present
  log := h.log

include hids hidle in
theorem during_complete (h : During s operations call events s')
    (hstage : Stage s purpose operations call) {completion : Completion}
    (hok : completion.error.failed = false) {s'' : Peer δ}
    (hstep : stimulate s' (.complete s.issued completion) = some s'') :
    ∃ operations' call', Stage s purpose operations' call' ∧
      During s operations' call' events s'' := by
  simp only [stimulate, pendingOperation_during hidle h] at hstep
  cases hstage with
  | called endpoint =>
      have hfind : [ownOperation s purpose none].find?
          (fun op => op.id == s.issued && op.pending) = some (ownOperation s purpose none) := by
        simp [ownOperation, Operation.pending]
      rw [hfind] at hstep
      cases hstep
      have hothers : s.operations.map ((ownOperation s purpose none).completedBy completion) =
          s.operations :=
        (List.map_congr_left fun op hop => if_neg (ne_own_of_mem hids hop)).trans (List.map_id' _)
      have hoperations : (s'.complete (ownOperation s purpose none) completion).operations =
          s.operations ++ [ownOperation s purpose (some completion)] := by
        simp only [Peer.complete, h.operations, List.map_append, hothers]
        simp [Operation.completedBy, ownOperation]
      by_cases hreceive : purpose = .timedReceive
      · have hcalls : (s'.complete (ownOperation s purpose none) completion).timedCalls =
            (s'.modifyTimed s.issued fun call =>
              { call with endpoint := completion.sender }).timedCalls := if_pos hreceive
        have hmodified := h.modify (f := fun call => { call with endpoint := completion.sender })
          fun _ => rfl
        refine ⟨_, _, .completed completion hok completion.sender, h.running, h.isOpen,
          hoperations, ?_, ?_, h.log⟩
        · rw [Peer.timedCall, hcalls]
          exact hmodified.call
        · rw [hcalls]
          exact hmodified.present
      · have hcalls : (s'.complete (ownOperation s purpose none) completion).timedCalls =
            s'.timedCalls := if_neg hreceive
        refine ⟨_, _, .completed completion hok endpoint, h.running, h.isOpen, hoperations, ?_,
          ?_, h.log⟩
        · rw [Peer.timedCall, hcalls]
          exact h.call
        · rw [hcalls]
          exact h.present
  | completed completion hok endpoint => simp [ownOperation, Operation.pending] at hstep
  | counted error hok size endpoint => simp at hstep
  | handled error hok size endpoint => simp at hstep

include hids hidle in
theorem during_socketHandler (h : During s operations call events s')
    (hstage : Stage s purpose operations call)
    {op : Operation} {completion : Completion}
    (hlookup : s'.completedOperation s.issued = some (op, completion)) :
    op = ownOperation s purpose (some completion) ∧
      ∃ s'' operations' call', timedSocketHandler op completion s' = .ret () s'' ∧
        Stage s purpose operations' call' ∧ During s operations' call' events s'' := by
  rw [completedOperation_during hids h] at hlookup
  cases hstage with
  | called endpoint => simp [ownOperation] at hlookup
  | completed completion' hok endpoint =>
      obtain ⟨rfl, rfl⟩ : ownOperation s purpose (some completion') = op ∧
          completion' = completion := by
        simpa [ownOperation] using hlookup
      have hremoved := h.remove hids
      have hcount := hremoved.modify (f := fun call => { call with done := call.done + 1 })
        fun _ => rfl
      have hnote := hcount.modify (f := fun call => { call with error := completion'.error })
        fun _ => rfl
      have habort := hnote.abort hidle
      have hcancel := habort.modify cancelTimer_id
      have hsize := hcancel.modify (f := fun call => { call with size := completion'.size })
        fun _ => rfl
      refine ⟨rfl, _, _, _, ?_, .counted completion'.error hok completion'.size endpoint, hsize⟩
      rw [timedSocketHandler, bind_apply]
      change ((asyncDoneHandler _ _ >>= _) _ : Outcome _ _ _ _) = _
      have hfirst : ((s'.removeOperation (ownOperation s purpose (some completion'))).timedCall
          s.issued).done = 0 := by
        rw [hremoved.call]
        rfl
      rw [bind_apply]
      change (asyncDoneHandler s.issued _ _).bind _ = _
      rw [asyncDoneHandler_first hfirst h.isOpen]
      rfl
  | counted error hok size endpoint => simp at hlookup
  | handled error hok size endpoint => simp at hlookup

theorem during_timerHandler (h : During s operations call events s')
    (hstage : Stage s purpose operations call) {ec : ErrorCode}
    (hfired : s'.firedTimer s.issued = some ec) :
    ∃ s'' operations' call', timedTimerHandler s.issued ec s' = .ret () s'' ∧
      Stage s purpose operations' call' ∧ During s operations' call' events s'' := by
  rw [Peer.firedTimer, h.call] at hfired
  cases hstage with
  | called endpoint => cases hfired
  | completed completion hok endpoint => cases hfired
  | counted error hok size endpoint =>
      have hhandled := h.modify (f := fun call => { call with timer := .handled }) fun _ => rfl
      have hcount := hhandled.modify (f := fun call => { call with done := call.done + 1 })
        fun _ => rfl
      refine ⟨_, _, _, ?_, .handled error hok size endpoint, hcount⟩
      rw [timedTimerHandler, bind_apply]
      change asyncDoneHandler s.issued _ _ = _
      refine asyncDoneHandler_second ?_
      rw [hhandled.call]
      simp
  | handled error hok size endpoint => cases hfired

theorem stage_of_ready (hstage : Stage s purpose operations call) (hdone : call.done = 2) :
    operations = [] ∧ call.error.failed = false ∧ call.timer = .handled := by
  cases hstage with
  | called endpoint => cases hdone
  | completed completion hok endpoint => cases hdone
  | counted error hok size endpoint => cases hdone
  | handled error hok size endpoint => exact ⟨rfl, hok, rfl⟩

end Stages

end AsioWrapper.Udp
