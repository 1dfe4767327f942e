import AsioWrapper.Udp.TimedStages

/-!
# The byte count of a timed call

The handler of the socket operation counts itself under the lock and assigns
the byte count afterwards, without it.  The caller may wake up in between.
Here the handler takes these two steps separately, any other step may come
between them, and every read of the byte count is a step of the caller.  The
caller's error branch does not look at the count and is left out.
-/

namespace AsioWrapper.Udp

open AsioWrapper.Asio
open AsioWrapper.Foundation
open AsioWrapper.Foundation.Program

variable {δ : Type}

inductive TimedKind where
  | send (endpoint : Endpoint)
  | receive (endpoint : Endpoint)
  deriving DecidableEq, Repr

namespace TimedKind

def purpose : TimedKind → Purpose
  | send _ => .timedSend
  | receive _ => .timedReceive

def endpoint : TimedKind → Endpoint
  | send endpoint | receive endpoint => endpoint

def reports : TimedKind → Nat → Bool
  | send _, size => size > 0
  | receive _, _ => true

def count : TimedKind → Peer δ → Nat → Peer δ
  | send _, s, size => s.countSent size
  | receive _, s, size => s.countReceived size

def event : TimedKind → TimedCall → Event
  | send endpoint, call => .onSent endpoint call.size
  | receive _, call => .onReceived call.endpoint call.size

def report : TimedKind → TimedCall → List Event
  | send endpoint => sentReport endpoint
  | receive _ => receivedReport

end TimedKind

namespace Race

/-- Where the handler of the socket operation is; it throws out of its locked section if
the socket is closed. -/
inductive SocketHandler where
  | due
  | counted (completion : Completion)
  | assigned (completion : Completion)
  | unwound (completion : Completion)
  deriving DecidableEq, Repr

inductive Caller where
  | blocked
  | awake
  | counted (added : Nat)
  | reported (added : Nat)
  | returned (added value : Nat)
  deriving DecidableEq, Repr

def Caller.isReturned : Caller → Bool
  | .returned _ _ => true
  | _ => false

/-- `late` records that a handler took a step after the caller had returned. -/
structure State (δ : Type) where
  world : Peer δ
  socket : SocketHandler
  caller : Caller
  late : Bool

inductive Action where
  | complete (completion : Completion)
  | expire
  | close
  | timer
  | lock
  | assign
  | caller
  deriving DecidableEq, Repr

def start (kind : TimedKind) (s : Peer δ) : State δ :=
  ⟨s.startTimed kind.purpose kind.endpoint, .due, .blocked, false⟩

def callerStep (id : Nat) (kind : TimedKind) (r : State δ) : Option (State δ) :=
  let call := r.world.timedCall id
  match r.caller with
  | .blocked => if call.done = 2 then some { r with caller := .awake } else none
  | .awake =>
      if kind.reports call.size then
        some { r with world := kind.count r.world call.size, caller := .counted call.size }
      else
        some { r with caller := .reported 0 }
  | .counted added =>
      some { r with world := r.world.logged (kind.event call), caller := .reported added }
  | .reported added => some { r with caller := .returned added call.size }
  | .returned _ _ => none

def step (id : Nat) (kind : TimedKind) (r : State δ) : Action → Option (State δ)
  | .complete completion =>
      (stimulate r.world (.complete id completion)).map fun s => { r with world := s }
  | .expire => (stimulate r.world (.expire id)).map fun s => { r with world := s }
  | .close => some { r with world := r.world.closeSocket }
  | .timer =>
      match r.world.firedTimer id with
      | some ec =>
          some { r with
            world := (timedTimerHandler id ec r.world).reached
            late := r.late || r.caller.isReturned }
      | none => none
  | .lock =>
      match r.socket, r.world.completedOperation id with
      | .due, some (op, completion) =>
          match asyncDoneHandler op.id completion.error (r.world.removeOperation op) with
          | .ret _ s =>
              some { r with
                world := s
                socket := .counted completion
                late := r.late || r.caller.isReturned }
          | o =>
              some { r with
                world := o.reached
                socket := .unwound completion
                late := r.late || r.caller.isReturned }
      | _, _ => none
  | .assign =>
      match r.socket with
      | .counted completion =>
          some { r with
            world := r.world.modifyTimed id fun call => { call with size := completion.size }
            socket := .assigned completion
            late := r.late || r.caller.isReturned }
      | _ => none
  | .caller => callerStep id kind r

/-! ## What the steps do to the locals of the caller -/

structure Locals where
  done : Nat
  size : Nat
  handled : Bool

def locals (id : Nat) (s : Peer δ) : Locals :=
  ⟨(s.timedCall id).done, (s.timedCall id).size, (s.timedCall id).timer = .handled⟩

section Locals

variable {id : Nat} {s s' : Peer δ}

theorem locals_modifyTimed {f : TimedCall → TimedCall} (hid : ∀ call, (f call).id = call.id)
    (hpresent : id ∈ s.timedCalls.map TimedCall.id) :
    id ∈ (s.modifyTimed id f).timedCalls.map TimedCall.id ∧
      locals id (s.modifyTimed id f) =
        ⟨(f (s.timedCall id)).done, (f (s.timedCall id)).size,
          (f (s.timedCall id)).timer = .handled⟩ := by
  refine ⟨by rwa [map_id_modifyTimed hid], ?_⟩
  rw [locals, timedCall_modifyTimed hid hpresent]

theorem locals_of_timedCalls (h : s'.timedCalls = s.timedCalls) : locals id s' = locals id s := by
  unfold locals Peer.timedCall
  rw [h]

theorem locals_modifyTimed_same {f : TimedCall → TimedCall}
    (hid : ∀ call, (f call).id = call.id) (hdone : ∀ call, (f call).done = call.done)
    (hsize : ∀ call, (f call).size = call.size)
    (htimer : ∀ call, (f call).timer = .handled ↔ call.timer = .handled)
    (hpresent : id ∈ s.timedCalls.map TimedCall.id) :
    id ∈ (s.modifyTimed id f).timedCalls.map TimedCall.id ∧
      locals id (s.modifyTimed id f) = locals id s := by
  obtain ⟨hpresent', hlocals⟩ := locals_modifyTimed hid hpresent
  refine ⟨hpresent', hlocals.trans ?_⟩
  simp only [locals, hdone, hsize, htimer]

private theorem asyncDoneHandler_closed {ec : ErrorCode} (hfirst : (s.timedCall id).done = 0)
    (hclosed : s.socket.isOpen = false) :
    asyncDoneHandler id ec s = .throw .badDescriptor
      ((s.modifyTimed id fun call => { call with done := call.done + 1 }).modifyTimed id
        fun call => { call with error := ec }) := by
  change (if (s.timedCall id).done = 0 then _ else _ : Proc δ Unit) _ = _
  rw [if_pos hfirst]
  change (if (!s.socket.isOpen) = true then _ else _ : Proc δ Unit) _ = _
  rw [hclosed]
  rfl

theorem asyncDoneHandler_locals (hpresent : id ∈ s.timedCalls.map TimedCall.id)
    (ec : ErrorCode) :
    ∃ s', (asyncDoneHandler id ec s = .ret () s' ∨
        asyncDoneHandler id ec s = .throw .badDescriptor s') ∧
      id ∈ s'.timedCalls.map TimedCall.id ∧
      locals id s' = { locals id s with done := (locals id s).done + 1 } := by
  obtain ⟨hcounted, hcount⟩ := locals_modifyTimed (s := s)
    (f := fun call => { call with done := call.done + 1 }) (fun _ => rfl) hpresent
  obtain ⟨hnoted, hnote⟩ := locals_modifyTimed_same
    (f := fun call => { call with error := ec }) (fun _ => rfl) (fun _ => rfl) (fun _ => rfl)
    (fun _ => Iff.rfl) hcounted
  by_cases hfirst : (s.timedCall id).done = 0
  · cases hopen : s.socket.isOpen with
    | false =>
        exact ⟨_, Or.inr (asyncDoneHandler_closed hfirst hopen), hnoted, hnote.trans hcount⟩
    | true =>
        have haborted : id ∈ (Peer.abortOperations ((s.modifyTimed id fun call =>
            { call with done := call.done + 1 }).modifyTimed id
              fun call => { call with error := ec })).timedCalls.map TimedCall.id := hnoted
        obtain ⟨hcanceled, hcancel⟩ := locals_modifyTimed_same cancelTimer_id cancelTimer_done
          cancelTimer_size cancelTimer_timer haborted
        refine ⟨_, Or.inl (asyncDoneHandler_first hfirst hopen), hcanceled, ?_⟩
        exact hcancel.trans ((locals_of_timedCalls rfl).trans (hnote.trans hcount))
  · exact ⟨_, Or.inl (asyncDoneHandler_second hfirst), hcounted, hcount⟩

private theorem locals_complete {completion : Completion}
    (hpresent : id ∈ s.timedCalls.map TimedCall.id)
    (h : stimulate s (.complete id completion) = some s') :
    id ∈ s'.timedCalls.map TimedCall.id ∧ locals id s' = locals id s := by
  simp only [stimulate] at h
  split at h
  · rename_i op hop
    cases h
    obtain ⟨-, hid, -⟩ := pendingOperation_eq_some hop
    by_cases hreceive : op.purpose = .timedReceive
    · have hcalls : (s.complete op completion).timedCalls = (s.modifyTimed id fun call =>
          { call with endpoint := completion.sender }).timedCalls := by
        rw [← hid]
        exact if_pos hreceive
      obtain ⟨hsent, hsend⟩ := locals_modifyTimed_same (s := s)
        (f := fun call => { call with endpoint := completion.sender }) (fun _ => rfl)
        (fun _ => rfl) (fun _ => rfl) (fun _ => Iff.rfl) hpresent
      exact ⟨hcalls ▸ hsent, (locals_of_timedCalls hcalls).trans hsend⟩
    · have hcalls : (s.complete op completion).timedCalls = s.timedCalls := if_neg hreceive
      exact ⟨hcalls ▸ hpresent, locals_of_timedCalls hcalls⟩
  · cases h

private theorem locals_expire (hpresent : id ∈ s.timedCalls.map TimedCall.id)
    (h : stimulate s (.expire id) = some s') :
    id ∈ s'.timedCalls.map TimedCall.id ∧ locals id s' = locals id s := by
  simp only [stimulate] at h
  split at h
  · rename_i harmed
    cases h
    obtain ⟨hexpired, hexpire⟩ := locals_modifyTimed (s := s)
      (f := fun call => { call with timer := .fired .success }) (fun _ => rfl) hpresent
    refine ⟨hexpired, hexpire.trans ?_⟩
    simp [locals, harmed.1]
  · cases h

private theorem locals_timerHandler (ec : ErrorCode)
    (hpresent : id ∈ s.timedCalls.map TimedCall.id) :
    id ∈ (timedTimerHandler id ec s).reached.timedCalls.map TimedCall.id ∧
      locals id (timedTimerHandler id ec s).reached =
        ⟨(locals id s).done + 1, (locals id s).size, true⟩ := by
  obtain ⟨hhandled, hhandle⟩ := locals_modifyTimed (s := s)
    (f := fun call => { call with timer := .handled }) (fun _ => rfl) hpresent
  obtain ⟨s', houtcome, hpresent', hlocals⟩ :=
    asyncDoneHandler_locals hhandled (if ec.failed then ec else .timedOut)
  have hreached : (timedTimerHandler id ec s).reached = s' := by
    rw [timedTimerHandler, bind_apply]
    change (asyncDoneHandler id _ _).reached = s'
    rcases houtcome with h | h
    · rw [h]
      rfl
    · rw [h]
      rfl
  rw [hreached]
  refine ⟨hpresent', hlocals.trans ?_⟩
  rw [hhandle]
  simp [locals]

end Locals

/-! ## What a step can do -/

namespace SocketHandler

def bytes : SocketHandler → Nat
  | due => 0
  | counted completion | assigned completion | unwound completion => completion.size

def stored : SocketHandler → Nat
  | assigned completion => completion.size
  | _ => 0

def assigning : SocketHandler → Bool
  | counted _ => true
  | _ => false

/-- The bytes of the operation that the handler has not assigned yet, or never will, having
thrown. -/
def withheld : SocketHandler → Nat
  | counted completion | unwound completion => completion.size
  | _ => 0

def ran : SocketHandler → Nat
  | due => 0
  | _ => 1

theorem stored_add_withheld (handler : SocketHandler) :
    handler.stored + handler.withheld = handler.bytes := by
  cases handler <;> simp [stored, withheld, bytes]

end SocketHandler

inductive Advances (l : Locals) : Caller → Caller → Prop where
  | wake (hdone : l.done = 2) : Advances l .blocked .awake
  | count : Advances l .awake (.counted l.size)
  | skip : Advances l .awake (.reported l.size)
  | report (added : Nat) : Advances l (.counted added) (.reported added)
  | ret (added : Nat) : Advances l (.reported added) (.returned added l.size)

inductive Change (id : Nat) (r r' : State δ) : Action → Prop where
  | environment {action : Action} (haction : action ≠ .caller) (hsocket : r'.socket = r.socket)
      (hcaller : r'.caller = r.caller) (hlate : r'.late = r.late)
      (hlocals : locals id r'.world = locals id r.world) : Change id r r' action
  | timer (hsocket : r'.socket = r.socket) (hcaller : r'.caller = r.caller)
      (hlate : r'.late = (r.late || r.caller.isReturned))
      (hbefore : (locals id r.world).handled = false)
      (hlocals : locals id r'.world =
        ⟨(locals id r.world).done + 1, (locals id r.world).size, true⟩) :
      Change id r r' .timer
  | lock (completion : Completion) (hdue : r.socket = .due)
      (hsocket : r'.socket = .counted completion ∨ r'.socket = .unwound completion)
      (hcaller : r'.caller = r.caller) (hlate : r'.late = (r.late || r.caller.isReturned))
      (hlocals : locals id r'.world =
        { locals id r.world with done := (locals id r.world).done + 1 }) :
      Change id r r' .lock
  | assign (completion : Completion) (hcounted : r.socket = .counted completion)
      (hsocket : r'.socket = .assigned completion)
      (hcaller : r'.caller = r.caller) (hlate : r'.late = (r.late || r.caller.isReturned))
      (hlocals : locals id r'.world = { locals id r.world with size := completion.size }) :
      Change id r r' .assign
  | caller (hsocket : r'.socket = r.socket) (hlate : r'.late = r.late)
      (hlocals : locals id r'.world = locals id r.world)
      (hadvances : Advances (locals id r.world) r.caller r'.caller) : Change id r r' .caller

section Steps

variable {id : Nat} {kind : TimedKind} {r r' : State δ}

private theorem callerStep_change (h : callerStep id kind r = some r') :
    r'.world.timedCalls = r.world.timedCalls ∧ Change id r r' .caller := by
  have hsame {s s' : Peer δ} (h : s'.timedCalls = s.timedCalls) : locals id s' = locals id s :=
    locals_of_timedCalls h
  simp only [callerStep] at h
  split at h
  · rename_i hcaller
    split at h
    · rename_i hdone
      cases h
      refine ⟨rfl, .caller rfl rfl rfl ?_⟩
      rw [hcaller]
      exact .wake hdone
    · cases h
  · rename_i hcaller
    split at h
    · cases h
      have hcalls : (kind.count r.world (r.world.timedCall id).size).timedCalls =
          r.world.timedCalls := by
        cases kind <;> rfl
      refine ⟨hcalls, .caller rfl rfl (hsame hcalls) ?_⟩
      rw [hcaller]
      exact .count
    · rename_i hsilent
      cases h
      have hsize : 0 = (locals id r.world).size := by
        cases kind with
        | send endpoint =>
            have : ¬0 < (r.world.timedCall id).size := by
              simpa [TimedKind.reports] using hsilent
            exact (Nat.eq_zero_of_not_pos this).symm
        | receive endpoint => exact absurd rfl hsilent
      refine ⟨rfl, .caller rfl rfl rfl ?_⟩
      rw [hcaller]
      change Advances _ _ (.reported 0)
      rw [hsize]
      exact .skip
  · rename_i added hcaller
    cases h
    refine ⟨rfl, .caller rfl rfl (hsame rfl) ?_⟩
    rw [hcaller]
    exact .report added
  · rename_i added hcaller
    cases h
    refine ⟨rfl, .caller rfl rfl rfl ?_⟩
    rw [hcaller]
    exact .ret added
  · cases h

theorem step_change {action : Action} (hpresent : id ∈ r.world.timedCalls.map TimedCall.id)
    (h : step id kind r action = some r') :
    id ∈ r'.world.timedCalls.map TimedCall.id ∧ Change id r r' action := by
  cases action with
  | complete completion =>
      obtain ⟨s, hs, rfl⟩ := Option.map_eq_some_iff.mp h
      obtain ⟨hpresent', hlocals⟩ := locals_complete hpresent hs
      exact ⟨hpresent', .environment (by simp) rfl rfl rfl hlocals⟩
  | expire =>
      obtain ⟨s, hs, rfl⟩ := Option.map_eq_some_iff.mp h
      obtain ⟨hpresent', hlocals⟩ := locals_expire hpresent hs
      exact ⟨hpresent', .environment (by simp) rfl rfl rfl hlocals⟩
  | close =>
      cases h
      exact ⟨hpresent, .environment (by simp) rfl rfl rfl (locals_of_timedCalls rfl)⟩
  | timer =>
      simp only [step] at h
      split at h
      · rename_i ec hfired
        cases h
        obtain ⟨hpresent', hlocals⟩ := locals_timerHandler ec hpresent
        refine ⟨hpresent', .timer rfl rfl rfl ?_ hlocals⟩
        unfold Peer.firedTimer at hfired
        split at hfired
        · rename_i htimer
          simp [locals, htimer]
        · cases hfired
      · cases h
  | lock =>
      simp only [step] at h
      split at h
      · rename_i op completion hdue hlookup
        obtain ⟨-, hid, -⟩ := mem_of_completedOperation hlookup
        have hremoved : id ∈ (r.world.removeOperation op).timedCalls.map TimedCall.id := hpresent
        obtain ⟨s, houtcome, hpresent', hlocals⟩ :=
          asyncDoneHandler_locals hremoved completion.error
        rw [hid] at h
        rcases houtcome with houtcome | houtcome
        · rw [houtcome] at h
          cases h
          exact ⟨hpresent', .lock completion hdue (Or.inl rfl) rfl rfl hlocals⟩
        · rw [houtcome] at h
          cases h
          exact ⟨hpresent', .lock completion hdue (Or.inr rfl) rfl rfl hlocals⟩
      · cases h
  | assign =>
      simp only [step] at h
      split at h
      · rename_i completion hcounted
        cases h
        obtain ⟨hpresent', hlocals⟩ := locals_modifyTimed (s := r.world)
          (f := fun call => { call with size := completion.size }) (fun _ => rfl) hpresent
        exact ⟨hpresent', .assign completion hcounted rfl rfl rfl hlocals⟩
      · cases h
  | caller =>
      obtain ⟨hcalls, hchange⟩ := callerStep_change h
      exact ⟨hcalls ▸ hpresent, hchange⟩

/-! ## Runs of a call -/

structure Coherent (id : Nat) (r : State δ) : Prop where
  present : id ∈ r.world.timedCalls.map TimedCall.id
  size : (locals id r.world).size = r.socket.stored
  done : (locals id r.world).done =
    r.socket.ran + if (locals id r.world).handled then 1 else 0
  woken : r.caller ≠ .blocked → r.socket ≠ .due ∧ (locals id r.world).handled = true

private theorem coherent_start {s : Peer δ} (hs : Accounted s) (hrun : s.running = true)
    (kind : TimedKind) : Coherent s.issued (start kind s) := by
  have hcalled := during_called hs hrun kind.purpose kind.endpoint
  have hlocals : locals s.issued (start kind s).world = ⟨0, 0, false⟩ := by
    rw [locals, start, hcalled.call]
    rfl
  refine ⟨hcalled.present, ?_, ?_, fun h => absurd rfl h⟩
  · rw [hlocals]
    rfl
  · rw [hlocals]
    rfl

theorem Advances.woken {l : Locals} {caller caller' : Caller} (h : Advances l caller caller')
    (hblocked : caller = .blocked) : l.done = 2 := by
  cases h with
  | wake hdone => exact hdone
  | _ => cases hblocked

theorem coherent_change {action : Action} (hpresent : id ∈ r'.world.timedCalls.map TimedCall.id)
    (h : Change id r r' action) (hr : Coherent id r) : Coherent id r' := by
  cases h with
  | environment _ hsocket hcaller hlate hlocals =>
      refine ⟨hpresent, ?_, ?_, ?_⟩
      · rw [hlocals, hsocket, hr.size]
      · rw [hlocals, hsocket, hr.done]
      · rw [hlocals, hsocket, hcaller]
        exact hr.woken
  | timer hsocket hcaller hlate hbefore hlocals =>
      refine ⟨hpresent, ?_, ?_, fun hwoken => ?_⟩
      · rw [hlocals, hsocket]
        exact hr.size
      · have hdone := hr.done
        rw [hbefore] at hdone
        rw [hlocals, hsocket]
        simpa using hdone
      · rw [hcaller] at hwoken
        rw [hlocals, hsocket]
        exact ⟨(hr.woken hwoken).1, rfl⟩
  | lock completion hdue hsocket hcaller hlate hlocals =>
      have hblocked : r'.caller = .blocked := by
        by_contra hwoken
        rw [hcaller] at hwoken
        exact (hr.woken hwoken).1 hdue
      have hsize := hr.size
      have hdone := hr.done
      rw [hdue] at hsize hdone
      refine ⟨hpresent, ?_, ?_, fun hwoken => absurd hblocked hwoken⟩
      · rw [hlocals]
        rcases hsocket with h | h <;> rw [h] <;> exact hsize
      · rw [hlocals]
        rcases hsocket with h | h <;> simp only [h, hdone, SocketHandler.ran] <;> omega
  | assign completion hcounted hsocket hcaller hlate hlocals =>
      have hdone := hr.done
      rw [hcounted] at hdone
      refine ⟨hpresent, ?_, ?_, fun hwoken => ?_⟩
      · rw [hlocals, hsocket]
        rfl
      · rw [hlocals, hsocket]
        exact hdone
      · rw [hcaller] at hwoken
        rw [hlocals, hsocket]
        exact ⟨by simp, (hr.woken hwoken).2⟩
  | caller hsocket hlate hlocals hadvances =>
      refine ⟨hpresent, ?_, ?_, fun hwoken => ?_⟩
      · rw [hlocals, hsocket, hr.size]
      · rw [hlocals, hsocket, hr.done]
      · rw [hlocals, hsocket]
        by_cases hblocked : r.caller = .blocked
        · -- the caller wakes up: both handlers are counted
          have hcount := hr.done
          rw [hadvances.woken hblocked] at hcount
          cases hsocket' : r.socket <;> cases hhandled : (locals id r.world).handled <;>
            simp_all [SocketHandler.ran]
        · exact hr.woken hblocked

theorem coherent_step {action : Action} (hr : Coherent id r)
    (h : step id kind r action = some r') : Coherent id r' := by
  obtain ⟨hpresent, hchange⟩ := step_change hr.present h
  exact coherent_change hpresent hchange hr

def Caller.added : Caller → Option Nat
  | .counted added | .reported added | .returned added _ => some added
  | _ => none

/--
No byte is withheld when the caller first reads the byte count, and it does not return
while the assignment is still to come.
-/
def readsInTime (t : Transition (State δ) Action) : Bool :=
  match t.move, t.pre.caller with
  | .caller, .awake => t.pre.socket.withheld == 0
  | .caller, .reported _ => !t.pre.socket.assigning
  | _, _ => true

structure Complete (r : State δ) : Prop where
  returned : r.caller.isReturned = true
  ended : r.socket.assigning = false

/-- The caller has counted and returned what the operation completed with, and no handler
has touched its locals since. -/
structure Faithful (r : State δ) : Prop where
  result : ∀ added value, r.caller = .returned added value →
    added = r.socket.bytes ∧ value = r.socket.bytes
  late : r.late = false

structure InTime (id : Nat) (r : State δ) : Prop where
  coherent : Coherent id r
  added : ∀ added, r.caller.added = some added →
    added = r.socket.bytes ∧ r.socket.stored = r.socket.bytes
  returned : ∀ added value, r.caller = .returned added value →
    value = r.socket.bytes ∧ r.socket.assigning = false
  late : r.late = false

theorem Advances.added {l : Locals} {caller caller' : Caller} (h : Advances l caller caller')
    {added : Nat} (hadded : caller'.added = some added) :
    caller.added = some added ∨ caller = .awake ∧ added = l.size := by
  cases h with
  | wake hdone => cases hadded
  | count => exact Or.inr ⟨rfl, (Option.some.inj hadded).symm⟩
  | skip => exact Or.inr ⟨rfl, (Option.some.inj hadded).symm⟩
  | report added => exact Or.inl hadded
  | ret added => exact Or.inl hadded

theorem Advances.returned {l : Locals} {caller caller' : Caller} (h : Advances l caller caller')
    {added value : Nat} (hvalue : caller' = .returned added value) :
    caller = .reported added ∧ value = l.size := by
  cases h with
  | ret added =>
      cases hvalue
      exact ⟨rfl, rfl⟩
  | _ => cases hvalue

theorem inTime_step (t : Transition (State δ) Action) (hr : InTime id t.pre)
    (h : step id kind t.pre t.move = some t.post) (htime : readsInTime t = true) :
    InTime id t.post := by
  obtain ⟨hpresent, hchange⟩ := step_change hr.coherent.present h
  have hcoherent := coherent_change hpresent hchange hr.coherent
  have hsize := hr.coherent.size
  generalize hmove : t.move = action at hchange
  cases hchange with
  | environment _ hsocket hcaller hlate hlocals =>
      refine ⟨hcoherent, ?_, ?_, hlate.trans hr.late⟩
      · rw [hcaller, hsocket]
        exact hr.added
      · rw [hcaller, hsocket]
        exact hr.returned
  | timer hsocket hcaller hlate hbefore hlocals =>
      -- a caller that is awake has seen this handler counted
      have hblocked : t.pre.caller = .blocked := by
        by_contra hwoken
        have hhandled := (hr.coherent.woken hwoken).2
        rw [hbefore] at hhandled
        cases hhandled
      rw [hblocked] at hcaller hlate
      refine ⟨hcoherent, ?_, ?_, by simp [hlate, hr.late, Caller.isReturned]⟩
      · simp [hcaller, Caller.added]
      · simp [hcaller]
  | lock completion hdue hsocket hcaller hlate hlocals =>
      have hblocked : t.pre.caller = .blocked := by
        by_contra hwoken
        exact (hr.coherent.woken hwoken).1 hdue
      rw [hblocked] at hcaller hlate
      refine ⟨hcoherent, ?_, ?_, by simp [hlate, hr.late, Caller.isReturned]⟩
      · simp [hcaller, Caller.added]
      · simp [hcaller]
  | assign completion hcounted hsocket hcaller hlate hlocals =>
      have hpending : ∀ added value, t.pre.caller ≠ .returned added value := by
        intro added value hreturned
        have hended := (hr.returned added value hreturned).2
        rw [hcounted] at hended
        cases hended
      refine ⟨hcoherent, fun added hadded => ?_, fun added value hreturned => ?_, ?_⟩
      · rw [hcaller] at hadded
        have hbytes := (hr.added added hadded).1
        rw [hcounted] at hbytes
        rw [hsocket]
        exact ⟨hbytes, rfl⟩
      · rw [hcaller] at hreturned
        exact absurd hreturned (hpending added value)
      · rw [hlate, hr.late]
        cases hcall : t.pre.caller with
        | returned added value => exact absurd hcall (hpending added value)
        | _ => rfl
  | caller hsocket hlate hlocals hadvances =>
      refine ⟨hcoherent, fun added hadded => ?_, fun added value hreturned => ?_,
        hlate.trans hr.late⟩
      · rw [hsocket]
        rcases hadvances.added hadded with hbefore | ⟨hawake, rfl⟩
        · exact hr.added added hbefore
        · have hwithheld : t.pre.socket.withheld = 0 := by
            simpa [readsInTime, hmove, hawake] using htime
          have hstored : t.pre.socket.stored = t.pre.socket.bytes := by
            rw [← t.pre.socket.stored_add_withheld, hwithheld, Nat.add_zero]
          exact ⟨hsize.trans hstored, hstored⟩
      · obtain ⟨hreported, rfl⟩ := hadvances.returned hreturned
        have hended : t.pre.socket.assigning = false := by
          simpa [readsInTime, hmove, hreported] using htime
        have hstored := (hr.added added (by rw [hreported]; rfl)).2
        rw [hsocket]
        exact ⟨hsize.trans hstored, hended⟩

def Spoiled (r : State δ) : Prop :=
  (∃ added, r.caller.added = some added ∧ added ≠ r.socket.bytes) ∨
    r.caller.isReturned = true ∧ r.socket.assigning = true ∨ r.late = true

theorem Advances.read {l : Locals} {caller caller' : Caller} (h : Advances l caller caller')
    (hawake : caller = .awake) : caller'.added = some l.size := by
  cases h with
  | count => rfl
  | skip => rfl
  | _ => cases hawake

theorem Advances.isReturned {l : Locals} {caller caller' : Caller}
    (h : Advances l caller caller') {added : Nat} (hreported : caller = .reported added) :
    caller'.isReturned = true := by
  cases h with
  | ret added => rfl
  | _ => cases hreported

theorem Advances.added_kept {l : Locals} {caller caller' : Caller}
    (h : Advances l caller caller') {added : Nat} (hadded : caller.added = some added) :
    caller'.added = some added := by
  cases h with
  | report added => exact hadded
  | ret added => exact hadded
  | _ => cases hadded

theorem Advances.not_returned {l : Locals} {caller caller' : Caller}
    (h : Advances l caller caller') : caller.isReturned = false := by
  cases h <;> rfl

theorem Change.advances (h : Change id r r' .caller) :
    r'.socket = r.socket ∧ r'.late = r.late ∧ Advances (locals id r.world) r.caller r'.caller := by
  cases h with
  | environment haction => exact absurd rfl haction
  | caller hsocket hlate hlocals hadvances => exact ⟨hsocket, hlate, hadvances⟩

private theorem spoiled_of_late (t : Transition (State δ) Action) (hr : Coherent id t.pre)
    (h : step id kind t.pre t.move = some t.post) (htime : readsInTime t = false) :
    Spoiled t.post := by
  obtain ⟨hpresent, hchange⟩ := step_change hr.present h
  unfold readsInTime at htime
  split at htime
  · rename_i hmove hawake
    rw [hmove] at hchange
    obtain ⟨hsocket, -, hadvances⟩ := hchange.advances
    refine Or.inl ⟨_, hadvances.read hawake, ?_⟩
    have hwithheld : t.pre.socket.withheld ≠ 0 := by simpa using htime
    have hbytes := t.pre.socket.stored_add_withheld
    rw [hr.size, hsocket]
    omega
  · rename_i hmove hreported
    rw [hmove] at hchange
    obtain ⟨hsocket, -, hadvances⟩ := hchange.advances
    refine Or.inr (Or.inl ⟨hadvances.isReturned hreported, ?_⟩)
    rw [hsocket]
    simpa using htime
  · cases htime

theorem spoiled_step (t : Transition (State δ) Action) (hr : Coherent id t.pre)
    (h : step id kind t.pre t.move = some t.post) (hspoiled : Spoiled t.pre) :
    Spoiled t.post := by
  obtain ⟨hpresent, hchange⟩ := step_change hr.present h
  generalize hmove : t.move = action at hchange
  cases hchange with
  | environment _ hsocket hcaller hlate hlocals =>
      rw [Spoiled, hsocket, hcaller, hlate]
      exact hspoiled
  | timer hsocket hcaller hlate hbefore hlocals =>
      rw [Spoiled, hsocket, hcaller, hlate]
      exact hspoiled.imp_right (Or.imp_right fun h => by rw [h]; rfl)
  | lock completion hdue hsocket hcaller hlate hlocals =>
      rcases hspoiled with ⟨added, hadded, -⟩ | ⟨-, hassigning⟩ | hpast
      · have hwoken : t.pre.caller ≠ .blocked := fun h => by
          rw [h] at hadded
          cases hadded
        exact absurd hdue (hr.woken hwoken).1
      · rw [hdue] at hassigning
        cases hassigning
      · exact Or.inr (Or.inr (by rw [hlate, hpast]; rfl))
  | assign completion hcounted hsocket hcaller hlate hlocals =>
      rcases hspoiled with ⟨added, hadded, hne⟩ | ⟨hreturned, -⟩ | hpast
      · refine Or.inl ⟨added, hcaller ▸ hadded, ?_⟩
        rw [hcounted] at hne
        rw [hsocket]
        exact hne
      · exact Or.inr (Or.inr (by rw [hlate, hreturned, Bool.or_true]))
      · exact Or.inr (Or.inr (by rw [hlate, hpast]; rfl))
  | caller hsocket hlate hlocals hadvances =>
      rcases hspoiled with ⟨added, hadded, hne⟩ | ⟨hreturned, -⟩ | hpast
      · exact Or.inl ⟨added, hadvances.added_kept hadded, hsocket ▸ hne⟩
      · rw [hadvances.not_returned] at hreturned
        cases hreturned
      · exact Or.inr (Or.inr (hlate.trans hpast))

theorem Spoiled.not_faithful (h : Spoiled r) (hcomplete : Complete r) : ¬Faithful r := by
  intro hfaithful
  rcases h with ⟨added, hadded, hne⟩ | ⟨-, hassigning⟩ | hlate
  · have hreturned := hcomplete.returned
    cases hcaller : r.caller with
    | returned added' value =>
        rw [hcaller] at hadded
        cases hadded
        exact hne (hfaithful.result _ _ hcaller).1
    | _ => simp [hcaller, Caller.isReturned] at hreturned
  · rw [hcomplete.ended] at hassigning
    cases hassigning
  · rw [hfaithful.late] at hlate
    cases hlate

theorem faithful_iff_readsInTime {s : Peer δ} (hs : Accounted s) (hrun : s.running = true)
    {actions : List Action}
    (hactions : Steps.run (step s.issued kind) (start kind s) actions = some r)
    (hcomplete : Complete r) :
    Faithful r ↔
      ∀ t ∈ Steps.trace (step s.issued kind) (start kind s) actions, readsInTime t = true := by
  have hstart := coherent_start hs hrun kind
  constructor
  · intro hfaithful t ht
    have hpre := Steps.trace_invariant (P := fun _ => True)
      (fun t hpre hstep _ => coherent_step hpre hstep) hstart (fun _ _ => trivial) t ht
    cases htime : readsInTime t with
    | true => rfl
    | false =>
        obtain ⟨rest, hrest⟩ := Steps.run_after hactions ht
        have hspoiled := Steps.states_invariant (P := fun _ => True)
          (I := fun r => Coherent s.issued r ∧ Spoiled r)
          (fun t hpre hstep _ => ⟨coherent_step hpre.1 hstep,
            spoiled_step t hpre.1 hstep hpre.2⟩)
          ⟨hpre.2.2, spoiled_of_late t hpre.1 hpre.2.1 htime⟩ (fun _ _ => trivial) r
          (Steps.run_mem_states hrest)
        exact absurd hfaithful (hspoiled.2.not_faithful hcomplete)
  · intro htime
    have hfinal := Steps.states_invariant (I := InTime s.issued)
      (P := fun t => readsInTime t = true) (fun t => inTime_step t)
      ⟨hstart, fun _ h => (nomatch h), fun _ _ h => (nomatch h), rfl⟩ htime r
      (Steps.run_mem_states hactions)
    refine ⟨fun added value hreturned => ?_, hfinal.late⟩
    exact ⟨(hfinal.added added (by rw [hreturned]; rfl)).1,
      (hfinal.returned added value hreturned).1⟩

/-! ### Uninterrupted steps -/

/-- Without a step in between, the handler of the operation is the one of the model in
which handlers are not interrupted. -/
theorem lock_assign_eq {r₁ r₂ : State δ} (hlock : step id kind r .lock = some r₁)
    (hassign : step id kind r₁ .assign = some r₂) :
    ∃ op completion, r.world.completedOperation id = some (op, completion) ∧
      timedSocketHandler op completion r.world = .ret () r₂.world := by
  simp only [step] at hlock
  split at hlock
  · rename_i op completion hdue hlookup
    obtain ⟨-, rfl, -⟩ := mem_of_completedOperation hlookup
    refine ⟨op, completion, hlookup, ?_⟩
    rw [timedSocketHandler, bind_apply]
    change (asyncDoneHandler op.id completion.error (r.world.removeOperation op)).bind _ = _
    split at hlock
    · rename_i s houtcome
      cases hlock
      cases hassign
      rw [houtcome]
      rfl
    · cases hlock
      cases hassign
  · cases hlock

theorem caller_alone (hawake : r.caller = .awake) :
    ∃ n r', Steps.run (step id kind) r (List.replicate n .caller) = some r' ∧
      r'.caller = .returned (r.world.timedCall id).size (r.world.timedCall id).size ∧
      r'.world.log = r.world.log ++ kind.report (r.world.timedCall id) := by
  obtain ⟨world, socket, caller, late⟩ := r
  cases hawake
  cases kind with
  | receive endpoint => exact ⟨3, _, rfl, rfl, rfl⟩
  | send endpoint =>
      by_cases hsize : (world.timedCall id).size > 0
      · refine ⟨3, ⟨(world.countSent (world.timedCall id).size).logged
          (.onSent endpoint (world.timedCall id).size), socket,
          .returned (world.timedCall id).size (world.timedCall id).size, late⟩, ?_, rfl, ?_⟩
        · simp only [List.replicate, Steps.run, step, callerStep, TimedKind.reports, hsize,
            decide_true, if_true]
          rfl
        · simp [TimedKind.report, sentReport, hsize, Peer.logged, Peer.countSent]
      · refine ⟨2, ⟨world, socket, .returned 0 (world.timedCall id).size, late⟩, ?_, ?_, ?_⟩
        · simp [Steps.run, step, callerStep, TimedKind.reports, hsize]
        · simp only [Nat.eq_zero_of_not_pos hsize]
        · simp [TimedKind.report, sentReport, hsize]

end Steps

end Race

/--
A timed call returns and counts what its operation completed with, and is not written to
after it has returned, exactly if no byte was withheld at its first read and it did not
return ahead of the assignment.
-/
theorem timed_call_result_iff (net : Net) :
    (∀ s₀, Client.Constructed s₀ → ∀ ms c,
      (Client.system net).run (.initial s₀) ms = some c → c.world.running = true →
      ∀ kind actions r,
        Steps.run (Race.step c.world.issued kind) (Race.start kind c.world) actions = some r →
        Race.Complete r →
        (Race.Faithful r ↔
          ∀ t ∈ Steps.trace (Race.step c.world.issued kind) (Race.start kind c.world) actions,
            Race.readsInTime t = true)) ∧
    (∀ s₀, Server.Constructed net s₀ → ∀ ms c,
      (Server.system net).run (.initial s₀) ms = some c → c.world.running = true →
      ∀ kind actions r,
        Steps.run (Race.step c.world.issued kind) (Race.start kind c.world) actions = some r →
        Race.Complete r →
        (Race.Faithful r ↔
          ∀ t ∈ Steps.trace (Race.step c.world.issued kind) (Race.start kind c.world) actions,
            Race.readsInTime t = true)) := by
  constructor
  · intro s₀ hs₀ ms c hreach hrun kind actions r hactions hcomplete
    obtain ⟨endpoint, own, rfl, -⟩ := hs₀.fresh
    have hwatched := watched_run (Client.modelled net) (Client.system_timed net) endpoint own hreach
    exact Race.faithful_iff_readsInTime hwatched.accounted hrun hactions hcomplete
  · intro s₀ hs₀ ms c hreach hrun kind actions r hactions hcomplete
    obtain ⟨endpoint, own, rfl, -⟩ := hs₀.fresh
    have hwatched := watched_run (Server.modelled net) (Server.system_timed net) endpoint own hreach
    exact Race.faithful_iff_readsInTime hwatched.accounted hrun hactions hcomplete

def Race.uninterrupted : List Race.Action :=
  [.complete ⟨.success, 1, default⟩, .lock, .assign, .timer, .caller, .caller, .caller, .caller]

theorem timed_call_result_iff_uninterrupted :
    (∃ c r, (Client.system .loopback).run (.initial (Client.ofAddressPort "127.0.0.1" 5000))
        [.call (.connect (.clean 4)) none] = some c ∧
      Steps.run (Race.step c.world.issued (.receive default))
        (Race.start (.receive default) c.world)
        Race.uninterrupted = some r ∧
      r.caller = .returned 1 1 ∧ r.world.bytesReceived = 1 ∧ Race.Faithful r) ∧
    (∃ c r, (Server.system .loopback).run (.initial (Server.ofPort 5000 .ipv4))
        [.call .start none, .handler (.posted 0 (.clean 4)), .resume 1] = some c ∧
      Steps.run (Race.step c.world.issued (.send default)) (Race.start (.send default) c.world)
        Race.uninterrupted = some r ∧
      r.caller = .returned 1 1 ∧ r.world.bytesSent = 1 ∧ Race.Faithful r) := by
  refine ⟨⟨_, _, rfl, rfl, rfl, rfl, ?_⟩, _, _, rfl, rfl, rfl, rfl, ?_⟩
  · exact ((timed_call_result_iff .loopback).1 _ (.ofAddressPort "127.0.0.1" 5000)
      [.call (.connect (.clean 4)) none] _ rfl rfl (.receive default)
      Race.uninterrupted _ rfl ⟨rfl, rfl⟩).mpr (List.all_eq_true.mp rfl)
  · exact ((timed_call_result_iff .loopback).2 _ (.ofPort 5000 .ipv4)
      [.call .start none, .handler (.posted 0 (.clean 4)), .resume 1] _ rfl rfl (.send default)
      Race.uninterrupted _ rfl ⟨rfl, rfl⟩).mpr (List.all_eq_true.mp rfl)

/--
One byte arrives, and the caller wakes up between the two steps of the handler: it adds
and returns nothing, and the handler then writes to locals that are gone.
-/
theorem timed_call_loses_result :
    (∃ c r, (Client.system .loopback).run (.initial (Client.ofAddressPort "127.0.0.1" 5000))
        [.call (.connect (.clean 4)) none] = some c ∧
      Steps.run (Race.step c.world.issued (.receive default))
        (Race.start (.receive default) c.world)
        [.complete ⟨.success, 1, default⟩, .lock, .timer, .caller, .caller, .caller, .caller,
          .assign] = some r ∧
      Race.Complete r ∧ r.socket.bytes = 1 ∧ r.caller = .returned 0 0 ∧ r.late = true ∧
      ¬Race.Faithful r) ∧
    (∃ c r, (Server.system .loopback).run (.initial (Server.ofPort 5000 .ipv4))
        [.call .start none, .handler (.posted 0 (.clean 4)), .resume 1] = some c ∧
      Steps.run (Race.step c.world.issued (.send default)) (Race.start (.send default) c.world)
        [.complete ⟨.success, 1, default⟩, .lock, .timer, .caller, .caller, .caller,
          .assign] = some r ∧
      Race.Complete r ∧ r.socket.bytes = 1 ∧ r.caller = .returned 0 0 ∧ r.late = true ∧
      ¬Race.Faithful r) := by
  refine ⟨⟨_, _, rfl, rfl, ⟨rfl, rfl⟩, rfl, rfl, rfl, fun h => ?_⟩,
    _, _, rfl, rfl, ⟨rfl, rfl⟩, rfl, rfl, rfl, fun h => ?_⟩
  · exact nomatch h.late
  · exact nomatch h.late

end AsioWrapper.Udp
