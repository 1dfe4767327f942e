import AsioWrapper.Asio.IoService
import AsioWrapper.Asio.Socket
import AsioWrapper.Foundation.Steps
import Mathlib.Algebra.BigOperators.Fin

/-!
# The service and its worker threads

The handlers `Start` and `Stop` post, the worker loops of `ServiceThread` and
the thread that calls `Start`, `Stop` and `Restart` take their steps in any
order.  The numbers of `io_service`s and of threads never change after the
construction.  A strand starts no handler while another one of its handlers
runs, so a handler that waits for its strand is not ready.
-/

namespace AsioWrapper.Service

open AsioWrapper.Asio
open AsioWrapper.Foundation

inductive Task where
  | start
  | stop
  | user
  deriving DecidableEq, Repr

/-- Where a handler is: before its first check, in the loop of the stop handler before the
given `io_service`, or in the callback it ends with. -/
inductive Job where
  | start
  | onStarted
  | stop
  | stopping (service : Nat)
  | onStopped
  | user
  deriving DecidableEq, Repr

def Task.job : Task → Job
  | start => .start
  | stop => .stop
  | user => .user

def Job.throws : Job → Bool
  | onStarted | onStopped | user => true
  | _ => false

inductive Worker where
  | absent
  | created
  | initialized (polling : Bool)
  | serving (polling : Bool)
  | running (polling : Bool) (strand : Option Nat) (job : Job)
  | checking (polling : Bool)
  | left
  | exited
  deriving DecidableEq, Repr

namespace Worker

def holdsWork : Worker → Bool
  | serving _ | running _ _ _ | checking _ => true
  | _ => false

def occupies (strand : Option Nat) : Worker → Bool
  | running _ held _ => strand.isSome && held == strand
  | _ => false

end Worker

inductive Call where
  | start (polling : Bool)
  | stop
  | restart
  deriving DecidableEq, Repr

/-- Where the calling thread is.  `Restart` hands the polling mode it will start with on
through `Stop`. -/
inductive Caller where
  | idle (returned : Option Bool)
  | start (polling : Bool)
  | posting
  | spawning (thread : Nat)
  | awaitingStart
  | stop (restart : Option Bool)
  | postingStop (restart : Option Bool)
  | joining (thread : Nat) (restart : Option Bool)
  | awaitingStop (restart : Option Bool)
  | renewing (polling : Bool)
  deriving DecidableEq, Repr

/-- `thrown` records that a handler has thrown, `generation` how often `Restart` has
replaced the `io_service`s. -/
structure State (m n : Nat) where
  services : Fin m → IoService Task
  threads : Fin n → Worker
  strandRequired : Bool
  polling : Bool
  started : Bool
  roundRobinIndex : Nat
  generation : Nat
  caller : Caller
  thrown : Bool

inductive Failure where
  | system (ec : ErrorCode)
  | other
  deriving DecidableEq, Repr

inductive Turn where
  | advance
  | take (strand : Option Nat)
  | throw (failure : Failure)
  deriving DecidableEq, Repr

inductive Move (m n : Nat) where
  | call (call : Call)
  | caller
  | worker (thread : Fin n) (turn : Turn)
  | submit (service : Fin m) (strand : Option Nat)
  | initiate (service : Fin m)
  | complete (service : Fin m) (strand : Option Nat)
  | getAsioService
  deriving DecidableEq, Repr

/-! ## Construction -/

def serviceCount (threads : Nat) (pool : Bool) : Nat :=
  if threads = 0 then 1 else if pool then 1 else threads

instance (threads : Nat) (pool : Bool) : NeZero (serviceCount threads pool) where
  out := by
    unfold serviceCount
    split
    · simp
    · split <;> simp_all

def ofThreads (threads : Nat) (pool : Bool) : State (serviceCount threads pool) threads where
  services _ := .fresh
  threads _ := .absent
  strandRequired := threads != 0 && pool
  polling := false
  started := false
  roundRobinIndex := 0
  generation := 0
  caller := .idle none
  thrown := false

variable {m n : Nat}

namespace State

/-! ## The state of the `io_service`s -/

def setThread (s : State m n) (i : Fin n) (w : Worker) : State m n :=
  { s with threads := Function.update s.threads i w }

def modifyService (s : State m n) (j : Fin m) (f : IoService Task → IoService Task) : State m n :=
  { s with services := Function.update s.services j (f (s.services j)) }

def strand (s : State m n) : Option Nat := if s.strandRequired then some 0 else none

variable [NeZero m]

def home (i : Fin n) : Fin m := Fin.ofNat m i

def post (s : State m n) (task : Task) : State m n :=
  s.modifyService 0 (.post ⟨s.strand, task⟩)

def busy (s : State m n) (j : Fin m) (strand : Option Nat) : Bool :=
  decide (∃ i, home i = j ∧ (s.threads i).occupies strand = true)

def quiescent (s : State m n) (j : Fin m) : Bool :=
  (s.services j).queue.all fun handler => s.busy j handler.strand

/-- No handler is queued, no operation outstanding and no `work` object alive: the count of
outstanding work is zero. -/
def workless (s : State m n) (j : Fin m) : Bool :=
  (s.services j).queue.isEmpty && (s.services j).operations == 0 &&
    decide (∀ i, home i = j → (s.threads i).holdsWork = false)

/-- Leaving the loop destroys the `work` object, which stops an `io_service` that has no
other work. -/
def leave (s : State m n) (i : Fin n) : State m n :=
  if (s.setThread i .left).workless (home i) then
    (s.setThread i .left).modifyService (home i) .stop
  else
    s.setThread i .left

end State

variable [NeZero m]

open State

/-! ## The steps of the calling thread -/

def callStep (s : State m n) : Call → Option (State m n)
  | .start polling =>
      match s.caller with
      | .idle _ => some { s with caller := .start polling }
      | _ => none
  | .stop =>
      match s.caller with
      | .idle _ => some { s with caller := .stop none }
      | _ => none
  | .restart =>
      match s.caller with
      | .idle _ => some { s with caller := .stop (some s.polling) }
      | _ => none

/-- The loops that wait for the flag take no step until it has changed.  Joining a thread
waits for its end. -/
def callerStep (s : State m n) : Option (State m n) :=
  match s.caller with
  | .idle _ => none
  | .start polling =>
      if s.started then
        some { s with caller := .idle (some false) }
      else
        some { s with polling := polling, roundRobinIndex := 0, caller := .posting }
  | .posting => some { s.post .start with caller := .spawning 0 }
  | .spawning thread =>
      if h : thread < n then
        some { s.setThread ⟨thread, h⟩ .created with caller := .spawning (thread + 1) }
      else
        some { s with caller := .awaitingStart }
  | .awaitingStart => if s.started then some { s with caller := .idle (some true) } else none
  | .stop restart =>
      if s.started then
        some { s with caller := .postingStop restart }
      else
        some { s with caller := .idle (some false) }
  | .postingStop restart => some { s.post .stop with caller := .joining 0 restart }
  | .joining thread restart =>
      if h : thread < n then
        if s.threads ⟨thread, h⟩ = .exited then
          some { s.setThread ⟨thread, h⟩ .absent with caller := .joining (thread + 1) restart }
        else
          none
      else
        some { s with polling := false, caller := .awaitingStop restart }
  | .awaitingStop restart =>
      if s.started then
        none
      else
        match restart with
        | none => some { s with caller := .idle (some true) }
        | some polling => some { s with caller := .renewing polling }
  | .renewing polling =>
      some { s with
        services := fun _ => .fresh
        generation := s.generation + 1
        caller := .start polling }

/-! ## The steps of a worker -/

def handlerStep (s : State m n) (i : Fin n) (polling : Bool) (strand : Option Nat) :
    Job → State m n
  | .start =>
      if s.started then
        s.setThread i (.serving polling)
      else
        { s.setThread i (.running polling strand .onStarted) with started := true }
  | .stop =>
      if s.started then
        s.setThread i (.running polling strand (.stopping 0))
      else
        s.setThread i (.serving polling)
  | .stopping service =>
      if h : service < m then
        (s.setThread i (.running polling strand (.stopping (service + 1)))).modifyService
          ⟨service, h⟩ .stop
      else
        { s.setThread i (.running polling strand .onStopped) with started := false }
  | .onStarted | .onStopped | .user => s.setThread i (.serving polling)

/-- The worker loop goes on after `not_connected`, and the thread ends with any other
`system_error`.  Everything else aborts the process. -/
def catchStep (s : State m n) (i : Fin n) (polling : Bool) : Failure → Option (State m n)
  | .system ec =>
      if ec = .notConnected then
        some { s.setThread i (.checking polling) with thrown := true }
      else
        some { s.leave i with thrown := true }
  | .other => none

/-- `run` returns once its `io_service` is stopped, `poll` also if no handler is ready. -/
def workerStep (s : State m n) (i : Fin n) (turn : Turn) : Option (State m n) :=
  match s.threads i, turn with
  | .created, .advance => some (s.setThread i (.initialized s.polling))
  | .initialized polling, .advance => some (s.setThread i (.serving polling))
  | .serving polling, .take strand =>
      if (s.services (home i)).stopped || s.busy (home i) strand then
        none
      else
        ((s.services (home i)).front strand).map fun handler =>
          (s.modifyService (home i) (.pop strand)).setThread i
            (.running polling strand handler.task.job)
  | .serving true, .advance =>
      if (s.services (home i)).stopped || s.quiescent (home i) then
        some (s.setThread i (.checking true))
      else
        none
  | .serving false, .advance =>
      if (s.services (home i)).stopped then some (s.leave i) else none
  | .running polling strand job, .advance => some (handlerStep s i polling strand job)
  | .running polling _ job, .throw failure =>
      if job.throws then catchStep s i polling failure else none
  | .checking polling, .advance =>
      if s.started then some (s.setThread i (.serving polling)) else some (s.leave i)
  | .left, .advance => some (s.setThread i .exited)
  | _, _ => none

def step (s : State m n) : Move m n → Option (State m n)
  | .call call => callStep s call
  | .caller => callerStep s
  | .worker i turn => workerStep s i turn
  | .submit j strand => some (s.modifyService j (.post ⟨strand, .user⟩))
  | .initiate j => some (s.modifyService j .initiate)
  | .complete j strand =>
      if (s.services j).operations = 0 then
        none
      else
        some (s.modifyService j (.complete ⟨strand, .user⟩))
  | .getAsioService => some { s with roundRobinIndex := (s.roundRobinIndex + 1) % 2 ^ 64 }

end AsioWrapper.Service
