import Mathlib.Data.List.Basic

/-!
# The queue of an `io_service`

Handlers posted outside any strand start in the order of their posting, and
so do the handlers of one strand, which moreover never overlap; between the
two nothing is promised.  A stopped `io_service` starts no handler.
-/

namespace AsioWrapper.Asio

structure Handler (τ : Type) where
  strand : Option Nat
  task : τ
  deriving DecidableEq, Repr

/-- `operations` counts the asynchronous operations that have not completed. -/
structure IoService (τ : Type) where
  stopped : Bool
  queue : List (Handler τ)
  operations : Nat
  deriving DecidableEq, Repr

namespace IoService

variable {τ : Type}

def fresh : IoService τ := ⟨false, [], 0⟩

def post (handler : Handler τ) (io : IoService τ) : IoService τ :=
  { io with queue := io.queue ++ [handler] }

def stop (io : IoService τ) : IoService τ := { io with stopped := true }

def initiate (io : IoService τ) : IoService τ := { io with operations := io.operations + 1 }

def complete (handler : Handler τ) (io : IoService τ) : IoService τ :=
  { io with queue := io.queue ++ [handler], operations := io.operations - 1 }

def front (strand : Option Nat) (io : IoService τ) : Option (Handler τ) :=
  io.queue.find? fun handler => handler.strand = strand

def pop (strand : Option Nat) (io : IoService τ) : IoService τ :=
  { io with queue := io.queue.eraseP fun handler => handler.strand = strand }

@[simp]
theorem post_stopped (handler : Handler τ) (io : IoService τ) :
    (io.post handler).stopped = io.stopped := rfl

@[simp]
theorem complete_stopped (handler : Handler τ) (io : IoService τ) :
    (io.complete handler).stopped = io.stopped := rfl

@[simp]
theorem pop_stopped (strand : Option Nat) (io : IoService τ) :
    (io.pop strand).stopped = io.stopped := rfl

theorem mem_of_front {strand : Option Nat} {io : IoService τ} {handler : Handler τ}
    (h : io.front strand = some handler) : handler ∈ io.queue ∧ handler.strand = strand := by
  refine ⟨List.mem_of_find?_eq_some h, ?_⟩
  simpa using List.find?_some h

theorem mem_of_mem_pop {strand : Option Nat} {io : IoService τ} {handler : Handler τ}
    (h : handler ∈ (io.pop strand).queue) : handler ∈ io.queue :=
  List.mem_of_mem_eraseP h

theorem queue_split {strand : Option Nat} {io : IoService τ} {next : Handler τ}
    (h : io.front strand = some next) :
    ∃ earlier later, io.queue = earlier ++ next :: later ∧
      (io.pop strand).queue = earlier ++ later := by
  obtain ⟨hstrand, earlier, later, hqueue, hearlier⟩ := List.find?_eq_some_iff_append.mp h
  refine ⟨earlier, later, hqueue, ?_⟩
  rw [pop, hqueue, List.eraseP_append_right _ (by simpa using hearlier)]
  simp only [List.eraseP_cons, hstrand, cond_true]

theorem front_of_singleton {io : IoService τ} {handler : Handler τ} (h : io.queue = [handler]) :
    io.front handler.strand = some handler ∧ (io.pop handler.strand).queue = [] := by
  simp [front, pop, h]

end IoService

end AsioWrapper.Asio
