import Mathlib.Data.List.Basic

/-!
# The part of asio the endpoints rely on

Error codes carry the values asio has on Linux.  A socket is described by what
its users can observe of it: whether it is open, how often it was opened (so
that the descriptor an operation was started on can be told from later ones),
its options and the endpoint it is bound to.  An asynchronous operation stays
in the list of its socket until its completion handler runs; its result is
fixed earlier, when the operation completes or is aborted.
-/

namespace AsioWrapper.Asio

inductive Category where
  | system
  | netdb
  | addrinfo
  | misc
  deriving DecidableEq, Repr

structure ErrorCode where
  category : Category
  value : Int
  deriving DecidableEq, Repr

namespace ErrorCode

def success : ErrorCode := ⟨.system, 0⟩

def failed (ec : ErrorCode) : Bool := ec.value != 0

def badDescriptor : ErrorCode := ⟨.system, 9⟩
def invalidArgument : ErrorCode := ⟨.system, 22⟩
def addressInUse : ErrorCode := ⟨.system, 98⟩
def connectionAborted : ErrorCode := ⟨.system, 103⟩
def connectionReset : ErrorCode := ⟨.system, 104⟩
def noBufferSpace : ErrorCode := ⟨.system, 105⟩
def notConnected : ErrorCode := ⟨.system, 107⟩
def timedOut : ErrorCode := ⟨.system, 110⟩
def connectionRefused : ErrorCode := ⟨.system, 111⟩
def operationAborted : ErrorCode := ⟨.system, 125⟩
def alreadyOpen : ErrorCode := ⟨.misc, 1⟩
def eof : ErrorCode := ⟨.misc, 2⟩

@[simp] theorem failed_success : success.failed = false := rfl

@[simp] theorem failed_operationAborted : operationAborted.failed = true := rfl

end ErrorCode

inductive InternetProtocol where
  | ipv4
  | ipv6
  deriving DecidableEq, Repr

inductive Address where
  | v4 (bits : BitVec 32)
  | v6 (bits : BitVec 128)
  deriving DecidableEq, Repr

structure Endpoint where
  address : Address
  port : UInt16
  deriving DecidableEq, Repr

namespace Endpoint

def protocol (endpoint : Endpoint) : InternetProtocol :=
  match endpoint.address with
  | .v4 _ => .ipv4
  | .v6 _ => .ipv6

def any (protocol : InternetProtocol) (port : UInt16) : Endpoint :=
  match protocol with
  | .ipv4 => ⟨.v4 0, port⟩
  | .ipv6 => ⟨.v6 0, port⟩

instance : Inhabited Endpoint := ⟨any .ipv4 0⟩

end Endpoint

def toPort (port : Int) : UInt16 := UInt16.ofNat (port % 65536).toNat

structure Socket where
  isOpen : Bool
  generation : Nat
  reuseAddress : Bool
  reusePort : Bool
  bound : Option Endpoint
  deriving DecidableEq, Repr

namespace Socket

def fresh : Socket := ⟨false, 0, false, false, none⟩

def opened (socket : Socket) : Socket :=
  ⟨true, socket.generation + 1, false, false, none⟩

def closed (socket : Socket) : Socket :=
  ⟨false, socket.generation, false, false, none⟩

end Socket

inductive Buffer where
  | null (size : Nat)
  | bytes (data : List UInt8)
  deriving DecidableEq, Repr

namespace Buffer

def size : Buffer → Nat
  | null size => size
  | bytes data => data.length

def isNull : Buffer → Bool
  | null _ => true
  | bytes _ => false

def data : Buffer → List UInt8
  | null _ => []
  | bytes data => data

end Buffer

structure Completion where
  error : ErrorCode
  size : Nat
  sender : Endpoint
  deriving DecidableEq, Repr

def Completion.aborted : Completion := ⟨.operationAborted, 0, default⟩

/-- Who started an operation, with the arguments it was started with. -/
inductive Purpose where
  | sendAsync (data : List UInt8) (endpoint : Endpoint)
  | receiveAsync (length : Nat)
  | timedSend
  | timedReceive
  deriving DecidableEq, Repr

structure Operation where
  id : Nat
  purpose : Purpose
  generation : Nat
  session : Nat
  result : Option Completion
  deriving DecidableEq, Repr

namespace Operation

def pending (op : Operation) : Bool := op.result.isNone

/-- `cancel` and `close` complete what is still pending with `operation_aborted`. -/
def abort (op : Operation) : Operation :=
  if op.pending then { op with result := some .aborted } else op

def isSend (op : Operation) : Bool :=
  match op.purpose with
  | .sendAsync _ _ => true
  | _ => false

def isReceive (op : Operation) : Bool :=
  match op.purpose with
  | .receiveAsync _ => true
  | _ => false

def isTimed (op : Operation) : Bool :=
  match op.purpose with
  | .timedSend | .timedReceive => true
  | _ => false

def completedBy (op : Operation) (completion : Completion) (other : Operation) : Operation :=
  if other = op then { op with result := some completion } else other

theorem isSend_of_isReceive {op : Operation} (h : op.isReceive = true) :
    op.isSend = false := by
  unfold isReceive at h
  unfold isSend
  split at h <;> simp_all

theorem isSend_of_isTimed {op : Operation} (h : op.isTimed = true) : op.isSend = false := by
  unfold isTimed at h
  unfold isSend
  split at h <;> simp_all

theorem isReceive_of_isTimed {op : Operation} (h : op.isTimed = true) :
    op.isReceive = false := by
  unfold isTimed at h
  unfold isReceive
  split at h <;> simp_all

@[simp] theorem abort_id (op : Operation) : op.abort.id = op.id := by
  unfold abort
  split <;> rfl

@[simp] theorem abort_purpose (op : Operation) : op.abort.purpose = op.purpose := by
  unfold abort
  split <;> rfl

@[simp] theorem abort_generation (op : Operation) :
    op.abort.generation = op.generation := by
  unfold abort
  split <;> rfl

@[simp] theorem abort_session (op : Operation) : op.abort.session = op.session := by
  unfold abort
  split <;> rfl

@[simp] theorem abort_result_ne_none (op : Operation) : op.abort.result ≠ none := by
  unfold abort pending
  split <;> simp_all

@[simp] theorem abort_isReceive (op : Operation) : op.abort.isReceive = op.isReceive := by
  simp [isReceive]

@[simp] theorem completedBy_id (op other : Operation) (completion : Completion) :
    (op.completedBy completion other).id = other.id := by
  unfold completedBy
  split <;> simp_all

@[simp] theorem completedBy_purpose (op other : Operation) (completion : Completion) :
    (op.completedBy completion other).purpose = other.purpose := by
  unfold completedBy
  split <;> simp_all

@[simp] theorem completedBy_generation (op other : Operation) (completion : Completion) :
    (op.completedBy completion other).generation = other.generation := by
  unfold completedBy
  split <;> simp_all

@[simp] theorem completedBy_session (op other : Operation) (completion : Completion) :
    (op.completedBy completion other).session = other.session := by
  unfold completedBy
  split <;> simp_all

end Operation

inductive Timer where
  | armed
  | fired (ec : ErrorCode)
  | handled
  deriving DecidableEq, Repr

/-- The variables of a timed call that its handlers and its operation write to. The
endpoint is the one the caller passed; a receive overwrites it with the sender. -/
structure TimedCall where
  id : Nat
  done : Nat
  error : ErrorCode
  size : Nat
  endpoint : Endpoint
  timer : Timer
  deriving DecidableEq, Repr

namespace TimedCall

def fresh (id : Nat) (endpoint : Endpoint) : TimedCall :=
  ⟨id, 0, .success, 0, endpoint, .armed⟩

/-- `timer.cancel()`: an armed timer completes with `operation_aborted`. -/
def cancelTimer (call : TimedCall) : TimedCall :=
  match call.timer with
  | .armed => { call with timer := .fired .operationAborted }
  | _ => call

end TimedCall

inductive SocketCall where
  | open
  | setReuseAddress
  | setReusePort
  | bind
  | receiveBufferSize
  deriving DecidableEq, Repr

/-- What asio answers to the throwing socket calls of one method or handler. -/
structure SocketAnswers where
  opening : ErrorCode
  reuseAddress : ErrorCode
  reusePort : ErrorCode
  binding : ErrorCode
  query : ErrorCode
  receiveBufferSize : Nat
  group : ErrorCode
  deriving DecidableEq, Repr

def SocketAnswers.clean (receiveBufferSize : Nat) : SocketAnswers :=
  ⟨.success, .success, .success, .success, .success, receiveBufferSize, .success⟩

end AsioWrapper.Asio
