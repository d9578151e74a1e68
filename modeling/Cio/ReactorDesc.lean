import Mathlib.Logic.Function.Basic
import Mathlib.Tactic.SplitIfs

/-! The reactor's descriptor record (`IoDesc`) and the functions of `reactor.hpp` and
`reactor_common.cpp` that read or write it inside one critical section. Each direction owns one slot
word with three states: idle, an edge recorded while nobody waited, or one parked waiter.
The functions below are what a thread computes while no other thread writes the descriptor; the
protocol modules interleave them. -/

namespace Cio

open Function

/-- `cio::Errc`, the runtime conditions that are not errno values. -/
inductive Errc where
  | cancelled | timedOut | closed | shutdown | wouldBlock | broken | overloaded
  deriving DecidableEq

/-- `cio::Error` with a non-zero code; success is the absence of an error. -/
inductive Error where
  | errc (condition : Errc)
  | errno (code : Nat)
  deriving DecidableEq

namespace Error

def eagain : Error := .errno 11
def enomem : Error := .errno 12
def ebadf : Error := .errno 9
def esrch : Error := .errno 3
def echild : Error := .errno 10
def emsgsize : Error := .errno 90
def enoent : Error := .errno 2
def einval : Error := .errno 22
def ebadmsg : Error := .errno 74

end Error

namespace Reactor

inductive Dir where
  | read
  | write
  deriving DecidableEq

/-- One direction's slot: `nullptr`, `kIoReady` or the parked `IoWait`. -/
inductive SlotWord (ω : Type) where
  | idle
  | ready
  | waiter (w : ω)
  deriving DecidableEq

namespace SlotWord

variable {ω : Type}

/-- The slot after `unblock_impl`: an edge is recorded only when nobody waits. -/
def unblock : SlotWord ω → SlotWord ω
  | idle => ready
  | ready => ready
  | waiter _ => idle

/-- The waiter `unblock_impl` takes out of the slot and schedules. -/
def taken : SlotWord ω → Option ω
  | waiter w => some w
  | _ => none

end SlotWord

/-- What the state checks read besides the descriptor: the clock, the scheduler's stop flag, and
the flag of every cancellation token. -/
structure Env (τ : Type) where
  now : Int
  stopping : Bool
  fired : τ → Bool

/-- The fields of `IoDesc` that the modelled functions use. Waiters are of type `ω`, cancellation
flags are identified by their token of type `τ`. A zero deadline means that none is set. -/
structure IoDesc (ω τ : Type) where
  slot : Dir → SlotWord ω := fun _ => .idle
  fd : Int := -1
  generation : UInt32 := 0
  refs : Nat := 0
  closing : Bool := false
  syscallActive : Dir → Bool := fun _ => false
  cancelFlag : Option τ := none
  deadlineSeq : Dir → UInt32 := fun _ => 1
  expiredSeq : Dir → UInt32 := fun _ => 0
  absoluteDeadlineNs : Dir → Int := fun _ => 0
  readyHint : Dir → Bool := fun _ => true

namespace IoDesc

variable {ω τ : Type}

def noteReadable (d : IoDesc ω τ) (dir : Dir) : IoDesc ω τ :=
  { d with readyHint := update d.readyHint dir true }

def timedOut (d : IoDesc ω τ) (now : Int) (dir : Dir) : Bool :=
  if d.absoluteDeadlineNs dir = 0 then false
  else if d.absoluteDeadlineNs dir ≤ now then true
  else d.expiredSeq dir == d.deadlineSeq dir

def cancelled (d : IoDesc ω τ) (fired : τ → Bool) : Bool :=
  match d.cancelFlag with
  | none => false
  | some flag => fired flag

/-- `io_error`. The source re-reads the incarnation and the stop flag after the deadline; read in
one state the second check repeats the first. -/
def ioError (d : IoDesc ω τ) (env : Env τ) (dir : Dir) (expectedGeneration : UInt32) : Option Error :=
  if d.generation ≠ expectedGeneration ∨ d.closing then some (.errc .closed)
  else if env.stopping then some (.errc .shutdown)
  else if d.cancelled env.fired then some (.errc .cancelled)
  else if d.timedOut env.now dir then some (.errc .timedOut)
  else none

/-- `begin_syscall`: the descriptor with the direction leased and the fd to use, or the refusal. -/
def beginSyscall (d : IoDesc ω τ) (env : Env τ) (dir : Dir) (expectedGeneration : UInt32) :
    Except Error (IoDesc ω τ × Int) :=
  if d.generation ≠ expectedGeneration ∨ d.closing ∨ d.fd < 0 then .error (.errc .closed)
  else if env.stopping then .error (.errc .shutdown)
  else if d.cancelled env.fired then .error (.errc .cancelled)
  else if d.timedOut env.now dir then .error (.errc .timedOut)
  else if d.syscallActive dir then .error (.errc .broken)
  else .ok ({ d with syscallActive := update d.syscallActive dir true }, d.fd)

/-- `unblock_impl`: only a completion without error is readiness and raises the hint. -/
def unblock (d : IoDesc ω τ) (dir : Dir) (err : Option Error) : IoDesc ω τ :=
  let d' := if err.isNone then d.noteReadable dir else d
  { d' with slot := update d'.slot dir (d'.slot dir).unblock }

/-- `cancel_waiters`: inert once the incarnation it was bound to is closing or recycled. -/
def cancelWaiters (d : IoDesc ω τ) (expectedGeneration : UInt32) : IoDesc ω τ :=
  if d.closing = false ∧ d.generation = expectedGeneration then
    (d.unblock .read (some (.errc .cancelled))).unblock .write (some (.errc .cancelled))
  else d

/-- `on_deadline`: only the configuration the timer was armed for is stamped as expired. -/
def onDeadline (d : IoDesc ω τ) (dir : Dir) (seq : UInt32) : IoDesc ω τ :=
  if d.closing = false ∧ seq = d.deadlineSeq dir then
    { d with expiredSeq := update d.expiredSeq dir seq }.unblock dir
      (some (.errc .timedOut))
  else d

/-- The second critical section of `set_deadline`, after `disarm` has returned: the new descriptor
and the sequence number of the timer to arm. A deadline of zero clears, one that has passed is
published as expired at once. -/
def storeDeadline (d : IoDesc ω τ) (env : Env τ) (dir : Dir) (expectedGeneration : UInt32)
    (deadlineNs : Int) : IoDesc ω τ × Option UInt32 :=
  if d.generation ≠ expectedGeneration ∨ d.closing ∨ env.stopping then (d, none)
  else
    let seq := d.deadlineSeq dir + 1
    let cleared : IoDesc ω τ :=
      { d with
        absoluteDeadlineNs := update d.absoluteDeadlineNs dir 0
        deadlineSeq := update d.deadlineSeq dir seq }
    let stored : IoDesc ω τ := { cleared with absoluteDeadlineNs := update d.absoluteDeadlineNs dir deadlineNs }
    if deadlineNs = 0 then (cleared, none)
    else if deadlineNs ≤ env.now then
      ({ stored with expiredSeq := update d.expiredSeq dir seq }.unblock dir
        (some (.errc .timedOut)), none)
    else (stored, some seq)

/-- The slot transaction of `await_suspend`, entered with no pending state error: consume a recorded
edge, refuse a second waiter, or park. The result says whether the coroutine stays suspended. -/
def suspendSlot (d : IoDesc ω τ) (dir : Dir) (w : ω) : IoDesc ω τ × Except Error Bool :=
  match d.slot dir with
  | .ready => ({ d with slot := update d.slot dir .idle }, .ok false)
  | .waiter _ => (d, .error (.errc .broken))
  | .idle => ({ d with slot := update d.slot dir (.waiter w) }, .ok true)

/-- What `attach` writes into the node it was handed. The cancellation flag is not among it. -/
def attachFields (d : IoDesc ω τ) (fd : Int) : IoDesc ω τ :=
  { d with
    fd := fd
    closing := false
    refs := 1
    slot := fun _ => .idle
    syscallActive := fun _ => false
    deadlineSeq := fun _ => 1
    expiredSeq := fun _ => 0
    absoluteDeadlineNs := fun _ => 0
    readyHint := fun _ => true }

/-- What `free_desc` writes before the node goes back on the free list. -/
def freeFields (d : IoDesc ω τ) : IoDesc ω τ :=
  { d with
    generation := d.generation + 1
    fd := -1
    closing := true
    slot := fun _ => .idle }

/-- `detach` up to the release of the owner reference: closing is published, both deadline
configurations are invalidated and both directions complete with `closed`. -/
def detachFields (d : IoDesc ω τ) : IoDesc ω τ :=
  let closed : IoDesc ω τ := { d with closing := true, deadlineSeq := fun dir => d.deadlineSeq dir + 1 }
  (closed.unblock .read (some (.errc .closed))).unblock .write (some (.errc .closed))

/-! What `unblock_impl` leaves alone. -/

@[simp] lemma unblock_frame (d : IoDesc ω τ) (dir : Dir) (err : Option Error) :
    (d.unblock dir err).slot = update d.slot dir (d.slot dir).unblock ∧ (d.unblock dir err).fd = d.fd ∧
      (d.unblock dir err).closing = d.closing ∧ (d.unblock dir err).refs = d.refs ∧
      (d.unblock dir err).generation = d.generation ∧
      (d.unblock dir err).absoluteDeadlineNs = d.absoluteDeadlineNs ∧
      (d.unblock dir err).cancelFlag = d.cancelFlag := by
  unfold unblock
  split <;> exact ⟨rfl, rfl, rfl, rfl, rfl, rfl, rfl⟩

/-! The cancellation flag is written by `set_cancel` only. -/

@[simp] lemma cancelWaiters_cancelFlag (d : IoDesc ω τ) (expectedGeneration : UInt32) :
    (d.cancelWaiters expectedGeneration).cancelFlag = d.cancelFlag := by
  unfold cancelWaiters
  split <;> simp

@[simp] lemma suspendSlot_cancelFlag (d : IoDesc ω τ) (dir : Dir) (w : ω) :
    (d.suspendSlot dir w).1.cancelFlag = d.cancelFlag := by
  unfold suspendSlot
  split <;> rfl

@[simp] lemma detachFields_cancelFlag (d : IoDesc ω τ) : d.detachFields.cancelFlag = d.cancelFlag := by
  simp [detachFields]

/-! The slot of a direction is kept or unblocked by the deadline functions. -/

lemma onDeadline_slot (d : IoDesc ω τ) (dir : Dir) (seq : UInt32) : (d.onDeadline dir seq).slot dir = d.slot dir ∨
      (d.onDeadline dir seq).slot dir = (d.slot dir).unblock := by
  unfold onDeadline
  split
  · right
    simp
  · exact .inl rfl

lemma storeDeadline_slot (d : IoDesc ω τ) (env : Env τ) (dir : Dir) (generation : UInt32) (deadlineNs : Int) :
    (d.storeDeadline env dir generation deadlineNs).1.slot dir = d.slot dir ∨
      (d.storeDeadline env dir generation deadlineNs).1.slot dir = (d.slot dir).unblock := by
  simp only [storeDeadline]
  split_ifs
  · exact .inl rfl
  · exact .inl rfl
  · right
    simp
  · exact .inl rfl

lemma storeDeadline_frame (d : IoDesc ω τ) (env : Env τ) (dir : Dir) (generation : UInt32) (deadlineNs : Int) :
    (d.storeDeadline env dir generation deadlineNs).1.fd = d.fd ∧
      (d.storeDeadline env dir generation deadlineNs).1.closing = d.closing ∧
      (d.storeDeadline env dir generation deadlineNs).1.cancelFlag = d.cancelFlag := by
  simp only [storeDeadline]
  split_ifs <;> simp

variable {d : IoDesc ω τ} {env : Env τ} {generation : UInt32} {dir : Dir}

lemma storeDeadline_armed {deadlineNs : Int} (h : (d.storeDeadline env dir generation deadlineNs).2 ≠ none) :
    (d.storeDeadline env dir generation deadlineNs).1.absoluteDeadlineNs dir ≠ 0 := by
  simp only [storeDeadline] at h ⊢
  split_ifs at h ⊢ with hstale hzero hpast
  · exact absurd rfl h
  · exact absurd rfl h
  · exact absurd rfl h
  · simpa using hzero

lemma storeDeadline_clear (hend : d.closing = false) (hstop : env.stopping = false) (dir : Dir) :
    (d.storeDeadline env dir d.generation 0).1.slot = d.slot ∧
      (d.storeDeadline env dir d.generation 0).1.absoluteDeadlineNs dir = 0 := by
  simp [storeDeadline, hend, hstop]

lemma cancelWaiters_slot (hend : d.closing = false) (dir : Dir) :
    (d.cancelWaiters d.generation).slot dir = (d.slot dir).unblock := by
  cases dir <;> simp [cancelWaiters, hend, update]

lemma cancelled_of_ioError (h : d.ioError env dir generation = some (.errc .cancelled)) :
    d.cancelled env.fired = true := by
  by_contra hflag
  rw [ioError, if_neg hflag] at h
  split_ifs at h <;> simp at h

lemma cancelled_of_beginSyscall (h : d.beginSyscall env dir generation = .error (.errc .cancelled)) :
    d.cancelled env.fired = true := by
  by_contra hflag
  rw [beginSyscall, if_neg hflag] at h
  split_ifs at h <;> simp at h

end IoDesc
end Reactor
end Cio
