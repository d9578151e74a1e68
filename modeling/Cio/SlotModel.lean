import Cio.ReactorDesc
import Cio.TransitionSystem

/-! The readiness slots of one descriptor incarnation. Tasks park in a direction's slot through
`IoAwaiter::await_suspend`; kernel edges (`dispatch`), deadline callbacks, `set_deadline`,
`cancel_waiters` and `detach` call `unblock_impl` on it. Every load and every exchange of a slot word is
a step of its own and a weak exchange may fail without cause; a step under the lifecycle lock happens
while its party holds that lock. Reference counts and recycling are not part of this model, and the
directions' system call leases neither. -/

namespace Cio.Reactor.Slot

open Function

/-- The address of an `IoWait`. The frames that hold them come and go, so addresses are used again. -/
abbrev Addr := Nat

/-- `IoWait`: the coroutine to resume, named by the direction it awaits, and its result. -/
structure IoWait where
  handle : Dir
  err : Option Error := none

inductive WaitEvent where
  | published | taken | written | dispatched
  deriving DecidableEq

/-- The life of a published `IoWait` from beginning to end. -/
def wholeLife : List WaitEvent := [.published, .taken, .written, .dispatched]

/-! ### Programs -/

/-- The reads of `io_error` in their order. -/
inductive CheckStage where
  | incarnation
  | token
  | deadline
  | again (expired : Bool)
  deriving DecidableEq

/-- One read of `io_error`: its verdict, or the next read. -/
def checkStep (d : IoDesc Addr Nat) (env : Env Nat) (dir : Dir) (generation : UInt32) :
    CheckStage → Option Error ⊕ CheckStage
  | .incarnation =>
    if d.generation ≠ generation ∨ d.closing then .inl (some (.errc .closed))
    else if env.stopping then .inl (some (.errc .shutdown))
    else .inr .token
  | .token => if d.cancelled env.fired then .inl (some (.errc .cancelled)) else .inr .deadline
  | .deadline => .inr (.again (d.timedOut env.now dir))
  | .again expired =>
    if d.generation ≠ generation ∨ d.closing then .inl (some (.errc .closed))
    else if env.stopping then .inl (some (.errc .shutdown))
    else .inl (if expired then some (.errc .timedOut) else none)

/-- A task in `co_await IoAwaiter`. From `check` to `leave` it holds the lifecycle lock. -/
inductive AwaitPc where
  | idle
  | enter (a : Addr)
  | check (a : Addr) (stage : CheckStage)
  | load (a : Addr)
  | consume (a : Addr)
  | publish (a : Addr)
  | leave (a : Addr) (err : Option Error)
  | parked (a : Addr)
  | resume (a : Addr)
  | recheck (a : Addr) (stage : CheckStage)
  deriving DecidableEq

def AwaitPc.addr : AwaitPc → Option Addr
  | idle => none
  | enter a | check a _ | load a | consume a | publish a | leave a _ | parked a | resume a
  | recheck a _ => some a

/-- `unblock_impl`: `write` and `dispatch` come after the waiter was taken out of the slot. -/
inductive UnblockPc where
  | load
  | cas (old : SlotWord Addr)
  | write (a : Addr)
  | dispatch (a : Addr)

/-- Who calls `unblock_impl`. An edge names the directions of its event. -/
inductive Caller where
  | edge (read write : Bool)
  | onDeadline (dir : Dir) (seq : UInt32)
  | cancelWaiters
  | setDeadline (dir : Dir) (deadlineNs : Int)
  | detach

namespace Caller

def err : Caller → Option Error
  | edge _ _ => none
  | onDeadline _ _ => some (.errc .timedOut)
  | cancelWaiters => some (.errc .cancelled)
  | setDeadline _ _ => some (.errc .timedOut)
  | detach => some (.errc .closed)

/-- The caller holds the lifecycle lock around `unblock`. -/
def locks : Caller → Bool
  | edge _ _ => false
  | onDeadline _ _ => true
  | cancelWaiters => true
  | setDeadline _ _ => true
  | detach => false

end Caller

/-- A call in progress. `disarm` is the wait for the timer between the critical sections of
`set_deadline`, `commit` its step after the old deadline was cleared; `teardown` is the wait for a
direction's timer in `detach`. -/
inductive Call where
  | enter (caller : Caller)
  | disarm (dir : Dir) (deadlineNs : Int)
  | store (dir : Dir) (deadlineNs : Int)
  | commit (dir : Dir) (deadlineNs : Int) (seq : UInt32)
  | teardown (dir : Dir)
  | unblock (caller : Caller) (dir : Dir) (rest : List Dir) (pc : UnblockPc)
  | unlock (caller : Caller)
  | returned (caller : Caller)

/-- The lifecycle lock is held by a task in `await_suspend`, by a worker whose task has parked and that
has not yet unlocked, or by a call. -/
inductive Party where
  | awaiter (dir : Dir)
  | suspender
  | call (i : Nat)
  deriving DecidableEq

inductive TimerState where
  | idle
  | armed (seq : UInt32) (deadlineNs : Int)
  | firing
  deriving DecidableEq

/-- The descriptor, who is where, and four histories: the lives of the waits published in each direction
(newest first), the number of edges dispatched to each slot, that number when an awaiter last left the
slot, and that number for each successful completion (newest first). -/
structure State where
  desc : IoDesc Addr Nat
  env : Env Nat
  lock : Option Party := none
  awaiter : Dir → AwaitPc := fun _ => .idle
  mem : Addr → IoWait := fun _ => { handle := .read }
  calls : List Call := []
  timer : Dir → TimerState := fun _ => .idle
  updating : Dir → Bool := fun _ => false
  lives : Dir → List (List WaitEvent) := fun _ => []
  edges : Dir → Nat := fun _ => 0
  left : Dir → Nat := fun _ => 0
  successes : Dir → List Nat := fun _ => []

def record (e : WaitEvent) : List (List WaitEvent) → List (List WaitEvent)
  | [] => [[e]]
  | life :: prior => (life ++ [e]) :: prior

namespace State

/-! ### Effects -/

def setAwaiter (s : State) (dir : Dir) (pc : AwaitPc) : State := { s with awaiter := update s.awaiter dir pc }

def setSlot (s : State) (dir : Dir) (word : SlotWord Addr) : State :=
  { s with desc := { s.desc with slot := update s.desc.slot dir word } }

def setCall (s : State) (i : Nat) (c : Call) : State := { s with calls := s.calls.set i c }

def setErr (s : State) (a : Addr) (err : Option Error) : State :=
  { s with mem := update s.mem a { s.mem a with err } }

def log (s : State) (dir : Dir) (e : WaitEvent) : State :=
  { s with lives := update s.lives dir (record e (s.lives dir)) }

def countEdge (s : State) (caller : Caller) (dir : Dir) : State :=
  { s with edges := update s.edges dir (s.edges dir + if caller.err = none then 1 else 0) }

def leaveSlot (s : State) (dir : Dir) : State := { s with left := update s.left dir (s.edges dir) }

/-- The awaiter publishes its `IoWait`; its worker still holds the lock. -/
def publish (s : State) (dir : Dir) (a : Addr) : State :=
  { s.setSlot dir (.waiter a) with
    awaiter := update s.awaiter dir (.parked a)
    lock := some .suspender
    lives := update s.lives dir ([.published] :: s.lives dir) }

def consume (s : State) (dir : Dir) (a : Addr) : State :=
  ((s.setSlot dir .idle).leaveSlot dir).setAwaiter dir (.leave a none)

/-- `unblock_impl` exchanges a waiter for an idle slot. -/
def take (s : State) (i : Nat) (caller : Caller) (dir : Dir) (rest : List Dir) (a : Addr) : State :=
  ((((s.setSlot dir .idle).countEdge caller dir).leaveSlot dir).log (s.mem a).handle .taken).setCall i
    (.unblock caller dir rest (.write a))

/-- The coroutine is handed to the scheduler; its task goes on in `await_resume`. -/
def dispatch (s : State) (a : Addr) : State :=
  (s.log (s.mem a).handle .dispatched).setAwaiter (s.mem a).handle (.resume a)

/-- `await_resume` returns: a success is entered with the edges up to the moment it left the slot. -/
def finish (s : State) (dir : Dir) (err : Option Error) : State :=
  if err = none then
    { s with
      desc := s.desc.noteReadable dir
      successes := update s.successes dir (s.left dir :: s.successes dir)
      awaiter := update s.awaiter dir .idle }
  else s.setAwaiter dir .idle

/-- `unblock_impl` is entered; only a completion without error raises the hint. -/
def beginUnblock (s : State) (i : Nat) (caller : Caller) (dir : Dir) (rest : List Dir) : State :=
  { s.setCall i (.unblock caller dir rest .load) with
    desc := if caller.err = none then s.desc.noteReadable dir else s.desc }

/-- `unblock_impl` returns; the caller goes on with its next direction, or unlocks or returns. -/
def afterUnblock (s : State) (i : Nat) (caller : Caller) : List Dir → State
  | [] => s.setCall i (if caller.locks then .unlock caller else .returned caller)
  | dir :: rest => s.beginUnblock i caller dir rest

/-- A call returns; `on_deadline` gives its timer back and `set_deadline` the direction's mutex. -/
def endCall (s : State) (i : Nat) (caller : Caller) : State :=
  match caller with
  | .onDeadline dir _ =>
    { s.setCall i (.returned caller) with timer := update s.timer dir .idle }
  | .setDeadline dir _ =>
    { s.setCall i (.returned caller) with updating := update s.updating dir false }
  | _ => s.setCall i (.returned caller)

variable (s : State)

@[simp] lemma setAwaiter_awaiter (dir : Dir) (pc : AwaitPc) :
    (s.setAwaiter dir pc).awaiter = update s.awaiter dir pc := rfl

@[simp] lemma setSlot_slot (dir : Dir) (word : SlotWord Addr) :
    (s.setSlot dir word).desc.slot = update s.desc.slot dir word := rfl

@[simp] lemma setErr_mem (a : Addr) (err : Option Error) :
    (s.setErr a err).mem = update s.mem a { s.mem a with err } := rfl

/-! ### Steps -/

/-- The next step of the task that awaits `dir`; `spurious` makes a weak exchange fail. -/
def awaiterStep (s : State) (dir : Dir) (spurious : Bool) : Option State :=
  match s.awaiter dir with
  | .idle => none
  | .enter a =>
    if s.lock = none then
      some ({ s with lock := some (.awaiter dir) }.setAwaiter dir (.check a .incarnation))
    else none
  | .check a stage =>
    match checkStep s.desc s.env dir s.desc.generation stage with
    | .inr next => some (s.setAwaiter dir (.check a next))
    | .inl none => some (s.setAwaiter dir (.load a))
    | .inl (some err) => some (s.setAwaiter dir (.leave a (some err)))
  | .load a =>
    match s.desc.slot dir with
    | .ready => some (s.setAwaiter dir (.consume a))
    | .waiter _ => some (s.setAwaiter dir (.leave a (some (.errc .broken))))
    | .idle => some (s.setAwaiter dir (.publish a))
  | .consume a =>
    if s.desc.slot dir = .ready ∧ spurious = false then some (s.consume dir a)
    else some (s.setAwaiter dir (.load a))
  | .publish a =>
    if s.desc.slot dir = .idle ∧ spurious = false then some (s.publish dir a)
    else some (s.setAwaiter dir (.load a))
  | .leave a err => some ({ s.setErr a err with lock := none }.setAwaiter dir (.resume a))
  | .parked _ => none
  | .resume a =>
    match (s.mem a).err with
    | some err => some (s.finish dir (some err))
    | none => some (s.setAwaiter dir (.recheck a .incarnation))
  | .recheck a stage =>
    match checkStep s.desc s.env dir s.desc.generation stage with
    | .inr next => some (s.setAwaiter dir (.recheck a next))
    | .inl err => some (s.finish dir err)

def unblockStep (s : State) (i : Nat) (caller : Caller) (dir : Dir) (rest : List Dir) (spurious : Bool) :
    UnblockPc → State
  | .load =>
    match s.desc.slot dir with
    | .ready => (s.countEdge caller dir).afterUnblock i caller rest
    | .idle => s.setCall i (.unblock caller dir rest (.cas .idle))
    | .waiter a => s.setCall i (.unblock caller dir rest (.cas (.waiter a)))
  | .cas old =>
    if s.desc.slot dir = old ∧ spurious = false then
      match old with
      | .waiter a => s.take i caller dir rest a
      | .idle | .ready => ((s.setSlot dir .ready).countEdge caller dir).afterUnblock i caller rest
    else s.setCall i (.unblock caller dir rest .load)
  | .write a =>
    ((s.setErr a caller.err).log (s.mem a).handle .written).setCall i
      (.unblock caller dir rest (.dispatch a))
  | .dispatch a => (s.dispatch a).afterUnblock i caller rest

/-- The directions of an event in the order of `dispatch`. -/
def edgeDirs (read write : Bool) : List Dir :=
  (if read then [.read] else []) ++ (if write then [.write] else [])

/-- The first step of a call: the state check of `dispatch`, or the wait for the lifecycle lock and
what the caller does in that critical section up to `unblock`. -/
def enterStep (s : State) (i : Nat) (caller : Caller) : Option State :=
  match caller with
  | .edge read write =>
    if s.desc.closing then some (s.endCall i caller)
    else some (s.afterUnblock i caller (edgeDirs read write))
  | .onDeadline dir seq =>
    if s.lock ≠ none then none
    else if s.desc.closing = false ∧ seq = s.desc.deadlineSeq dir then
      some ({ s with
        lock := some (.call i)
        desc := { s.desc with expiredSeq := update s.desc.expiredSeq dir seq } }.beginUnblock
          i caller dir [])
    else some (s.endCall i caller)
  | .cancelWaiters =>
    if s.lock ≠ none then none
    else if s.desc.closing = false then
      some ({ s with lock := some (.call i) }.beginUnblock i caller .read [.write])
    else some (s.endCall i caller)
  | .setDeadline dir deadlineNs =>
    if s.lock ≠ none then none
    else if s.desc.closing ∨ s.env.stopping then some (s.endCall i caller)
    else some (s.setCall i (.disarm dir deadlineNs))
  | .detach =>
    if s.lock ≠ none then none
    else some ({ s with desc := { s.desc with closing := true } }.setCall i (.teardown .read))

/-- The second critical section of `set_deadline` up to its commit. -/
def storeStep (s : State) (i : Nat) (dir : Dir) (deadlineNs : Int) : Option State :=
  if s.lock ≠ none then none
  else if s.desc.closing ∨ s.env.stopping then some (s.endCall i (.setDeadline dir deadlineNs))
  else
    some ({ s with
      lock := some (.call i)
      desc := { s.desc with
        absoluteDeadlineNs := update s.desc.absoluteDeadlineNs dir 0
        deadlineSeq := update s.desc.deadlineSeq dir (s.desc.deadlineSeq dir + 1) } }.setCall i
          (if deadlineNs = 0 then .unlock (.setDeadline dir deadlineNs)
          else .commit dir deadlineNs (s.desc.deadlineSeq dir + 1)))

/-- The new deadline: one that has passed is published as expired at once, another is armed. -/
def commitStep (s : State) (i : Nat) (dir : Dir) (deadlineNs : Int) (seq : UInt32) : State :=
  let stored : IoDesc Addr Nat :=
    { s.desc with absoluteDeadlineNs := update s.desc.absoluteDeadlineNs dir deadlineNs }
  if deadlineNs ≤ s.env.now then
    { s with
      desc := { stored with
        expiredSeq := update s.desc.expiredSeq dir seq } }.beginUnblock i
          (.setDeadline dir deadlineNs) dir []
  else
    { s with
      desc := stored
      timer := update s.timer dir (.armed seq deadlineNs) }.setCall i
        (.unlock (.setDeadline dir deadlineNs))

/-- `detach` disarms the timer of a direction and invalidates its configuration. -/
def teardownStep (s : State) (i : Nat) (dir : Dir) : Option State :=
  if s.timer dir = .firing then none
  else
    let disarmed : State := { s with
      timer := update s.timer dir .idle
      desc := { s.desc with
        deadlineSeq := update s.desc.deadlineSeq dir (s.desc.deadlineSeq dir + 1) } }
    match dir with
    | .read => some (disarmed.setCall i (.teardown .write))
    | .write => some (disarmed.beginUnblock i .detach .read [.write])

def callStep (s : State) (i : Nat) (spurious : Bool) : Call → Option State
  | .enter caller => s.enterStep i caller
  | .disarm dir deadlineNs =>
    if s.timer dir = .firing then none
    else some ({ s with timer := update s.timer dir .idle }.setCall i (.store dir deadlineNs))
  | .store dir deadlineNs => s.storeStep i dir deadlineNs
  | .commit dir deadlineNs seq => some (s.commitStep i dir deadlineNs seq)
  | .teardown dir => s.teardownStep i dir
  | .unblock caller dir rest pc => some (s.unblockStep i caller dir rest spurious pc)
  | .unlock caller => some ({ s with lock := none }.endCall i caller)
  | .returned _ => none

def start (s : State) (caller : Caller) : State := { s with calls := s.calls ++ [.enter caller] }

/-- No awaiting task has its `IoWait` at this address. -/
def unused (s : State) (a : Addr) : Bool :=
  (s.awaiter .read).addr != some a && (s.awaiter .write).addr != some a

end State

/-- One interleaving is a list of these: a task begins to await or goes on, a call begins or goes on, a
worker drops the lock after its task has parked, a timer fires, or the clock, the tokens, the bound flag
or the runtime's stop flag change. -/
inductive Act where
  | await (dir : Dir) (a : Addr)
  | awaiter (dir : Dir) (spurious : Bool)
  | unlockParked
  | edge (read write : Bool)
  | fire (dir : Dir)
  | cancelHook (token : Nat)
  | setDeadline (dir : Dir) (deadlineNs : Int)
  | detach
  | call (i : Nat) (spurious : Bool)
  | tick (now : Int)
  | cancel (token : Nat)
  | bindFlag (flag : Option Nat)
  | stop

open State in
def slotStep (s : State) : Act → Option State
  | .await dir a =>
    if s.awaiter dir = .idle ∧ s.unused a then
      some ({ s with mem := update s.mem a { handle := dir } }.setAwaiter dir (.enter a))
    else none
  | .awaiter dir spurious => s.awaiterStep dir spurious
  | .unlockParked => if s.lock = some .suspender then some { s with lock := none } else none
  | .edge read write => some (s.start (.edge read write))
  | .fire dir =>
    match s.timer dir with
    | .armed seq deadlineNs =>
      if deadlineNs ≤ s.env.now then
        some ({ s with timer := update s.timer dir .firing }.start (.onDeadline dir seq))
      else none
    | .idle | .firing => none
  | .cancelHook token => if s.env.fired token then some (s.start .cancelWaiters) else none
  | .setDeadline dir deadlineNs =>
    if s.updating dir then none
    else
      some ({ s with updating := update s.updating dir true }.start
        (.setDeadline dir deadlineNs))
  | .detach => some (s.start .detach)
  | .call i spurious =>
    match s.calls[i]? with
    | some c => s.callStep i spurious c
    | none => none
  | .tick now => if s.env.now ≤ now then some { s with env := { s.env with now } } else none
  | .cancel token =>
    some { s with env := { s.env with fired := update s.env.fired token true } }
  | .bindFlag flag => some { s with desc := { s.desc with cancelFlag := flag } }
  | .stop => some { s with env := { s.env with stopping := true } }

/-- Every interleaving after `attach`, with at most one awaiting task in each direction. -/
def slotSystem : Transition.System State Act where
  init s := ∃ (d : IoDesc Addr Nat) (fd : Int) (env : Env Nat), s = { desc := d.attachFields fd, env }
  step := slotStep

end Cio.Reactor.Slot
