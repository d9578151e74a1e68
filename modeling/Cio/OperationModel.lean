import Cio.CallPool
import Cio.ReactorDesc
import Cio.TransitionSystem
import Cio.WrapCounter

/-! The operation queue of a descriptor. One complete operation per direction owns the owner word; the first
contender marks the word, pins the owner and queues itself in one critical section, and a marked owner hands
the direction to the head of the queue. A slab node goes through any number of incarnations; operations
captured on one of them may run at any later time. The owner word is read and exchanged without the
lifecycle lock, so under the lock every access to it that can be seen from outside is a step of its own. -/

namespace Cio.Reactor.Operation

def operationTag (generation : UInt32) : UInt64 := (generation.toUInt64 + 1) <<< 1

/-- Where an operation is: `await_ready` or `try_lock_io_operation` (`enter`, `validate`), `await_suspend`
(`suspend` to `upgrade`, under the lock from `inspect` on), the queue (`queued`, `popped` by the releasing
operation, `granted` once it was dispatched), the guard (`holding`, `leased` inside a system call), and
`IoOperationGuard::reset` (`reset`) with `release_operation` (`release` to `dispatch`). -/
inductive Pc where
  | enter
  | validate
  | suspend
  | inspect
  | takeIdle
  | upgrade
  | queued
  | popped
  | granted
  | holding
  | leased
  | reset (err : Option Error)
  | release (err : Option Error)
  | drop (err : Option Error) (next : Option Nat)
  | dispatch (err : Option Error) (next : Nat)
  | returned (err : Option Error)
  deriving DecidableEq

/-- The rest of `release_operation` after the reference was dropped. -/
def Pc.dropped (err : Option Error) : Option Nat → Pc
  | some n => .dispatch err n
  | none => .returned err

/-- An operation with the incarnation it captured (`inc` counts the recyclings of the node before). It is
`foreign` on a worker of another runtime, and a `try_` form does not await. `waited` records that it was
queued and `wakes` how often it was dispatched. -/
structure Task where
  dir : Dir
  generation : UInt32
  inc : Nat
  foreign : Bool
  awaits : Bool
  pc : Pc := .enter
  waited : Bool := false
  wakes : Nat := 0

def Task.tag (t : Task) : UInt64 := operationTag t.generation

/-- One direction of the descriptor. `joined` records the operations in the order they were queued, `served`
those of them that have obtained the guard, and `hand` the one that was taken from the queue and has not yet
resumed. -/
structure Queue where
  owner : UInt64 := 0
  pinned : Bool := false
  waiters : List Nat := []
  lifetime : Bool := false
  joined : List Nat := []
  served : List Nat := []
  hand : Option Nat := none

/-- The owner of the node: `close` publishes `closing`, waits for the leases and drops its reference. -/
inductive Phase where
  | vacant
  | attached
  | closing (rest : List Dir)
  | released
  deriving DecidableEq

/-- `free_desc`, run by whoever dropped the last reference. -/
inductive FreePc where
  | idle
  | pending
  | resetting (rest : List Dir)
  deriving DecidableEq

/-- `awaiters` counts the references of `IoAwaiter`s, dispatched events and deadline updates. -/
structure State where
  desc : IoDesc Unit Unit := {}
  inc : Nat := 0
  phase : Phase := .vacant
  freer : FreePc := .idle
  locked : Bool := false
  queue : Dir → Queue := fun _ => {}
  awaiters : Nat := 0
  tasks : List Task := []

namespace State

def setQueue (s : State) (d : Dir) (q : Queue) : State := { s with queue := Function.update s.queue d q }

def setTask (s : State) (i : Nat) (t : Task) : State := { s with tasks := s.tasks.set i t }

def setPc (s : State) (i : Nat) (t : Task) (pc : Pc) : State := s.setTask i { t with pc := pc }

def setOwner (s : State) (d : Dir) (word : UInt64) : State := s.setQueue d { s.queue d with owner := word }

def releaseDesc (s : State) : State :=
  { s with
    desc := { s.desc with refs := s.desc.refs - 1 }
    freer := if s.desc.refs = 1 then .pending else s.freer }

def pinOperation (s : State) (d : Dir) : State :=
  if (s.queue d).pinned then s
  else { s with desc := { s.desc with refs := s.desc.refs + 1 } }.setQueue d { s.queue d with pinned := true }

/-- `publish_operation_lifetime_locked`: nothing without a foreign source. -/
def publishOperationLifetime (s : State) (t : Task) : State :=
  if t.foreign then
    let pinned := s.pinOperation t.dir
    pinned.setQueue t.dir { pinned.queue t.dir with lifetime := true, owner := t.tag ||| 1 }
  else s

/-- The end of `await_suspend`: the owner is pinned, the waiter takes a reference and joins the queue. No
decrement between the two increments can reach zero, because the owner of the node has not let go. -/
def join (s : State) (i : Nat) (t : Task) : State :=
  let published := (s.pinOperation t.dir).publishOperationLifetime t
  let q := published.queue t.dir
  (({ published with desc := { published.desc with refs := published.desc.refs + 1 } }.setQueue t.dir
    { q with waiters := q.waiters ++ [i], joined := q.joined ++ [i] }).setTask i
      { t with pc := .queued, waited := true })

/-- `validate_operation_owner` up to the publication. -/
def validateOperationOwner (s : State) (t : Task) (env : Env Unit) : Option Error :=
  match s.desc.ioError env t.dir t.generation with
  | some e => some e
  | none =>
    if t.foreign ∧ (s.queue t.dir).owner ≠ t.tag ∧ (s.queue t.dir).owner ≠ t.tag ||| 1 then
      some (.errc .closed)
    else none

/-- The critical section of `release_operation`, entered with the right generation. -/
def releaseOperation (s : State) (i : Nat) (t : Task) (err : Option Error) : Option State :=
  let q := s.queue t.dir
  match q.waiters with
  | n :: rest => do
      let w ← s.tasks[n]?
      some (((s.setQueue t.dir { q with waiters := rest, hand := some n }).setPc n w .popped).setPc i t
        (if q.pinned then .drop err (some n) else .dispatch err n))
  | [] =>
    some ((s.setQueue t.dir { q with owner := 0, pinned := false, lifetime := false }).setPc i t
      (if q.pinned then .drop err none else .returned err))

/-- The next step of an operation. `spurious` makes a weak exchange fail; an operation with its guard may make
another system call (`again`). -/
def taskStep (s : State) (i : Nat) (env : Env Unit) (spurious again : Bool) (t : Task) : Option State :=
  let q := s.queue t.dir
  match t.pc with
  | .enter =>
    if q.owner = 0 then some ((s.setOwner t.dir t.tag).setPc i t .validate)
    else some (s.setPc i t (if t.awaits then .suspend else .returned (some (.errc .wouldBlock))))
  | .validate =>
    if t.foreign ∧ s.locked then none
    else
      match s.validateOperationOwner t env with
      | some e => some (s.setPc i t (.reset (some e)))
      | none => some ((s.publishOperationLifetime t).setPc i t .holding)
  | .suspend =>
    if s.locked then none
    else
      match s.desc.ioError env t.dir t.generation with
      | some e => some (s.setPc i t (.returned (some e)))
      | none => some ({ s with locked := true }.setPc i t .inspect)
  | .inspect =>
    if q.owner = 0 then some (s.setPc i t .takeIdle)
    else if q.owner = t.tag then some (s.setPc i t .upgrade)
    else if q.owner = t.tag ||| 1 then some { s.join i t with locked := false }
    else some ({ s with locked := false }.setPc i t (.returned (some (.errc .closed))))
  | .takeIdle =>
    if q.owner = 0 ∧ spurious = false then
      some ({ (s.setOwner t.dir t.tag).publishOperationLifetime t with locked := false }.setPc i t .holding)
    else some (s.setPc i t .inspect)
  | .upgrade =>
    if q.owner = t.tag ∧ spurious = false then
      some { (s.setOwner t.dir (t.tag ||| 1)).join i t with locked := false }
    else some (s.setPc i t .inspect)
  | .queued | .popped => none
  | .granted =>
    some ((s.setQueue t.dir { q with hand := none, served := q.served ++ [i] }).setPc i t .holding)
  | .holding =>
    if again = false then some (s.setPc i t (.reset none))
    else if s.locked then none
    else
      match s.desc.beginSyscall env t.dir t.generation with
      | .ok (desc, _) => some ({ s with desc := desc }.setPc i t .leased)
      | .error e => some (s.setPc i t (.reset (some e)))
  | .leased =>
    some ({ s with desc := { s.desc with
      syscallActive := Function.update s.desc.syscallActive t.dir false } }.setPc i t .holding)
  | .reset err =>
    if q.owner = t.tag then some ((s.setOwner t.dir 0).setPc i t (.returned err))
    else some (s.setPc i t (.release err))
  | .release err =>
    if s.locked then none
    else if s.desc.generation ≠ t.generation then some (s.setPc i t (.returned err))
    else s.releaseOperation i t err
  | .drop err next => some (s.releaseDesc.setPc i t (.dropped err next))
  | .dispatch err n => do
      let w ← s.tasks[n]?
      some ((s.setTask n { w with pc := .granted, wakes := w.wakes + 1 }).setPc i t (.returned err))
  | .returned _ => none

end State

/-- A label: the node is attached; `capture_operation` starts an operation; the socket is closed; another
holder takes or drops a reference; `free_desc` and the operations go on. -/
inductive Act where
  | attach (fd : Int)
  | start (dir : Dir) (foreign awaits : Bool)
  | close
  | pin
  | unpin
  | free
  | task (i : Nat) (env : Env Unit) (spurious again : Bool)

/-- The next step of `close`: `closing` is published, the leases are awaited and the reference is dropped. -/
def closeStep (s : State) : Option State :=
  match s.phase with
  | .vacant | .released => none
  | .attached =>
    if s.locked then none
    else some { s with desc := { s.desc with closing := true }, phase := .closing [.read, .write] }
  | .closing (d :: rest) => if s.desc.syscallActive d then none else some { s with phase := .closing rest }
  | .closing [] => some { s.releaseDesc with phase := .released }

/-- The next step of `free_desc`. It holds the lifecycle lock while it resets the owner words. -/
def freeStep (s : State) : Option State :=
  match s.freer with
  | .idle => none
  | .pending =>
    if s.locked then none
    else
      some { s with
        desc := s.desc.freeFields, inc := s.inc + 1, locked := true, freer := .resetting [.read, .write] }
  | .resetting (d :: rest) => some { s.setOwner d 0 with freer := .resetting rest }
  | .resetting [] => some { s with locked := false, freer := .idle, phase := .vacant }

def operationStep (s : State) : Act → Option State
  | .attach fd =>
    if s.phase = .vacant ∧ s.locked = false ∧ 0 ≤ fd then
      some { s with desc := s.desc.attachFields fd, phase := .attached }
    else none
  | .start dir foreign awaits =>
    if s.phase = .attached ∧ s.desc.closing = false ∧ s.locked = false then
      some { s with tasks := s.tasks ++
        [{ dir := dir, generation := s.desc.generation, inc := s.inc, foreign := foreign, awaits := awaits }] }
    else none
  | .close => closeStep s
  | .pin =>
    if 0 < s.desc.refs then
      some { s with desc := { s.desc with refs := s.desc.refs + 1 }, awaiters := s.awaiters + 1 }
    else none
  | .unpin => if 0 < s.awaiters then some { s.releaseDesc with awaiters := s.awaiters - 1 } else none
  | .free => freeStep s
  | .task i env spurious again =>
    match s.tasks[i]? with
    | some t => s.taskStep i env spurious again t
    | none => none

def operationSystem : Transition.System State Act where
  init s := s = {}
  step := operationStep

end Cio.Reactor.Operation
