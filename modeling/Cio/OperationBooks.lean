import Cio.OperationSteps

/-! The books of the operation queue. For each direction and each operation: who owns the direction, who is in
the queue, who was taken from it and by whom it is to be dispatched; and for the node: who holds a reference. -/

namespace Cio.Reactor.Operation

open CallPool WrapCounter Pc

/-! ### What a program counter stands for -/

namespace Pc

def inside : Pc → Nat
  | .inspect | .takeIdle | .upgrade => 1
  | .enter | .validate | .suspend | .queued | .popped | .granted | .holding | .leased | .reset _ | .release _
  | .drop _ _ | .dispatch _ _ | .returned _ => 0

def owning : Pc → Nat
  | .validate | .popped | .granted | .holding | .leased | .reset _ | .release _ => 1
  | .enter | .suspend | .inspect | .takeIdle | .upgrade | .queued | .drop _ _ | .dispatch _ _
  | .returned _ => 0

def held : Pc → Nat
  | .holding | .leased => 1
  | .enter | .validate | .suspend | .inspect | .takeIdle | .upgrade | .queued | .popped | .granted | .reset _
  | .release _ | .drop _ _ | .dispatch _ _ | .returned _ => 0

def leasing : Pc → Nat
  | .leased => 1
  | .enter | .validate | .suspend | .inspect | .takeIdle | .upgrade | .queued | .popped | .granted | .holding
  | .reset _ | .release _ | .drop _ _ | .dispatch _ _ | .returned _ => 0

def dropping : Pc → Nat
  | .drop _ _ => 1
  | .enter | .validate | .suspend | .inspect | .takeIdle | .upgrade | .queued | .popped | .granted | .holding
  | .leased | .reset _ | .release _ | .dispatch _ _ | .returned _ => 0

def waiting : Pc → Nat
  | .queued => 1
  | .enter | .validate | .suspend | .inspect | .takeIdle | .upgrade | .popped | .granted | .holding | .leased
  | .reset _ | .release _ | .drop _ _ | .dispatch _ _ | .returned _ => 0

def handed : Pc → Nat
  | .popped | .granted => 1
  | .enter | .validate | .suspend | .inspect | .takeIdle | .upgrade | .queued | .holding | .leased | .reset _
  | .release _ | .drop _ _ | .dispatch _ _ | .returned _ => 0

/-- The operation was taken from the queue and has not been dispatched. -/
def undispatched : Pc → Nat
  | .popped => 1
  | .enter | .validate | .suspend | .inspect | .takeIdle | .upgrade | .queued | .granted | .holding | .leased
  | .reset _ | .release _ | .drop _ _ | .dispatch _ _ | .returned _ => 0

/-- The operation is about to dispatch operation `n`. -/
def carries (n : Nat) : Pc → Nat
  | .drop _ (some m) | .dispatch _ m => if m = n then 1 else 0
  | .enter | .validate | .suspend | .inspect | .takeIdle | .upgrade | .queued | .popped | .granted | .holding
  | .leased | .reset _ | .release _ | .drop _ none | .returned _ => 0

def early : Pc → Bool
  | .enter | .validate | .suspend | .inspect | .takeIdle | .upgrade => true
  | .queued | .popped | .granted | .holding | .leased | .reset _ | .release _ | .drop _ _ | .dispatch _ _
  | .returned _ => false

def light : Pc → Bool
  | .enter | .validate | .suspend | .holding | .reset _ | .release _ | .returned _ => true
  | .inspect | .takeIdle | .upgrade | .queued | .popped | .granted | .leased | .drop _ _ | .dispatch _ _ => false

end Pc

def Task.on (d : Dir) (k : Nat) (f : Pc → Nat) (t : Task) : Nat := if t.dir = d ∧ t.inc = k then f t.pc else 0

def Task.along (d : Dir) (f : Pc → Nat) (t : Task) : Nat := if t.dir = d then f t.pc else 0

def Task.count (f : Pc → Nat) (t : Task) : Nat := f t.pc

/-- The weight of operation `n`, nothing if there is none. -/
def State.at (s : State) (n : Nat) (f : Task → Nat) : Nat :=
  match s.tasks[n]? with
  | some t => f t
  | none => 0

def FreePc.inside : FreePc → Nat
  | .resetting _ => 1
  | .idle | .pending => 0

def Phase.refs : Phase → Nat
  | .attached | .closing _ => 1
  | .vacant | .released => 0

def handCount (n : Nat) : Option Nat → Nat
  | some m => if m = n then 1 else 0
  | none => 0

/-! ### The invariant -/

structure State.Alive (s : State) : Prop where
  phase : s.phase ≠ .vacant
  freer : ∀ rest, s.freer ≠ .resetting rest

/-- The incarnations the operations have captured, and how far the node is with its own. -/
structure Known (s : State) : Prop where
  generation : s.desc.generation = word s.inc
  token : ∀ t ∈ s.tasks, t.generation = word t.inc ∧ t.inc ≤ s.inc
  current : ∀ t ∈ s.tasks, t.inc = s.inc → s.Alive
  light : ∀ t ∈ s.tasks, t.inc ≠ s.inc → t.pc.light = true
  attached : s.phase = .attached → s.desc.closing = false ∧ 0 ≤ s.desc.fd
  closing : s.phase ≠ .attached → s.phase ≠ .vacant → s.desc.closing = true
  inside : ∀ t ∈ s.tasks, 0 < t.pc.inside → t.inc = s.inc ∧ s.desc.closing = false
  pending : s.freer = .pending → s.phase = .released ∧ s.desc.refs = 0
  resetting : ∀ rest, s.freer = .resetting rest → s.phase = .released ∧ s.desc.refs = 0
  vacant : s.phase = .vacant → s.freer = .idle ∧ s.desc.refs = 0

/-- The lock is held by an operation in `await_suspend` or by `free_desc`. -/
def Locked (s : State) : Prop := weight (Task.count inside) s.tasks + s.freer.inside = s.locked.toNat

def Counted (s : State) : Prop :=
  s.desc.refs = s.phase.refs + (s.queue .read).pinned.toNat + (s.queue .write).pinned.toNat +
    (s.queue .read).waiters.length + (s.queue .write).waiters.length + s.awaiters +
    weight (Task.count dropping) s.tasks

/-- The owner word agrees with the guard, the pin and the queue. -/
structure Directed (s : State) (d : Dir) : Prop where
  word : (s.queue d).owner = 0 ∨ (s.queue d).owner = operationTag s.desc.generation ∨
    (s.queue d).owner = operationTag s.desc.generation ||| 1
  own : weight (Task.on d s.inc owning) s.tasks = if (s.queue d).owner = 0 then 0 else 1
  pinned : (s.queue d).pinned = true ↔ (s.queue d).owner = operationTag s.desc.generation ||| 1
  queued : (s.queue d).waiters ≠ [] → (s.queue d).pinned = true
  handed : (s.queue d).hand ≠ none → (s.queue d).pinned = true

/-- Task `n` is queued, handed the guard or carried as its step says. -/
structure Placed (s : State) (d : Dir) (n : Nat) : Prop where
  queued : (s.queue d).waiters.count n = s.at n (Task.along d waiting)
  handed : handCount n (s.queue d).hand = s.at n (Task.along d handed)
  carried : weight (Task.count (carries n)) s.tasks = s.at n (Task.count undispatched)

def Ordered (s : State) (d : Dir) : Prop :=
  (s.queue d).joined = (s.queue d).served ++ (s.queue d).hand.toList ++ (s.queue d).waiters

/-- Who is in a system call, and what a close has waited for. -/
structure Leased (s : State) : Prop where
  active : ∀ d, weight (Task.along d leasing) s.tasks = (s.desc.syscallActive d).toNat
  awaited : ∀ rest, s.phase = .closing rest → ∀ d, d ∉ rest → s.desc.syscallActive d = false
  released : s.phase = .released ∨ s.phase = .vacant → ∀ d, s.desc.syscallActive d = false

/-- An operation is dispatched once, after it was taken from the queue. -/
structure Task.Woken (t : Task) : Prop where
  fresh : t.waited = false → t.wakes = 0 ∧ t.pc.waiting = 0 ∧ t.pc.handed = 0
  waiting : t.waited = true → 0 < t.pc.waiting + t.pc.undispatched → t.wakes = 0
  woken : t.waited = true → t.pc.waiting + t.pc.undispatched = 0 → t.wakes = 1
  once : t.waited = true → t.pc.early = false

structure Kept (s : State) : Prop where
  known : Known s
  locked : Locked s
  counted : Counted s
  directed : s.Alive → ∀ d, Directed s d
  placed : ∀ d n, Placed s d n
  ordered : ∀ d, Ordered s d
  leased : Leased s
  held : ∀ d k, weight (Task.on d k held) s.tasks ≤ 1
  woken : ∀ t ∈ s.tasks, t.Woken

end Cio.Reactor.Operation
