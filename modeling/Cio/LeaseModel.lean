import Cio.CallPool
import Cio.ReactorDesc
import Cio.TransitionSystem
import Cio.WrapCounter

/-! Syscall leases against `Socket::close`. One slab node goes through any number of incarnations, each
adopted by a socket or given up because `epoll_ctl` failed; any number of operations capture an incarnation
and lease the native descriptor through `FdUseGuard`, and any number of threads close the sockets. Inside the
lifecycle lock of `close` every store is a step of its own, because `desc_` and `fd_` are read without the
lock; a critical section that stores at most one field is one step. Native descriptor numbers are reused as
soon as they are closed. -/

namespace Cio.Reactor.Lease

/-- A `Socket`: `fd_`, and whether `desc_` still points to the node. `number` is the native descriptor it
adopted, `inc` the incarnation of the node, and `closes` counts the executions of `::close` on it. -/
structure Socket where
  fd : Int
  desc : Bool
  number : Int
  inc : Nat
  closes : Nat := 0
  deriving DecidableEq

/-- Who has the owner reference of the node: an `adopt` (`failed` after an unsuccessful `epoll_ctl`), the
socket, or nobody until the node is recycled. -/
inductive OwnerPc where
  | vacant
  | opened
  | failed
  | attached (k : Nat)
  | gone
  deriving DecidableEq

/-- The incarnation `capture_operation` found in a socket. -/
structure Token where
  socket : Nat
  generation : UInt32
  inc : Nat
  deriving DecidableEq

/-- An operation: `capture_operation` and then its `FdUseGuard`s. -/
inductive Operation where
  | load (k : Nat) (dir : Dir)
  | capture (k : Nat) (dir : Dir)
  | captured (tok : Token) (dir : Dir)
  | leased (tok : Token) (dir : Dir) (fd : Int)
  | returned
  deriving DecidableEq

/-- `Socket::close`, with `detach` from `detach` to `release`. -/
inductive Closer where
  | enter (k : Nat)
  | exchange (k : Nat)
  | lock (k : Nat)
  | compare (k : Nat)
  | clear (k : Nat) (fd : Int)
  | publish (k : Nat) (fd : Int)
  | unlock (k : Nat) (own : Option Int)
  | detach (k : Nat) (fd : Int)
  | wait (k : Nat) (fd : Int) (rest : List Dir)
  | close (k : Nat) (fd : Int)
  | returned (k : Nat)
  deriving DecidableEq

/-- `native` lists the open descriptor numbers, `adopters` those that a failed `adopt` is about to close. -/
structure State where
  desc : IoDesc Unit Unit := {}
  owner : OwnerPc := .vacant
  inc : Nat := 0
  locked : Bool := false
  native : List Int := []
  adopters : List Int := []
  sockets : List Socket := []
  ops : List Operation := []
  closers : List Closer := []

namespace State

def setSocket (s : State) (k : Nat) (sk : Socket) : State := { s with sockets := s.sockets.set k sk }

def setOp (s : State) (i : Nat) (op : Operation) : State := { s with ops := s.ops.set i op }

def setCloser (s : State) (i : Nat) (c : Closer) : State := { s with closers := s.closers.set i c }

/-- The next step of an operation. A critical section needs the lock; after its system call the operation
may go on to another one. -/
def opStep (s : State) (i : Nat) (env : Env Unit) (again : Bool) : Operation → Option State
  | .load k dir => do
      let sk ← s.sockets[k]?
      some (s.setOp i (if sk.desc then .capture k dir else .returned))
  | .capture k dir => do
      let sk ← s.sockets[k]?
      if s.locked then none
      else if sk.desc = false ∨ sk.fd ≠ s.desc.fd ∨ s.desc.closing then some (s.setOp i .returned)
      else if env.stopping then some (s.setOp i .returned)
      else some (s.setOp i (.captured ⟨k, s.desc.generation, s.inc⟩ dir))
  | .captured tok dir =>
    if s.locked then none
    else
      match s.desc.beginSyscall env dir tok.generation with
      | .ok (desc, fd) => some ({ s with desc := desc }.setOp i (.leased tok dir fd))
      | .error _ => some (s.setOp i .returned)
  | .leased tok dir _ =>
    some ({ s with desc := { s.desc with
      syscallActive := Function.update s.desc.syscallActive dir false } }.setOp i
        (if again then .captured tok dir else .returned))
  | .returned => none

/-- The next step of a `close`. `wait_for_syscalls` spins on one direction after the other. -/
def closerStep (s : State) (i : Nat) : Closer → Option State
  | .enter k => do
      let sk ← s.sockets[k]?
      some (s.setCloser i (if sk.desc then .lock k else .exchange k))
  | .exchange k => do
      let sk ← s.sockets[k]?
      some ((s.setSocket k { sk with fd := -1 }).setCloser i
        (if 0 ≤ sk.fd then .close k sk.fd else .returned k))
  | .lock k => if s.locked then none else some ({ s with locked := true }.setCloser i (.compare k))
  | .compare k => do
      let sk ← s.sockets[k]?
      if sk.desc then some ((s.setSocket k { sk with fd := -1 }).setCloser i (.clear k sk.fd))
      else some (s.setCloser i (.unlock k none))
  | .clear k fd => do
      let sk ← s.sockets[k]?
      some ((s.setSocket k { sk with desc := false }).setCloser i (.publish k fd))
  | .publish k fd =>
    some ({ s with desc := { s.desc with closing := true } }.setCloser i (.unlock k (some fd)))
  | .unlock k own =>
    some ({ s with locked := false }.setCloser i
      (match own with
      | some fd => .detach k fd
      | none => .returned k))
  | .detach k fd =>
    if s.locked then none
    else
      some ({ s with desc := { s.desc with closing := true } }.setCloser i (.wait k fd [.read, .write]))
  | .wait k fd (dir :: rest) =>
    if s.desc.syscallActive dir then none else some (s.setCloser i (.wait k fd rest))
  | .wait k fd [] =>
    some ({ s with desc := { s.desc with refs := s.desc.refs - 1 }, owner := .gone }.setCloser i
      (.close k fd))
  | .close k fd => do
      let sk ← s.sockets[k]?
      if fd < 0 then some (s.setCloser i (.returned k))
      else
        some (({ s with native := s.native.erase fd }.setSocket k
          { sk with closes := sk.closes + 1 }).setCloser i (.returned k))
  | .returned _ => none

end State

def OwnerPc.refs : OwnerPc → Nat
  | .opened | .failed | .attached _ => 1
  | .vacant | .gone => 0

/-- A label. `attach` is given a number that is not open; `adopt` learns the outcome of `epoll_ctl`, and after
a failure it releases the node and closes the number. Other holders of the node take and drop references. -/
inductive Act where
  | attach (fd : Int)
  | adopt (ok : Bool)
  | abandon
  | adoptClose (fd : Int)
  | operate (k : Nat) (dir : Dir)
  | shut (k : Nat)
  | op (i : Nat) (env : Env Unit) (again : Bool)
  | closer (i : Nat)
  | pin
  | unpin
  | free

def leaseStep (s : State) : Act → Option State
  | .attach fd =>
    if s.owner = .vacant ∧ s.locked = false ∧ 0 ≤ fd ∧ fd ∉ s.native then
      some { s with desc := s.desc.attachFields fd, owner := .opened, native := fd :: s.native }
    else none
  | .adopt ok =>
    if s.owner = .opened then
      if ok then
        some { s with
          owner := .attached s.sockets.length
          sockets := s.sockets ++ [{ fd := s.desc.fd, desc := true, number := s.desc.fd, inc := s.inc }] }
      else some { s with desc := { s.desc with closing := true }, owner := .failed }
    else none
  | .abandon =>
    if s.owner = .failed then
      some { s with
        desc := { s.desc with refs := s.desc.refs - 1 }, owner := .gone
        adopters := s.desc.fd :: s.adopters }
    else none
  | .adoptClose fd =>
    if fd ∈ s.adopters then
      some { s with native := s.native.erase fd, adopters := s.adopters.erase fd }
    else none
  | .operate k dir => if k < s.sockets.length then some { s with ops := s.ops ++ [.load k dir] } else none
  | .shut k => if k < s.sockets.length then some { s with closers := s.closers ++ [.enter k] } else none
  | .op i env again =>
    match s.ops[i]? with
    | some op => s.opStep i env again op
    | none => none
  | .closer i =>
    match s.closers[i]? with
    | some c => s.closerStep i c
    | none => none
  | .pin =>
    if 0 < s.desc.refs then some { s with desc := { s.desc with refs := s.desc.refs + 1 } } else none
  | .unpin =>
    if s.owner.refs < s.desc.refs then some { s with desc := { s.desc with refs := s.desc.refs - 1 } }
    else none
  | .free =>
    if s.owner = .gone ∧ s.desc.refs = 0 ∧ s.locked = false then
      some { s with desc := s.desc.freeFields, owner := .vacant, inc := s.inc + 1 }
    else none

def leaseSystem : Transition.System State Act where
  init s := s = {}
  step := leaseStep

def Operation.token? : Operation → Option Token
  | .captured tok _ | .leased tok _ _ => some tok
  | .load _ _ | .capture _ _ | .returned => none

/-- The node was recycled fewer than `2 ^ 32` times since the incarnation of any live operation was
captured. -/
def CapturesFresh (s : State) (_ : Act) : Prop := ∀ op ∈ s.ops, ∀ tok ∈ op.token?, s.inc < tok.inc + 2 ^ 32

instance (s : State) (act : Act) : Decidable (CapturesFresh s act) :=
  inferInstanceAs (Decidable (∀ op ∈ s.ops, ∀ tok ∈ op.token?, _))

end Cio.Reactor.Lease
