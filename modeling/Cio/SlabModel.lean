import Cio.CallPool
import Cio.ReactorDesc
import Cio.TransitionSystem
import Cio.WrapCounter

/-! The descriptor slab. Nodes are handed out by `alloc_desc`, attached, detached and recycled by
`free_desc` when their last reference goes; event tokens name a node and a generation and may be
dispatched at any later time. A critical section of the lifecycle lock or of the slab mutex is one step:
without a lock one can see only `generation`, `refs` and `closing` of it, and `refs` is zero until `attach`
has stored it and after `free_desc` was entered. The reference count is a natural number. -/

namespace Cio.Reactor.Slab

def kChunkSize : Nat := 512
def kMaxChunks : Nat := 8192
def kMaxRefs : Nat := 2 ^ 32 - 1

/-- How far `attach` and `detach` are with a node. `gone` is a node whose owner reference was given up and
that is not yet recycled. -/
inductive OwnerPc where
  | vacant
  | allocated
  | opened
  | failed
  | attached
  | detaching (rest : List Dir)
  | gone
  deriving DecidableEq

/-- An event token (`make_token`), or the incarnation an operation has captured. `inc` counts the
recyclings of the node before the token was made. -/
structure Token where
  node : Nat
  generation : UInt32
  inc : Nat
  deriving DecidableEq

/-- `dispatch` with its event from `check` to `unblock`; an `IoAwaiter` (with its direction) or a
`set_deadline` at `acquire` and `holds`; then `release_desc` and `free_desc`. -/
inductive Party where
  | check (tok : Token) (dirs : List Dir)
  | load (tok : Token) (dirs : List Dir)
  | cas (tok : Token) (dirs : List Dir) (refs : Nat)
  | recheck (tok : Token) (dirs : List Dir)
  | recheckClosing (tok : Token) (dirs : List Dir)
  | unblock (tok : Token) (dirs : List Dir)
  | acquire (tok : Token) (dir : Option Dir)
  | holds (n : Nat)
  | release (n : Nat)
  | free (n : Nat)
  | push (n : Nat)
  | returned
  deriving DecidableEq

/-- A slab node, with its owner and the number of its recyclings. -/
structure Node where
  desc : IoDesc Nat Unit := {}
  owner : OwnerPc := .vacant
  inc : Nat := 0

/-- The nodes, the free list and the threads at work on them. -/
structure State where
  nodes : Nat → Node := fun _ => {}
  freeList : List Nat := []
  chunks : Nat := 0
  parties : List Party := []

namespace State

def setNode (s : State) (n : Nat) (node : Node) : State := { s with nodes := Function.update s.nodes n node }

def setParty (s : State) (i : Nat) (p : Party) : State := { s with parties := s.parties.set i p }

def start (s : State) (p : Party) : State := { s with parties := s.parties ++ [p] }

def token (s : State) (n : Nat) : Token := ⟨n, (s.nodes n).desc.generation, (s.nodes n).inc⟩

/-- `alloc_desc`: the head of the free list, or the first node of a new chunk whose other nodes go on the
list; without memory or beyond the last chunk there is none. -/
def allocDesc (s : State) (memory : Bool) : Option (Nat × State) :=
  match s.freeList with
  | n :: rest => some (n, { s with freeList := rest })
  | [] =>
    if kMaxChunks ≤ s.chunks ∨ memory = false then none
    else
      some (s.chunks * kChunkSize, { s with
        chunks := s.chunks + 1
        freeList := List.range' (s.chunks * kChunkSize + 1) (kChunkSize - 1) })

/-- The owner of a node gives up its reference through `release_desc`. -/
def releaseOwner (s : State) (n : Nat) : State :=
  (s.setNode n { s.nodes n with owner := .gone }).start (.release n)

/-- The next step of `attach` or `detach` on the node. `ok` is the outcome of `epoll_ctl`. -/
def ownerStep (s : State) (n : Nat) (fd : Int) (ok : Bool) : Option State :=
  let node := s.nodes n
  match node.owner with
  | .vacant | .gone => none
  | .allocated => some (s.setNode n { node with desc := node.desc.attachFields fd, owner := .opened })
  | .opened => some (s.setNode n { node with owner := if ok then .attached else .failed })
  | .failed =>
    some ((s.setNode n { node with desc := { node.desc with closing := true } }).releaseOwner n)
  | .attached =>
    some (s.setNode n { node with
      desc := { node.desc with closing := true }, owner := .detaching [.read, .write] })
  | .detaching (dir :: rest) =>
    some (s.setNode n { node with
      desc := node.desc.unblock dir (some (.errc .closed)), owner := .detaching rest })
  | .detaching [] => some (s.releaseOwner n)

/-- What an acquired reference is for: an awaiter goes on to the slot in the same critical section. -/
def acquired (d : IoDesc Nat Unit) (i : Nat) : Option Dir → IoDesc Nat Unit
  | none => d
  | some dir => (d.suspendSlot dir i).1

/-- The next step of a party. `refuse` makes a weak exchange fail, or the state check of an acquisition
fail for a reason other than the incarnation. -/
def partyStep (s : State) (i : Nat) (refuse : Bool) : Party → Option State
  | .check tok dirs =>
    some (s.setParty i (if (s.nodes tok.node).desc.generation = tok.generation then .load tok dirs
      else .returned))
  | .load tok dirs =>
    let refs := (s.nodes tok.node).desc.refs
    some (s.setParty i (if refs = 0 ∨ refs = kMaxRefs then .returned else .cas tok dirs refs))
  | .cas tok dirs refs =>
    let node := s.nodes tok.node
    if node.desc.refs = refs ∧ refuse = false then
      some ((s.setNode tok.node { node with desc := { node.desc with refs := refs + 1 } }).setParty i
        (.recheck tok dirs))
    else some (s.setParty i (.load tok dirs))
  | .recheck tok dirs =>
    some (s.setParty i (if (s.nodes tok.node).desc.generation = tok.generation then
      .recheckClosing tok dirs else .release tok.node))
  | .recheckClosing tok dirs =>
    some (s.setParty i (if (s.nodes tok.node).desc.closing then .release tok.node
      else .unblock tok dirs))
  | .unblock tok (dir :: rest) =>
    let node := s.nodes tok.node
    some ((s.setNode tok.node { node with desc := node.desc.unblock dir none }).setParty i
      (.unblock tok rest))
  | .unblock tok [] => some (s.setParty i (.release tok.node))
  | .acquire tok dir =>
    let node := s.nodes tok.node
    if node.desc.generation = tok.generation ∧ node.desc.closing = false ∧ refuse = false then
      some ((s.setNode tok.node { node with
        desc := { acquired node.desc i dir with refs := node.desc.refs + 1 } }).setParty i
          (.holds tok.node))
    else some (s.setParty i .returned)
  | .holds n => some (s.setParty i (.release n))
  | .release n =>
    let node := s.nodes n
    some ((s.setNode n { node with desc := { node.desc with refs := node.desc.refs - 1 } }).setParty i
      (if node.desc.refs = 1 then .free n else .returned))
  | .free n =>
    let node := s.nodes n
    some ((s.setNode n { node with
      desc := node.desc.freeFields
      owner := if node.owner = .gone then .vacant else node.owner
      inc := node.inc + 1 }).setParty i (.push n))
  | .push n => some ({ s with freeList := n :: s.freeList }.setParty i .returned)
  | .returned => none

end State

/-- A label: `attach` asks for a node; the owner of a node goes on; an operation captures the incarnation of
an attached node; the poller dequeues an event of a registered node; a party goes on. -/
inductive Act where
  | attach (memory : Bool)
  | owner (n : Nat) (fd : Int) (ok : Bool)
  | capture (n : Nat) (dir : Option Dir)
  | event (n : Nat) (dirs : List Dir)
  | party (i : Nat) (refuse : Bool)

def OwnerPc.registered : OwnerPc → Bool
  | .attached | .detaching _ => true
  | .vacant | .allocated | .opened | .failed | .gone => false

def slabStep (s : State) : Act → Option State
  | .attach memory =>
    (s.allocDesc memory).map fun r => r.2.setNode r.1 { r.2.nodes r.1 with owner := .allocated }
  | .owner n fd ok => s.ownerStep n fd ok
  | .capture n dir =>
    if (s.nodes n).owner = .attached then some (s.start (.acquire (s.token n) dir)) else none
  | .event n dirs =>
    if (s.nodes n).owner.registered then some (s.start (.check (s.token n) dirs)) else none
  | .party i refuse =>
    match s.parties[i]? with
    | some p => s.partyStep i refuse p
    | none => none

def slabSystem : Transition.System State Act where
  init s := s = {}
  step := slabStep

def Party.dispatched : Party → Option Token
  | .check tok _ | .load tok _ | .cas tok _ _ | .recheck tok _ | .recheckClosing tok _
  | .unblock tok _ => some tok
  | .acquire _ _ | .holds _ | .release _ | .free _ | .push _ | .returned => none

/-- The node of every event token in dispatch was recycled fewer than `2 ^ 32` times since the token was
made. -/
def TokensFresh (s : State) (_ : Act) : Prop :=
  ∀ p ∈ s.parties, ∀ tok ∈ p.dispatched, (s.nodes tok.node).inc < tok.inc + 2 ^ 32

instance (s : State) (act : Act) : Decidable (TokensFresh s act) :=
  inferInstanceAs (Decidable (∀ p ∈ s.parties, ∀ tok ∈ p.dispatched, _))

end Cio.Reactor.Slab
