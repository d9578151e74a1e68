import Cio.CallPool
import Cio.TransitionSystem

/-! The tree of cancellation scopes: `CancelState` with its hooks and its done channel, and `make_scope` with the
clamped deadline, the timer and the link to the parent. A critical section of a `hooks_mutex` is one step. A task is a
stack of frames, since a hook that links a child runs the child's `cancel` inside the parent's. -/

namespace Cio.CancelTree

open CallPool Transition

inductive Cause where
  | explicit
  | deadline
  deriving DecidableEq

/-- A `ParentLink` or a hook of a user. -/
inductive Hook where
  | link (child : Nat)
  | user (id : Nat)
  deriving DecidableEq

inductive Done where
  | absent | open | closed
  deriving DecidableEq

/-- How far `make_scope` has come: it is about to store the deadline, to arm the timer, to link the scope to its parent,
or to return it. -/
inductive Stage where
  | store (deadline : Int)
  | arm
  | link
  | finish
  | ready
  deriving DecidableEq

/-- A `CancelState` with its keepalive: `linked` is whether that holds a hook of the parent and the parent itself,
`live` whether the state has owners. `own` is the deadline it was asked for, `asked` whether `cancel` was called on it
explicitly or by its timer, and `cause` what the call was made for that cancelled it. -/
structure Scope where
  parent : Option Nat
  own : Int
  stage : Stage
  deadlineNs : Int
  timer : Bool
  cancelled : Bool
  fired : Bool
  hooks : List Hook
  done : Done
  linked : Bool
  live : Bool
  asked : Bool
  cause : Option Cause

namespace Scope

def create (parent : Option Nat) (own deadline : Int) : Scope where
  parent := parent
  own := own
  stage := .store deadline
  deadlineNs := 0
  timer := false
  cancelled := false
  fired := false
  hooks := []
  done := .absent
  linked := false
  live := true
  asked := false
  cause := none

def absent : Scope := { create none 0 0 with live := false }

def settled (x : Scope) : Bool :=
  match x.stage with
  | .store _ => false
  | _ => true

def placed (x : Scope) : Bool :=
  match x.stage with
  | .finish | .ready => true
  | _ => false

end Scope

inductive Frame where
  /-- `cancel` on a scope: the exchange, the critical section, the hooks one by one and the close. -/
  | exchange (n : Nat) (cause : Cause)
  | collect (n : Nat) (cause : Cause)
  | fire (n : Nat) (cause : Cause) (todo : List Hook) (close : Bool)
  /-- `make_scope`. -/
  | build (n : Nat)
  /-- The destructor of a linked scope: `remove_hook` on the parent. -/
  | unlink (n : Nat)

/-- The scopes, the tasks and the clock, with the history of the users' hooks, each with its scope: accepted or refused
by `add_hook`, erased by `remove_hook`, removed by a call that returned before the scope was cancelled, and run. -/
structure State where
  scopes : Nat → Scope
  count : Nat
  tasks : List (List Frame)
  now : Int
  nextHook : Nat
  accepted : List (Nat × Nat)
  refused : List (Nat × Nat)
  erased : List (Nat × Nat)
  early : List (Nat × Nat)
  ran : List (Nat × Nat)

inductive Act where
  | make (parent : Option Nat) (own : Int)
  | cancel (n : Nat)
  | expire (n : Nat)
  | addHook (n : Nat)
  | removeHook (n : Nat) (k : Nat)
  | doneChannel (n : Nat)
  | destroy (n : Nat)
  | step (i : Nat)
  | tick

def clamp (deadline parentDeadline : Int) : Int :=
  if parentDeadline ≠ 0 ∧ (deadline = 0 ∨ parentDeadline < deadline) then parentDeadline else deadline

namespace State

def start (now : Int) : State where
  scopes _ := .absent
  count := 0
  tasks := []
  now := now
  nextHook := 0
  accepted := []
  refused := []
  erased := []
  early := []
  ran := []

def modify (s : State) (n : Nat) (g : Scope → Scope) : State :=
  { s with scopes := Function.update s.scopes n (g (s.scopes n)) }

def deadlineOf (s : State) : Option Nat → Int
  | none => 0
  | some m => (s.scopes m).deadlineNs

def linkToParent (s : State) (n : Nat) : State × List Frame :=
  match (s.scopes n).parent with
  | none => (s.modify n fun x => { x with stage := .finish }, [.build n])
  | some m =>
    if (s.scopes m).fired then
      (s.modify n fun x => { x with stage := .finish },
        [.exchange n ((s.scopes m).cause.getD .explicit), .build n])
    else
      ((s.modify m fun x => { x with hooks := x.hooks ++ [.link n] }).modify n
        fun x => { x with stage := .finish, linked := true }, [.build n])

def build (s : State) (n : Nat) : State × List Frame :=
  match (s.scopes n).stage with
  | .store deadline =>
    if deadline = 0 then (s.modify n fun x => { x with stage := .link }, [.build n])
    else (s.modify n fun x => { x with deadlineNs := deadline, stage := .arm }, [.build n])
  | .arm => (s.modify n fun x => { x with timer := true, stage := .link }, [.build n])
  | .link => s.linkToParent n
  | .finish => (s.modify n fun x => { x with stage := .ready }, [])
  | .ready => (s, [])

def unlink (s : State) (n : Nat) : State :=
  match (s.scopes n).parent with
  | none => s
  | some m =>
    (s.modify m fun x => { x with hooks := x.hooks.erase (.link n) }).modify n fun x => { x with linked := false }

/-- One step of the frame on top of a task, and the frames that take its place. -/
def frameStep (s : State) : Frame → State × List Frame
  | .exchange n cause =>
    if (s.scopes n).cancelled then (s, [])
    else (s.modify n fun x => { x with cancelled := true, cause := some cause }, [.collect n cause])
  | .collect n cause =>
    (s.modify n fun x => { x with fired := true, hooks := [] },
      [.fire n cause (s.scopes n).hooks ((s.scopes n).done != .absent)])
  | .fire n _ [] close => (if close then s.modify n fun x => { x with done := .closed } else s, [])
  -- `on_cancel` of a `ParentLink` finds the child by its weak pointer
  | .fire n cause (.link child :: rest) close =>
    (s, if (s.scopes child).live then [.exchange child cause, .fire n cause rest close]
      else [.fire n cause rest close])
  | .fire n cause (.user k :: rest) close =>
    ({ s with ran := s.ran ++ [(n, k)] }, [.fire n cause rest close])
  | .build n => s.build n
  | .unlink n => (s.unlink n, [])

def holds (s : State) (n : Nat) : Frame → Bool
  | .exchange m _ | .collect m _ | .fire m .. => m == n
  | .build c => c == n || (s.scopes c).parent == some n
  | .unlink c => (s.scopes c).parent == some n

def unowned (s : State) (n : Nat) : Bool :=
  s.tasks.all (fun task => task.all fun f => !s.holds n f) &&
    (List.range s.count).all fun c => !((s.scopes c).linked && (s.scopes c).parent == some n)

def usable (s : State) (n : Nat) : Bool := (s.scopes n).live && (s.scopes n).stage == .ready

def spawn (s : State) (task : List Frame) : State := { s with tasks := s.tasks ++ [task] }

def step (s : State) : Act → Option State
  | .make parent own =>
    if parent.all s.usable then
      some
        { s with
          scopes := Function.update s.scopes s.count (.create parent own (clamp own (s.deadlineOf parent)))
          count := s.count + 1
          tasks := s.tasks ++ [[.build s.count]] }
    else none
  | .cancel n =>
    if s.usable n then some ((s.modify n fun x => { x with asked := true }).spawn [.exchange n .explicit]) else none
  | .expire n =>
    if (s.scopes n).timer = true ∧ (s.scopes n).live = true ∧ (s.scopes n).deadlineNs ≤ s.now then
      some ((s.modify n fun x => { x with asked := true, timer := false }).spawn [.exchange n .deadline])
    else none
  | .addHook n =>
    if s.usable n then
      if (s.scopes n).fired then some { s with nextHook := s.nextHook + 1, refused := s.refused ++ [(n, s.nextHook)] }
      else
        some
          { s.modify n fun x => { x with hooks := x.hooks ++ [.user s.nextHook] } with
            nextHook := s.nextHook + 1, accepted := s.accepted ++ [(n, s.nextHook)] }
    else none
  | .removeHook n k =>
    if s.usable n = true ∧ (n, k) ∈ s.accepted then
      some
        { s.modify n fun x => { x with hooks := x.hooks.erase (.user k) } with
          erased := if .user k ∈ (s.scopes n).hooks then s.erased ++ [(n, k)] else s.erased
          early := if (s.scopes n).cancelled then s.early else s.early ++ [(n, k)] }
    else none
  | .doneChannel n =>
    if s.usable n then
      if (s.scopes n).done = .absent then
        some (s.modify n fun x => { x with done := if x.fired then .closed else .open })
      else some s
    else none
  | .destroy n =>
    if s.usable n = true ∧ s.unowned n = true then
      some ((s.modify n fun x => { x with live := false }).spawn (if (s.scopes n).linked then [.unlink n] else []))
    else none
  | .step i =>
    match s.tasks[i]? with
    | some (f :: rest) => some { (s.frameStep f).1 with tasks := s.tasks.set i ((s.frameStep f).2 ++ rest) }
    | _ => none
  | .tick => some { s with now := s.now + 1 }

end State

def treeSystem : System State Act where
  init s := ∃ now, s = .start now
  step := State.step

/-- `CancelToken::deadline`, with zero for none. -/
def State.deadline (s : State) (n : Nat) : Int := (s.scopes n).deadlineNs

/-- The scope `a` is `n` or one of its ancestors. -/
def State.Within (s : State) : Nat → Nat → Prop := Relation.ReflTransGen fun n m => (s.scopes n).parent = some m

/-! ### Weights of the frames in progress -/

def Frame.exchanges (n : Nat) : Frame → Nat
  | .exchange m _ => if m = n then 1 else 0
  | _ => 0

def Frame.collects (n : Nat) : Frame → Nat
  | .collect m _ => if m = n then 1 else 0
  | _ => 0

def Frame.closes (n : Nat) : Frame → Nat
  | .fire m _ _ close => if m = n ∧ close = true then 1 else 0
  | _ => 0

/-- The frame will run the hook that links `n` to `m`. -/
def Frame.delivers (m n : Nat) : Frame → Nat
  | .fire k _ todo _ => if k = m ∧ Hook.link n ∈ todo then 1 else 0
  | _ => 0

def Frame.builds (n : Nat) : Frame → Nat
  | .build m => if m = n then 1 else 0
  | _ => 0

/-- The frame belongs to a call of `cancel` or of `make_scope`. -/
def Frame.busy : Frame → Nat
  | .unlink _ => 0
  | _ => 1

def State.running (s : State) (g : Frame → Nat) : Nat := weight (weight g) s.tasks

def State.Quiet (s : State) : Prop := s.running Frame.busy = 0

variable {s : State} {i : Nat} {f : Frame} {rest q : List Frame} {g : Frame → Nat}

section

variable (hi : s.tasks[i]? = some (f :: rest))

include hi

lemma running_set (g : Frame → Nat) :
    weight (weight g) (s.tasks.set i (q ++ rest)) + g f = s.running g + weight g q := by
  have hset := weight_set (weight g) hi (q ++ rest)
  rw [weight_append, weight] at hset
  have hrunning : s.running g = weight (weight g) s.tasks := rfl
  omega

lemma running_keep (hg : g f ≤ weight g q) (hpos : 0 < s.running g) :
    0 < weight (weight g) (s.tasks.set i (q ++ rest)) := by
  have hset := running_set (q := q) hi g
  omega

lemma running_gain (hg : 0 < weight g q) : 0 < weight (weight g) (s.tasks.set i (q ++ rest)) := by
  have hset := running_set (q := q) hi g
  have hle : weight g (f :: rest) ≤ s.running g := le_weight (weight g) (List.mem_of_getElem? hi)
  rw [weight] at hle
  omega

end

lemma running_eq_zero (hquiet : s.Quiet) (hg : ∀ n, g (.unlink n) = 0) : s.running g = 0 := by
  refine weight_eq_zero fun task htask => weight_eq_zero fun x hx => ?_
  have hbusy : weight Frame.busy task = 0 := Nat.le_zero.mp (hquiet ▸ le_weight (weight Frame.busy) htask)
  have hzero := Nat.le_zero.mp (hbusy ▸ le_weight Frame.busy hx)
  cases x with
  | unlink n => exact hg n
  | exchange | collect | fire | build => cases hzero

end Cio.CancelTree
