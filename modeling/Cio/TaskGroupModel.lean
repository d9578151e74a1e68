import Mathlib.Algebra.Group.Nat.Defs
import Cio.ParkingLot
import Cio.TransitionSystem

/-! `TaskGroup`: `child_started`, `child_failed`, `child_finished` and `join`. The word `outstanding` is counted up and
down without the lock, so every access to it is a step; a critical section that makes one access only is one step.
While the word is `kFinishing` a completion has claimed the zero and goes on to take the joiners.

The state also records a clock, the last moment at which no child was outstanding, and the children in the order in
which they reported a failure. A child is known by the number of its call. -/

namespace Cio.TaskGroup

open CallPool

def kFinishing : Nat := 2 ^ 64 - 1

def fetchAdd (outstanding : Nat) : Nat := (outstanding + 1) % 2 ^ 64

def fetchSub (outstanding : Nat) : Nat := (outstanding + 2 ^ 64 - 1) % 2 ^ 64

/-- Where a call is. A child starts in `child_started` (`startLoad`, `startLoop` with the observed word, `startLock`
before the lock, `startStore` and `startAdd` inside it) and runs. It reports a failure (`failed`) and completes in
`child_finished` (`finishDirect`, `finishSub`, `claim`) and `finish_generation` (`finishLock`, `finishStore`,
`wakeList` with the joiners still to be woken). A join goes through `await_ready` (`joinLoad`), `park_join`, and
`await_resume` (`resume`, `rethrow`); it records the failures reported so far. -/
inductive Pc where
  | startLoad
  | startLoop (observed : Nat)
  | startLock
  | startStore
  | startAdd
  | running (direct : Bool)
  | failed (direct : Bool)
  | finishDirect
  | finishSub
  | claim
  | finishLock
  | finishStore
  | wakeList (nodes : List Nat)
  | finished
  | joinLoad
  | parkJoin
  | parked
  | resume
  | rethrow
  | joined (failure : Option Nat) (failures : List Nat)
  deriving DecidableEq

def Pc.counted : Pc → Nat
  | .running _ | .failed _ | .finishDirect | .finishSub => 1
  | _ => 0

structure Task where
  began : Nat
  pc : Pc
  waited : Bool := false
  wakes : Nat := 0

def Task.count (f : Pc → Nat) (t : Task) : Nat := f t.pc

/-- The group and its tasks; `zeroAt` is when it was last empty. -/
structure State where
  outstanding : Nat := 0
  locked : Bool := false
  waiters : List Nat := []
  firstException : Option Nat := none
  hasException : Bool := false
  failures : List Nat := []
  clock : Nat := 0
  zeroAt : Nat := 0
  tasks : List Task := []

def Pc.finish (direct : Bool) : Pc := if direct then .finishDirect else .finishSub

namespace State

def setTask (s : State) (i : Nat) (t : Task) : State := { s with tasks := s.tasks.set i t }

def setPc (s : State) (i : Nat) (t : Task) (pc : Pc) : State := s.setTask i { t with pc := pc }

def children (s : State) : Nat := weight (Task.count Pc.counted) s.tasks

def tick (s : State) : State :=
  { s with clock := s.clock + 1, zeroAt := if s.children = 0 then s.clock + 1 else s.zeroAt }

def start (s : State) (pc : Pc) : State := { s with tasks := s.tasks ++ [{ began := s.clock + 1, pc := pc }] }

def childFailed (s : State) (child : Nat) : State :=
  { s with
    firstException := some (s.firstException.getD child)
    hasException := true
    failures := s.failures ++ [child] }

/-- The end of `park_join`: the node is pushed. -/
def park (s : State) (i : Nat) (t : Task) : State :=
  { s with waiters := i :: s.waiters }.setTask i { t with pc := .parked, waited := true }

/-- The next step of a call. `fails` is how a child ends; `spurious` makes a weak compare-exchange fail. -/
def taskStep (s : State) (i : Nat) (fails spurious : Bool) (t : Task) : Option State :=
  match t.pc with
  | .startLoad => some (s.setPc i t (.startLoop s.outstanding))
  | .startLoop observed =>
    if observed = kFinishing then some (s.setPc i t .startLock)
    else if s.outstanding = observed ∧ spurious = false then
      some ({ s with outstanding := observed + 1 }.setPc i t (.running (observed == 0)))
    else some (s.setPc i t (.startLoop s.outstanding))
  | .startLock =>
    if s.locked then none
    else some ({ s with locked := true }.setPc i t (if s.outstanding = kFinishing then .startStore else .startAdd))
  | .startStore => some ({ s with outstanding := 1, locked := false }.setPc i t (.running true))
  | .startAdd =>
    some ({ s with outstanding := fetchAdd s.outstanding, locked := false }.setPc i t
      (.running (s.outstanding == 0)))
  | .running direct => some (s.setPc i t (if fails then .failed direct else .finish direct))
  | .failed direct => if s.locked then none else some ((s.childFailed i).setPc i t (.finish direct))
  | .finishDirect =>
    if s.outstanding = 1 then some ({ s with outstanding := kFinishing }.setPc i t .finishLock)
    else some (s.setPc i t .finishSub)
  | .finishSub =>
    some ({ s with outstanding := fetchSub s.outstanding }.setPc i t
      (if 1 < s.outstanding then .finished else .claim))
  | .claim =>
    if s.outstanding = 0 then some ({ s with outstanding := kFinishing }.setPc i t .finishLock)
    else some (s.setPc i t .finished)
  | .finishLock =>
    if s.locked then none
    else if s.outstanding = kFinishing then some ({ s with locked := true }.setPc i t .finishStore)
    else some (s.setPc i t .finished)
  | .finishStore =>
    some ({ s with waiters := [], outstanding := 0, locked := false }.setPc i t (.wakeList s.waiters))
  | .wakeList [] => some (s.setPc i t .finished)
  | .wakeList (n :: rest) => do
      let w ← s.tasks[n]?
      some ((s.setTask n { w with pc := .resume, wakes := w.wakes + 1 }).setPc i t (.wakeList rest))
  | .joinLoad => some (s.setPc i t (if s.outstanding = 0 then .resume else .parkJoin))
  | .parkJoin =>
    if s.locked then none
    else if s.outstanding = 0 then some (s.setPc i t .resume)
    else some (s.park i t)
  | .resume => some (s.setPc i t (if s.hasException then .rethrow else .joined none s.failures))
  | .rethrow => if s.locked then none else some (s.setPc i t (.joined s.firstException s.failures))
  | .finished | .parked | .joined _ _ => none

end State

/-- A label: a child is started, by whomever, a `join()` begins, or a call takes its next step. -/
inductive Act where
  | spawn
  | join
  | task (i : Nat) (fails spurious : Bool)

def groupStep (s : State) : Act → Option State
  | .spawn => some (s.start .startLoad).tick
  | .join => some (s.start .joinLoad).tick
  | .task i fails spurious =>
    match s.tasks[i]? with
    | some t => (s.taskStep i fails spurious t).map State.tick
    | none => none

def groupSystem : Transition.System State Act where
  init s := s = {}
  step := groupStep

/-- The word the call adds to is not `kFinishing` and does not become it. -/
def Pc.Fits (outstanding : Nat) : Pc → Prop
  | .startLoop observed => observed = kFinishing ∨ observed + 1 < kFinishing
  | .startAdd => outstanding + 1 < kFinishing
  | _ => True

instance (outstanding : Nat) (pc : Pc) : Decidable (pc.Fits outstanding) := by
  unfold Pc.Fits
  split <;> infer_instance

/-- Whoever is about to add a child in `child_started` finds no claimed zero in the word, and room for the child. -/
def Fits (s : State) : Act → Prop
  | .spawn | .join => True
  | .task i _ _ => ∀ t ∈ s.tasks[i]?, t.pc.Fits s.outstanding

instance (s : State) (a : Act) : Decidable (Fits s a) :=
  match a with
  | .spawn | .join => inferInstanceAs (Decidable True)
  | .task i _ _ => inferInstanceAs (Decidable (∀ t ∈ s.tasks[i]?, t.pc.Fits s.outstanding))

/-! ### What a step does -/

/-- A step that changes nothing but the program counter. -/
inductive Move (s : State) (t : Task) : Pc → Prop where
  | startLoop (hpc : t.pc = .startLoad ∨ ∃ observed, t.pc = .startLoop observed) :
      Move s t (.startLoop s.outstanding)
  | startLock (hpc : t.pc = .startLoop kFinishing) : Move s t .startLock
  | failed {direct : Bool} (hpc : t.pc = .running direct) : Move s t (.failed direct)
  | finish {direct : Bool} (hpc : t.pc = .running direct) : Move s t (.finish direct)
  | finishSub (hpc : t.pc = .finishDirect) : Move s t .finishSub
  | unclaimed (hpc : t.pc = .claim) (hword : s.outstanding ≠ 0) : Move s t .finished
  | cancelled (hpc : t.pc = .finishLock) (hword : s.outstanding ≠ kFinishing) : Move s t .finished
  | awake (hpc : t.pc = .wakeList []) : Move s t .finished
  | resume (hpc : t.pc = .joinLoad ∨ t.pc = .parkJoin) (hword : s.outstanding = 0) : Move s t .resume
  | parkJoin (hpc : t.pc = .joinLoad) : Move s t .parkJoin
  | rethrow (hpc : t.pc = .resume) (hthrew : s.hasException = true) : Move s t .rethrow
  | returned (hpc : t.pc = .resume) (hthrew : s.hasException = false) : Move s t (.joined none s.failures)
  | threw (hpc : t.pc = .rethrow) : Move s t (.joined s.firstException s.failures)

inductive TaskStep (s : State) (i : Nat) (t : Task) : State → Prop where
  | move {pc : Pc} (h : Move s t pc) : TaskStep s i t (s.setPc i t pc)
  | start (hpc : t.pc = .startLoop s.outstanding) (hfits : s.outstanding + 1 < kFinishing) {direct : Bool} :
      TaskStep s i t ({ s with outstanding := s.outstanding + 1 }.setPc i t (.running direct))
  | enter {pc : Pc} (hfree : s.locked = false)
      (hpc : t.pc = .startLock ∧ (pc = .startStore ∧ s.outstanding = kFinishing ∨ pc = .startAdd) ∨
        t.pc = .finishLock ∧ pc = .finishStore ∧ s.outstanding = kFinishing) :
      TaskStep s i t ({ s with locked := true }.setPc i t pc)
  | store (hpc : t.pc = .startStore) :
      TaskStep s i t ({ s with outstanding := 1, locked := false }.setPc i t (.running true))
  | add {word : Nat} (hpc : t.pc = .startAdd) (hfits : s.outstanding + 1 < kFinishing)
      (hword : word = fetchAdd s.outstanding) {direct : Bool} :
      TaskStep s i t ({ s with outstanding := word, locked := false }.setPc i t (.running direct))
  | fail {direct : Bool} (hpc : t.pc = .failed direct) : TaskStep s i t ((s.childFailed i).setPc i t (.finish direct))
  | claim (hpc : t.pc = .finishDirect ∧ s.outstanding = 1 ∨ t.pc = .claim ∧ s.outstanding = 0) :
      TaskStep s i t ({ s with outstanding := kFinishing }.setPc i t .finishLock)
  | sub {word : Nat} (hpc : t.pc = .finishSub) (hword : word = fetchSub s.outstanding) :
      TaskStep s i t ({ s with outstanding := word }.setPc i t (if 1 < s.outstanding then .finished else .claim))
  | release (hpc : t.pc = .finishStore) :
      TaskStep s i t ({ s with waiters := [], outstanding := 0, locked := false }.setPc i t (.wakeList s.waiters))
  | park (hpc : t.pc = .parkJoin) (hword : s.outstanding ≠ 0) : TaskStep s i t (s.park i t)
  | wake {n : Nat} {rest : List Nat} {w : Task} (hpc : t.pc = .wakeList (n :: rest)) (hw : s.tasks[n]? = some w) :
      TaskStep s i t ((s.setTask n { w with pc := .resume, wakes := w.wakes + 1 }).setPc i t (.wakeList rest))

lemma taskStep_cases {s u : State} {i : Nat} {fails spurious : Bool} {t : Task} (ht : s.tasks[i]? = some t)
    (hfits : Fits s (.task i fails spurious)) (hs : s.taskStep i fails spurious t = some u) : TaskStep s i t u := by
  have hfits : t.pc.Fits s.outstanding := hfits t ht
  cases hpc : t.pc with simp only [State.taskStep, hpc] at hs
  | startLoad =>
    cases hs
    exact .move (.startLoop (.inl hpc))
  | startLoop observed =>
    rw [hpc] at hfits
    split at hs
    · rename_i hfin
      cases hs
      rw [hfin] at hpc
      exact .move (.startLock hpc)
    · rename_i hstate
      split at hs <;> cases hs
      · rename_i hsame
        rw [← hsame.1] at hpc hfits hstate ⊢
        exact .start hpc (hfits.resolve_left hstate)
      · exact .move (.startLoop (.inr ⟨observed, hpc⟩))
  | startLock =>
    split at hs <;> cases hs
    refine .enter (Bool.eq_false_iff.mpr ‹_›) (.inl ⟨hpc, ?_⟩)
    split
    · exact .inl ⟨rfl, ‹_›⟩
    · exact .inr rfl
  | startStore =>
    cases hs
    exact .store hpc
  | startAdd =>
    rw [hpc] at hfits
    cases hs
    exact .add hpc hfits rfl
  | running =>
    cases hs
    split
    · exact .move (.failed hpc)
    · exact .move (.finish hpc)
  | failed =>
    split at hs <;> cases hs
    exact .fail hpc
  | finishDirect =>
    split at hs <;> cases hs
    · exact .claim (.inl ⟨hpc, ‹_›⟩)
    · exact .move (.finishSub hpc)
  | finishSub =>
    rw [← Option.some.inj hs]
    exact .sub hpc rfl
  | claim =>
    split at hs <;> cases hs
    · exact .claim (.inr ⟨hpc, ‹_›⟩)
    · exact .move (.unclaimed hpc ‹_›)
  | finishLock =>
    split at hs
    · cases hs
    · rename_i hfree
      split at hs <;> cases hs
      · exact .enter (Bool.eq_false_iff.mpr hfree) (.inr ⟨hpc, rfl, ‹_›⟩)
      · exact .move (.cancelled hpc ‹_›)
  | finishStore =>
    cases hs
    exact .release hpc
  | wakeList nodes =>
    cases nodes with
    | nil =>
      cases hs
      exact .move (.awake hpc)
    | cons =>
      obtain ⟨w, hw, hu⟩ := Option.bind_eq_some_iff.mp hs
      cases hu
      exact .wake hpc hw
  | joinLoad =>
    cases hs
    split
    · exact .move (.resume (.inl hpc) ‹_›)
    · exact .move (.parkJoin hpc)
  | parkJoin =>
    split at hs
    · cases hs
    · split at hs <;> cases hs
      · exact .move (.resume (.inr hpc) ‹_›)
      · exact .park hpc ‹_›
  | resume =>
    cases hs
    split
    · exact .move (.rethrow hpc ‹_›)
    · exact .move (.returned hpc (Bool.eq_false_iff.mpr ‹_›))
  | rethrow =>
    split at hs <;> cases hs
    exact .move (.threw hpc)
  | finished | parked | joined => cases hs

lemma groupStep_cases {s u : State} {a : Act} (hfits : Fits s a) (hs : groupStep s a = some u) :
    (∃ pc : Pc, (pc = .startLoad ∨ pc = .joinLoad) ∧ u = (s.start pc).tick) ∨
      ∃ i t v, s.tasks[i]? = some t ∧ TaskStep s i t v ∧ u = v.tick := by
  cases a with
  | spawn =>
    cases hs
    exact .inl ⟨.startLoad, .inl rfl, rfl⟩
  | join =>
    cases hs
    exact .inl ⟨.joinLoad, .inr rfl, rfl⟩
  | task i fails spurious =>
    simp only [groupStep] at hs
    split at hs
    · rename_i t ht
      obtain ⟨v, hv, hu⟩ := Option.map_eq_some_iff.mp hs
      exact .inr ⟨i, t, v, ht, taskStep_cases ht hfits hv, hu.symm⟩
    · cases hs

end Cio.TaskGroup
