import Mathlib.Algebra.Group.Int.Defs
import Mathlib.Algebra.Group.Nat.Defs
import Cio.ParkingLot
import Cio.TransitionSystem

/-! `WaitGroup`. The word is zero when the count is zero, one while the last `done()` is finalizing that, and else the
count plus one. The waiter list is guarded by the queue lock, and each critical section makes one access to the word
at most, so it is one step. The list is replaced by a marker when a batch of waiters was taken.

The state also records what the calls cannot see: a clock that every step advances, the last moments at which the
count was zero and at which some `wait()` was in progress, and the number of transitions of the count to zero. -/

namespace Cio.WaitGroup

def kFinishing : Nat := 1

def kMaxCount : Nat := 2 ^ 63 - 1

inductive Thrown where
  | negative
  | concurrent
  deriving DecidableEq

/-- The word after `fetch_sub`, modulo the width of `size_t`. -/
def fetchSub (state magnitude : Nat) : Nat := (state + 2 ^ 64 - magnitude) % 2 ^ 64

def countOf (state : Nat) : Nat := if kFinishing < state then state - 1 else 0

/-- Where a call is: `add_positive` (`addLoad`, `addLoop` with the observed word), the decrement of a negative `add`
(`sub`), the end of the transition to zero with its number (`drain` before the list is taken, `publish` before the
zero is stored, `wakeList` with the waiters still to be woken), `await_ready` (`waitLoad`), `park_wait` (`parkWait`,
`spin` while the zero is not published), and the list (`parked`, `granted` once it was dispatched). -/
inductive Pc where
  | addLoad (amount : Nat)
  | addLoop (amount observed : Nat)
  | sub (magnitude : Nat)
  | drain (transition : Nat)
  | publish (transition : Nat) (nodes : List Nat)
  | wakeList (transition : Nat) (nodes : List Nat)
  | waitLoad
  | parkWait
  | spin
  | parked
  | granted
  | added
  | threw (what : Thrown) (waitAt : Nat)
  | completed (zeroAt : Nat)
  deriving DecidableEq

def Pc.waits : Pc → Bool
  | .waitLoad | .parkWait | .spin | .parked | .granted => true
  | .addLoad _ | .addLoop _ _ | .sub _ | .drain _ | .publish _ _ | .wakeList _ _ | .added | .threw _ _
  | .completed _ => false

/-- An `add(n)` with `n > 0` is in progress. -/
def Pc.adds : Pc → Bool
  | .addLoad _ | .addLoop _ _ => true
  | .sub _ | .drain _ | .publish _ _ | .wakeList _ _ | .waitLoad | .parkWait | .spin | .parked | .granted | .added
  | .threw _ _ | .completed _ => false

/-- A call with the moment it began. A waiter records the transition that is going to serve it, which is the next
one, or the present one while it is being finalized; `wokenBy` is the transition that did. -/
structure Task where
  began : Nat
  pc : Pc
  waited : Bool := false
  wakes : Nat := 0
  expects : Nat := 0
  wokenBy : Option Nat := none

/-- `waiters` is `none` for the drained marker. -/
structure State where
  state : Nat := 0
  waiters : Option (List Nat) := some []
  transitions : Nat := 0
  clock : Nat := 0
  zeroAt : Nat := 0
  waitAt : Nat := 0
  tasks : List Task := []

namespace State

def setTask (s : State) (i : Nat) (t : Task) : State := { s with tasks := s.tasks.set i t }

def setPc (s : State) (i : Nat) (t : Task) (pc : Pc) : State := s.setTask i { t with pc := pc }

def list (s : State) : List Nat := s.waiters.getD []

def tick (s : State) : State :=
  { s with
    clock := s.clock + 1
    zeroAt := if countOf s.state = 0 then s.clock + 1 else s.zeroAt
    waitAt := if s.tasks.any (fun t => t.pc.waits) then s.clock + 1 else s.waitAt }

def start (s : State) (pc : Pc) : State := { s with tasks := s.tasks ++ [{ began := s.clock + 1, pc := pc }] }

/-- The end of `park_wait`: the node is pushed. -/
def park (s : State) (i : Nat) (t : Task) (expects : Nat) : State :=
  { s with waiters := some (i :: s.list) }.setTask i { t with pc := .parked, waited := true, expects := expects }

/-- The next step of a call. `spurious` makes a weak compare-exchange fail. -/
def taskStep (s : State) (i : Nat) (spurious : Bool) (t : Task) : Option State :=
  match t.pc with
  | .addLoad amount => some (s.setPc i t (.addLoop amount s.state))
  | .addLoop amount observed =>
    if observed = kFinishing then some (s.setPc i t (.threw .concurrent s.waitAt))
    else if kMaxCount - (if observed = 0 then 0 else observed - 1) < amount then
      some (s.setPc i t (.threw .negative s.waitAt))
    else if s.state = observed ∧ spurious = false then
      some ({ s with state := if observed = 0 then amount + 1 else observed + amount }.setPc i t .added)
    else some (s.setPc i t (.addLoop amount s.state))
  | .sub magnitude =>
    let after := { s with state := fetchSub s.state magnitude }
    if magnitude < countOf s.state then some (after.setPc i t .added)
    else if countOf s.state < magnitude then some (after.setPc i t (.threw .negative s.waitAt))
    else some ({ after with transitions := s.transitions + 1 }.setPc i t (.drain (s.transitions + 1)))
  | .drain transition => some ({ s with waiters := none }.setPc i t (.publish transition s.list))
  | .publish transition nodes => some ({ s with state := 0 }.setPc i t (.wakeList transition nodes))
  | .wakeList _ [] => some (s.setPc i t .added)
  | .wakeList transition (n :: rest) => do
      let w ← s.tasks[n]?
      some ((s.setTask n { w with pc := .granted, wakes := w.wakes + 1, wokenBy := some transition }).setPc i t
        (.wakeList transition rest))
  | .waitLoad => some (s.setPc i t (if s.state = 0 then .completed s.zeroAt else .parkWait))
  | .parkWait =>
    if s.state = 0 then some (s.setPc i t (.completed s.zeroAt))
    else if s.state = kFinishing then
      match s.waiters with
      | some _ => some (s.park i t s.transitions)
      | none => some (s.setPc i t .spin)
    else some (s.park i t (s.transitions + 1))
  | .spin => some (s.setPc i t (if s.state = kFinishing then .spin else .completed s.zeroAt))
  | .granted => some (s.setPc i t (.completed s.zeroAt))
  | .parked | .added | .threw _ _ | .completed _ => none

end State

def addStart (delta : Int) (waitAt : Nat) : Pc :=
  if delta = 0 then .added
  else if 0 < delta then .addLoad delta.natAbs
  else if kMaxCount < delta.natAbs then .threw .negative waitAt
  else .sub delta.natAbs

/-- A label: `add(delta)` or `done()`, `wait()`, or the next step of a call. -/
inductive Act where
  | add (delta : Int)
  | wait
  | task (i : Nat) (spurious : Bool)

def groupStep (s : State) : Act → Option State
  | .add delta =>
    if -2 ^ 63 ≤ delta ∧ delta < 2 ^ 63 then
      some (s.start (addStart delta s.waitAt)).tick
    else none
  | .wait => some (s.start .waitLoad).tick
  | .task i spurious =>
    match s.tasks[i]? with
    | some t => (s.taskStep i spurious t).map State.tick
    | none => none

def groupSystem : Transition.System State Act where
  init s := s = {}
  step := groupStep

/-- The next step of the call neither takes the count below zero nor overflows it. -/
def Pc.InRange (state : Nat) : Pc → Prop
  | .sub magnitude => magnitude ≤ countOf state
  | .addLoop amount observed => observed ≠ kFinishing → amount ≤ kMaxCount - countOf observed
  | .addLoad _ | .drain _ | .publish _ _ | .wakeList _ _ | .waitLoad | .parkWait | .spin | .parked | .granted
  | .added | .threw _ _ | .completed _ => True

instance (state : Nat) (pc : Pc) : Decidable (pc.InRange state) :=
  match pc with
  | .sub magnitude => inferInstanceAs (Decidable (magnitude ≤ countOf state))
  | .addLoop amount observed =>
    inferInstanceAs (Decidable (observed ≠ kFinishing → amount ≤ kMaxCount - countOf observed))
  | .addLoad _ | .drain _ | .publish _ _ | .wakeList _ _ | .waitLoad | .parkWait | .spin | .parked | .granted
  | .added | .threw _ _ | .completed _ => inferInstanceAs (Decidable True)

def InRange (s : State) : Act → Prop
  | .add delta => delta.natAbs ≤ kMaxCount
  | .wait => True
  | .task i _ => ∀ t ∈ s.tasks[i]?, t.pc.InRange s.state

instance (s : State) (a : Act) : Decidable (InRange s a) :=
  match a with
  | .add delta => inferInstanceAs (Decidable (delta.natAbs ≤ kMaxCount))
  | .wait => inferInstanceAs (Decidable True)
  | .task i _ => inferInstanceAs (Decidable (∀ t ∈ s.tasks[i]?, t.pc.InRange s.state))

/-! ### What a step does -/

/-- A step that changes nothing but the program counter. -/
inductive Move (s : State) (t : Task) : Pc → Prop where
  | addLoop {amount : Nat} (hpc : t.pc = .addLoad amount ∨ ∃ observed, t.pc = .addLoop amount observed) :
      Move s t (.addLoop amount s.state)
  | threw {amount : Nat} (hpc : t.pc = .addLoop amount kFinishing) : Move s t (.threw .concurrent s.waitAt)
  | awake {transition : Nat} (hpc : t.pc = .wakeList transition []) : Move s t .added
  | completed (hpc : (t.pc = .waitLoad ∨ t.pc = .parkWait) ∧ s.state = 0 ∨ t.pc = .spin ∨ t.pc = .granted) :
      Move s t (.completed s.zeroAt)
  | parkWait (hpc : t.pc = .waitLoad) : Move s t .parkWait
  | spin (hpc : t.pc = .parkWait ∨ t.pc = .spin) (hstate : s.state = kFinishing) : Move s t .spin

/-- What a step of call `i` does while the count is in range. -/
inductive TaskStep (s : State) (i : Nat) (t : Task) : State → Prop where
  | move {pc : Pc} (h : Move s t pc) : TaskStep s i t (s.setPc i t pc)
  | add {amount : Nat} (hpc : t.pc = .addLoop amount s.state) (hstate : s.state ≠ kFinishing)
      (hfits : amount ≤ kMaxCount - countOf s.state) :
      TaskStep s i t ({ s with state := if s.state = 0 then amount + 1 else s.state + amount }.setPc i t .added)
  | sub {magnitude word : Nat} (hpc : t.pc = .sub magnitude) (hmore : magnitude < countOf s.state)
      (hword : word = fetchSub s.state magnitude) : TaskStep s i t ({ s with state := word }.setPc i t .added)
  | last {magnitude word : Nat} (hpc : t.pc = .sub magnitude) (hlast : magnitude = countOf s.state)
      (hword : word = fetchSub s.state magnitude) :
      TaskStep s i t ({ s with state := word, transitions := s.transitions + 1 }.setPc i t
        (.drain (s.transitions + 1)))
  | drain {transition : Nat} (hpc : t.pc = .drain transition) :
      TaskStep s i t ({ s with waiters := none }.setPc i t (.publish transition s.list))
  | publish {transition : Nat} {nodes : List Nat} (hpc : t.pc = .publish transition nodes) :
      TaskStep s i t ({ s with state := 0 }.setPc i t (.wakeList transition nodes))
  | park {expects : Nat} (hpc : t.pc = .parkWait)
      (hexpects : s.state = kFinishing ∧ s.waiters ≠ none ∧ expects = s.transitions ∨
        kFinishing < s.state ∧ expects = s.transitions + 1) : TaskStep s i t (s.park i t expects)
  | wake {transition n : Nat} {rest : List Nat} {w : Task} (hpc : t.pc = .wakeList transition (n :: rest))
      (hw : s.tasks[n]? = some w) :
      TaskStep s i t
        ((s.setTask n { w with pc := .granted, wakes := w.wakes + 1, wokenBy := some transition }).setPc i t
          (.wakeList transition rest))

lemma countOf_add (observed : Nat) : (if observed = 0 then 0 else observed - 1) = countOf observed := by
  unfold countOf kFinishing
  split <;> split <;> omega

lemma taskStep_cases {s u : State} {i : Nat} {spurious : Bool} {t : Task} (ht : s.tasks[i]? = some t)
    (hrange : InRange s (.task i spurious)) (hs : s.taskStep i spurious t = some u) : TaskStep s i t u := by
  have hrange : t.pc.InRange s.state := hrange t ht
  cases hpc : t.pc with simp only [State.taskStep, hpc] at hs
  | addLoad =>
    cases hs
    exact .move (.addLoop (.inl hpc))
  | addLoop amount observed =>
    rw [hpc] at hrange
    split at hs
    · rename_i hfin
      cases hs
      rw [hfin] at hpc
      exact .move (.threw hpc)
    · rename_i hstate
      rw [countOf_add observed] at hs
      rw [if_neg (not_lt.mpr (hrange hstate))] at hs
      split at hs <;> cases hs
      · rename_i hsame
        rw [← hsame.1] at hpc hstate hrange ⊢
        exact .add hpc hstate (hrange hstate)
      · exact .move (.addLoop (.inr ⟨observed, hpc⟩))
  | sub magnitude =>
    rw [hpc] at hrange
    have hrange : magnitude ≤ countOf s.state := hrange
    split at hs
    · cases hs
      exact .sub hpc ‹_› rfl
    · rw [if_neg (not_lt.mpr hrange)] at hs
      cases hs
      exact .last hpc (by omega) rfl
  | drain =>
    cases hs
    exact .drain hpc
  | publish =>
    cases hs
    exact .publish hpc
  | wakeList transition nodes =>
    cases nodes with
    | nil =>
      cases hs
      exact .move (.awake hpc)
    | cons =>
      obtain ⟨w, hw, hu⟩ := Option.bind_eq_some_iff.mp hs
      cases hu
      exact .wake hpc hw
  | waitLoad =>
    cases hs
    split
    · exact .move (.completed (.inl ⟨.inl hpc, ‹_›⟩))
    · exact .move (.parkWait hpc)
  | parkWait =>
    split at hs
    · cases hs
      exact .move (.completed (.inl ⟨.inr hpc, ‹_›⟩))
    · split at hs
      · rename_i hfin
        split at hs <;> cases hs
        · exact .park hpc (.inl ⟨hfin, by simp [*], rfl⟩)
        · exact .move (.spin (.inl hpc) hfin)
      · cases hs
        refine .park hpc (.inr ⟨?_, rfl⟩)
        unfold kFinishing at *
        omega
  | spin =>
    cases hs
    split
    · exact .move (.spin (.inr hpc) ‹_›)
    · exact .move (.completed (.inr (.inl hpc)))
  | granted =>
    cases hs
    exact .move (.completed (.inr (.inr hpc)))
  | parked | added | threw | completed => cases hs

def Pc.starts : Pc → Bool
  | .addLoad amount | .sub amount => decide (0 < amount)
  | .added | .waitLoad => true
  | .addLoop _ _ | .drain _ | .publish _ _ | .wakeList _ _ | .parkWait | .spin | .parked | .granted | .threw _ _
  | .completed _ => false

lemma groupStep_cases {s u : State} {a : Act} (hrange : InRange s a) (hs : groupStep s a = some u) :
    (∃ pc : Pc, pc.starts ∧ (pc.adds → ∃ delta, a = .add delta ∧ 0 < delta) ∧ u = (s.start pc).tick) ∨
      ∃ i spurious t v, a = .task i spurious ∧ s.tasks[i]? = some t ∧ TaskStep s i t v ∧ u = v.tick := by
  cases a with
  | add delta =>
    simp only [groupStep] at hs
    split at hs <;> cases hs
    refine .inl ⟨addStart delta s.waitAt, ?_, fun hadds => ⟨delta, rfl, ?_⟩, rfl⟩
    swap
    · unfold addStart at hadds
      split_ifs at hadds <;> first | assumption | cases hadds
    have hrange : delta.natAbs ≤ kMaxCount := hrange
    unfold addStart
    split
    · rfl
    · have hpos : 0 < delta.natAbs := Int.natAbs_pos.mpr ‹_›
      split
      · exact decide_eq_true hpos
      · rw [if_neg (not_lt.mpr hrange)]
        exact decide_eq_true hpos
  | wait =>
    cases hs
    exact .inl ⟨.waitLoad, rfl, nofun, rfl⟩
  | task i spurious =>
    simp only [groupStep] at hs
    split at hs
    · rename_i t ht
      obtain ⟨v, hv, hu⟩ := Option.map_eq_some_iff.mp hs
      exact .inr ⟨i, spurious, t, v, rfl, ht, taskStep_cases ht hrange hv, hu.symm⟩
    · cases hs

end Cio.WaitGroup
