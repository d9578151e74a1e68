import Cio.ParkingLot
import Cio.TransitionSystem

/-! `Mutex`: a lock for tasks. The uncontended path is a compare-exchange of the state word; a task that misses it
marks the word as contended under the queue lock and parks, and an unlock that finds the mark hands the mutex to
the head of the queue without clearing the word. The state word is read and written without the queue lock, so
every access to it is a step of its own; an access and the release of the queue lock right after it are one
step. -/

namespace Cio.Mutex

def kLocked : UInt8 := 1
def kContended : UInt8 := 2

/-- Where a call is: `try_acquire` (`load`, `exchange`), `await_suspend` (`suspend`, and under the queue lock
`publish` and `settle` with the word it saw), the queue (`parked`, `granted` once it was dispatched), the guard
(`holding`), `unlock` (`unlock`, `unlockExchange`) and `unlock_contended` (`unlockContended`, `dispatch`). -/
inductive Pc where
  | load
  | exchange
  | suspend
  | publish
  | settle (previous : UInt8)
  | parked
  | granted
  | holding (contended : Bool)
  | unlock
  | unlockExchange
  | unlockContended
  | dispatch (next : Nat)
  | returned (acquired : Bool)
  deriving DecidableEq

/-- One `lock()` or `try_lock()` with the unlock that ends it; `try_lock()` does not await. `waited` records that
it was queued and `wakes` how often it was dispatched. -/
structure Task where
  awaits : Bool
  pc : Pc := .load
  waited : Bool := false
  wakes : Nat := 0

/-- Where a call goes on when `try_acquire` has failed. -/
def Task.missed (t : Task) : Pc := if t.awaits then .suspend else .returned false

/-- The mutex with its calls. `joined` records the waiters in the order they were queued, `obtained` those of them
that have resumed with the guard, and `hand` the one that was taken from the queue and has not yet resumed. -/
structure State where
  state : UInt8 := 0
  locked : Bool := false
  waiters : List Nat := []
  hand : Option Nat := none
  joined : List Nat := []
  obtained : List Nat := []
  tasks : List Task := []

namespace State

def setTask (s : State) (i : Nat) (t : Task) : State := { s with tasks := s.tasks.set i t }

def setPc (s : State) (i : Nat) (t : Task) (pc : Pc) : State := s.setTask i { t with pc := pc }

def taskStep (s : State) (i : Nat) (t : Task) : Option State :=
  match t.pc with
  | .load => some (s.setPc i t (if s.state ≠ 0 then t.missed else .exchange))
  | .exchange =>
    if s.state = 0 then some ({ s with state := kLocked }.setPc i t (.holding false))
    else some (s.setPc i t t.missed)
  | .suspend =>
    if s.locked then none
    else
      some ({ s with locked := true }.setPc i t
        (if s.state &&& kContended = 0 then .publish else .settle s.state))
  | .publish => some ({ s with state := s.state ||| kContended }.setPc i t (.settle s.state))
  | .settle previous =>
    if previous &&& kLocked = 0 then
      some ({ s with state := kLocked ||| kContended, locked := false }.setPc i t (.holding true))
    else
      some ({ s with locked := false, waiters := s.waiters ++ [i], joined := s.joined ++ [i] }.setTask i
        { t with pc := .parked, waited := true })
  | .parked => none
  | .granted => some ({ s with hand := none, obtained := s.obtained ++ [i] }.setPc i t (.holding true))
  | .holding contended => some (s.setPc i t (if contended then .unlockContended else .unlock))
  | .unlock =>
    some (s.setPc i t (if s.state &&& kContended = 0 then .unlockExchange else .unlockContended))
  | .unlockExchange =>
    if s.state = kLocked then some ({ s with state := 0 }.setPc i t (.returned true))
    else some (s.setPc i t .unlockContended)
  | .unlockContended =>
    if s.locked then none
    else
      match s.waiters with
      | n :: rest => some ({ s with waiters := rest, hand := some n }.setPc i t (.dispatch n))
      | [] => some ({ s with state := 0 }.setPc i t (.returned true))
  | .dispatch n => do
      let w ← s.tasks[n]?
      some ((s.setTask n { w with pc := .granted, wakes := w.wakes + 1 }).setPc i t (.returned true))
  | .returned _ => none

end State

/-- A label: `lock()` or `try_lock()` is called, or a call makes its next step. -/
inductive Act where
  | start (awaits : Bool)
  | task (i : Nat)

def mutexStep (s : State) : Act → Option State
  | .start awaits => some { s with tasks := s.tasks ++ [{ awaits := awaits }] }
  | .task i =>
    match s.tasks[i]? with
    | some t => s.taskStep i t
    | none => none

def mutexSystem : Transition.System State Act where
  init s := s = {}
  step := mutexStep

/-! ### What a step does -/

/-- A step that changes nothing but the program counter. -/
inductive Move (s : State) (t : Task) : Pc → Prop where
  | missed (hpc : t.pc = .load ∨ t.pc = .exchange) : Move s t t.missed
  | exchange (hpc : t.pc = .load) : Move s t .exchange
  | unlock (hpc : t.pc = .holding false) : Move s t .unlock
  | unlockExchange (hpc : t.pc = .unlock) : Move s t .unlockExchange
  | unlockContended (hpc : t.pc = .holding true ∨ t.pc = .unlock ∨ t.pc = .unlockExchange) :
      Move s t .unlockContended

inductive TaskStep (s : State) (i : Nat) (t : Task) : State → Prop where
  | move {pc : Pc} (h : Move s t pc) : TaskStep s i t (s.setPc i t pc)
  | acquire (hpc : t.pc = .exchange) (hstate : s.state = 0) :
      TaskStep s i t ({ s with state := kLocked }.setPc i t (.holding false))
  | enter {pc : Pc} (hpc : t.pc = .suspend) (hfree : s.locked = false)
      (hseen : pc = .publish ∨ pc = .settle s.state ∧ s.state &&& kContended ≠ 0) :
      TaskStep s i t ({ s with locked := true }.setPc i t pc)
  | publish (hpc : t.pc = .publish) :
      TaskStep s i t ({ s with state := s.state ||| kContended }.setPc i t (.settle s.state))
  | claim {previous : UInt8} (hpc : t.pc = .settle previous) (hprevious : previous &&& kLocked = 0) :
      TaskStep s i t
        ({ s with state := kLocked ||| kContended, locked := false }.setPc i t (.holding true))
  | park {previous : UInt8} (hpc : t.pc = .settle previous) (hprevious : previous &&& kLocked ≠ 0) :
      TaskStep s i t
        ({ s with locked := false, waiters := s.waiters ++ [i], joined := s.joined ++ [i] }.setTask i
          { t with pc := .parked, waited := true })
  | resume (hpc : t.pc = .granted) :
      TaskStep s i t ({ s with hand := none, obtained := s.obtained ++ [i] }.setPc i t (.holding true))
  | release (hpc : t.pc = .unlockExchange ∧ s.state = kLocked ∨
        t.pc = .unlockContended ∧ s.locked = false ∧ s.waiters = []) :
      TaskStep s i t ({ s with state := 0 }.setPc i t (.returned true))
  | handOver {n : Nat} {rest : List Nat} (hpc : t.pc = .unlockContended) (hfree : s.locked = false)
      (hwaiters : s.waiters = n :: rest) :
      TaskStep s i t ({ s with waiters := rest, hand := some n }.setPc i t (.dispatch n))
  | dispatch {n : Nat} {w : Task} (hpc : t.pc = .dispatch n) (hw : s.tasks[n]? = some w) :
      TaskStep s i t
        ((s.setTask n { w with pc := .granted, wakes := w.wakes + 1 }).setPc i t (.returned true))

lemma taskStep_cases {s u : State} {i : Nat} {t : Task} (hs : s.taskStep i t = some u) : TaskStep s i t u := by
  cases hpc : t.pc with simp only [State.taskStep, hpc] at hs
  | load =>
    cases hs
    split
    · exact .move (.missed (.inl hpc))
    · exact .move (.exchange hpc)
  | exchange =>
    split at hs <;> cases hs
    · exact .acquire hpc ‹_›
    · exact .move (.missed (.inr hpc))
  | suspend =>
    split at hs <;> cases hs
    refine .enter hpc (Bool.eq_false_iff.mpr ‹_›) ?_
    split
    · exact .inl rfl
    · exact .inr ⟨rfl, ‹_›⟩
  | publish =>
    cases hs
    exact .publish hpc
  | settle previous =>
    split at hs <;> cases hs
    · exact .claim hpc ‹_›
    · exact .park hpc ‹_›
  | granted =>
    cases hs
    exact .resume hpc
  | holding contended =>
    cases hs
    cases contended with
    | true => exact .move (.unlockContended (.inl hpc))
    | false => exact .move (.unlock hpc)
  | unlock =>
    cases hs
    split
    · exact .move (.unlockExchange hpc)
    · exact .move (.unlockContended (.inr (.inl hpc)))
  | unlockExchange =>
    split at hs <;> cases hs
    · exact .release (.inl ⟨hpc, ‹_›⟩)
    · exact .move (.unlockContended (.inr (.inr hpc)))
  | unlockContended =>
    split at hs
    · cases hs
    have hfree : s.locked = false := Bool.eq_false_iff.mpr ‹_›
    split at hs <;> cases hs
    · exact .handOver hpc hfree ‹_›
    · exact .release (.inr ⟨hpc, hfree, ‹_›⟩)
  | dispatch =>
    obtain ⟨w, hw, hu⟩ := Option.bind_eq_some_iff.mp hs
    cases hu
    exact .dispatch hpc hw
  | parked | returned => cases hs

lemma mutexStep_cases {s u : State} {a : Act} (hs : mutexStep s a = some u) :
    (∃ awaits, u = { s with tasks := s.tasks ++ [{ awaits := awaits }] }) ∨
      ∃ i t, a = .task i ∧ s.tasks[i]? = some t ∧ TaskStep s i t u := by
  cases a with
  | start awaits =>
    cases hs
    exact .inl ⟨awaits, rfl⟩
  | task i =>
    simp only [mutexStep] at hs
    split at hs
    · exact .inr ⟨i, _, rfl, ‹_›, taskStep_cases hs⟩
    · cases hs

end Cio.Mutex
