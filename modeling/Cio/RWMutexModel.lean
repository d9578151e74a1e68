import Cio.ParkingLot
import Cio.TransitionSystem

/-! `RWMutex`: reader count, writer bit and pending bit share one word. Readers and writers enter and leave by
compare-exchange; whoever has to wait publishes the pending bit under the queue lock, and the call that takes the
last owner out hands the lock over under the queue lock: to a waiting writer, else to all waiting readers at once.
Every access to the word is a step of its own. An access under the queue lock, the changes of the waiter lists it
decides on and the release of the queue lock are one step, because nothing else can be seen from outside. -/

namespace Cio.RWMutex

inductive Kind where
  | read
  | write
  deriving DecidableEq

/-- The state word: `kWriter`, `kWriterPending` and the multiple of `kReaderOne`. -/
structure Word where
  writer : Bool := false
  pending : Bool := false
  readers : Nat := 0
  deriving DecidableEq

namespace Word

/-- `observed & (kWriter | kWriterPending)`. -/
def closed (w : Word) : Bool := w.writer || w.pending

def addReader (w : Word) : Word := { w with readers := w.readers + 1 }

def dropReader (w : Word) : Word := { w with readers := w.readers - 1 }

def mark (w : Word) : Word := { w with pending := true }

/-- `kWriterPending` alone: the last reader has left and a hand-off is due. -/
def due (w : Word) : Bool := w == { pending := true }

end Word

/-- Where a call is: `try_acquire_read` (`readLoad`, `readLoop` with the observed word), `try_acquire_write`
(`writeExchange`), `await_suspend` (`suspend`, and inside the queue lock `acquire_read_or_publish_pending` and
`acquire_write_or_publish_pending` with the observed word), the queue (`parked`, `granted` once it was dispatched),
the guard (`holding`), `runlock` (`runlockLoad`, `runlockLoop`, `runlockSlow` when the hand-off is due), `unlock`
(`unlockExchange`, `unlockSlow`), and `wake_list` with the waiters of one kind it has still to wake. -/
inductive Pc where
  | readLoad
  | readLoop (observed : Word)
  | writeExchange
  | suspend
  | readRetry (observed : Word)
  | writeRetry (observed : Word)
  | parked
  | granted
  | holding
  | runlockLoad
  | runlockLoop (observed : Word)
  | runlockSlow
  | unlockExchange
  | unlockSlow
  | wakeList (kind : Kind) (nodes : List Nat)
  | returned (acquired : Bool)
  deriving DecidableEq

/-- One `rlock()`, `try_rlock()`, `lock()` or `try_lock()` with the release that ends it; a `try_` form does not
await. `waited` records that it was queued and `wakes` how often it was dispatched. -/
structure Task where
  kind : Kind
  awaits : Bool
  pc : Pc
  waited : Bool := false
  wakes : Nat := 0

def Task.missed (t : Task) : Pc := if t.awaits then .suspend else .returned false

def Task.start (kind : Kind) (awaits : Bool) : Task :=
  { kind := kind, awaits := awaits, pc := match kind with | .read => .readLoad | .write => .writeExchange }

/-- The lock with its calls; waiters of both kinds are pushed at the front. `stranded` records that `runlock` ran
into its defensive branch, `joined` the writers in the order they parked and `obtained` the writers that were taken
from the list, in the order they were taken. -/
structure State where
  state : Word := {}
  locked : Bool := false
  waitingWriters : Nat := 0
  readWaiters : List Nat := []
  writeWaiters : List Nat := []
  stranded : Bool := false
  joined : List Nat := []
  obtained : List Nat := []
  tasks : List Task := []

namespace State

def setTask (s : State) (i : Nat) (t : Task) : State := { s with tasks := s.tasks.set i t }

def setPc (s : State) (i : Nat) (t : Task) (pc : Pc) : State := s.setTask i { t with pc := pc }

/-- The end of `await_suspend`: the node is pushed and the queue lock released. -/
def park (s : State) (i : Nat) (t : Task) : State :=
  let parked := { t with pc := .parked, waited := true }
  match t.kind with
  | .read => { s with locked := false, readWaiters := i :: s.readWaiters }.setTask i parked
  | .write =>
    { s with
      locked := false
      waitingWriters := s.waitingWriters + 1
      writeWaiters := i :: s.writeWaiters
      joined := s.joined ++ [i] }.setTask i parked

/-- `take_next_writer_locked` and `publish_writer_handoff`; the writer that was taken is left to wake. -/
def handOff (s : State) (i n : Nat) (rest : List Nat) (t : Task) : State :=
  { s with
    waitingWriters := s.waitingWriters - 1
    writeWaiters := rest
    obtained := s.obtained ++ [n]
    state := { writer := true
               pending := decide (s.waitingWriters - 1 ≠ 0 ∨ s.readWaiters ≠ []) } }.setPc i t (.wakeList .write [n])

/-- The next step of a call. `spurious` makes a weak compare-exchange fail. -/
def taskStep (s : State) (i : Nat) (spurious : Bool) (t : Task) : Option State :=
  match t.pc with
  | .readLoad => some (s.setPc i t (.readLoop s.state))
  | .readLoop observed =>
    if observed.closed then some (s.setPc i t t.missed)
    else if s.state = observed ∧ spurious = false then
      some ({ s with state := observed.addReader }.setPc i t .holding)
    else some (s.setPc i t (.readLoop s.state))
  | .writeExchange =>
    if s.state = {} then some ({ s with state := { writer := true } }.setPc i t .holding)
    else some (s.setPc i t t.missed)
  | .suspend =>
    if s.locked then none
    else
      some ({ s with locked := true }.setPc i t
        (match t.kind with | .read => .readRetry s.state | .write => .writeRetry s.state))
  | .readRetry observed =>
    if observed.closed = false then
      if s.state = observed ∧ spurious = false then
        some ({ s with state := observed.addReader, locked := false }.setPc i t .holding)
      else some (s.setPc i t (.readRetry s.state))
    else if observed.pending then some (s.park i t)
    else if s.state = observed ∧ spurious = false then some ({ s with state := observed.mark }.park i t)
    else some (s.setPc i t (.readRetry s.state))
  | .writeRetry observed =>
    if observed = {} then
      if s.state = observed ∧ spurious = false then
        some ({ s with state := { writer := true }, locked := false }.setPc i t .holding)
      else some (s.setPc i t (.writeRetry s.state))
    else if s.state = observed ∧ spurious = false then some ({ s with state := observed.mark }.park i t)
    else some (s.setPc i t (.writeRetry s.state))
  | .parked => none
  | .granted => some (s.setPc i t .holding)
  | .holding => some (s.setPc i t (match t.kind with | .read => .runlockLoad | .write => .unlockExchange))
  | .runlockLoad => some (s.setPc i t (.runlockLoop s.state))
  | .runlockLoop observed =>
    if observed.writer ∨ observed.readers = 0 then some (s.setPc i t (.returned true))
    else if s.state = observed ∧ spurious = false then
      some ({ s with state := observed.dropReader }.setPc i t
        (if observed.dropReader.due then .runlockSlow else .returned true))
    else some (s.setPc i t (.runlockLoop s.state))
  | .runlockSlow =>
    if s.locked then none
    else
      match s.writeWaiters with
      | n :: rest => some (s.handOff i n rest t)
      | [] => some ({ s with state := {}, stranded := true }.setPc i t (.wakeList .write []))
  | .unlockExchange =>
    if s.state = { writer := true } then some ({ s with state := {} }.setPc i t (.returned true))
    else some (s.setPc i t .unlockSlow)
  | .unlockSlow =>
    if s.locked then none
    else if s.state.writer = false then some (s.setPc i t (.returned true))
    else
      match s.writeWaiters with
      | n :: rest => some (s.handOff i n rest t)
      | [] =>
        some ({ s with readWaiters := [], state := { readers := s.readWaiters.length } }.setPc i t
          (.wakeList .read s.readWaiters))
  | .wakeList _ [] => some (s.setPc i t (.returned true))
  | .wakeList kind (n :: rest) => do
      let w ← s.tasks[n]?
      some ((s.setTask n { w with pc := .granted, wakes := w.wakes + 1 }).setPc i t (.wakeList kind rest))
  | .returned _ => none

end State

inductive Act where
  | start (kind : Kind) (awaits : Bool)
  | task (i : Nat) (spurious : Bool)

def rwStep (s : State) : Act → Option State
  | .start kind awaits => some { s with tasks := s.tasks ++ [Task.start kind awaits] }
  | .task i spurious =>
    match s.tasks[i]? with
    | some t => s.taskStep i spurious t
    | none => none

def rwSystem : Transition.System State Act where
  init s := s = {}
  step := rwStep

/-! ### What a step does -/

/-- A step that changes nothing but the program counter. The calls that compare-exchange reload the word when
they fail. -/
inductive Move (s : State) (t : Task) : Pc → Prop where
  | missed (hpc : (∃ observed, t.pc = .readLoop observed) ∨ t.pc = .writeExchange) : Move s t t.missed
  | readLoop (hpc : t.pc = .readLoad ∨ ∃ observed, t.pc = .readLoop observed) : Move s t (.readLoop s.state)
  | readRetry (hpc : ∃ observed, t.pc = .readRetry observed) : Move s t (.readRetry s.state)
  | writeRetry (hpc : ∃ observed, t.pc = .writeRetry observed) : Move s t (.writeRetry s.state)
  | resume (hpc : t.pc = .granted) : Move s t .holding
  | runlock (hpc : t.pc = .holding) (hkind : t.kind = .read) : Move s t .runlockLoad
  | unlock (hpc : t.pc = .holding) (hkind : t.kind = .write) : Move s t .unlockExchange
  | runlockLoop (hpc : t.pc = .runlockLoad ∨ ∃ observed, t.pc = .runlockLoop observed) :
      Move s t (.runlockLoop s.state)
  | unlockSlow (hpc : t.pc = .unlockExchange) : Move s t .unlockSlow
  | awake {kind : Kind} (hpc : t.pc = .wakeList kind []) : Move s t (.returned true)

inductive TaskStep (s : State) (i : Nat) (t : Task) : State → Prop where
  | move {pc : Pc} (h : Move s t pc) : TaskStep s i t (s.setPc i t pc)
  | acquireRead {locked : Bool} (hpc : t.pc = .readLoop s.state ∧ locked = s.locked ∨
        t.pc = .readRetry s.state ∧ locked = false)
      (hopen : s.state.closed = false) :
      TaskStep s i t ({ s with state := s.state.addReader, locked := locked }.setPc i t .holding)
  | acquireWrite {locked : Bool} (hpc : t.pc = .writeExchange ∧ locked = s.locked ∨
        t.pc = .writeRetry s.state ∧ locked = false) (hfree : s.state = {}) :
      TaskStep s i t ({ s with state := { writer := true }, locked := locked }.setPc i t .holding)
  | enter {pc : Pc} (hpc : t.pc = .suspend) (hfree : s.locked = false)
      (hnew : t.kind = .read ∧ pc = .readRetry s.state ∨ t.kind = .write ∧ pc = .writeRetry s.state) :
      TaskStep s i t ({ s with locked := true }.setPc i t pc)
  | joinPending {observed : Word} (hpc : t.pc = .readRetry observed) (hpending : observed.pending = true) :
      TaskStep s i t (s.park i t)
  | joinReader (hpc : t.pc = .readRetry s.state) (hwriter : s.state.writer = true)
      (hpending : s.state.pending = false) : TaskStep s i t ({ s with state := s.state.mark }.park i t)
  | joinWriter (hpc : t.pc = .writeRetry s.state) (hbusy : s.state ≠ {}) :
      TaskStep s i t ({ s with state := s.state.mark }.park i t)
  | misuse (hpc : (∃ observed, t.pc = .runlockLoop observed ∧ (observed.writer = true ∨ observed.readers = 0)) ∨
        t.pc = .unlockSlow ∧ s.state.writer = false) : TaskStep s i t (s.setPc i t (.returned true))
  | runlock {pc : Pc} (hpc : t.pc = .runlockLoop s.state) (hreaders : 0 < s.state.readers)
      (hwriter : s.state.writer = false)
      (hnew : pc = if s.state.dropReader.due then .runlockSlow else .returned true) :
      TaskStep s i t ({ s with state := s.state.dropReader }.setPc i t pc)
  | unlock (hpc : t.pc = .unlockExchange) (hstate : s.state = { writer := true }) :
      TaskStep s i t ({ s with state := {} }.setPc i t (.returned true))
  | strand (hpc : t.pc = .runlockSlow) (hwaiters : s.writeWaiters = []) :
      TaskStep s i t ({ s with state := {}, stranded := true }.setPc i t (.wakeList .write []))
  | handOff {n : Nat} {rest : List Nat} (hpc : t.pc = .runlockSlow ∨ t.pc = .unlockSlow ∧ s.state.writer = true)
      (hfree : s.locked = false) (hwaiters : s.writeWaiters = n :: rest) : TaskStep s i t (s.handOff i n rest t)
  | openReaders (hpc : t.pc = .unlockSlow) (hwriter : s.state.writer = true) (hfree : s.locked = false)
      (hwaiters : s.writeWaiters = []) :
      TaskStep s i t ({ s with readWaiters := [], state := { readers := s.readWaiters.length } }.setPc i t
        (.wakeList .read s.readWaiters))
  | wake {kind : Kind} {n : Nat} {rest : List Nat} {w : Task} (hpc : t.pc = .wakeList kind (n :: rest))
      (hw : s.tasks[n]? = some w) :
      TaskStep s i t
        ((s.setTask n { w with pc := .granted, wakes := w.wakes + 1 }).setPc i t (.wakeList kind rest))

lemma Word.closed_of_pending {w : Word} (h : w.closed = false) : w.writer = false ∧ w.pending = false := by
  rw [Word.closed, Bool.or_eq_false_iff] at h
  exact h

variable {s u : State} {i : Nat} {spurious : Bool} {t : Task} {observed : Word}

lemma readRetry_cases
    (hpc : t.pc = .readRetry observed) (hs : s.taskStep i spurious t = some u) : TaskStep s i t u := by
  simp only [State.taskStep, hpc] at hs
  split at hs
  · split at hs <;> cases hs
    · rename_i hopen hsame
      rw [← hsame.1] at hpc hopen ⊢
      exact .acquireRead (.inr ⟨hpc, rfl⟩) hopen
    · exact .move (.readRetry ⟨observed, hpc⟩)
  · rename_i hshut
    split at hs
    · cases hs
      exact .joinPending hpc ‹_›
    · rename_i hpend
      have hwr : observed.writer = true := by simpa [Word.closed, hpend] using hshut
      split at hs <;> cases hs
      · rename_i hsame
        rw [← hsame.1] at hpc hpend hwr ⊢
        exact .joinReader hpc hwr (Bool.eq_false_iff.mpr hpend)
      · exact .move (.readRetry ⟨observed, hpc⟩)

lemma writeRetry_cases
    (hpc : t.pc = .writeRetry observed) (hs : s.taskStep i spurious t = some u) : TaskStep s i t u := by
  simp only [State.taskStep, hpc] at hs
  split at hs
  · split at hs <;> cases hs
    · rename_i hempty hsame
      rw [← hsame.1] at hpc hempty
      exact .acquireWrite (.inr ⟨hpc, rfl⟩) hempty
    · exact .move (.writeRetry ⟨observed, hpc⟩)
  · split at hs <;> cases hs
    · rename_i hbusy hsame
      rw [← hsame.1] at hpc hbusy ⊢
      exact .joinWriter hpc hbusy
    · exact .move (.writeRetry ⟨observed, hpc⟩)

lemma runlockLoop_cases
    (hpc : t.pc = .runlockLoop observed) (hs : s.taskStep i spurious t = some u) : TaskStep s i t u := by
  simp only [State.taskStep, hpc] at hs
  split at hs
  · cases hs
    exact .misuse (.inl ⟨observed, hpc, ‹_›⟩)
  · rename_i huse
    simp only [not_or, Bool.not_eq_true] at huse
    split at hs <;> cases hs
    · rename_i hsame
      rw [← hsame.1] at hpc huse ⊢
      exact .runlock hpc (Nat.pos_of_ne_zero huse.2) huse.1 rfl
    · exact .move (.runlockLoop (.inr ⟨observed, hpc⟩))

lemma taskStep_cases (hs : s.taskStep i spurious t = some u) : TaskStep s i t u := by
  have hstep := hs
  cases hpc : t.pc with simp only [State.taskStep, hpc] at hs
  | readRetry => exact readRetry_cases hpc hstep
  | writeRetry => exact writeRetry_cases hpc hstep
  | runlockLoop => exact runlockLoop_cases hpc hstep
  | readLoad =>
    cases hs
    exact .move (.readLoop (.inl hpc))
  | readLoop observed =>
    split at hs
    · cases hs
      exact .move (.missed (.inl ⟨observed, hpc⟩))
    · rename_i hopen
      split at hs <;> cases hs
      · rename_i hsame
        rw [← hsame.1] at hpc hopen ⊢
        exact .acquireRead (.inl ⟨hpc, rfl⟩) (Bool.eq_false_iff.mpr hopen)
      · exact .move (.readLoop (.inr ⟨observed, hpc⟩))
  | writeExchange =>
    split at hs <;> cases hs
    · exact .acquireWrite (.inl ⟨hpc, rfl⟩) ‹_›
    · exact .move (.missed (.inr hpc))
  | suspend =>
    split at hs <;> cases hs
    refine .enter hpc (Bool.eq_false_iff.mpr ‹_›) ?_
    cases hkind : t.kind with
    | read => exact .inl ⟨rfl, rfl⟩
    | write => exact .inr ⟨rfl, rfl⟩
  | granted =>
    cases hs
    exact .move (.resume hpc)
  | holding =>
    cases hs
    cases hkind : t.kind with
    | read => exact .move (.runlock hpc hkind)
    | write => exact .move (.unlock hpc hkind)
  | runlockLoad =>
    cases hs
    exact .move (.runlockLoop (.inl hpc))
  | runlockSlow =>
    split at hs
    · cases hs
    have hfree : s.locked = false := Bool.eq_false_iff.mpr ‹_›
    split at hs <;> cases hs
    · exact .handOff (.inl hpc) hfree ‹_›
    · exact .strand hpc ‹_›
  | unlockExchange =>
    split at hs <;> cases hs
    · exact .unlock hpc ‹_›
    · exact .move (.unlockSlow hpc)
  | unlockSlow =>
    split at hs
    · cases hs
    have hfree : s.locked = false := Bool.eq_false_iff.mpr ‹_›
    split at hs
    · cases hs
      exact .misuse (.inr ⟨hpc, ‹_›⟩)
    · have hwr : s.state.writer = true := by simpa using ‹¬ s.state.writer = false›
      split at hs <;> cases hs
      · exact .handOff (.inr ⟨hpc, hwr⟩) hfree ‹_›
      · exact .openReaders hpc hwr hfree ‹_›
  | wakeList kind nodes =>
    cases nodes with
    | nil =>
      cases hs
      exact .move (.awake hpc)
    | cons =>
      obtain ⟨w, hw, hu⟩ := Option.bind_eq_some_iff.mp hs
      cases hu
      exact .wake hpc hw
  | parked | returned =>
    cases hs

lemma rwStep_cases {a : Act} (hs : rwStep s a = some u) :
    (∃ kind awaits, u = { s with tasks := s.tasks ++ [Task.start kind awaits] }) ∨
      ∃ i t, s.tasks[i]? = some t ∧ TaskStep s i t u := by
  cases a with
  | start kind awaits =>
    cases hs
    exact .inl ⟨kind, awaits, rfl⟩
  | task i spurious =>
    simp only [rwStep] at hs
    split at hs
    · exact .inr ⟨i, _, ‹_›, taskStep_cases hs⟩
    · cases hs

end Cio.RWMutex
