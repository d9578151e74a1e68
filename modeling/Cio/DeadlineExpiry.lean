import Cio.CallPool
import Cio.TransitionSystem
import Cio.WrapCounter

/-! The deadline of one direction of one descriptor incarnation: any number of `Reactor::set_deadline` calls, the
callback `on_deadline` of the timer they arm, any number of `IoDesc::timed_out` calls, and a clock that only goes
forward. Every access to one of the three atomics that `timed_out` reads is a step. `set_deadline` holds
`deadline_update_mutex` from its first line to its last, so one call is in progress at a time and those that wait for
the mutex have done nothing. The sequence numbers have 32 bits. -/

namespace Cio.DeadlineExpiry

open Transition CallPool List Option

/-- Where the `set_deadline(deadline)` in progress stands. From `clear` on it holds the lifecycle lock. -/
inductive Pc where
  | idle
  | validate (deadline : Int)
  | disarm (deadline : Int)
  | revalidate (deadline : Int)
  | clear (deadline : Int)
  | bump (deadline : Int)
  | decide (deadline : Int) (seq : UInt32)
  | past (deadline : Int) (seq : UInt32)
  | stamp (seq : UInt32)
  | arm (deadline : Int)
  | commit (deadline : Int)
  deriving DecidableEq

/-- Where a `timed_out` stands: it has loaded a deadline, found it ahead of the clock, or loaded one of the two numbers,
in either order. `before` and `after` say whether the direction was due at the first load and at the return. -/
inductive Reader where
  | clock (deadline : Int) (before : Bool)
  | ahead (before : Bool)
  | compare (loaded : UInt32) (numberFirst before : Bool)
  | returned (before result after : Bool)
  deriving DecidableEq

/-- `Timer::State` of the direction's node; `firing` until its callback is over. -/
inductive TimerState where
  | off | armed | firing
  deriving DecidableEq

/-- The direction. `closing` stands for everything that makes `set_deadline` and `on_deadline` leave the descriptor
alone. `config` is the configuration in force: its deadline, and whether the timer that was armed for it has fired. -/
structure State where
  now : Int
  closing : Bool := false
  absoluteDeadline : Int := 0
  deadlineSeq : UInt32 := 1
  expiredSeq : UInt32 := 0
  timer : TimerState := .off
  timerSeq : UInt32 := 0
  timerDeadline : Int := 0
  setter : Pc := .idle
  readers : List Reader := []
  config : Option (Int × Bool) := none

inductive Act where
  | setDeadline (deadline : Int)
  | step
  | armThrows
  | timedOut
  | read (j : Nat) (numberFirst : Bool)
  | fire
  | onDeadline
  | tick (elapsed : Nat)
  | close

def Pc.locked : Pc → Bool
  | .idle | .validate _ | .disarm _ | .revalidate _ => false
  | _ => true

namespace State

/-- What `timed_out` should say. -/
def due (s : State) : Bool := s.config.any fun c => decide (c.1 ≤ s.now) || c.2

/-- The first load of `timed_out`. -/
def timedOut (s : State) : Reader :=
  if s.absoluteDeadline = 0 then .returned s.due false s.due else .clock s.absoluteDeadline s.due

/-- Its reading of the clock, and the two loads that it compares. -/
def readerStep (s : State) (numberFirst : Bool) : Reader → Option Reader
  | .clock deadline before => some (if deadline ≤ s.now then .returned before true s.due else .ahead before)
  | .ahead before => some (.compare (if numberFirst then s.deadlineSeq else s.expiredSeq) numberFirst before)
  | .compare loaded numberFirst before =>
    some (.returned before (loaded == if numberFirst then s.expiredSeq else s.deadlineSeq) s.due)
  | .returned _ _ _ => none

def setterStep (s : State) : Option State :=
  match s.setter with
  | .idle => none
  | .validate d => some { s with setter := if s.closing then .idle else .disarm d }
  | .disarm d => if s.timer = .firing then none else some { s with timer := .off, setter := .revalidate d }
  | .revalidate d => some { s with setter := if s.closing then .idle else .clear d }
  | .clear d => some { s with absoluteDeadline := 0, config := none, setter := .bump d }
  | .bump d =>
    let seq := s.deadlineSeq + 1
    if d = 0 then some { s with deadlineSeq := seq, setter := .idle }
    else some { s with deadlineSeq := seq, timerSeq := seq, timerDeadline := d, setter := .decide d seq }
  | .decide d seq => some { s with setter := if d ≤ s.now then .past d seq else .arm d }
  | .past d seq => some { s with absoluteDeadline := d, config := some (d, false), setter := .stamp seq }
  | .stamp seq => some { s with expiredSeq := seq, setter := .idle }
  | .arm d => some { s with timer := .armed, setter := .commit d }
  | .commit d => some { s with absoluteDeadline := d, config := some (d, s.timer == .firing), setter := .idle }

def step (s : State) : Act → Option State
  | .setDeadline d => if s.setter = .idle then some { s with setter := .validate d } else none
  | .step => s.setterStep
  | .armThrows =>
    match s.setter with
    | .arm _ => some { s with setter := .idle }
    | _ => none
  | .timedOut => some { s with readers := s.readers ++ [s.timedOut] }
  | .read j numberFirst =>
    (s.readers[j]?.bind (s.readerStep numberFirst)).map fun r => { s with readers := s.readers.set j r }
  | .fire =>
    if s.timer = .armed ∧ s.timerDeadline ≤ s.now then
      some { s with timer := .firing, config := s.config.map fun c => (c.1, true) }
    else none
  | .onDeadline =>
    if s.timer = .firing ∧ s.setter.locked = false then
      some
        { s with
          timer := .off
          expiredSeq := if s.closing = false ∧ s.timerSeq = s.deadlineSeq then s.timerSeq else s.expiredSeq }
    else none
  | .tick elapsed => some { s with now := s.now + elapsed }
  | .close => some { s with closing := true }

/-- The step numbers a new deadline with the stamp that an earlier expiry, or the initial state, left. -/
def reusesStamp (s : State) : Act → Bool
  | .step =>
    match s.setter with
    | .bump d => d != 0 && s.deadlineSeq + 1 == s.expiredSeq
    | _ => false
  | _ => false

end State

def deadlineSystem : System State Act where
  init s := ∃ now, s = { now }
  step := State.step

/-- A `timed_out` that returned true did so when the direction was due, and one that began when it was due returned
true. -/
def Tracks (s : State) : Prop :=
  ∀ before result after, .returned before result after ∈ s.readers →
    (before = true → result = true) ∧ (result = true → after = true)

def Reader.reading : Reader → Bool
  | .returned _ _ _ => false
  | _ => true

/-- The step takes the configuration away while a `timed_out` is between its loads. -/
def State.disturbs (s : State) : Act → Bool
  | .step =>
    match s.setter with
    | .clear _ => s.readers.any Reader.reading
    | _ => false
  | _ => false

def Orderly (s : State) (a : Act) : Prop := s.reusesStamp a = false ∧ s.disturbs a = false

instance (s : State) (a : Act) : Decidable (Orderly s a) := inferInstanceAs (Decidable (_ ∧ _))

/-! ### The configuration and the words -/

/-- The deadline `d` is being installed: none is configured, and the stamp differs from its number. -/
def Installing (s : State) (d : Int) : Prop :=
  s.absoluteDeadline = 0 ∧ d ≠ 0 ∧ s.expiredSeq ≠ s.deadlineSeq ∧ s.timerDeadline = d

/-- What `set_deadline` knows where it stands. -/
def State.At (s : State) : Pc → Prop
  | .idle | .validate _ | .disarm _ => True
  | .revalidate _ | .clear _ => s.timer = .off
  | .bump _ => s.timer = .off ∧ s.absoluteDeadline = 0
  | .decide d _ | .arm d => s.timer = .off ∧ Installing s d
  | .past d _ => s.timer = .off ∧ Installing s d ∧ d ≤ s.now
  | .stamp _ => s.timer = .off ∧ s.absoluteDeadline ≤ s.now
  | .commit d => Installing s d

/-- The configuration in force and the words agree, a stamp that matches is due, and a running timer belongs to the
configuration in force. -/
structure Kept (s : State) : Prop where
  config : s.absoluteDeadline = 0 ∧ s.config = none ∨
    s.absoluteDeadline ≠ 0 ∧ ∃ fired, s.config = some (s.absoluteDeadline, fired) ∧
      (fired = true → s.absoluteDeadline ≤ s.now)
  stamped : s.absoluteDeadline ≠ 0 → s.expiredSeq = s.deadlineSeq → s.absoluteDeadline ≤ s.now
  fired : s.timer = .firing → s.timerDeadline ≤ s.now
  current : s.timer ≠ .off → s.absoluteDeadline ≠ 0 → s.timerDeadline = s.absoluteDeadline
  setter : s.At s.setter

variable {s u : State}

lemma Kept.due_iff (h : Kept s) : s.due = true ↔ s.absoluteDeadline ≠ 0 ∧ s.absoluteDeadline ≤ s.now := by
  rw [State.due]
  rcases h.config with ⟨hzero, hnone⟩ | ⟨hset, fired, hsome, hfired⟩
  · simp [hzero, hnone]
  · rw [hsome, any_some, Bool.or_eq_true, decide_eq_true_eq, and_iff_right hset]
    exact ⟨fun hdue => hdue.elim id hfired, .inl⟩

lemma Kept.config_none (h : Kept s) (hzero : s.absoluteDeadline = 0) : s.config = none := by
  rcases h.config with ⟨-, hnone⟩ | ⟨hset, -⟩
  · exact hnone
  · exact absurd hzero hset

lemma kept_of_none (htimer : s.timer = .off) (hzero : s.absoluteDeadline = 0) (hcfg : s.config = none)
    (hat : s.At s.setter) : Kept s where
  config := .inl ⟨hzero, hcfg⟩
  stamped hset := absurd hzero hset
  fired hfire := nomatch htimer.symm.trans hfire
  current hon := absurd htimer hon
  setter := hat

/-- The call goes on, and changes nothing but its own place. -/
lemma Kept.move (h : Kept s) {pc : Pc} (hat : s.At pc) : Kept { s with setter := pc } :=
  { h with setter := hat }

lemma kept_setterStep (h : Kept s) (hfresh : s.reusesStamp .step = false) (hs : s.setterStep = some u) : Kept u := by
  have hat := h.setter
  simp only [State.reusesStamp] at hfresh
  cases hpc : s.setter with simp only [State.setterStep, hpc] at hs hat hfresh
  | idle => cases hs
  | validate d =>
    cases hs
    exact h.move (by split <;> trivial)
  | disarm d =>
    obtain ⟨-, rfl⟩ := of_unless hs
    exact { h with fired := nofun, current := (absurd rfl ·), setter := rfl }
  | revalidate d =>
    cases hs
    refine h.move ?_
    split
    · trivial
    · exact hat
  | clear d =>
    cases hs
    exact kept_of_none hat rfl rfl ⟨hat, rfl⟩
  | bump d =>
    obtain ⟨htimer, hzero⟩ := hat
    have hnone := h.config_none hzero
    split at hs <;> cases hs
    · exact kept_of_none htimer hzero hnone trivial
    · rename_i hd
      refine kept_of_none htimer hzero hnone ⟨htimer, hzero, hd, fun hsame => ?_, rfl⟩
      simp [hd, show s.expiredSeq = s.deadlineSeq + 1 from hsame] at hfresh
  | decide d seq =>
    cases hs
    refine h.move ?_
    split
    · exact ⟨hat.1, hat.2, ‹_›⟩
    · exact hat
  | past d seq =>
    obtain ⟨htimer, ⟨-, hset, -⟩, hpast⟩ := hat
    cases hs
    exact { h with
      config := .inr ⟨hset, false, rfl, nofun⟩
      stamped := fun _ _ => hpast
      current := fun hon => absurd htimer hon
      setter := ⟨htimer, hpast⟩ }
  | stamp seq =>
    cases hs
    exact { h with stamped := fun _ _ => hat.2, setter := trivial }
  | arm d =>
    obtain ⟨-, hinst⟩ := hat
    cases hs
    exact { h with fired := nofun, current := fun _ hset => absurd hinst.1 hset, setter := hinst }
  | commit d =>
    obtain ⟨-, hset, hunstamped, rfl⟩ := hat
    cases hs
    exact ⟨.inr ⟨hset, _, rfl, fun hfire => h.fired (beq_iff_eq.mp hfire)⟩, fun _ hsame => absurd hsame hunstamped,
      h.fired, fun _ _ => rfl, trivial⟩

/-! ### The timer and the clock -/

lemma kept_fire (h : Kept s) (harmed : s.timer = .armed) (hdue : s.timerDeadline ≤ s.now) :
    Kept { s with timer := .firing, config := s.config.map fun c => (c.1, true) } := by
  have hcur := h.current (harmed ▸ TimerState.noConfusion)
  refine { h with config := ?_, fired := fun _ => hdue, current := fun _ => hcur, setter := ?_ }
  · rcases h.config with ⟨hzero, hnone⟩ | ⟨hset, fired, hsome, -⟩
    · exact .inl ⟨hzero, by rw [hnone]; rfl⟩
    · exact .inr ⟨hset, true, by rw [hsome]; rfl, fun _ => hcur hset ▸ hdue⟩
  · have hat := h.setter
    show State.At _ s.setter
    cases hpc : s.setter with rw [hpc] at hat
    | idle | validate | disarm => trivial
    | revalidate | clear => exact nomatch hat.symm.trans harmed
    | commit => exact hat
    | _ => exact nomatch hat.1.symm.trans harmed

lemma kept_onDeadline (h : Kept s) (hfire : s.timer = .firing) (hfree : s.setter.locked = false) (seq : UInt32) :
    Kept { s with timer := .off, expiredSeq := seq } := by
  refine { h with stamped := fun hset _ => ?_, fired := nofun, current := (absurd rfl ·), setter := ?_ }
  · exact h.current (hfire ▸ TimerState.noConfusion) hset ▸ h.fired hfire
  · show State.At _ s.setter
    cases hpc : s.setter with rw [hpc] at hfree
    | idle | validate | disarm => trivial
    | revalidate => rfl
    | _ => cases hfree

lemma kept_tick (h : Kept s) (elapsed : Nat) : Kept { s with now := s.now + elapsed } := by
  have hlater : ∀ {t : Int}, t ≤ s.now → t ≤ s.now + elapsed := fun ht => by omega
  refine { h with
    config := h.config.imp_right fun ⟨hset, fired, hsome, hfired⟩ => ⟨hset, fired, hsome, fun hf => hlater (hfired hf)⟩
    stamped := fun hset hsame => hlater (h.stamped hset hsame)
    fired := fun hfire => hlater (h.fired hfire)
    setter := ?_ }
  have hat := h.setter
  show State.At _ s.setter
  cases hpc : s.setter with rw [hpc] at hat
  | past => exact ⟨hat.1, hat.2.1, hlater hat.2.2⟩
  | stamp => exact ⟨hat.1, hlater hat.2⟩
  | _ => exact hat

lemma kept_step {a : Act} (h : Kept s) (hfresh : s.reusesStamp a = false) (hs : s.step a = some u) : Kept u := by
  cases a with
  | setDeadline =>
    obtain ⟨-, rfl⟩ := of_guard hs
    exact h.move trivial
  | step => exact kept_setterStep h hfresh hs
  | armThrows =>
    rw [State.step] at hs
    split at hs <;> cases hs
    exact h.move trivial
  | timedOut =>
    cases hs
    exact { h with }
  | read =>
    obtain ⟨_, -, rfl⟩ := map_eq_some_iff.mp hs
    exact { h with }
  | fire =>
    obtain ⟨⟨harmed, hdue⟩, rfl⟩ := of_guard hs
    exact kept_fire h harmed hdue
  | onDeadline =>
    obtain ⟨⟨hfire, hfree⟩, rfl⟩ := of_guard hs
    exact kept_onDeadline h hfire hfree _
  | tick elapsed =>
    cases hs
    exact kept_tick h elapsed
  | close =>
    cases hs
    exact { h with }

/-! ### The loads of `timed_out` -/

/-- What a `timed_out` knows between its loads: the deadline it found is still configured. -/
def State.Reads (s : State) : Reader → Prop
  | .clock deadline before =>
    s.absoluteDeadline = deadline ∧ deadline ≠ 0 ∧ (before = true → deadline ≤ s.now)
  | .ahead before => s.absoluteDeadline ≠ 0 ∧ before = false
  | .compare loaded numberFirst before => s.absoluteDeadline ≠ 0 ∧ before = false ∧
      (numberFirst = true → loaded = s.deadlineSeq) ∧
      (numberFirst = false → loaded = s.deadlineSeq → s.absoluteDeadline ≤ s.now)
  | .returned before result after => (before = true → result = true) ∧ (result = true → after = true)

/-- A step keeps the configuration and its number, as long as there is one, and the clock does not go back. -/
structure Steady (s u : State) : Prop where
  readers : u.readers = s.readers := by rfl
  deadline : s.absoluteDeadline ≠ 0 → u.absoluteDeadline = s.absoluteDeadline := by exact fun _ => rfl
  number : s.absoluteDeadline ≠ 0 → u.deadlineSeq = s.deadlineSeq := by exact fun _ => rfl
  now : s.now ≤ u.now := by exact le_rfl

lemma Steady.reads (h : Steady s u) {r : Reader} (hr : s.Reads r) : u.Reads r := by
  cases r with
  | clock deadline before =>
    obtain ⟨habs, hset, hdue⟩ := hr
    exact ⟨(h.deadline (habs ▸ hset)).trans habs, hset, fun hb => (hdue hb).trans h.now⟩
  | ahead before =>
    obtain ⟨hset, hb⟩ := hr
    exact ⟨(h.deadline hset).symm ▸ hset, hb⟩
  | compare loaded numberFirst before =>
    obtain ⟨hset, hb, hnumber, hstamp⟩ := hr
    refine ⟨(h.deadline hset).symm ▸ hset, hb, ?_⟩
    rw [h.deadline hset, h.number hset]
    exact ⟨hnumber, fun hnf heq => (hstamp hnf heq).trans h.now⟩
  | returned => exact hr

lemma steady_setterStep (h : Kept s) (hpc : ∀ d, s.setter ≠ .clear d) (hs : s.setterStep = some u) : Steady s u := by
  have hat := h.setter
  cases hq : s.setter with simp only [State.setterStep, hq] at hs hat
  | idle => cases hs
  | clear d => exact absurd hq (hpc d)
  | disarm =>
    obtain ⟨-, rfl⟩ := of_unless hs
    exact {}
  | bump => split at hs <;> cases hs <;> exact { number := absurd hat.2 }
  | validate | revalidate | decide | stamp | arm =>
    cases hs
    exact {}
  | past =>
    cases hs
    exact { deadline := absurd hat.2.1.1 }
  | commit =>
    cases hs
    exact { deadline := absurd hat.1 }

lemma reads_timedOut (h : Kept s) : s.Reads s.timedOut := by
  rw [State.timedOut]
  split
  · rename_i hzero
    exact ⟨fun hdue => absurd hzero (h.due_iff.mp hdue).1, nofun⟩
  · rename_i hset
    exact ⟨rfl, hset, fun hdue => (h.due_iff.mp hdue).2⟩

lemma reads_readerStep (h : Kept s) {numberFirst : Bool} {r r' : Reader} (hr : s.Reads r)
    (hstep : s.readerStep numberFirst r = some r') : s.Reads r' := by
  cases r with
  | clock deadline before =>
    obtain ⟨rfl, hset, hb⟩ := hr
    cases hstep
    split
    · rename_i hpast
      exact ⟨fun _ => rfl, fun _ => h.due_iff.mpr ⟨hset, hpast⟩⟩
    · rename_i hahead
      exact ⟨hset, Bool.eq_false_iff.mpr fun hbefore => hahead (hb hbefore)⟩
  | ahead before =>
    obtain ⟨hset, hb⟩ := hr
    cases hstep
    refine ⟨hset, hb, fun hnf => if_pos hnf, ?_⟩
    rintro rfl
    exact h.stamped hset
  | compare loaded numberFirst before =>
    obtain ⟨hset, rfl, hnumber, hstamp⟩ := hr
    cases hstep
    refine ⟨nofun, fun hsame => h.due_iff.mpr ⟨hset, ?_⟩⟩
    have heq := beq_iff_eq.mp hsame
    cases numberFirst with
    | true => exact h.stamped hset (heq.symm.trans (hnumber rfl))
    | false => exact hstamp rfl heq
  | returned => cases hstep

lemma reads_step {a : Act} (h : Kept s) (hr : ∀ r ∈ s.readers, s.Reads r) (hquiet : s.disturbs a = false)
    (hs : s.step a = some u) : ∀ r ∈ u.readers, u.Reads r := by
  have hsteady : Steady s u → ∀ r ∈ u.readers, u.Reads r := fun hst r hmem => hst.reads (hr r (hst.readers ▸ hmem))
  cases a with
  | setDeadline | fire | onDeadline =>
    obtain ⟨-, rfl⟩ := of_guard hs
    exact hsteady {}
  | step =>
    by_cases hclear : ∃ d, s.setter = .clear d
    · -- nobody is reading, and what has been returned stays
      obtain ⟨d, hpc⟩ := hclear
      simp only [State.disturbs, hpc, List.any_eq_false] at hquiet
      simp only [State.step, State.setterStep, hpc, some.injEq] at hs
      intro r hmem
      have hold : r ∈ s.readers := by
        rw [← hs] at hmem
        exact hmem
      have hread := hr r hold
      have hdone := hquiet r hold
      cases r with
      | returned => exact hread
      | _ => exact absurd rfl hdone
    · exact hsteady (steady_setterStep h (fun d hpc => hclear ⟨d, hpc⟩) hs)
  | armThrows =>
    rw [State.step] at hs
    split at hs <;> cases hs
    exact hsteady {}
  | timedOut =>
    cases hs
    exact forall_append hr (reads_timedOut h)
  | read j numberFirst =>
    obtain ⟨r', hbind, rfl⟩ := map_eq_some_iff.mp hs
    obtain ⟨r, hlookup, hstep⟩ := bind_eq_some_iff.mp hbind
    exact forall_set hr (reads_readerStep h (hr r (mem_of_getElem? hlookup)) hstep) j
  | tick elapsed =>
    cases hs
    exact hsteady { now := Int.le_add_of_nonneg_right (Int.natCast_nonneg elapsed) }
  | close =>
    cases hs
    exact hsteady {}

lemma reads_of_reachable (hs : deadlineSystem.ReachableVia Orderly s) : Kept s ∧ ∀ r ∈ s.readers, s.Reads r := by
  refine hs.invariant (P := fun s => Kept s ∧ ∀ r ∈ s.readers, s.Reads r) ?_ fun s a u h hgood hstep =>
    ⟨kept_step h.1 hgood.1 hstep, reads_step h.1 h.2 hgood.2 hstep⟩
  rintro s ⟨now, rfl⟩
  exact ⟨kept_of_none rfl rfl rfl trivial, nofun⟩

/-- **`timed_out` tracks the configuration in force in every run in which no deadline is given the number that the
last expiry stamped, and none is taken away between the loads of a `timed_out`.** -/
theorem expiry_tracks {s : State} (hs : deadlineSystem.ReachableVia Orderly s) : Tracks s :=
  fun _ _ _ hmem => (reads_of_reachable hs).2 _ hmem

/-- A deadline of 50 that is reached: the timer fires, its callback stamps the configuration, and of two `timed_out`
calls the one that began before is still reading the numbers. -/
theorem expiry_tracks_fired : ∃ s, deadlineSystem.ReachableVia Orderly s ∧
    s.readers = [.returned false true true, .returned true true true] ∧ Tracks s := by
  obtain ⟨s, hs, hread⟩ := deadlineSystem.reachableVia_of_run Orderly { now := 0 }
    ([.setDeadline 50] ++ replicate 8 .step ++ [.timedOut, .read 0 false, .tick 50, .timedOut, .fire, .onDeadline,
      .read 0 true, .read 0 true, .read 1 true])
    (fun s => s.readers = [.returned false true true, .returned true true true]) ⟨0, rfl⟩ (by decide +kernel)
  exact ⟨s, hs, hread, expiry_tracks hs⟩

/-! ### The number comes round -/

structure Resting (s : State) (updates : Nat) : Prop where
  reachable : deadlineSystem.Reachable s
  now : s.now = 0
  closing : s.closing = false
  timer : s.timer ≠ .firing
  setter : s.setter = .idle
  readers : s.readers = []
  expiredSeq : s.expiredSeq = 0
  deadlineSeq : s.deadlineSeq = WrapCounter.word (updates + 1)

lemma Resting.update {updates : Nat} (h : Resting s updates) :
    ∃ u, Resting u (updates + 1) ∧ u.absoluteDeadline = 1 ∧ u.config = some (1, false) := by
  have hrun : ∃ u, deadlineSystem.run s ([.setDeadline 1] ++ replicate 8 .step) = some u ∧ u.now = s.now ∧
      u.closing = s.closing ∧ u.timer = .armed ∧ u.setter = .idle ∧ u.readers = s.readers ∧
      u.expiredSeq = s.expiredSeq ∧ u.deadlineSeq = s.deadlineSeq + 1 ∧ u.absoluteDeadline = 1 ∧
      u.config = some (1, false) := by
    simp [System.run, deadlineSystem, State.step, State.setterStep, h.setter, h.closing, h.timer, h.now, replicate]
  obtain ⟨u, hrun, hnow, hend, htimer, hsetter, hreaders, hexpired, hseq, habs, hcfg⟩ := hrun
  refine ⟨u, ⟨System.Reachable.run h.reachable hrun, hnow.trans h.now, hend.trans h.closing, ?_, hsetter,
    hreaders.trans h.readers, hexpired.trans h.expiredSeq, ?_⟩, habs, hcfg⟩
  · rw [htimer]
    exact TimerState.noConfusion
  · rw [hseq, h.deadlineSeq]
    exact WrapCounter.word_add (updates + 1) 1

lemma resting_after (updates : Nat) : ∃ s, Resting s (updates + 1) ∧ s.absoluteDeadline = 1 ∧
    s.config = some (1, false) := by
  induction updates with
  | zero =>
    have hfresh : Resting { now := 0 } 0 := ⟨.start ⟨0, rfl⟩, rfl, rfl, TimerState.noConfusion, rfl, rfl, rfl, rfl⟩
    exact hfresh.update
  | succ updates ih =>
    obtain ⟨s, hs, -⟩ := ih
    exact hs.update

/-- After `2 ^ 32 - 1` updates of a direction that never expired, the number of the deadline in force is the initial
stamp: a `timed_out` returns true, although the deadline is ahead and its timer has not fired. And a `timed_out` that
loaded a deadline of 10 at time 9 returns true after it has been moved to 100. -/
theorem stamp_reused :
    (∃ s, deadlineSystem.Reachable s ∧ s.readers = [.returned false true false] ∧ s.config = some (1, false) ∧
      s.now = 0) ∧
    ∃ s, deadlineSystem.Reachable s ∧ s.readers = [.returned false true false] ∧ s.config = some (100, false) ∧
      s.now = 10 ∧ s.deadlineSeq = 3 := by
  constructor
  · obtain ⟨s, hs, habs, hcfg⟩ := resting_after (2 ^ 32 - 2)
    have hseq : s.deadlineSeq = 0 := hs.deadlineSeq.trans (by decide)
    have hrun : ∃ u, deadlineSystem.run s [.timedOut, .read 0 true, .read 0 true, .read 0 true] = some u ∧
        u.readers = [.returned false true false] ∧ u.config = some (1, false) ∧ u.now = 0 := by
      simp [System.run, deadlineSystem, State.step, State.timedOut, State.readerStep, State.due, hs.readers, habs, hcfg,
        hs.now, hs.expiredSeq, hseq]
    obtain ⟨u, hrun, hu⟩ := hrun
    exact ⟨u, System.Reachable.run hs.reachable hrun, hu⟩
  · exact deadlineSystem.reachable_of_run { now := 0 }
      ([.setDeadline 10] ++ replicate 8 .step ++ [.tick 9, .timedOut, .setDeadline 100] ++ replicate 8 .step ++
        [.tick 1, .read 0 true])
      (fun s => s.readers = [.returned false true false] ∧ s.config = some (100, false) ∧ s.now = 10 ∧
        s.deadlineSeq = 3) ⟨0, rfl⟩ (by decide +kernel)

end Cio.DeadlineExpiry
