import Mathlib.Tactic.Ring

/-! The task that drives a `Timer` or a `Ticker`: `drive_timer` with its select on the stop channel, the rearm channel
and the deadline. Every access to a shared word and every reading of the clock is a step. The select is registered on
its channels in one step, under their locks, and arms its timer in a later one, outside them. -/

namespace Cio.TimerHandle

inductive Case where
  | stopped | rearm | deadline
  deriving DecidableEq

/-- Where `drive_timer` stands, with the deadline it has loaded. -/
inductive Driver where
  | load
  | setup (deadline : Int)
  /-- Registered on the channels, the timer is not armed yet. -/
  | arm (deadline : Int)
  | parked (deadline : Int)
  /-- The deadline has won: `deadline_ns` is loaded again, and compared with the clock. -/
  | check (deadline : Int)
  | compare (deadline seen : Int)
  | loadPeriod (deadline : Int)
  /-- One-shot. -/
  | storeFired
  | deliver
  /-- Periodic. -/
  | tick (deadline period : Int)
  | advance (deadline period : Int)
  | storeNext (next : Int)
  | close
  | done
  deriving DecidableEq

/-- `TimerState`, with the state of the select and the clock: `rearm` is the token in the rearm channel, `stopClosed`
whether the stop channel is closed. -/
structure Core where
  deadlineNs : Int
  periodNs : Int
  fired : Bool
  stopped : Bool
  stopClosed : Bool
  rearm : Bool
  winner : Option Case
  driver : Driver
  now : Int

/-- The next deadline of a ticker: from the previous one, skipping those that have been missed. -/
def nextDeadline (deadline period current : Int) : Int :=
  let next := deadline + period
  if next ≤ current then next + ((current - next) / period + 1) * period else next

lemma lt_nextDeadline (deadline : Int) {period : Int} (hper : 0 < period) (current : Int) :
    current < nextDeadline deadline period current := by
  rw [nextDeadline]
  split
  · have hdiv := Int.lt_ediv_add_one_mul_self (current - (deadline + period)) hper
    omega
  · omega

lemma dvd_nextDeadline_sub (deadline period current : Int) :
    period ∣ nextDeadline deadline period current - deadline := by
  rw [nextDeadline]
  split
  · exact ⟨(current - (deadline + period)) / period + 2, by ring⟩
  · exact ⟨1, by ring⟩

namespace Core

def start (deadline period now : Int) : Core where
  deadlineNs := deadline
  periodNs := period
  fired := false
  stopped := false
  stopClosed := false
  rearm := false
  winner := none
  driver := .load
  now := now

def waiting (c : Core) : Bool :=
  match c.driver with
  | .arm _ | .parked _ => c.winner.isNone
  | _ => false

/-- `rearm.try_send`: to the waiting select, or into the channel, which holds one token. -/
def nudge (c : Core) : Core :=
  if c.waiting then { c with winner := some .rearm } else { c with rearm := true }

lemma nudge_eq (c : Core) : c.nudge = { c with winner := c.nudge.winner, rearm := c.nudge.rearm } := by
  rw [nudge]
  split <;> rfl

lemma rearm_nudge {c : Core} (hwait : c.waiting = false) : c.nudge.rearm = true := by
  rw [nudge, hwait]
  rfl

def closeStop (c : Core) : Core :=
  { c with stopClosed := true, winner := if c.waiting then some .stopped else c.winner }

/-- The timer of the select fires; if another case has won, it does nothing. -/
def fire (c : Core) : Option Core :=
  match c.driver with
  | .parked deadline =>
    if deadline ≤ c.now ∧ c.winner = none then some { c with winner := some .deadline } else none
  | _ => none

def takeRearm (c : Core) : Core := { c with rearm := false, driver := .load }

/-- The scan of the two channels, in either order, and the registration if neither is ready. -/
def setup (c : Core) (rearmFirst : Bool) (deadline : Int) : Core :=
  if rearmFirst && c.rearm then c.takeRearm
  else if c.stopClosed then { c with driver := .close }
  else if c.rearm then c.takeRearm
  else { c with winner := none, driver := .arm deadline }

lemma setup_cases (c : Core) (rearmFirst : Bool) (deadline : Int) :
    c.rearm ∧ c.setup rearmFirst deadline = c.takeRearm ∨
      c.stopClosed ∧ c.setup rearmFirst deadline = { c with driver := .close } ∨
        c.rearm = false ∧ c.stopClosed = false ∧
          c.setup rearmFirst deadline = { c with winner := none, driver := .arm deadline } := by
  rw [setup]
  cases hrearm : c.rearm <;> cases hclosed : c.stopClosed <;> cases rearmFirst <;> simp

def drive (c : Core) (rearmFirst : Bool) : Option Core :=
  match c.driver with
  | .load => some { c with driver := .setup c.deadlineNs }
  | .setup deadline => some (c.setup rearmFirst deadline)
  | .arm deadline => some { c with driver := .parked deadline }
  | .parked deadline =>
    match c.winner with
    | some .stopped => some { c with driver := .close }
    | some .rearm => some { c with driver := .load }
    | some .deadline => some { c with driver := .check deadline }
    | none => none
  | .check deadline => some { c with driver := .compare deadline c.deadlineNs }
  | .compare deadline seen =>
    some { c with driver := if c.now < seen then .load else .loadPeriod deadline }
  | .loadPeriod deadline =>
    some { c with driver := if c.periodNs = 0 then .storeFired else .tick deadline c.periodNs }
  | .storeFired => some { c with fired := true, driver := .deliver }
  | .deliver => some { c with driver := .close }
  | .tick deadline period => some { c with driver := .advance deadline period }
  | .advance deadline period => some { c with driver := .storeNext (nextDeadline deadline period c.now) }
  | .storeNext next => some { c with deadlineNs := next, driver := .load }
  | .close => some { c with driver := .done }
  | .done => none

/-- The driver stands between the win of the deadline and the store of `fired`. -/
def firing (c : Core) : Bool :=
  match c.driver with
  | .parked _ => c.winner == some .deadline
  | .check _ | .compare .. | .loadPeriod _ | .storeFired => true
  | _ => false

end Core

end Cio.TimerHandle
