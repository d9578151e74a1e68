import Cio.TimerHandle
import Cio.TransitionSystem

/-! A ticker that is neither stopped nor reset. The deadlines that `drive_timer` arms are logged with the clock value
from which each was computed and with the ticks that were sent since the one before. -/

namespace Cio.TickerDrift

open TimerHandle Transition

/-- One arming: its deadline, the clock then and the ticks before. -/
structure Arm where
  deadline : Int
  current : Int
  ticks : Nat

structure State where
  core : Core
  current : Int := 0
  ticks : Nat := 0
  log : List Arm := []

inductive Act where
  | drive (rearmFirst : Bool)
  | fire
  | pass (elapsed : Nat)

namespace State

/-- What the next step of the driver adds to the log. -/
def note (s : State) : State :=
  match s.core.driver with
  | .arm deadline => { s with log := ⟨deadline, s.current, s.ticks⟩ :: s.log, ticks := 0 }
  | .tick .. => { s with ticks := s.ticks + 1 }
  | .advance .. => { s with current := s.core.now }
  | _ => s

def step (s : State) : Act → Option State
  | .drive rearmFirst => (s.core.drive rearmFirst).map fun c => { s.note with core := c }
  | .fire => s.core.fire.map fun c => { s with core := c }
  | .pass elapsed => some { s with core := { s.core with now := s.core.now + elapsed } }

end State

def driftSystem (start period : Int) : System State Act where
  init s := ∃ now, s = { core := .start start period now }
  step := State.step

variable {start period : Int}

/-- `next` is the first of `start`, `start + period`, … that lies after `floor`. -/
structure FirstAfter (start period floor next : Int) : Prop where
  after : floor < next
  onGrid : period ∣ next - start
  least : ∀ other, period ∣ other - start → floor < other → next ≤ other

variable (start period) in
/-- Each deadline is the first one on the grid behind the previous deadline and the clock value from which it was
computed, with at most one tick in between; the first one is `start`. -/
def Chained : List Arm → Prop
  | [] => True
  | [first] => first.deadline = start
  | arm :: last :: rest =>
    FirstAfter start period (max last.deadline arm.current) arm.deadline ∧ arm.ticks ≤ 1 ∧ Chained (last :: rest)

lemma firstAfter_nextDeadline (hper : 0 < period) {deadline : Int} (hgrid : period ∣ deadline - start)
    (current : Int) : FirstAfter start period (max deadline current) (nextDeadline deadline period current) where
  after := by
    have hcurrent := lt_nextDeadline deadline hper current
    refine max_lt ?_ hcurrent
    rw [nextDeadline] at hcurrent ⊢
    split at hcurrent <;> omega
  onGrid := by
    have hnext := Int.dvd_add (dvd_nextDeadline_sub deadline period current) hgrid
    rwa [sub_add_sub_cancel] at hnext
  least other hother hafter := by
    obtain ⟨k, hk⟩ : period ∣ other - (deadline + period) := by
      have hsub := Int.dvd_sub (Int.dvd_sub hother hgrid) (Int.dvd_refl period)
      rwa [sub_sub_sub_cancel_right, sub_sub] at hsub
    obtain ⟨hdeadline, hcurrent⟩ := max_lt_iff.mp hafter
    have hother' : other = deadline + period + k * period := by rw [mul_comm, ← hk, add_sub_cancel]
    rw [nextDeadline]
    split
    · -- the quotient is below `k`, since `other` is still ahead of the clock
      have hlt : (current - (deadline + period)) / period < k := Int.ediv_lt_of_lt_mul hper (by omega)
      have hmul := Int.mul_le_mul_of_nonneg_right (Int.add_one_le_of_lt hlt) hper.le
      omega
    · have hpos : -1 < k := Int.lt_of_mul_lt_mul_right (by omega) hper.le
      have hmul := Int.mul_le_mul_of_nonneg_right (Int.add_one_le_of_lt hpos) hper.le
      omega

variable {s : State}

section

variable (start period)

/-- The deadline that is to be armed next. -/
def Due (log : List Arm) (current next : Int) : Prop :=
  match log with
  | [] => next = start
  | last :: _ => FirstAfter start period (max last.deadline current) next

structure Armed (log : List Arm) (word deadline : Int) : Prop where
  word : deadline = word
  last : log.head?.map Arm.deadline = some deadline
  onGrid : period ∣ deadline - start

def At (s : State) (pc : Driver) : Prop :=
  let due := Due start period s.log s.current
  let armed := Armed start period s.log s.core.deadlineNs
  match pc with
  | .load => due s.core.deadlineNs ∧ s.ticks ≤ 1
  | .setup deadline => deadline = s.core.deadlineNs ∧ due deadline ∧ s.ticks ≤ 1
  | .arm deadline => s.core.winner = none ∧ deadline = s.core.deadlineNs ∧ due deadline ∧ s.ticks ≤ 1
  | .parked deadline => armed deadline ∧ s.ticks = 0 ∧
      (s.core.winner = none ∨ s.core.winner = some .deadline ∧ deadline ≤ s.core.now)
  | .check deadline => armed deadline ∧ s.ticks = 0 ∧ deadline ≤ s.core.now
  | .compare deadline seen => armed deadline ∧ s.ticks = 0 ∧ seen ≤ s.core.now
  | .loadPeriod deadline => armed deadline ∧ s.ticks = 0
  | .tick deadline p => armed deadline ∧ s.ticks = 0 ∧ p = period
  | .advance deadline p => armed deadline ∧ s.ticks ≤ 1 ∧ p = period
  | .storeNext next => due next ∧ s.ticks ≤ 1
  | .storeFired | .deliver | .close | .done => False

structure Steady (s : State) : Prop where
  periodNs : s.core.periodNs = period
  undisturbed : s.core.rearm = false ∧ s.core.stopClosed = false
  chained : Chained start period s.log
  driver : At start period s s.core.driver

end

variable {log : List Arm} {word deadline current : Int}

lemma Due.onGrid (h : Due start period log current deadline) : period ∣ deadline - start := by
  cases log with
  | nil =>
    rw [show deadline = start from h, sub_self]
    exact dvd_zero _
  | cons => exact FirstAfter.onGrid h

lemma Due.chained (h : Due start period log current deadline) (hlog : Chained start period log) {ticks : Nat}
    (hticks : ticks ≤ 1) : Chained start period (⟨deadline, current, ticks⟩ :: log) := by
  cases log with
  | nil => exact h
  | cons => exact ⟨h, hticks, hlog⟩

lemma Armed.due (h : Armed start period log word deadline) (hper : 0 < period) (current : Int) :
    Due start period log current (nextDeadline deadline period current) := by
  obtain ⟨-, hlast, hgrid⟩ := h
  cases log with
  | nil => cases hlast
  | cons =>
    cases hlast
    exact firstAfter_nextDeadline hper hgrid current

lemma steady_drive (hper : 0 < period) (h : Steady start period s) {rearmFirst : Bool} {c : Core}
    (hc : s.core.drive rearmFirst = some c) : Steady start period { s.note with core := c } := by
  obtain ⟨hperiod, hcalm, hchained, hat⟩ := h
  cases hdriver : s.core.driver with
    simp only [Core.drive, State.note, hdriver, Option.some.injEq] at hc hat ⊢
  | load =>
    subst hc
    exact ⟨hperiod, hcalm, hchained, rfl, hat⟩
  | setup deadline =>
    rw [Core.setup, hcalm.1, hcalm.2, Bool.and_false] at hc
    subst hc
    exact ⟨hperiod, ⟨rfl, rfl⟩, hchained, rfl, hat⟩
  | arm deadline =>
    subst hc
    obtain ⟨hwinner, hword, hdue, hticks⟩ := hat
    exact ⟨hperiod, hcalm, hdue.chained hchained hticks, ⟨hword, rfl, hdue.onGrid⟩, rfl, .inl hwinner⟩
  | parked deadline =>
    obtain ⟨harmed, hticks, hwinner | ⟨hwinner, hpast⟩⟩ := hat <;> rw [hwinner] at hc <;> cases hc
    exact ⟨hperiod, hcalm, hchained, harmed, hticks, hpast⟩
  | check deadline =>
    subst hc
    obtain ⟨harmed, hticks, hpast⟩ := hat
    exact ⟨hperiod, hcalm, hchained, harmed, hticks, harmed.word ▸ hpast⟩
  | compare deadline seen =>
    subst hc
    obtain ⟨harmed, hticks, hpast⟩ := hat
    rw [if_neg (not_lt.mpr hpast)]
    exact ⟨hperiod, hcalm, hchained, harmed, hticks⟩
  | loadPeriod deadline =>
    subst hc
    rw [if_neg (by omega)]
    exact ⟨hperiod, hcalm, hchained, hat.1, hat.2, hperiod⟩
  | tick deadline p =>
    subst hc
    obtain ⟨harmed, hticks, hp⟩ := hat
    exact ⟨hperiod, hcalm, hchained, harmed, Nat.succ_le_succ (Nat.le_of_eq hticks), hp⟩
  | advance deadline p =>
    subst hc
    obtain ⟨harmed, hticks, rfl⟩ := hat
    exact ⟨hperiod, hcalm, hchained, harmed.due hper _, hticks⟩
  | storeNext next =>
    subst hc
    exact ⟨hperiod, hcalm, hchained, hat⟩
  | storeFired | deliver | close | done => exact hat.elim

lemma steady_step (hper : 0 < period) (h : Steady start period s) {act : Act} {t : State}
    (hs : s.step act = some t) : Steady start period t := by
  cases act with
  | drive rearmFirst =>
    obtain ⟨c, hc, rfl⟩ := Option.map_eq_some_iff.mp hs
    exact steady_drive hper h hc
  | fire =>
    obtain ⟨c, hc, rfl⟩ := Option.map_eq_some_iff.mp hs
    obtain ⟨hperiod, hcalm, hchained, hat⟩ := h
    rw [Core.fire] at hc
    split at hc
    · rename_i deadline hdriver
      obtain ⟨⟨hpast, -⟩, hc⟩ := Option.ite_none_right_eq_some.mp hc
      cases hc
      rw [hdriver] at hat
      refine ⟨hperiod, hcalm, hchained, ?_⟩
      rw [hdriver]
      exact ⟨hat.1, hat.2.1, .inr ⟨rfl, hpast⟩⟩
    · cases hc
  | pass elapsed =>
    cases hs
    obtain ⟨hperiod, hcalm, hchained, hat⟩ := h
    have hlater : ∀ d : Int, d ≤ s.core.now → d ≤ s.core.now + elapsed := fun d hd => by omega
    refine ⟨hperiod, hcalm, hchained, ?_⟩
    dsimp only
    cases hdriver : s.core.driver with rw [hdriver] at hat
    | parked => exact ⟨hat.1, hat.2.1, hat.2.2.imp_right (.imp_right (hlater _))⟩
    | check | compare => exact ⟨hat.1, hat.2.1, hlater _ hat.2.2⟩
    | _ => exact hat

/-- **The deadlines of a ticker stay on the grid of its period.** Each one it arms is the first behind the previous one
and behind the clock value read for it, and at most one tick is sent in between. -/
theorem ticker_no_drift (start period : Int) (hper : 0 < period) (s : State)
    (hs : (driftSystem start period).Reachable s) : Chained start period s.log := by
  refine (hs.invariant (P := Steady start period) ?_ fun s a t h _ ht => steady_step hper h ht).chained
  rintro _ ⟨now, rfl⟩
  exact ⟨rfl, ⟨rfl, rfl⟩, trivial, rfl, Nat.zero_le 1⟩

/-- The clock passes two deadlines before the first tick is handled. -/
theorem ticker_no_drift_behind : ∃ s, (driftSystem 5 2).Reachable s ∧ s.log.map Arm.deadline = [11, 5] ∧
      Chained 5 2 s.log := by
  obtain ⟨s, hs, hlog⟩ := System.reachable_of_run (driftSystem 5 2) { core := .start 5 2 0 }
    (List.replicate 3 (.drive false) ++ [.pass 9, .fire] ++ List.replicate 10 (.drive false))
    (fun s => s.log.map Arm.deadline = [11, 5]) ⟨0, rfl⟩ (by decide +kernel)
  exact ⟨s, hs, hlog, ticker_no_drift 5 2 (by decide) s hs⟩

end Cio.TickerDrift
