import Cio.CancelTree

/-! The arithmetic on deadlines: a duration is added to the clock where a deadline is set, and the clock is subtracted
from it where the poller computes its timeout. Durations, clock values and deadlines are signed 64-bit nanoseconds; an
operation that overflows has no value. The clock may advance between two readings of it. -/

namespace Cio.DeadlineArithmetic

open CancelTree

def kMax : Int := 9223372036854775807
def kMin : Int := -9223372036854775808

abbrev Fits (x : Int) : Prop := kMin ≤ x ∧ x ≤ kMax

/-- The result of a signed operation, if it does not overflow. -/
def checked (x : Int) : Option Int := if Fits x then some x else none

def deadlineFromNow (now d : Int) : Option Int := checked (now + d)

/-- The calls that set a deadline; that of the parent scope is zero for none. -/
inductive Api where
  | sleep | after | setTimeout | withTimeout (parentDeadline : Int) | ticker

/-- The timer of `make_scope`: what is left until the deadline is added to the clock again by `after_func`. -/
def makeScope (clock : Nat → Int) (parentDeadline deadline : Int) : Option (Option Int) :=
  let clamped := clamp deadline parentDeadline
  if clamped = 0 then some none
  else (checked (clamped - clock 1)).bind fun delay => (deadlineFromNow (clock 2) delay).map some

/-- The deadline each of them sets, with the readings of the clock that it makes; `none` inside is a ticker that is
refused or a scope without a timer. -/
def Api.deadline (clock : Nat → Int) (d : Int) : Api → Option (Option Int)
  | .sleep => if d ≤ 0 then some kMin else (deadlineFromNow (clock 0) d).map some
  | .after | .setTimeout => (deadlineFromNow (clock 0) d).map some
  | .withTimeout parentDeadline => (deadlineFromNow (clock 0) d).bind (makeScope clock parentDeadline)
  | .ticker => if d ≤ 0 then some none else (deadlineFromNow (clock 0) d).map some

/-- What has come to its end at time `t`: `SleepAwaiter::await_ready`, the timer heap and `timed_out` compare with the
clock, and a deadline of zero is none for a socket. -/
def Api.expired (deadline t : Int) : Api → Prop
  | .sleep => deadline = kMin ∨ deadline ≤ t
  | .setTimeout => deadline ≠ 0 ∧ deadline ≤ t
  | .after | .withTimeout _ | .ticker => deadline ≤ t

/-- `next_timeout_ns`, when the earliest deadline is `deadline`. -/
def nextTimeoutNs (deadline now : Int) : Option Int :=
  if deadline = kMax then some (-1) else (checked (deadline - now)).map fun delta => if 0 < delta then delta else 0

/-- A scope also ends with the deadline of its parent. -/
def Api.parentEnded (t : Int) : Api → Prop
  | .withTimeout parentDeadline => parentDeadline ≠ 0 ∧ parentDeadline ≤ t
  | _ => False

/-- The call computes its deadline without overflow, and what it starts does not end before the duration is over. -/
def Api.Total (api : Api) (clock : Nat → Int) (d : Int) : Prop :=
  ∃ set, api.deadline clock d = some set ∧ ∀ deadline, set = some deadline → ∀ t, clock 0 ≤ t → 0 ≤ d →
    api.expired deadline t → clock 0 + d ≤ t ∨ api.parentEnded t

/-- The sums and differences of the call fit. -/
def Api.InRange (clock : Nat → Int) (d : Int) : Api → Prop
  | .sleep | .ticker => 0 < d → Fits (clock 0 + d)
  | .after | .setTimeout => Fits (clock 0 + d)
  | .withTimeout parentDeadline =>
    let clamped := clamp (clock 0 + d) parentDeadline
    Fits (clock 0 + d) ∧ (clamped ≠ 0 → Fits (clamped - clock 1) ∧ Fits (clock 2 + (clamped - clock 1)))

lemma checked_eq_some {x y : Int} : checked x = some y ↔ Fits x ∧ x = y := by
  rw [checked]
  split
  next h => rw [Option.some_inj, and_iff_right h]
  next h => exact ⟨nofun, fun hy => absurd hy.1 h⟩

lemma deadlineFromNow_map {now d : Int} {set : Option Int} :
    (deadlineFromNow now d).map some = some set ↔ Fits (now + d) ∧ some (now + d) = set := by
  rw [deadlineFromNow, checked]
  split
  next h => rw [Option.map_some, Option.some_inj, and_iff_right h]
  next h => exact ⟨nofun, fun hy => absurd hy.1 h⟩

lemma makeScope_eq_some {clock : Nat → Int} {parentDeadline deadline : Int} {set : Option Int}
    (h : clamp deadline parentDeadline ≠ 0) :
    makeScope clock parentDeadline deadline = some set ↔
      Fits (clamp deadline parentDeadline - clock 1) ∧
        Fits (clock 2 + (clamp deadline parentDeadline - clock 1)) ∧
        some (clock 2 + (clamp deadline parentDeadline - clock 1)) = set := by
  simp only [makeScope, if_neg h, Option.bind_eq_some_iff, checked_eq_some, deadlineFromNow_map]
  constructor
  · rintro ⟨_, ⟨hfits, rfl⟩, hset⟩
    exact ⟨hfits, hset⟩
  · rintro ⟨hfits, hset⟩
    exact ⟨_, ⟨hfits, rfl⟩, hset⟩

lemma clamp_ended {x parentDeadline t : Int} (h : clamp x parentDeadline ≤ t) :
    x ≤ t ∨ parentDeadline ≠ 0 ∧ parentDeadline ≤ t := by
  rw [clamp] at h
  split at h
  next hparent => exact .inr ⟨hparent.1, h⟩
  · exact .inl h

/-- A call that does nothing but add the duration to the clock. -/
lemma total_of_sum {api : Api} {clock : Nat → Int} {d : Int}
    (hset : api.deadline clock d = (deadlineFromNow (clock 0) d).map some)
    (hpast : Fits (clock 0 + d) → ∀ t, api.expired (clock 0 + d) t → clock 0 + d ≤ t) :
    api.Total clock d ↔ Fits (clock 0 + d) := by
  constructor
  · rintro ⟨set, h, -⟩
    exact (deadlineFromNow_map.mp (hset ▸ h)).1
  · intro hfits
    refine ⟨_, hset.trans (deadlineFromNow_map.mpr ⟨hfits, rfl⟩), ?_⟩
    rintro _ ⟨⟩ t - - hexpired
    exact .inl (hpast hfits t hexpired)

lemma withTimeout_total {clock : Nat → Int} {d parentDeadline : Int} (hclock : clock 1 ≤ clock 2) :
    (Api.withTimeout parentDeadline).Total clock d ↔ (Api.withTimeout parentDeadline).InRange clock d := by
  simp only [Api.Total, Api.InRange, Api.deadline, deadlineFromNow, Option.bind_eq_some_iff, checked_eq_some]
  constructor
  · rintro ⟨set, ⟨_, ⟨hfits, rfl⟩, hscope⟩, -⟩
    refine ⟨hfits, fun hne => ?_⟩
    have h := (makeScope_eq_some hne).mp hscope
    exact ⟨h.1, h.2.1⟩
  · rintro ⟨hfits, hscope⟩
    by_cases hzero : clamp (clock 0 + d) parentDeadline = 0
    · exact ⟨none, ⟨_, ⟨hfits, rfl⟩, if_pos hzero⟩, nofun⟩
    · obtain ⟨hleft, hagain⟩ := hscope hzero
      refine ⟨_, ⟨_, ⟨hfits, rfl⟩, (makeScope_eq_some hzero).mpr ⟨hleft, hagain, rfl⟩⟩, ?_⟩
      rintro _ ⟨⟩ t - - hexpired
      -- the timer is late by what the clock advanced between the two readings
      have hpast : clock 2 + (clamp (clock 0 + d) parentDeadline - clock 1) ≤ t := hexpired
      exact clamp_ended (by omega)

lemma api_total_iff {api : Api} {clock : Nat → Int} {d : Int} (hnow : Fits (clock 0)) (hclock : clock 1 ≤ clock 2) :
    api.Total clock d ↔ api.InRange clock d := by
  cases api with
  | sleep =>
    by_cases hd : d ≤ 0
    · refine ⟨fun _ hpos => absurd hd (by omega), fun _ => ⟨_, if_pos hd, fun _ _ t ht hpos _ => .inl (by omega)⟩⟩
    · have hsum : Api.sleep.Total clock d ↔ Fits (clock 0 + d) := by
        refine total_of_sum (if_neg hd) ?_
        rintro - t (hmin | hpast)
        · exact absurd hnow.1 (by omega)
        · exact hpast
      exact hsum.trans ⟨fun h _ => h, fun h => h (by omega)⟩
  | after => exact total_of_sum rfl fun _ _ => id
  | setTimeout => exact total_of_sum rfl fun _ _ => And.right
  | withTimeout parentDeadline => exact withTimeout_total hclock
  | ticker =>
    by_cases hd : d ≤ 0
    · exact ⟨fun _ hpos => absurd hd (by omega), fun _ => ⟨none, if_pos hd, nofun⟩⟩
    · have hsum : Api.ticker.Total clock d ↔ Fits (clock 0 + d) := total_of_sum (if_neg hd) fun _ _ => id
      exact hsum.trans ⟨fun h _ => h, fun h => h (by omega)⟩

lemma nextTimeoutNs_total_iff {deadline t : Int} :
    (∃ timeout, nextTimeoutNs deadline t = some timeout ∧
        (timeout = -1 ∧ deadline = kMax ∨ 0 ≤ timeout ∧ deadline ≤ t + timeout)) ↔
      deadline = kMax ∨ Fits (deadline - t) := by
  rw [nextTimeoutNs]
  split
  next hmax => exact ⟨fun _ => .inl hmax, fun _ => ⟨_, rfl, .inl ⟨rfl, hmax⟩⟩⟩
  next hmax =>
    simp only [Option.map_eq_some_iff, checked_eq_some]
    constructor
    · rintro ⟨_, ⟨_, ⟨hfits, -⟩, -⟩, -⟩
      exact .inr hfits
    · intro h
      refine ⟨_, ⟨_, ⟨h.resolve_left hmax, rfl⟩, rfl⟩, .inr ?_⟩
      split <;> omega

/-- **No deadline overflows and none is early if and only if the sums and differences of the call fit; and the poller
computes a timeout, which is not over before the deadline, if and only if that is the last deadline there is or its
difference to the clock fits.** -/
theorem deadline_total_iff (api : Api) (clock : Nat → Int) (d deadline t : Int) (hnow : Fits (clock 0))
    (hclock : clock 1 ≤ clock 2) :
    (api.Total clock d ↔ api.InRange clock d) ∧
      ((∃ timeout, nextTimeoutNs deadline t = some timeout ∧
          (timeout = -1 ∧ deadline = kMax ∨ 0 ≤ timeout ∧ deadline ≤ t + timeout)) ↔
        deadline = kMax ∨ Fits (deadline - t)) :=
  ⟨api_total_iff hnow hclock, nextTimeoutNs_total_iff⟩

/-- An hour, and `Duration::min()` with a clock that advances: the sum fits, but not the difference. -/
theorem deadline_total_iff_withTimeout :
    (Api.withTimeout 0).Total (fun _ => 5) 3600000000000 ∧
      ¬ (Api.withTimeout 0).Total (fun k => if k = 0 then 5 else 6) kMin :=
  ⟨(deadline_total_iff _ _ _ 0 0 (by decide) (by decide)).1.mpr ⟨by decide, fun _ => by decide⟩,
    fun h => absurd ((deadline_total_iff _ _ _ 0 0 (by decide) (by decide)).1.mp h) fun ⟨_, hscope⟩ =>
      absurd (hscope (by decide)) (by decide)⟩

/-- A sleep for `Duration::max()`. -/
theorem forever_overflows :
    ¬ ∀ (api : Api) (clock : Nat → Int) (d : Int), (∀ k, Fits (clock k)) → Fits d → api.deadline clock d ≠ none :=
  fun hall => hall .sleep (fun _ => 1) kMax (fun _ => by decide) (by decide) (by decide)

end Cio.DeadlineArithmetic
