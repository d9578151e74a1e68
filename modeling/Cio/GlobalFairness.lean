import Mathlib.Data.List.Induction
import Mathlib.Data.Nat.Basic

/-! How often a worker looks at the global queue. `next_local` does so on every 61st tick, unless the same tick is due
for the local service and that finds work; `service_global_fairness` alternates between the global queue and the ring.
What the queues hold when a worker looks, and what the other services return, is given with each call, so contents and
interference are arbitrary. -/

namespace Cio.GlobalFairness

/-- The values of `tick_` and `fair_cursor_` are taken modulo this. -/
def wordSize : Nat := 4294967296

def kLocalServiceInterval : Nat := 32

def kGlobalQueueInterval : Nat := 61

/-- The global queue when a worker locks it, and the size counter it read before. -/
structure Global (φ : Type) where
  size : Nat
  queue : List φ

variable {φ : Type}

def Global.pop (g : Global φ) : Option φ := if g.size = 0 then none else g.queue.head?

/-- `taken` counts what the worker has popped from the global queue. -/
structure Worker where
  tick : Nat
  fairCursor : Nat
  taken : Nat := 0

/-- What one `next_local` finds: the results of `service_fairness`, of `queue_.pop()` and of the last `take_local`,
and the global queue. -/
structure Call (φ : Type) where
  served : Option φ
  ring : Option φ
  localItem : Option φ
  global : Global φ

/-- What one cooperative reschedule finds: its debt to the global queue, and the queue. -/
structure Reschedule (φ : Type) where
  debtGlobal : Bool
  global : Global φ

namespace Worker

/-- One source of `service_global_fairness`: the global queue for 0, the ring for 1. -/
def source (w : Worker) (c : Call φ) (source : Nat) : Option φ × Worker :=
  if source = 0 then
    match c.global.pop with
    | some item => (some item, { w with fairCursor := 1, taken := w.taken + 1 })
    | none => (none, w)
  else
    match c.ring with
    | some item => (some item, { w with fairCursor := 0 })
    | none => (none, w)

/-- `stage_fairness_item` puts the item into `runnext_`, where `take_local` finds it. -/
def serviceGlobalFairness (w : Worker) (c : Call φ) : Option φ × Worker :=
  match w.source c (w.fairCursor % 2) with
  | (some item, w) => (some item, w)
  | (none, w) =>
    match w.source c ((w.fairCursor + 1) % wordSize % 2) with
    | (some item, w) => (some item, w)
    | (none, w) => (none, { w with fairCursor := (w.fairCursor + 1) % wordSize % 2 })

/-- The part of `next_local` after the local service. -/
def afterService (w : Worker) (c : Call φ) : Option φ × Worker :=
  if w.tick % kGlobalQueueInterval = 0 then
    match w.serviceGlobalFairness c with
    | (some item, w) => (some item, w)
    | (none, w) => (c.localItem, w)
  else (c.localItem, w)

def nextLocal (w : Worker) (c : Call φ) : Option φ × Worker :=
  let w := { w with tick := (w.tick + 1) % wordSize }
  if w.tick % kLocalServiceInterval = 0 then
    match c.served with
    | some item => (some item, w)
    | none => w.afterService c
  else w.afterService c

/-- The part of `reschedule_self_for_cooperative_io` that concerns the global queue. -/
def reschedule (w : Worker) (r : Reschedule φ) : Worker :=
  if r.debtGlobal then
    match r.global.pop with
    | some _ => { w with fairCursor := 1, taken := w.taken + 1 }
    | none => w
  else w

/-- A call of `next_local` after some reschedules. -/
def round (w : Worker) (r : List (Reschedule φ) × Call φ) : Worker :=
  ((r.1.foldl reschedule w).nextLocal r.2).2

/-- Two for each item taken, and one if the worker looks at the global queue next. -/
def credit (w : Worker) : Nat := 2 * w.taken + (1 - w.fairCursor % 2)

end Worker

/-- Neither the queue nor its counter is empty when the worker looks. -/
def Global.Full (g : Global φ) : Prop := g.size ≠ 0 ∧ g.queue ≠ []

/-- The call with this tick reaches `service_global_fairness` for sure. -/
def Due (tick : Nat) : Prop := tick % kGlobalQueueInterval = 0 ∧ tick % kLocalServiceInterval ≠ 0

instance : DecidablePred Due := fun _ => inferInstanceAs (Decidable (_ ∧ _))

/-- How many of the next `n` calls are due. -/
def dueCalls (tick : Nat) : Nat → Nat
  | 0 => 0
  | n + 1 => dueCalls tick n + if Due ((tick + n + 1) % wordSize) then 1 else 0

/-! ### One call -/

variable {c : Call φ} {t i n : Nat}

lemma Global.Full.pop {g : Global φ} (h : g.Full) : ∃ item, g.pop = some item := by
  rw [Global.pop, if_neg h.1]
  exact ⟨g.queue.head h.2, List.head?_eq_some_head h.2⟩

/-- The service takes an item, or takes one from the ring and turns to the global queue. -/
lemma credit_serviceGlobalFairness (w : Worker) (h : c.global.Full) :
    (w.serviceGlobalFairness c).2.tick = w.tick ∧ w.credit < (w.serviceGlobalFairness c).2.credit := by
  obtain ⟨item, hpop⟩ := h.pop
  rw [Worker.serviceGlobalFairness]
  rcases Nat.mod_two_eq_zero_or_one w.fairCursor with hcur | hcur
  · rw [hcur, Worker.source, if_pos rfl, hpop]
    refine ⟨rfl, ?_⟩
    simp only [Worker.credit]
    omega
  · rw [hcur, Worker.source, if_neg Nat.one_ne_zero]
    cases c.ring with
    | some =>
      refine ⟨rfl, ?_⟩
      simp only [Worker.credit]
      omega
    | none =>
      have hnext : (w.fairCursor + 1) % wordSize % 2 = 0 := by
        rw [wordSize]
        omega
      dsimp only
      rw [hnext, Worker.source, if_pos rfl, hpop]
      refine ⟨rfl, ?_⟩
      simp only [Worker.credit]
      omega

lemma credit_afterService (w : Worker) (h : c.global.Full) :
    (w.afterService c).2.tick = w.tick ∧
      w.credit + (if w.tick % kGlobalQueueInterval = 0 then 1 else 0) ≤ (w.afterService c).2.credit := by
  have hservice := credit_serviceGlobalFairness w h
  rw [Worker.afterService]
  split
  · cases hout : w.serviceGlobalFairness c with
    | mk item =>
      rw [hout] at hservice
      cases item <;> exact hservice
  · exact ⟨rfl, le_rfl⟩

lemma credit_nextLocal (w : Worker) (h : c.global.Full) :
    (w.nextLocal c).2.tick = (w.tick + 1) % wordSize ∧
      w.credit + (if Due ((w.tick + 1) % wordSize) then 1 else 0) ≤ (w.nextLocal c).2.credit := by
  obtain ⟨htick, hcredit⟩ := credit_afterService { w with tick := (w.tick + 1) % wordSize } h
  rw [Worker.nextLocal]
  dsimp only
  split
  · rename_i hlocal
    rw [if_neg fun hdue : Due _ => hdue.2 hlocal]
    cases c.served with
    | some => exact ⟨rfl, le_rfl⟩
    | none => exact ⟨htick, le_trans (Nat.le_add_right _ _) hcredit⟩
  · rename_i hlocal
    refine ⟨htick, le_trans (Nat.add_le_add_left ?_ _) hcredit⟩
    exact le_of_eq (if_congr (and_iff_left hlocal) rfl rfl)

lemma credit_reschedule (w : Worker) (r : Reschedule φ) :
    (w.reschedule r).tick = w.tick ∧ w.credit ≤ (w.reschedule r).credit := by
  rw [Worker.reschedule]
  split
  · cases r.global.pop with
    | some =>
      refine ⟨rfl, ?_⟩
      simp only [Worker.credit]
      omega
    | none => exact ⟨rfl, le_rfl⟩
  · exact ⟨rfl, le_rfl⟩

/-! ### A window of calls -/

/-- The worker gains one with every due call of the window. -/
lemma credit_rounds (w : Worker) (rounds : List (List (Reschedule φ) × Call φ))
    (hfull : ∀ r ∈ rounds, r.2.global.Full) :
    (rounds.foldl Worker.round w).tick % wordSize = (w.tick + rounds.length) % wordSize ∧
      w.credit + dueCalls w.tick rounds.length ≤ (rounds.foldl Worker.round w).credit := by
  induction rounds using List.reverseRecOn with
  | nil => exact ⟨rfl, le_rfl⟩
  | append_singleton rounds r ih =>
    obtain ⟨hbefore, hr⟩ := List.forall_mem_append.mp hfull
    obtain ⟨htick, hcredit⟩ := ih hbefore
    rw [List.foldl_append, List.length_append, List.foldl_cons, List.foldl_nil]
    obtain ⟨htick', hcredit'⟩ := List.foldlRecOn r.1 Worker.reschedule
      (motive := fun v => v.tick % wordSize = (w.tick + rounds.length) % wordSize ∧
        w.credit + dueCalls w.tick rounds.length ≤ v.credit) ⟨htick, hcredit⟩ fun v hv x _ =>
      ⟨(credit_reschedule v x).1 ▸ hv.1, le_trans hv.2 (credit_reschedule v x).2⟩
    obtain ⟨hnext, hgain⟩ := credit_nextLocal (r.1.foldl Worker.reschedule (rounds.foldl Worker.round w))
      (hr r (List.mem_singleton_self r))
    have hsame : ((r.1.foldl Worker.reschedule (rounds.foldl Worker.round w)).tick + 1) % wordSize =
        (w.tick + rounds.length + 1) % wordSize := by
      rw [Nat.add_mod, htick', ← Nat.add_mod]
    rw [hsame] at hnext hgain
    refine ⟨?_, ?_⟩
    · rw [Worker.round, hnext, Nat.mod_mod]
      rfl
    · rw [Worker.round, List.length_singleton, dueCalls]
      omega

lemma dueCalls_lt (hdue : Due ((t + i + 1) % wordSize)) (hi : i < n) : dueCalls t i < dueCalls t n := by
  induction n with
  | zero => cases hi
  | succ n ih =>
    rw [dueCalls]
    rcases Nat.lt_succ_iff_lt_or_eq.mp hi with hlt | rfl
    · exact Nat.lt_add_right _ (ih hlt)
    · rw [if_pos hdue]
      exact Nat.lt_succ_self _

lemma due_of_eq {tick m : Nat} (htick : tick = 61 * m) (hm : m % 32 ≠ 0) : Due tick := by
  subst htick
  refine ⟨Nat.mul_mod_right 61 m, ?_⟩
  rw [kLocalServiceInterval]
  omega

/-- Of the ticks of a window of 183 calls two are due, also when the counter wraps around. -/
lemma exists_due (t : Nat) : ∃ i j, i < j ∧ j < 183 ∧ Due ((t + i + 1) % wordSize) ∧ Due ((t + j + 1) % wordSize) := by
  obtain ⟨a, ha⟩ : ∃ a, a = t % wordSize := ⟨_, rfl⟩
  have hat : ∀ i m, (a + i + 1) % wordSize = 61 * m → m % 32 ≠ 0 → Due ((t + i + 1) % wordSize) := by
    intro i m heq hm
    refine due_of_eq (m := m) ?_ hm
    rw [← heq, ha, wordSize]
    omega
  rw [wordSize] at ha hat
  by_cases hwrap : a + 183 < 4294967296
  · -- three multiples of 61 in a row, of which at most one is a multiple of 32
    have hmul : ∀ k < 3, (a + (61 * (a / 61 + 1 + k) - a - 1) + 1) % 4294967296 = 61 * (a / 61 + 1 + k) := by
      intro k hk
      omega
    have hdue := fun k hk hm => hat _ (a / 61 + 1 + k) (hmul k hk) hm
    by_cases hfirst : (a / 61 + 1 + 0) % 32 = 0
    · exact ⟨_, _, by omega, by omega, hdue 1 (by decide) (by omega), hdue 2 (by decide) (by omega)⟩
    · by_cases hsecond : (a / 61 + 1 + 1) % 32 = 0
      · exact ⟨_, _, by omega, by omega, hdue 0 (by decide) hfirst, hdue 2 (by decide) (by omega)⟩
      · exact ⟨_, _, by omega, by omega, hdue 0 (by decide) hfirst, hdue 1 (by decide) hsecond⟩
  · -- the last multiple of 61 before the counter is zero again is 57 ticks before
    have hafter : ∀ i, a + i + 1 = 4294967357 → Due ((t + i + 1) % wordSize) := fun i hi =>
      hat i 1 (by omega) (by decide)
    have hbefore : ∀ i, a + i + 1 = 4294967239 → Due ((t + i + 1) % wordSize) := fun i hi =>
      hat i 70409299 (by omega) (by decide)
    by_cases hearly : 4294967295 - a < 61
    · exact ⟨4294967356 - a, 4294967417 - a, by omega, by omega, hafter _ (by omega), hat _ 2 (by omega) (by decide)⟩
    · by_cases hlate : 4294967295 - a < 122
      · exact ⟨4294967238 - a, 4294967356 - a, by omega, by omega, hbefore _ (by omega), hafter _ (by omega)⟩
      · exact ⟨4294967177 - a, 4294967238 - a, by omega, by omega, hat _ 70409298 (by omega) (by decide),
          hbefore _ (by omega)⟩

/-- **In any window of 183 calls of `next_local` during which the global queue is not empty, the worker takes
something from it, whatever its tick and cursor were and whatever the other queues hold.** -/
theorem global_served (w : Worker) (first : Call φ) (rest : List (List (Reschedule φ) × Call φ))
    (hlength : rest.length = 182) (hfull : ∀ r ∈ ([], first) :: rest, r.2.global.Full) :
    w.taken < ((([], first) :: rest).foldl Worker.round w).taken := by
  have hgain := (credit_rounds w _ hfull).2
  obtain ⟨i, j, hij, hj, hdi, hdj⟩ := exists_due w.tick
  have hone := dueCalls_lt hdi hij
  have htwo : _ < dueCalls w.tick (182 + 1) := dueCalls_lt hdj hj
  rw [List.length_cons, hlength] at hgain
  simp only [Worker.credit] at hgain
  omega

/-- The counter wraps around in the window, and the ring always has work. -/
theorem global_served_wrapping : ∃ (w : Worker) (first : Call Nat) (rest : List (List (Reschedule Nat) × Call Nat)),
    w.tick = 4294967200 ∧ rest.length = 182 ∧ w.taken < ((([], first) :: rest).foldl Worker.round w).taken := by
  refine ⟨{ tick := 4294967200, fairCursor := 7 }, ⟨some 1, some 2, some 3, ⟨1, [4]⟩⟩,
    List.replicate 182 ([], ⟨some 1, some 2, some 3, ⟨1, [4]⟩⟩), rfl, List.length_replicate .., ?_⟩
  refine global_served _ _ _ (List.length_replicate ..) fun r hr => ?_
  rw [← List.replicate_succ] at hr
  rw [List.eq_of_mem_replicate hr]
  exact ⟨Nat.one_ne_zero, List.cons_ne_nil _ _⟩

end Cio.GlobalFairness
