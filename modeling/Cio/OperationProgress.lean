import Cio.OperationQueue

/-! Operations that make no further system call run to their end: every step brings one of them closer to it, a
retry of a failed exchange included, and where no operation can go on nobody is left in the queue. -/

namespace Cio.Reactor.Operation

open CallPool State Operation.Task Pc

/-! ### Progress -/

/-- The steps an operation has ahead of it, the attempts inside the lock counted as one. -/
def Pc.rank : Pc → Nat
  | .enter => 12
  | .suspend => 11
  | .inspect | .takeIdle | .upgrade => 10
  | .queued => 9
  | .popped => 8
  | .granted | .validate | .leased => 7
  | .holding => 6
  | .reset _ => 5
  | .release _ => 4
  | .drop _ _ => 3
  | .dispatch _ _ => 2
  | .returned _ => 0

/-- The steps of the current attempt inside the lock; an exchange on a word that has changed is to fail. -/
def State.attempt (s : State) (t : Task) : Nat :=
  match t.pc with
  | .inspect => 2
  | .takeIdle => if (s.queue t.dir).owner = 0 then 1 else 3
  | .upgrade => if (s.queue t.dir).owner = t.tag then 1 else 3
  | .enter | .validate | .suspend | .queued | .popped | .granted | .holding | .leased | .reset _ | .release _
  | .drop _ _ | .dispatch _ _ | .returned _ => 0

def State.work (s : State) : Nat := 4 * weight (Task.count rank) s.tasks + weight s.attempt s.tasks

lemma attempt_le (s : State) (t : Task) : s.attempt t ≤ 3 * count inside t := by
  unfold attempt count
  cases t.pc with
  | takeIdle | upgrade =>
    dsimp only [inside]
    split <;> decide
  | inspect => exact Nat.le_succ 2
  | _ => exact Nat.zero_le _

variable {s u : State} {i n : Nat} {t : Task}

lemma Locked.attempt_le (h : Locked s) : weight s.attempt s.tasks ≤ 3 := by
  have hle := weight_le_mul (Operation.attempt_le s) s.tasks
  have hone := Bool.toNat_le s.locked
  unfold Locked at h
  omega

lemma work_lt_of_rank (hlocked : Locked u)
    (hrank : weight (count rank) u.tasks < weight (count rank) s.tasks) : u.work < s.work := by
  have hle := hlocked.attempt_le
  unfold work
  omega

lemma rank_lt_of_set {t' : Task} (ht : s.tasks[i]? = some t) (htasks : u.tasks = s.tasks.set i t')
    (hrank : t'.pc.rank < t.pc.rank) : weight (count rank) u.tasks < weight (count rank) s.tasks := by
  have hset := weight_set (count rank) ht t'
  rw [htasks]
  simp only [count] at hset ⊢
  omega

lemma rank_lt_of_set_set {t' w w' : Task} (ht : s.tasks[i]? = some t) (hw : s.tasks[n]? = some w) (hne : n ≠ i)
    (htasks : u.tasks = (s.tasks.set n w').set i t') (hrank : t'.pc.rank < t.pc.rank)
    (hwrank : w'.pc.rank < w.pc.rank) : weight (count rank) u.tasks < weight (count rank) s.tasks := by
  have hset := weight_set_set (count rank) ht hw hne t' w'
  rw [htasks]
  simp only [count] at hset ⊢
  omega

lemma work_lt_of_attempt {pc : Pc} (ht : s.tasks[i]? = some t)
    (hrank : pc.rank = t.pc.rank) (hattempt : s.attempt { t with pc := pc } < s.attempt t) :
    (s.setPc i t pc).work < s.work := by
  have hset := weight_set (count rank) ht { t with pc := pc }
  have hattempts := weight_set s.attempt ht { t with pc := pc }
  have hsame : weight (s.setPc i t pc).attempt (s.setPc i t pc).tasks =
      weight s.attempt (s.tasks.set i { t with pc := pc }) := rfl
  unfold work
  rw [hsame]
  dsimp only [setPc, setTask]
  simp only [count] at hset ⊢
  omega

attribute [local simp] rank

lemma Move.work_lt {pc : Pc} (h : Move s false t pc)
    (ht : s.tasks[i]? = some t) (hlocked : Locked (s.setPc i t pc)) : (s.setPc i t pc).work < s.work := by
  cases h with
  | idle hpc howner =>
    refine work_lt_of_attempt ht (hpc ▸ rfl) ?_
    have hnew : s.attempt { t with pc := .takeIdle } = 1 := if_pos howner
    rw [hnew, attempt, hpc]
    exact Nat.one_lt_two
  | owned hpc howner =>
    refine work_lt_of_attempt ht (hpc ▸ rfl) ?_
    have hnew : s.attempt { t with pc := .upgrade } = 1 := if_pos howner
    rw [hnew, attempt, hpc]
    exact Nat.one_lt_two
  | retryIdle hpc hfail | retryOwned hpc hfail =>
    refine work_lt_of_attempt ht (hpc ▸ rfl) ?_
    simp only [attempt, hpc]
    rw [if_neg (hfail rfl)]
    decide
  | refused hpc | busy hpc | validated hpc | invalid e hpc | unsuspended e hpc | finished hpc | denied e hpc
  | slow err hpc | stale err hpc =>
    exact work_lt_of_rank hlocked (rank_lt_of_set ht rfl (by simp [hpc]))

lemma taskStep_work (hk : Kept s) (hlocked : Locked u)
    (ht : s.tasks[i]? = some t) (hs : TaskStep s i false false t u) : u.work < s.work := by
  cases hs with
  | move pc hmove => exact hmove.work_lt ht hlocked
  | enter hpc | publish hpc | lock hpc | expel hpc | take hpc | takeForeign hpc | resume hpc | finish hpc
  | clear err hpc => exact work_lt_of_rank hlocked (rank_lt_of_set ht rfl (by simp [hpc]))
  | join hpc =>
    refine work_lt_of_rank hlocked (rank_lt_of_set ht rfl ?_)
    rcases hpc with hpc | hpc <;> simp [hpc]
  | begin hpc hgen hopen hfree hagain => cases hagain
  | pass err n rest w hpc hlock hgen hqueue hw =>
    obtain ⟨hne, hwpc, -⟩ := hk.pass_target ht hpc hqueue hw
    refine work_lt_of_rank hlocked (rank_lt_of_set_set ht hw hne rfl ?_ (by simp [hwpc]))
    rw [hpc]
    split <;> simp
  | vacate err hpc =>
    refine work_lt_of_rank hlocked (rank_lt_of_set ht rfl ?_)
    rw [hpc]
    split <;> simp
  | drop err next hpc =>
    refine work_lt_of_rank hlocked (rank_lt_of_set ht rfl ?_)
    rw [hpc]
    cases next <;> simp [dropped]
  | dispatch err n w hpc hw =>
    obtain ⟨hne, hwpc⟩ := hk.dispatch_target ht hpc hw
    exact work_lt_of_rank hlocked (rank_lt_of_set_set ht hw hne rfl (by simp [hpc]) (by simp [hwpc]))

/-- **A step of an operation that makes no further system call is progress.** -/
lemma step_work {env : Env Unit} (hk : Kept s)
    (hs : operationStep s (.task i env false false) = some u) : u.work < s.work := by
  have hcases := operationStep_cases hs
  have hlocked := step_locked hk hcases
  cases hcases with
  | task i t ht hs => exact taskStep_work hk hlocked ht hs

/-! ### Where no operation can go on -/

def Pc.free : Pc → Bool
  | .enter | .inspect | .takeIdle | .upgrade | .granted | .holding | .leased | .reset _ | .drop _ _ => true
  | .validate | .suspend | .queued | .popped | .release _ | .dispatch _ _ | .returned _ => false

def Halted (s : State) : Prop := ∀ i env, operationStep s (.task i env false false) = none

lemma Halted.taskStep (h : Halted s) (ht : s.tasks[i]? = some t)
    (env : Env Unit) : s.taskStep i env false false t = none := by
  have hnone := h i env
  rw [operationStep, ht] at hnone
  exact hnone

lemma Halted.not_free (h : Halted s) (ht : s.tasks[i]? = some t) (env : Env Unit) : t.pc.free = false := by
  have hnone := h.taskStep ht env
  unfold State.taskStep at hnone
  cases hpc : t.pc with
  | enter | takeIdle | upgrade | reset | inspect =>
    simp only [hpc] at hnone
    split_ifs at hnone
  | granted | holding | leased | drop =>
    simp only [hpc] at hnone
    cases hnone
  | validate | suspend | queued | popped | release | dispatch | returned => rfl

lemma Kept.waiter_exists (h : Kept s) {d : Dir} (hn : n ∈ (s.queue d).waiters) : ∃ w, s.tasks[n]? = some w := by
  have hq := (h.placed d n).queued
  have hpos := List.count_pos_iff.mpr hn
  rw [State.at] at hq
  split at hq
  · rename_i w hw
    exact ⟨w, hw⟩
  · omega

section

variable (h : Halted s) (hk : Kept s) (env : Env Unit)

include h hk env

lemma Halted.undispatched {w : Task} (hw : s.tasks[n]? = some w) : w.pc.undispatched = 0 := by
  by_contra hne
  have hcar := (hk.placed w.dir n).carried
  rw [at_of_getElem hw, count] at hcar
  obtain ⟨t, ht, hpos⟩ := exists_of_weight_pos (f := count (carries n)) (l := s.tasks) (by omega)
  obtain ⟨i, hi⟩ := List.mem_iff_getElem?.mp ht
  have hfree := h.not_free hi env
  have hnone := h.taskStep hi env
  rw [count] at hpos
  cases hpc : t.pc with
  | drop =>
    rw [hpc] at hfree
    cases hfree
  | dispatch err m =>
    rw [hpc, carries] at hpos
    have hm : m = n := by
      by_contra hmn
      rw [if_neg hmn] at hpos
      exact lt_irrefl 0 hpos
    subst hm
    simp only [State.taskStep, hpc, hw] at hnone
    cases hnone
  | _ =>
    rw [hpc] at hpos
    cases hpos

lemma Halted.unlocked (halive : s.Alive) : s.locked = false := by
  rw [Bool.eq_false_iff]
  intro hlock
  have hlocked := hk.locked
  unfold Locked at hlocked
  have hfreer : s.freer.inside = 0 := by
    cases hf : s.freer with
    | idle | pending => rfl
    | resetting rest => exact absurd hf (halive.freer rest)
  rw [hlock, hfreer, Bool.toNat_true] at hlocked
  obtain ⟨t, ht, hpos⟩ := exists_of_weight_pos (f := count inside) (l := s.tasks) (by omega)
  obtain ⟨i, hi⟩ := List.mem_iff_getElem?.mp ht
  have hfree := h.not_free hi env
  rw [count] at hpos
  cases hpc : t.pc with
  | inspect | takeIdle | upgrade =>
    rw [hpc] at hfree
    cases hfree
  | _ =>
    rw [hpc] at hpos
    cases hpos

lemma Halted.not_owning (hlock : s.locked = false) (ht : s.tasks[i]? = some t) : t.pc.owning = 0 := by
  have hfree := h.not_free ht env
  have hund := h.undispatched hk env ht
  have hnone := h.taskStep ht env
  cases hpc : t.pc with
  | granted | holding | leased | reset =>
    rw [hpc] at hfree
    cases hfree
  | popped =>
    rw [hpc] at hund
    cases hund
  | validate =>
    simp only [State.taskStep, hpc, hlock, and_false, if_false, Bool.false_eq_true] at hnone
    split at hnone <;> cases hnone
  | release err =>
    simp only [State.taskStep, hpc, hlock, if_false, Bool.false_eq_true, State.releaseOperation] at hnone
    split at hnone
    · cases hnone
    split at hnone
    · rename_i n rest hqueue
      obtain ⟨w, hw⟩ := hk.waiter_exists (hqueue ▸ List.mem_cons_self)
      rw [hw] at hnone
      cases hnone
    · cases hnone
  | enter | suspend | inspect | takeIdle | upgrade | queued | drop | dispatch | returned => rfl

/-- **Where no operation can go on, nobody is in the queue or between the queue and its guard.** -/
lemma Halted.drained (ht : t ∈ s.tasks) : t.pc.waiting + t.pc.undispatched = 0 := by
  obtain ⟨n, hn⟩ := List.mem_iff_getElem?.mp ht
  rw [h.undispatched hk env hn, add_zero]
  by_contra hne
  have hq := (hk.placed t.dir n).queued
  rw [at_of_getElem hn, along, if_pos rfl] at hq
  have hmem : n ∈ (s.queue t.dir).waiters := List.count_pos_iff.mp (by omega)
  have halive : s.Alive := by
    refine hk.known.alive_of_pos (Nat.pos_of_ne_zero fun hzero => ?_)
    rw [(hk.counted.of_zero hzero t.dir).2.1] at hmem
    cases hmem
  -- the direction is marked, so it has an owner, and the owner can go on
  have hdir := hk.directed halive t.dir
  have hpin := hdir.queued (List.ne_nil_of_mem hmem)
  have howner := hdir.pinned.mp hpin
  have hown := hdir.own
  rw [howner, if_neg (operationTag_or_ne_zero _)] at hown
  obtain ⟨x, hx, hpos⟩ := exists_of_weight_pos (f := on t.dir s.inc owning) (l := s.tasks) (by omega)
  obtain ⟨j, hj⟩ := List.mem_iff_getElem?.mp hx
  have hzero := h.not_owning hk env (h.unlocked hk env halive) hj
  rw [on, hzero, ite_self] at hpos
  exact lt_irrefl 0 hpos

end

end Cio.Reactor.Operation
