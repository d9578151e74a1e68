import Cio.TaskGroupKept

/-! `TaskGroup::spawn`. The child is counted before the calls that can throw, and nothing takes it back: a `spawn` that
throws leaves a child behind that does not exist. -/

namespace Cio.TaskGroup

open State

/-! ### One call at a time -/

/-- The word `child_started` leaves when nobody interferes, and the hint it returns. -/
def childStarted (outstanding : Nat) : Nat × Bool :=
  if outstanding = kFinishing then (1, true) else (outstanding + 1, outstanding == 0)

/-- The word `child_finished` leaves when nobody interferes. -/
def childFinished (outstanding : Nat) : Nat := if outstanding = 1 then 0 else fetchSub outstanding

/-- Call `i` takes its next steps alone, and nothing goes wrong. -/
def Alone (i : Nat) : State → State → Prop :=
  Relation.ReflTransGen fun s u => groupStep s (.task i false false) = some u

variable {i : Nat} {s : State} {t : Task}

lemma alone_head {v : State} {pc : Pc} {Q : State → Prop} (ht : s.tasks[i]? = some t)
    (hv : s.taskStep i false false t = some (v.setPc i t pc)) (htasks : v.tasks = s.tasks)
    (hrest : ∀ w : State, w.outstanding = v.outstanding → w.locked = v.locked → w.waiters = v.waiters →
      w.tasks[i]? = some { t with pc := pc } → ∃ u, Alone i w u ∧ Q u) : ∃ u, Alone i s u ∧ Q u := by
  obtain ⟨u, hto, hu⟩ := hrest (v.setPc i t pc).tick rfl rfl rfl (by
    show (v.tasks.set i { t with pc := pc })[i]? = _
    rw [htasks]
    exact List.getElem?_set_self (List.getElem?_eq_some_iff.mp ht).1)
  refine ⟨u, .head ?_ hto, hu⟩
  rw [groupStep, ht]
  exact congrArg (Option.map tick) hv

/-- **`child_started` without interference leaves the word and the hint of `childStarted`.** -/
theorem childStarted_alone (ht : s.tasks[i]? = some t) (hpc : t.pc = .startLoad) (hfree : s.locked = false) :
    ∃ u, Alone i s u ∧ u.outstanding = (childStarted s.outstanding).1 ∧
      u.tasks[i]? = some { t with pc := .running (childStarted s.outstanding).2 } := by
  have hload : s.taskStep i false false t = some (s.setPc i t (.startLoop s.outstanding)) := by
    simp only [taskStep, hpc]
  refine alone_head ht hload rfl fun loop hword hlocked _ htask => ?_
  by_cases hfin : s.outstanding = kFinishing
  · rw [childStarted, if_pos hfin]
    refine alone_head htask (if_pos hfin) rfl fun lock hword₁ hlocked₁ _ htask₁ => ?_
    have henter : lock.taskStep i false false { t with pc := .startLock } =
        some ({ lock with locked := true }.setPc i { t with pc := .startLock } .startStore) := by
      simp only [taskStep]
      rw [if_neg (by rw [hlocked₁, hlocked, hfree]; decide), if_pos (by rw [hword₁, hword, hfin])]
    refine alone_head htask₁ henter rfl fun store _ _ _ htask₂ => ?_
    exact alone_head htask₂ rfl rfl fun u hword₃ _ _ htask₃ => ⟨u, .refl, hword₃, htask₃⟩
  · rw [childStarted, if_neg hfin]
    have hcas : loop.taskStep i false false { t with pc := .startLoop s.outstanding } =
        some ({ loop with outstanding := s.outstanding + 1 }.setPc i { t with pc := .startLoop s.outstanding }
          (.running (s.outstanding == 0))) := by
      simp only [taskStep]
      rw [if_neg hfin, if_pos ⟨hword, trivial⟩]
    exact alone_head htask hcas rfl fun u hword₁ _ _ htask₁ => ⟨u, .refl, hword₁, htask₁⟩

theorem childStarted_alone_first : ∃ s u : State, s.outstanding = 0 ∧ Alone 0 s u ∧ u.outstanding = 1 := by
  obtain ⟨u, hto, hword, -⟩ := childStarted_alone (s := { tasks := [⟨0, .startLoad, false, 0⟩] }) (i := 0) rfl rfl rfl
  exact ⟨_, u, rfl, hto, hword⟩

/-- The word is at `childFinished` and the lock is free; the last child is about to wake the parked joins, any other
one has returned. -/
def FinishedAt (i : Nat) (s : State) (t : Task) (u : State) : Prop :=
  u.outstanding = childFinished s.outstanding ∧ u.locked = false ∧
    u.tasks[i]? = some { t with pc := if s.outstanding = 1 then .wakeList s.waiters else .finished }

lemma finishGeneration_alone (ht : s.tasks[i]? = some { t with pc := .finishLock }) (hfree : s.locked = false)
    (hword : s.outstanding = kFinishing) : ∃ u, Alone i s u ∧ u.outstanding = 0 ∧ u.locked = false ∧
      u.tasks[i]? = some { t with pc := .wakeList s.waiters } := by
  have hlock : s.taskStep i false false { t with pc := .finishLock } =
      some ({ s with locked := true }.setPc i { t with pc := .finishLock } .finishStore) := by
    simp only [taskStep]
    rw [if_neg (by rw [hfree]; decide), if_pos hword]
  refine alone_head ht hlock rfl fun store _ _ hwaiters htask => ?_
  refine alone_head htask rfl rfl fun u hzero hunlocked _ htask₁ => ⟨u, .refl, hzero, hunlocked, ?_⟩
  rw [htask₁, hwaiters]

lemma finishSub_alone (ht : s.tasks[i]? = some { t with pc := .finishSub }) (hfree : s.locked = false) :
    ∃ u, Alone i s u ∧ FinishedAt i s t u := by
  obtain ⟨after, hafter⟩ : ∃ after, after = fetchSub s.outstanding := ⟨_, rfl⟩
  have hsub : s.taskStep i false false { t with pc := .finishSub } =
      some ({ s with outstanding := after }.setPc i { t with pc := .finishSub }
        (if 1 < s.outstanding then .finished else .claim)) := by
    simp only [taskStep, hafter]
  refine alone_head ht hsub rfl fun next hword hlocked hwaiters htask => ?_
  by_cases hone : s.outstanding = 1
  · -- the last child: the word is zero, and the completion claims it
    rw [hone, if_neg (lt_irrefl 1)] at htask
    have hzero : next.outstanding = 0 := by
      rw [hword]
      rw [hafter, hone]
      rfl
    simp only [FinishedAt, childFinished, if_pos hone]
    refine alone_head htask (if_pos hzero) rfl fun lock hword₁ hlocked₁ hwaiters₁ htask₁ => ?_
    have hgeneration := finishGeneration_alone htask₁ (hlocked₁.trans (hlocked.trans hfree)) hword₁
    rwa [hwaiters₁, hwaiters] at hgeneration
  simp only [FinishedAt, childFinished, if_neg hone]
  by_cases hmore : 1 < s.outstanding
  · rw [if_pos hmore] at htask
    exact ⟨next, .refl, hword.trans hafter, hlocked.trans hfree, htask⟩
  · -- no child was counted: the word wraps around, and no zero is claimed
    rw [if_neg hmore] at htask
    have hwrapped : next.outstanding ≠ 0 := by
      have hzero : s.outstanding = 0 := by omega
      rw [hword, hafter, hzero]
      exact show fetchSub 0 ≠ 0 by decide
    refine alone_head htask (if_neg hwrapped) rfl fun u hword₁ hlocked₁ _ htask₁ => ⟨u, .refl, ?_, ?_, htask₁⟩
    · rw [hword₁, hword, hafter]
    · rw [hlocked₁, hlocked, hfree]

/-- **`child_finished` without interference brings the word to `childFinished`, with the hint and without it,** and
comes to the wakes of the parked joins if it was the last child, and to its end otherwise. -/
theorem childFinished_alone {direct : Bool} (ht : s.tasks[i]? = some t) (hpc : t.pc = .finish direct)
    (hfree : s.locked = false) : ∃ u, Alone i s u ∧ FinishedAt i s t u := by
  obtain ⟨began, pc, waited, wakes⟩ := t
  obtain rfl := hpc
  cases direct with
  | false => exact finishSub_alone (t := ⟨began, _, waited, wakes⟩) ht hfree
  | true =>
    by_cases hone : s.outstanding = 1
    · have hclaim : s.taskStep i false false ⟨began, .finishDirect, waited, wakes⟩ =
          some ({ s with outstanding := kFinishing }.setPc i _ .finishLock) := if_pos hone
      simp only [FinishedAt, childFinished, if_pos hone]
      refine alone_head ht hclaim rfl fun lock hword hlocked hwaiters htask => ?_
      have hgeneration := finishGeneration_alone htask (hlocked.trans hfree) hword
      rwa [hwaiters] at hgeneration
    · have hsub : s.taskStep i false false ⟨began, .finishDirect, waited, wakes⟩ = some (s.setPc i _ .finishSub) :=
        if_neg hone
      refine alone_head ht hsub rfl fun next hword hlocked hwaiters htask => ?_
      obtain ⟨u, hto, hu⟩ := finishSub_alone htask (hlocked.trans hfree)
      rw [FinishedAt, hword, hwaiters] at hu
      exact ⟨u, hto, hu⟩

theorem childFinished_alone_last : ∃ s u : State, s.outstanding = 1 ∧ Alone 0 s u ∧ u.outstanding = 0 ∧
    u.tasks[0]? = some ⟨0, .wakeList [], false, 0⟩ := by
  obtain ⟨u, hto, hword, -, htask⟩ := childFinished_alone
    (s := { outstanding := 1, tasks := [⟨0, .finishDirect, false, 0⟩] }) (i := 0) rfl
    (show _ = Pc.finish true from rfl) rfl
  exact ⟨_, u, rfl, hto, hword, htask⟩

/-! ### Spawning -/

inductive Shape where
  | invalid | done | pending

/-- What a `spawn` meets: a scheduler on this thread, and memory for the frame of `group_child` and for the completion
record. -/
structure Env where
  scheduler : Bool
  frame : Bool
  record : Bool

inductive Thrown where
  | noRuntime
  | badAlloc

def requireScheduler (env : Env) : Except Thrown Unit := if env.scheduler then .ok () else .error .noRuntime

def startGroupChild (env : Env) (task : Shape) : Except Thrown Unit := do
  requireScheduler env
  match task with
  | .invalid | .done => if env.frame then .ok () else .error .badAlloc
  | .pending => if env.record then .ok () else .error .badAlloc

def spawn (env : Env) (task : Shape) (outstanding : Nat) : Except Thrown Unit × Nat :=
  (startGroupChild env task, (childStarted outstanding).1)

/-- A `spawn` that throws leaves the count as it was, and when the children that were outstanding before it have
completed a join is ready. -/
def StrongGuarantee (env : Env) (task : Shape) (outstanding : Nat) : Prop :=
  ∀ e, (spawn env task outstanding).1 = .error e →
    countOf (spawn env task outstanding).2 = countOf outstanding ∧
      childFinished^[countOf outstanding] (spawn env task outstanding).2 = 0

def Env.Succeeds (env : Env) : Shape → Prop
  | .invalid | .done => env.scheduler = true ∧ env.frame = true
  | .pending => env.scheduler = true ∧ env.record = true

lemma startGroupChild_ok_iff {env : Env} {task : Shape} : startGroupChild env task = .ok () ↔ env.Succeeds task := by
  unfold startGroupChild requireScheduler
  cases hscheduler : env.scheduler <;> cases task <;> simp [Env.Succeeds, hscheduler, bind, Except.bind]

lemma countOf_childStarted_ne (outstanding : Nat) : countOf (childStarted outstanding).1 ≠ countOf outstanding := by
  unfold childStarted
  split
  · rename_i hword
    rw [hword, countOf_finishing, countOf_small (show 1 < kFinishing by decide)]
    exact Nat.one_ne_zero
  · rename_i hword
    rw [countOf_eq hword]
    unfold countOf
    split
    · rename_i hfull
      intro heq
      rw [← heq] at hfull
      cases hfull
    · exact Nat.succ_ne_self outstanding

/-- **`spawn` has the strong guarantee exactly when it does not throw.** -/
theorem spawn_strong_iff (env : Env) (task : Shape) (outstanding : Nat) :
    StrongGuarantee env task outstanding ↔ env.Succeeds task := by
  rw [← startGroupChild_ok_iff]
  constructor
  · intro hstrong
    cases houtcome : startGroupChild env task with
    | ok => rfl
    | error e => exact absurd (hstrong e houtcome).1 (countOf_childStarted_ne outstanding)
  · intro hok e herror
    cases hok.symm.trans herror

/-- Without a runtime on the thread, `spawn` on a fresh group throws and leaves a count of one: a join parks. -/
theorem spawn_leaves_child : spawn ⟨false, true, true⟩ .pending 0 = (.error .noRuntime, 1) ∧
    ¬ StrongGuarantee ⟨false, true, true⟩ .pending 0 := by
  refine ⟨rfl, fun hstrong => ?_⟩
  exact absurd (hstrong .noRuntime rfl).2 (by decide)

end Cio.TaskGroup
