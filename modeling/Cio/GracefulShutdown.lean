import Cio.TransitionSystem
import Cio.CallPool

/-! `Runtime::graceful_shutdown` and the roots it waits for. Foreign threads register roots under `graceful_mutex_`,
tasks on a worker register them without it, and completed roots are counted off without it; any number of calls of each
kind, and of `Runtime::shutdown`, are in progress at once. A critical section with one atomic access is one step. The
cancellation of the shutdown token touches none of this, and the calls that throw on a worker have no effect. -/

namespace Cio.GracefulShutdown

open CallPool Transition List

inductive Pc where
  /-- `register_runtime_root` on a foreign thread: the checks under the lock, and the count with the lock still held. -/
  | enter
  | count
  /-- `register_runtime_root` on a worker: `stopping`, the count, `stopping` again and the way back. -/
  | probe
  | add
  | recheck
  | undo
  /-- The end of a `complete_runtime_root` that took the count to zero. -/
  | notify
  /-- `graceful_shutdown`: `begin_graceful_shutdown`, `stopping`, and the predicate of `wait_for_runtime_roots`. -/
  | begin
  | asked
  | test
  | asleep
  /-- `shutdown`, from `graceful_shutdown` or directly. -/
  | close (graceful : Bool)
  | exchange (graceful : Bool)
  | done
  deriving DecidableEq

/-- `notify_all`: every sleeping wait evaluates its predicate again. -/
def Pc.notified : Pc → Pc
  | .asleep => .test
  | c => c

/-- The fields of the scheduler and the calls in progress, with the history: the registrations that succeeded, those
that did so after a wait had seen no roots, the roots that completed, and whether a graceful shutdown stopped the
workers. -/
structure State where
  externalAdmissionClosed : Bool
  stop : Bool
  runtimeRoots : Nat
  locked : Bool
  calls : List Pc
  admitted : Nat
  late : Nat
  completed : Nat
  decided : Bool
  graceful : Bool

inductive Act where
  | register
  | registerOnWorker
  | completeRoot
  | gracefulShutdown
  | shutdown
  | step (i : Nat)
  /-- A wait on the condition variable ends without a notification. -/
  | wake (i : Nat)

namespace State

def start : State where
  externalAdmissionClosed := false
  stop := false
  runtimeRoots := 0
  locked := false
  calls := []
  admitted := 0
  late := 0
  completed := 0
  decided := false
  graceful := false

def goto (s : State) (i : Nat) (c : Pc) : State := { s with calls := s.calls.set i c }

def admitRoot (s : State) : State :=
  { s with admitted := s.admitted + 1, late := if s.decided then s.late + 1 else s.late }

/-- `fetch_sub` of `complete_runtime_root`: who takes the count to zero has to notify. -/
def discount (s : State) : State × Pc :=
  ({ s with runtimeRoots := s.runtimeRoots - 1 }, if s.runtimeRoots = 1 then .notify else .done)

def notifyAll (s : State) : State := { s with calls := s.calls.map Pc.notified }

def callStep (s : State) (i : Nat) : Pc → Option State
  | .enter =>
    if s.locked then none
    else if s.externalAdmissionClosed || s.stop then some (s.goto i .done)
    else some ({ s with locked := true }.goto i .count)
  | .count => some ({ s.admitRoot with runtimeRoots := s.runtimeRoots + 1, locked := false }.goto i .done)
  | .probe => some (s.goto i (if s.stop then .done else .add))
  | .add => some ({ s with runtimeRoots := s.runtimeRoots + 1 }.goto i .recheck)
  | .recheck => some (if s.stop then s.goto i .undo else s.admitRoot.goto i .done)
  | .undo => some (s.discount.1.goto i s.discount.2)
  | .notify =>
    if s.locked then none
    else some (s.notifyAll.goto i .done)
  | .begin => if s.locked then none else some ({ s with externalAdmissionClosed := true }.goto i .asked)
  | .asked => some (s.goto i (if s.stop then .done else .test))
  | .test =>
    if s.locked then none
    else if s.runtimeRoots = 0 then some ({ s with decided := true }.goto i (.close true))
    else some (s.goto i .asleep)
  | .close graceful =>
    if s.locked then none else some ({ s with externalAdmissionClosed := true }.goto i (.exchange graceful))
  | .exchange graceful =>
    if s.stop then some (s.goto i .done) else some ({ s with stop := true, graceful := graceful }.goto i .done)
  | .asleep | .done => none

def call (s : State) (c : Pc) : State := { s with calls := s.calls ++ [c] }

def step (s : State) : Act → Option State
  | .register => some (s.call .enter)
  | .registerOnWorker => some (s.call .probe)
  | .completeRoot =>
    if s.completed < s.admitted then
      some ({ s.discount.1 with completed := s.completed + 1 }.call s.discount.2)
    else none
  | .gracefulShutdown => some (s.call .begin)
  | .shutdown => some (s.call (.close false))
  | .step i =>
    match s.calls[i]? with
    | some c => s.callStep i c
    | none => none
  | .wake i => if s.calls[i]? = some .asleep then some (s.goto i .test) else none

end State

def shutdownSystem : System State Act where
  init s := s = .start
  step := State.step

/-! ### The kinds of calls -/

namespace Pc

def counted : Pc → Nat
  | .recheck | .undo => 1
  | _ => 0

def registering : Pc → Nat
  | .probe | .add | .recheck | .undo => 1
  | _ => 0

def locking : Pc → Nat
  | .count => 1
  | _ => 0

def notifying : Pc → Nat
  | .notify => 1
  | _ => 0

def sleeping : Pc → Nat
  | .asleep => 1
  | _ => 0

end Pc

/-- A registration on a worker is covered by an admitted root: it begins while one has not completed, and the last one
does not complete while it is in progress. -/
def State.covered (s : State) : Act → Bool
  | .registerOnWorker => decide (s.completed < s.admitted)
  | .completeRoot => decide (s.completed + 1 < s.admitted ∨ weight Pc.registering s.calls = 0)
  | _ => true

def Covered (s : State) (a : Act) : Prop := s.covered a = true

instance (s : State) (a : Act) : Decidable (Covered s a) := inferInstanceAs (Decidable (_ = true))

/-- Every admitted root has completed when a graceful shutdown stops the workers, no registration succeeds after its
decision, and its wait does not sleep through the last completion. -/
structure Finished (s : State) : Prop where
  stopped : s.graceful = true → s.completed = s.admitted
  decided : s.decided = true → s.completed = s.admitted
  late : s.late = 0
  awake : .asleep ∈ s.calls → s.runtimeRoots = 0 → .notify ∈ s.calls

/-! ### What is kept -/

/-- What a call of `graceful_shutdown` knows. -/
def Pc.Sound (s : State) : Pc → Prop
  | .asked | .test | .asleep => s.externalAdmissionClosed = true
  | .close true | .exchange true => s.decided = true
  | _ => True

structure Kept (s : State) : Prop where
  balance : s.runtimeRoots + s.completed = s.admitted + weight Pc.counted s.calls
  completed : s.completed ≤ s.admitted
  mutex : weight Pc.locking s.calls = if s.locked then 1 else 0
  barred : s.externalAdmissionClosed = true → s.locked = false
  awake : 0 < weight Pc.sleeping s.calls → 0 < s.runtimeRoots + weight Pc.notifying s.calls
  covered : 0 < weight Pc.registering s.calls → s.completed < s.admitted
  decided : s.decided = true → s.externalAdmissionClosed = true ∧ s.completed = s.admitted
  late : s.late = 0
  graceful : s.graceful = true → s.decided = true
  calls : ∀ c ∈ s.calls, c.Sound s

variable {s u : State} {i : Nat} {c d : Pc}

lemma Pc.Sound.mono (h : c.Sound s) (hshut : s.externalAdmissionClosed → u.externalAdmissionClosed)
    (hdec : s.decided → u.decided) : c.Sound u := by
  match c with
  | .asked | .test | .asleep => exact hshut h
  | .close true | .exchange true => exact hdec h
  | .close false | .exchange false => trivial
  | .enter | .count | .probe | .add | .recheck | .undo | .notify | .begin | .done => trivial

lemma Kept.none_registering (h : Kept s) (hdec : s.decided) : weight Pc.registering s.calls = 0 := by
  by_contra hpos
  have hless := h.covered (Nat.pos_of_ne_zero hpos)
  have heq := (h.decided hdec).2
  omega

lemma Kept.drained (h : Kept s) (hroots : s.runtimeRoots = 0) : s.completed = s.admitted := by
  have hbal := h.balance
  have hle := h.completed
  omega

/-! ### Steps -/

/-- The call `c` turns to `d` and leaves the fields of `v`; by default they stay as they are. -/
structure Moves (s v : State) (c d : Pc) : Prop where
  calls : v.calls = s.calls := by rfl
  balance : v.runtimeRoots + s.admitted + c.counted = s.runtimeRoots + v.admitted + d.counted := by rfl
  completed : v.completed = s.completed := by rfl
  admitted : s.admitted ≤ v.admitted := by exact le_rfl
  mutex : (if v.locked then 1 else 0) + c.locking = (if s.locked then 1 else 0) + d.locking := by rfl
  barred : (s.externalAdmissionClosed = true → s.locked = false) →
    v.externalAdmissionClosed = true → v.locked = false := by exact id
  awake : 0 < v.runtimeRoots + d.notifying ∨
    s.runtimeRoots ≤ v.runtimeRoots ∧ c.notifying = 0 ∧ d.sleeping ≤ c.sleeping ∨
    weight Pc.sleeping s.calls + d.sleeping = 0 := by exact .inr (.inl ⟨le_rfl, rfl, le_rfl⟩)
  registering : d.registering ≤ c.registering := by first | exact le_rfl | exact Nat.zero_le _
  closed : s.externalAdmissionClosed = true → v.externalAdmissionClosed = true := by exact id
  kept : s.decided = true → v.decided = true := by exact id
  decided : (s.decided = true → s.externalAdmissionClosed = true ∧ s.completed = s.admitted) →
    v.decided = true → v.externalAdmissionClosed = true ∧ v.completed = v.admitted := by exact id
  late : s.late = 0 → v.late = 0 := by exact id
  graceful : (s.graceful = true → s.decided = true) → v.graceful = true → v.decided = true := by exact id
  sound : d.Sound v := by trivial

lemma Kept.moves (h : Kept s) (hi : s.calls[i]? = some c) (hm : Moves s u c d) : Kept (u.goto i d) := by
  have hw : ∀ f : Pc → Nat, weight f (u.goto i d).calls + f c = weight f s.calls + f d := by
    intro f
    rw [State.goto, hm.calls]
    exact weight_set f hi d
  refine ⟨?_, ?_, ?_, hm.barred h.barred, fun hpos => ?_, fun hpos => ?_, hm.decided h.decided, hm.late h.late,
    hm.graceful h.graceful, ?_⟩
  · show u.runtimeRoots + u.completed = u.admitted + _
    have hbal := h.balance
    have hmoved := hm.balance
    have hdone := hm.completed
    have hcnt := hw Pc.counted
    omega
  · show u.completed ≤ u.admitted
    rw [hm.completed]
    exact h.completed.trans hm.admitted
  · show _ = if u.locked then 1 else 0
    have hmutex := h.mutex
    have hmoved := hm.mutex
    have hlocking := hw Pc.locking
    omega
  · show 0 < u.runtimeRoots + _
    have hsleeping := hw Pc.sleeping
    have hnotifying := hw Pc.notifying
    have hin := le_weight Pc.notifying (mem_of_getElem? hi)
    rcases hm.awake with hpos | ⟨hroots, hnone, hle⟩ | hnone
    · omega
    · have hawake := h.awake
      omega
    · omega
  · show u.completed < u.admitted
    have hreg := hw Pc.registering
    have hle := hm.registering
    have hless := h.covered (by omega)
    rw [hm.completed]
    exact hless.trans_le hm.admitted
  · show ∀ x ∈ u.calls.set i d, x.Sound (u.goto i d)
    rw [hm.calls]
    refine forall_set (fun x hx => ?_) ?_ i
    · exact (h.calls x hx).mono hm.closed hm.kept
    · exact hm.sound.mono id id

lemma kept_call (h : Kept s) (hcnt : c.counted = 0) (hlocking : c.locking = 0) (hsleeping : c.sleeping = 0)
    (hreg : c.registering = 0 ∨ s.completed < s.admitted) (hsound : c.Sound s) : Kept (s.call c) := by
  have hw : ∀ f : Pc → Nat, weight f (s.call c).calls = weight f s.calls + f c :=
    fun f => weight_concat f s.calls c
  refine ⟨?_, h.completed, ?_, h.barred, fun hpos => ?_, fun hpos => ?_, h.decided, h.late, h.graceful, ?_⟩
  · rw [hw, hcnt]
    exact h.balance
  · rw [hw, hlocking]
    exact h.mutex
  · rw [hw, hsleeping] at hpos
    rw [hw]
    exact (h.awake hpos).trans_le (Nat.add_le_add_left (Nat.le_add_right _ _) _)
  · rcases hreg with hzero | hless
    · rw [hw, hzero] at hpos
      exact h.covered hpos
    · exact hless
  · exact forall_append (fun x hx => (h.calls x hx).mono id id) (hsound.mono id id)

lemma sleeping_notifyAll (s : State) : weight Pc.sleeping s.notifyAll.calls = 0 := by
  refine weight_eq_zero fun x hx => ?_
  obtain ⟨y, -, rfl⟩ := mem_map.mp hx
  cases y <;> rfl

lemma kept_notifyAll (h : Kept s) : Kept s.notifyAll := by
  have hw : ∀ f : Pc → Nat, (∀ x : Pc, f x.notified = f x) → weight f s.notifyAll.calls = weight f s.calls := by
    intro f hf
    rw [State.notifyAll, weight_map]
    exact congrArg (weight · s.calls) (funext hf)
  refine ⟨?_, h.completed, ?_, h.barred, fun hpos => ?_, fun hpos => ?_, h.decided, h.late, h.graceful, ?_⟩
  · rw [hw Pc.counted fun x => by cases x <;> rfl]
    exact h.balance
  · rw [hw Pc.locking fun x => by cases x <;> rfl]
    exact h.mutex
  · rw [sleeping_notifyAll] at hpos
    cases hpos
  · rw [hw Pc.registering fun x => by cases x <;> rfl] at hpos
    exact h.covered hpos
  · intro x hx
    obtain ⟨y, hy, rfl⟩ := mem_map.mp hx
    have hsound : y.notified.Sound s := by
      have hsound := h.calls y hy
      cases y <;> exact hsound
    exact hsound.mono id id

lemma kept_callStep (h : Kept s) (hi : s.calls[i]? = some c) (hu : s.callStep i c = some u) : Kept u := by
  have hsound := h.calls c (mem_of_getElem? hi)
  have hin : ∀ f : Pc → Nat, f c ≤ weight f s.calls := fun f => le_weight f (mem_of_getElem? hi)
  cases c with
  | enter =>
    obtain ⟨hfree, hu⟩ := Option.ite_none_left_eq_some.mp hu
    split at hu <;> cases hu
    · exact h.moves hi {}
    · rename_i hopen
      exact h.moves hi
        { mutex := by simp [hfree, Pc.locking]
          barred := fun _ hshut => absurd (by rw [hshut]; rfl) hopen }
  | count =>
    cases hu
    have hlock : s.locked = true := by
      by_contra hfree
      have hmutex := h.mutex
      rw [if_neg hfree] at hmutex
      exact absurd (hin Pc.locking) (hmutex ▸ Nat.not_succ_le_zero 0)
    have hopen : ¬ s.externalAdmissionClosed = true := fun hshut => by
      rw [h.barred hshut] at hlock
      cases hlock
    have hund : ¬ s.decided = true := fun hdec => hopen (h.decided hdec).1
    exact h.moves hi
      { balance := by simp only [State.admitRoot, Pc.counted]; omega
        admitted := Nat.le_succ _
        mutex := by simp [hlock, Pc.locking]
        barred := fun _ _ => rfl
        awake := .inl (Nat.succ_pos _)
        decided := fun _ hdec => absurd hdec hund
        late := by simp [State.admitRoot, hund] }
  | probe =>
    cases hu
    split
    all_goals exact h.moves hi {}
  | add =>
    cases hu
    exact h.moves hi
      { balance := by simp only [Pc.counted]; omega
        awake := .inl (Nat.succ_pos _) }
  | recheck =>
    have hund : ¬ s.decided = true := fun hdec =>
      absurd (hin Pc.registering) (h.none_registering hdec ▸ Nat.not_succ_le_zero 0)
    cases hu
    split
    · exact h.moves hi {}
    · exact h.moves hi
        { balance := by simp only [State.admitRoot, Pc.counted]; omega
          admitted := Nat.le_succ _
          decided := fun _ hdec => absurd hdec hund
          late := by simp [State.admitRoot, hund] }
  | undo =>
    have hpos : 0 < s.runtimeRoots := by
      have hbal := h.balance
      have hdone := h.completed
      have hcnt : 1 ≤ weight Pc.counted s.calls := hin Pc.counted
      omega
    cases hu
    rw [State.discount]
    split
    · exact h.moves hi
        { balance := by simp only [Pc.counted]; omega
          awake := .inl (Nat.succ_pos _) }
    · exact h.moves hi
        { balance := by simp only [Pc.counted]; omega
          awake := .inl (by simp only [Pc.notifying]; omega) }
  | notify =>
    obtain ⟨-, rfl⟩ := of_unless hu
    have hall := kept_notifyAll h
    have hnotify : s.notifyAll.calls[i]? = some .notify := by
      rw [State.notifyAll, getElem?_map, hi]
      rfl
    exact hall.moves hnotify { awake := .inr (.inr (sleeping_notifyAll s)) }
  | begin =>
    obtain ⟨hfree, rfl⟩ := of_unless hu
    exact h.moves hi
      { barred := fun _ _ => Bool.eq_false_iff.mpr hfree
        closed := fun _ => rfl
        decided := fun _ hdec => ⟨rfl, (h.decided hdec).2⟩
        sound := rfl }
  | asked =>
    cases hu
    split
    · exact h.moves hi {}
    · exact h.moves hi { sound := hsound }
  | test =>
    obtain ⟨hfree, hu⟩ := Option.ite_none_left_eq_some.mp hu
    split at hu <;> cases hu
    · rename_i hroots
      exact h.moves hi
        { kept := fun _ => rfl
          decided := fun _ _ => ⟨hsound, h.drained hroots⟩
          graceful := fun _ _ => rfl
          sound := rfl }
    · rename_i hroots
      exact h.moves hi
        { awake := .inl (Nat.pos_of_ne_zero hroots)
          sound := hsound }
  | close graceful =>
    obtain ⟨hfree, rfl⟩ := of_unless hu
    exact h.moves hi
      { barred := fun _ _ => Bool.eq_false_iff.mpr hfree
        closed := fun _ => rfl
        decided := fun _ hdec => ⟨rfl, (h.decided hdec).2⟩
        sound := by cases graceful with | false => trivial | true => exact hsound }
  | exchange graceful =>
    rw [State.callStep] at hu
    split at hu <;> cases hu
    · exact h.moves hi {}
    · exact h.moves hi
        { graceful := fun _ hgr => by
            obtain rfl : graceful = true := hgr
            exact hsound }
  | asleep => cases hu
  | done => cases hu

lemma kept_completeRoot (h : Kept s) (hless : s.completed < s.admitted)
    (hcov : s.completed + 1 < s.admitted ∨ weight Pc.registering s.calls = 0) :
    Kept ({ s.discount.1 with completed := s.completed + 1 }.call s.discount.2) := by
  have hund : ¬ s.decided = true := fun hdec => by
    have heq := (h.decided hdec).2
    omega
  have hw : ∀ f : Pc → Nat, weight f (s.calls ++ [s.discount.2]) = weight f s.calls + f s.discount.2 :=
    fun f => weight_concat f s.calls _
  have hzero : s.discount.2.counted = 0 ∧ s.discount.2.locking = 0 ∧ s.discount.2.sleeping = 0 ∧
      s.discount.2.registering = 0 ∧ s.discount.2.Sound s := by
    rw [State.discount]
    split <;> exact ⟨rfl, rfl, rfl, rfl, trivial⟩
  obtain ⟨hcnt, hlocking, hsleeping, hreg, hsound⟩ := hzero
  have hbal := h.balance
  refine ⟨?_, hless, ?_, h.barred, fun hpos => ?_, fun hpos => ?_, fun hdec => absurd hdec hund, h.late, h.graceful, ?_⟩
  · show s.runtimeRoots - 1 + (s.completed + 1) = s.admitted + weight Pc.counted (s.calls ++ [s.discount.2])
    rw [hw, hcnt]
    omega
  · show weight Pc.locking (s.calls ++ [s.discount.2]) = _
    rw [hw, hlocking]
    exact h.mutex
  · show 0 < s.runtimeRoots - 1 + weight Pc.notifying (s.calls ++ [s.discount.2])
    rw [hw]
    by_cases hone : s.runtimeRoots = 1
    · have hnotify : s.discount.2.notifying = 1 := by
        rw [State.discount, if_pos hone]
        rfl
      omega
    · omega
  · replace hpos : 0 < weight Pc.registering (s.calls ++ [s.discount.2]) := hpos
    rw [hw, hreg] at hpos
    exact hcov.resolve_right (ne_of_gt hpos)
  · exact forall_append (fun x hx => (h.calls x hx).mono id id) (hsound.mono id id)

lemma kept_step {a : Act} (h : Kept s) (hcov : Covered s a) (hu : s.step a = some u) : Kept u := by
  cases a with
  | register | gracefulShutdown | shutdown =>
    cases hu
    exact kept_call h rfl rfl rfl (.inl rfl) trivial
  | registerOnWorker =>
    cases hu
    exact kept_call h rfl rfl rfl (.inr (of_decide_eq_true hcov)) trivial
  | completeRoot =>
    obtain ⟨hguard, rfl⟩ := of_guard hu
    exact kept_completeRoot h hguard (of_decide_eq_true hcov)
  | step i =>
    rw [State.step] at hu
    split at hu
    · rename_i c hi
      exact kept_callStep h hi hu
    · cases hu
  | wake =>
    obtain ⟨hi, rfl⟩ := of_guard hu
    exact h.moves hi
      { awake := .inr (.inl ⟨le_rfl, rfl, Nat.zero_le _⟩)
        sound := h.calls .asleep (mem_of_getElem? hi) }

lemma kept_of_reachable (hs : shutdownSystem.ReachableVia Covered s) : Kept s := by
  refine hs.invariant ?_ fun _ _ _ h hc hst => kept_step h hc hst
  rintro s rfl
  exact ⟨rfl, le_rfl, rfl, nofun, nofun, nofun, nofun, rfl, nofun, nofun⟩

/-! ### The guarantee -/

/-- **A graceful shutdown finishes what it admitted**, if every registration on a worker is covered by a root. -/
theorem shutdown_finishes {s : State} (hs : shutdownSystem.ReachableVia Covered s) : Finished s := by
  have h := kept_of_reachable hs
  refine ⟨fun hgr => (h.decided (h.graceful hgr)).2, fun hdec => (h.decided hdec).2, h.late, fun hasleep hroots => ?_⟩
  have hpos := h.awake (le_weight Pc.sleeping hasleep)
  rw [hroots, Nat.zero_add] at hpos
  obtain ⟨c, hc, hnotifying⟩ := exists_of_weight_pos hpos
  cases c with
  | notify => exact hc
  | _ => cases hnotifying

theorem shutdown_finishes_nested : ∃ s, shutdownSystem.ReachableVia Covered s ∧ s.graceful = true ∧ s.admitted = 2 ∧
    s.completed = 2 ∧ Finished s := by
  obtain ⟨s, hs, hgr, hadm⟩ := shutdownSystem.reachableVia_of_run Covered .start
    [.register, .step 0, .step 0, .gracefulShutdown, .step 1, .step 1, .step 1, .registerOnWorker, .step 2, .step 2,
      .register, .step 3, .step 2, .completeRoot, .completeRoot, .step 5, .step 1, .step 1, .step 1]
    (fun s => s.graceful = true ∧ s.admitted = 2) rfl (by decide +kernel)
  have hfinished := shutdown_finishes hs
  exact ⟨s, hs, hgr, hadm, (hfinished.stopped hgr).trans hadm, hfinished⟩

/-- A task that no root covers registers one: it finds the runtime running, the wait sees no roots, the registration
succeeds after all, and the workers are stopped with the new root still to run. -/
theorem shutdown_abandons : ∃ s, shutdownSystem.Reachable s ∧ s.graceful = true ∧ s.admitted = 1 ∧ s.completed = 0 ∧
    s.late = 1 := by
  exact shutdownSystem.reachable_of_run .start
    [.registerOnWorker, .step 0, .gracefulShutdown, .step 1, .step 1, .step 1, .step 0, .step 0, .step 1, .step 1]
    _ rfl (by decide +kernel)

end Cio.GracefulShutdown
