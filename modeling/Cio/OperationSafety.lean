import Cio.OperationProgress

/-! What the operation queue guarantees to the operations of one incarnation, in every interleaving of their
admissions, hand-offs and releases with the close of the socket and the recycling of the node. -/

namespace Cio.Reactor.Operation

open CallPool Transition State Operation.Task List

/-! ### One incarnation -/

/-- All operations capture the same incarnation: the node is not attached again once there is one. -/
def SoleIncarnation (s : State) : Act → Prop
  | .attach _ => s.tasks = []
  | .start _ _ _ | .close | .pin | .unpin | .free | .task _ _ _ _ => True

instance (s : State) (act : Act) : Decidable (SoleIncarnation s act) :=
  match act with
  | .attach _ => inferInstanceAs (Decidable (s.tasks = []))
  | .start _ _ _ | .close | .pin | .unpin | .free | .task _ _ _ _ => inferInstanceAs (Decidable True)

structure Sole (s : State) : Prop where
  current : ∀ t ∈ s.tasks, s.Alive → t.inc = s.inc
  recent : ∀ t ∈ s.tasks, s.inc ≤ t.inc + 1
  untouched : s.tasks = [] → ∀ d, (s.queue d).owner = 0

variable {s u : State} {t : Task} {i : Nat}

lemma Sole.fresh (h : Sole s) : CapturesFresh s := by
  intro t ht _
  have hrecent := h.recent t ht
  omega

lemma Sole.undisturbed (h : Sole s) {act : Act} (hsole : SoleIncarnation s act) : Undisturbed s act := by
  cases act with
  | attach => exact h.untouched hsole
  | task => exact fun t ht _ _ halive => h.current t (mem_of_getElem? ht) halive
  | start | close | pin | unpin | free => trivial

lemma TaskStep.captured {spurious again : Bool} (hs : TaskStep s i spurious again t u) (ht : s.tasks[i]? = some t) :
    ∀ x ∈ u.tasks, ∃ y ∈ s.tasks, x.inc = y.inc := by
  have hold : ∀ x ∈ s.tasks, ∃ y ∈ s.tasks, x.inc = y.inc := fun x hx => ⟨x, hx, rfl⟩
  have hmem := mem_of_getElem? ht
  cases hs with
  | pass err n rest w hpc hlock hgeneration hqueue hw | dispatch err n w hpc hw =>
    exact forall_set (forall_set hold (by exact ⟨w, mem_of_getElem? hw, rfl⟩) n) (by exact ⟨t, hmem, rfl⟩) i
  | _ => exact forall_set hold (by exact ⟨t, hmem, rfl⟩) i

lemma TaskStep.frame {spurious again : Bool}
    (hs : TaskStep s i spurious again t u) : u.inc = s.inc ∧ u.tasks.length = s.tasks.length := by
  cases hs <;>
    simp only [setPc, setTask, setQueue, setOwner, releaseDesc, length_set, and_self]

lemma Sole.of_tasks (h : Sole s) (halive : u.Alive → s.Alive) (hinc : u.inc = s.inc)
    (htasks : ∀ x ∈ u.tasks, ∃ y ∈ s.tasks, x.inc = y.inc)
    (huntouched : u.tasks = [] → ∀ d, (u.queue d).owner = 0) : Sole u := by
  refine ⟨fun x hx ha => ?_, fun x hx => ?_, huntouched⟩
  · obtain ⟨y, hy, heq⟩ := htasks x hx
    rw [heq, hinc]
    exact h.current y hy (halive ha)
  · obtain ⟨y, hy, heq⟩ := htasks x hx
    rw [heq, hinc]
    exact h.recent y hy

lemma step_sole {act : Act} (hk : Kept s) (h : Sole s) (hsole : SoleIncarnation s act)
    (hs : Step s act u) : Sole u := by
  have hsame : ∀ x ∈ s.tasks, ∃ y ∈ s.tasks, x.inc = y.inc := fun x hx => ⟨x, hx, rfl⟩
  have hpre := hk.alive_before hs
  cases hs with
  | attach =>
    have hnone : s.tasks = [] := hsole
    refine ⟨fun x hx => ?_, fun x hx => ?_, h.untouched⟩
    all_goals exact absurd hx (by simp [hnone])
  | start =>
    exact ⟨forall_append (fun x hx halive => h.current x hx (hpre (by simp) halive)) fun _ => rfl,
      forall_append h.recent (Nat.le_succ s.inc), fun hnil => absurd hnil (by simp)⟩
  | shut | awaited | detach | pin | unpin | freed => exact h.of_tasks (hpre (by simp)) rfl hsame h.untouched
  | bump hfreer =>
    have hphase := (hk.known.pending hfreer).1
    have halive : s.Alive := ⟨by simp [hphase], fun rest hp => (by cases hfreer.symm.trans hp)⟩
    refine ⟨fun x hx ha => absurd rfl (ha.freer _), fun x hx => ?_, h.untouched⟩
    exact le_of_eq (by rw [h.current x hx halive])
  | resetOwner =>
    refine h.of_tasks (hpre (by simp)) rfl hsame fun hnil d' => ?_
    dsimp only [setOwner, setQueue]
    rw [Function.update_apply]
    split
    · rfl
    · exact h.untouched hnil d'
  | task i t ht hs =>
    obtain ⟨hinc, hlen⟩ := hs.frame
    refine h.of_tasks (hpre (by simp)) hinc (hs.captured ht) fun hnil => ?_
    have hlt := (List.getElem?_eq_some_iff.mp ht).1
    rw [hnil, length_nil] at hlen
    omega

lemma kept_of_sole (hs : operationSystem.ReachableVia SoleIncarnation s) : Kept s ∧ Sole s := by
  refine hs.invariant (P := fun s => Kept s ∧ Sole s) (fun s hinit => ?_) fun s act u h hsole hst => ?_
  · cases hinit
    exact ⟨kept_init, by simp, by simp, fun _ _ => rfl⟩
  · have hcases := operationStep_cases hst
    exact ⟨step_kept h.1 h.2.fresh (h.2.undisturbed hsole) hcases, step_sole h.1 h.2 hsole hcases⟩

/-! ### The guarantees -/

def Task.HasGuard (t : Task) : Prop := t.pc = .holding ∨ t.pc = .leased

structure QueueSafe (s : State) : Prop where
  /-- One guard per direction. -/
  exclusive : ∀ (i j : Nat) (t u : Task), s.tasks[i]? = some t → s.tasks[j]? = some u → t.dir = u.dir →
    t.HasGuard → u.HasGuard → i = j
  /-- Whoever has the guard is never told that a system call is in progress. -/
  unbroken : ∀ t ∈ s.tasks, t.pc = .holding → ∀ env,
    s.desc.beginSyscall env t.dir t.generation ≠ .error (.errc .broken)
  /-- The guard is obtained in the order of the queue. -/
  fifo : ∀ d, (s.queue d).joined = (s.queue d).served ++ (s.queue d).hand.toList ++ (s.queue d).waiters
  /-- Nobody waits for an idle direction. -/
  occupied : ∀ d, (s.queue d).waiters ≠ [] → (s.queue d).owner ≠ 0
  /-- Whoever was queued is dispatched once, and not before it was taken from the queue. -/
  once : ∀ t ∈ s.tasks, t.waited = true → t.wakes = if t.pc = .queued ∨ t.pc = .popped then 0 else 1
  /-- Every reference is accounted for; a releasing operation still has to drop the one of its pin. -/
  refs : s.desc.refs = s.phase.refs + (s.queue .read).pinned.toNat + (s.queue .write).pinned.toNat +
    (s.queue .read).waiters.length + (s.queue .write).waiters.length + s.awaiters +
    weight (Task.count Pc.dropping) s.tasks
  /-- The node stays in the incarnation of a waiter. -/
  retained : ∀ t ∈ s.tasks, t.pc = .queued → t.inc = s.inc ∧ s.freer = .idle ∧ 0 < s.desc.refs

lemma Task.HasGuard.held (h : t.HasGuard) : t.pc.held = 1 := by
  rcases h with h | h <;> rw [h] <;> rfl

lemma Sole.inc_eq (h : Sole s) (hk : Kept s) {u : Task} (ht : t ∈ s.tasks) (hu : u ∈ s.tasks) : t.inc = u.inc := by
  by_cases halive : s.Alive
  · rw [h.current t ht halive, h.current u hu halive]
  · have hstale : ∀ x ∈ s.tasks, x.inc + 1 = s.inc := by
      intro x hx
      have hrecent := h.recent x hx
      have hle := (hk.known.token x hx).2
      have hne : x.inc ≠ s.inc := fun heq => halive (hk.known.current x hx heq)
      omega
    have hleft := hstale t ht
    have hright := hstale u hu
    omega

lemma Kept.exclusive (hk : Kept s) (hs : Sole s) {j : Nat} {u : Task} (ht : s.tasks[i]? = some t)
    (hu : s.tasks[j]? = some u) (hdir : t.dir = u.dir) (hguard : t.HasGuard) (hguard' : u.HasGuard) : i = j := by
  have hinc := hs.inc_eq hk (mem_of_getElem? ht) (mem_of_getElem? hu)
  refine eq_of_weight_le_one ht hu ?_ ?_ (hk.held t.dir t.inc)
  · rw [on, if_pos ⟨rfl, rfl⟩, hguard.held]
    exact Nat.one_pos
  · rw [on, if_pos ⟨hdir.symm, hinc.symm⟩, hguard'.held]
    exact Nat.one_pos

lemma Kept.unbroken (hk : Kept s) (hs : Sole s) (ht : t ∈ s.tasks) (hpc : t.pc = .holding) (env : Env Unit) :
    s.desc.beginSyscall env t.dir t.generation ≠ .error (.errc .broken) := by
  intro hbroken
  have hact := hk.leased.active t.dir
  rw [beginSyscall_broken hbroken, Bool.toNat_true] at hact
  obtain ⟨u, hu, hpos⟩ := exists_of_weight_pos (f := along t.dir Pc.leasing) (l := s.tasks) (by omega)
  have hleased : u.dir = t.dir ∧ u.pc = .leased := by
    rw [along] at hpos
    split at hpos
    · rename_i hdir
      refine ⟨hdir, ?_⟩
      cases hpc' : u.pc with
      | leased => rfl
      | _ =>
        rw [hpc'] at hpos
        cases hpos
    · cases hpos
  obtain ⟨i, hi⟩ := mem_iff_getElem?.mp ht
  obtain ⟨j, hj⟩ := mem_iff_getElem?.mp hu
  have heq := hk.exclusive hs hi hj hleased.1.symm (.inl hpc) (.inr hleased.2)
  subst heq
  cases hi.symm.trans hj
  cases hpc.symm.trans hleased.2

lemma Kept.alive_of_waiters (hk : Kept s) {d : Dir} (hqueue : (s.queue d).waiters ≠ []) :
    s.Alive ∧ 0 < s.desc.refs := by
  have hpos : 0 < s.desc.refs := Nat.pos_of_ne_zero fun hzero => hqueue (hk.counted.of_zero hzero d).2.1
  exact ⟨hk.known.alive_of_pos hpos, hpos⟩

lemma Kept.occupied (hk : Kept s) {d : Dir} (hqueue : (s.queue d).waiters ≠ []) : (s.queue d).owner ≠ 0 := by
  have hdirected := hk.directed (hk.alive_of_waiters hqueue).1 d
  rw [hdirected.pinned.mp (hdirected.queued hqueue)]
  exact operationTag_or_ne_zero _

lemma Task.Woken.wakes_eq (h : t.Woken) (hway : t.waited) :
    t.wakes = if t.pc = .queued ∨ t.pc = .popped then 0 else 1 := by
  have hwait := h.waiting hway
  have hwoken := h.woken hway
  cases hpc : t.pc with
  | queued | popped =>
    rw [hpc] at hwait
    simp [hwait Nat.one_pos]
  | _ =>
    rw [hpc] at hwoken
    simp [hwoken rfl]

lemma Kept.retained (hk : Kept s) (ht : t ∈ s.tasks) (hpc : t.pc = .queued) :
    t.inc = s.inc ∧ s.freer = .idle ∧ 0 < s.desc.refs := by
  obtain ⟨n, hn⟩ := mem_iff_getElem?.mp ht
  have hq := (hk.placed t.dir n).queued
  rw [at_of_getElem hn, along, if_pos rfl, hpc] at hq
  have hmem : n ∈ (s.queue t.dir).waiters := count_pos_iff.mp (hq ▸ Nat.one_pos)
  obtain ⟨halive, hpos⟩ := hk.alive_of_waiters (ne_nil_of_mem hmem)
  refine ⟨hk.known.current_of_heavy hn (hpc ▸ rfl), ?_, hpos⟩
  cases hfreer : s.freer with
  | idle => rfl
  | pending =>
    have hzero := (hk.known.pending hfreer).2
    omega
  | resetting rest => exact absurd hfreer (halive.freer rest)

/-- The operations go on without further system calls and without spurious failures. -/
def draining : System State (Nat × Env Unit) where
  init s := operationSystem.ReachableVia SoleIncarnation s
  step s a := operationStep s (.task a.1 a.2 false false)

def AllDispatched (s : State) : Prop := ∀ t ∈ s.tasks, t.waited = true → t.wakes = 1

lemma draining_endsIn : draining.EndsIn AllDispatched := by
  refine System.endsIn_of_measure (fun _ h => h)
    (fun _ a _ h hst => ⟨h.next (a := .task a.1 a.2 false false) trivial hst, step_work (kept_of_sole h).1 hst⟩)
    fun s hs hstuck t ht hway => ?_
  have hk := (kept_of_sole hs).1
  have hhalted : Halted s := fun i env => hstuck (i, env)
  exact (hk.woken t ht).woken hway (hhalted.drained hk ⟨0, false, fun _ => false⟩ ht)

/-- **Operations of one incarnation exclude each other and are served in order.** One guard per direction is
held at a time, nobody waits for an idle direction, every reference is accounted for and a waiter keeps its
node; and however the operations go on from there, they end, and everyone who was queued has been dispatched
exactly once. -/
theorem queue_safe :
    (∀ s, operationSystem.ReachableVia SoleIncarnation s → QueueSafe s) ∧ draining.EndsIn AllDispatched := by
  refine ⟨fun s hs => ?_, draining_endsIn⟩
  obtain ⟨hk, hsole⟩ := kept_of_sole hs
  exact {
    exclusive := fun i j t u ht hu => hk.exclusive hsole ht hu
    unbroken := fun t ht hpc env => hk.unbroken hsole ht hpc env
    fifo := hk.ordered
    occupied := fun d hqueue => hk.occupied hqueue
    once := fun t ht hway => (hk.woken t ht).wakes_eq hway
    refs := hk.counted
    retained := fun t ht hpc => hk.retained ht hpc }

def contend (env : Env Unit) : List Act :=
  [.attach 3, .start .read false true, .start .read false true, .task 0 env false false,
    .task 0 env false false, .task 1 env false false, .task 1 env false false, .task 1 env false false,
    .task 1 env false false]

/-- The second is in the queue, the first leaves its critical section and has its reference still to drop. -/
def passOn (env : Env Unit) : List Act :=
  contend env ++ [.task 0 env false false, .task 0 env false false, .task 0 env false false]

theorem queue_safe_contended : ∃ s, operationSystem.ReachableVia SoleIncarnation s ∧
    (s.queue .read).waiters = [1] ∧ QueueSafe s := by
  obtain ⟨s, hs, hp⟩ := operationSystem.reachableVia_of_run SoleIncarnation {}
    (contend ⟨0, false, fun _ => false⟩) (fun s => (s.queue .read).waiters = [1]) rfl
    (by decide +kernel)
  exact ⟨s, hs, hp, queue_safe.1 s hs⟩

/-- Between the unlock of `release_operation` and its `release_desc` the references exceed the reference of the
socket, the pins, the waiters and the awaiters. -/
theorem refs_exceed : ∃ s, operationSystem.ReachableVia SoleIncarnation s ∧ s.desc.refs ≠
    s.phase.refs + (s.queue .read).pinned.toNat + (s.queue .write).pinned.toNat +
      (s.queue .read).waiters.length + (s.queue .write).waiters.length + s.awaiters := by
  exact operationSystem.reachableVia_of_run SoleIncarnation {}
    (passOn ⟨0, false, fun _ => false⟩)
    _ rfl (by decide +kernel)

end Cio.Reactor.Operation
