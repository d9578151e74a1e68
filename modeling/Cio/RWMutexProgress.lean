import Cio.RWMutexSafety

/-! When no further calls come and holders release, every call on the reader-writer lock returns. A call whose
compare-exchange failed has seen an old word, and only a step of another call makes a word old. -/

namespace Cio.RWMutex

open CallPool Transition State RWMutex.Task List Pc

/-- No further calls: the calls that exist go on, holders release, and no compare-exchange fails spuriously. -/
def draining : System State Nat where
  init := rwSystem.Reachable
  step s i := rwStep s (.task i false)

namespace Pc

def observed : Pc → Option Word
  | .readLoop word | .readRetry word | .writeRetry word | .runlockLoop word => some word
  | .readLoad | .writeExchange | .suspend | .parked | .granted | .holding | .runlockLoad | .runlockSlow
  | .unlockExchange | .unlockSlow | .wakeList _ _ | .returned _ => none

/-- The steps a call has left, not counting failed compare-exchanges. -/
def rank : Pc → Nat
  | .readLoad => 14
  | .readLoop _ => 13
  | .writeExchange => 13
  | .suspend => 12
  | .readRetry _ => 11
  | .writeRetry _ => 11
  | .parked => 10
  | .granted => 9
  | .holding => 8
  | .runlockLoad => 7
  | .runlockLoop _ => 6
  | .unlockExchange => 7
  | .unlockSlow => 6
  | .runlockSlow => 5
  | .wakeList _ _ => 1
  | .returned _ => 0

end Pc

def Task.stale (word : Word) (t : Task) : Nat :=
  match t.pc.observed with
  | some seen => if seen = word then 0 else 1
  | none => 0

lemma stale_le (word : Word) (t : Task) : t.stale word ≤ 1 := by
  unfold stale
  split
  · split <;> omega
  · omega

def State.rank (s : State) : Nat := weight (Task.count Pc.rank) s.tasks

def State.left (s : State) : Nat := s.rank * (s.tasks.length + 1) + weight (stale s.state) s.tasks

variable {s u : State} {t : Task} {i : Nat} {seen : Word} {pc : Pc}

lemma left_of_rank (h : u.rank < s.rank ∧ u.tasks.length = s.tasks.length) : u.left < s.left := by
  have hstale := weight_le_length (stale_le u.state) u.tasks
  have hmul : (u.rank + 1) * (s.tasks.length + 1) ≤ s.rank * (s.tasks.length + 1) := Nat.mul_le_mul_right _ h.1
  rw [Nat.add_mul, Nat.one_mul] at hmul
  unfold left
  rw [h.2] at hstale ⊢
  omega

lemma left_set {t' : Task} (ht : s.tasks[i]? = some t) (htasks : u.tasks = s.tasks.set i t')
    (hless : t'.pc.rank < t.pc.rank) : u.left < s.left := by
  have hset := weight_set (count rank) ht t'
  rw [← htasks, Task.count, Task.count] at hset
  refine left_of_rank ⟨?_, by rw [htasks, length_set]⟩
  unfold State.rank
  omega

lemma left_reload {old : Pc} (ht : s.tasks[i]? = some t) (hpc : t.pc = old)
    (hseen : old.observed = some seen) (hold : s.state ≠ seen) (hnew : pc.observed = some s.state)
    (hrank : pc.rank = old.rank) : (s.setPc i t pc).left < s.left := by
  have hstale := weight_set (stale s.state) ht { t with pc := pc }
  have hranks := weight_set (count rank) ht { t with pc := pc }
  rw [Task.count, Task.count, hpc, hrank] at hranks
  have hbefore : t.stale s.state = 1 := by
    simp only [stale, hpc, hseen]
    rw [if_neg (Ne.symm hold)]
  have hafter : stale s.state { t with pc := pc } = 0 := by
    simp only [stale, hnew, if_true]
  have hsame : (s.setPc i t pc).rank = s.rank := by
    unfold State.rank
    simp only [setPc, setTask]
    omega
  unfold left
  rw [hsame]
  simp only [setPc, setTask, length_set]
  omega

lemma park_left {v : Word} (ht : s.tasks[i]? = some t)
    (hrank : 10 < t.pc.rank) : ({ s with state := v }.park i t).left < s.left :=
  left_set ht (park_tasks _ i t) hrank

attribute [local simp] Pc.rank Pc.observed

lemma Move.rank (h : Move s t pc) (hnone : t.pc.observed = none) : pc.rank < t.pc.rank := by
  cases h with
  | missed hpc =>
    rcases hpc with ⟨_, hpc⟩ | hpc
    · rw [hpc] at hnone
      cases hnone
    · unfold Task.missed
      rw [hpc]
      split <;> decide
  | readLoop hpc | runlockLoop hpc =>
    rcases hpc with hpc | ⟨_, hpc⟩
    · rw [hpc]
      simp
    · rw [hpc] at hnone
      cases hnone
  | readRetry hpc | writeRetry hpc =>
    obtain ⟨_, hpc⟩ := hpc
    rw [hpc] at hnone
    cases hnone
  | resume hpc | runlock hpc | unlock hpc | unlockSlow hpc =>
    rw [hpc]
    decide
  | awake hpc =>
    rw [hpc]
    simp

section

variable (ht : s.tasks[i]? = some t)

include ht

lemma readRetry_left (hpc : t.pc = .readRetry seen) (hs : s.taskStep i false t = some u) : u.left < s.left := by
  simp only [taskStep, hpc, and_true] at hs
  split at hs
  · split at hs <;> cases hs
    · exact left_set ht rfl (by simp [hpc])
    · exact left_reload ht hpc rfl ‹_› rfl rfl
  · split at hs
    · cases hs
      exact park_left ht (by simp [hpc])
    · split at hs <;> cases hs
      · exact park_left ht (by simp [hpc])
      · exact left_reload ht hpc rfl ‹_› rfl rfl

lemma writeRetry_left (hpc : t.pc = .writeRetry seen) (hs : s.taskStep i false t = some u) : u.left < s.left := by
  simp only [taskStep, hpc, and_true] at hs
  split at hs
  · split at hs <;> cases hs
    · exact left_set ht rfl (by simp [hpc])
    · exact left_reload ht hpc rfl ‹_› rfl rfl
  · split at hs <;> cases hs
    · exact park_left ht (by simp [hpc])
    · exact left_reload ht hpc rfl ‹_› rfl rfl

lemma readLoop_left (hpc : t.pc = .readLoop seen) (hs : s.taskStep i false t = some u) : u.left < s.left := by
  simp only [taskStep, hpc, and_true] at hs
  split at hs
  · cases hs
    refine left_set ht rfl ?_
    simp only [missed, hpc]
    split <;> simp
  · split at hs <;> cases hs
    · exact left_set ht rfl (by simp [hpc])
    · exact left_reload ht hpc rfl ‹_› rfl rfl

lemma runlockLoop_left (hpc : t.pc = .runlockLoop seen) (hs : s.taskStep i false t = some u) : u.left < s.left := by
  simp only [taskStep, hpc, and_true] at hs
  split at hs
  · cases hs
    exact left_set ht rfl (by simp [hpc])
  · split at hs <;> cases hs
    · refine left_set ht rfl ?_
      simp only [hpc]
      split <;> simp
    · exact left_reload ht hpc rfl ‹_› rfl rfl

end

lemma taskStep_left (h : Kept s) (ht : s.tasks[i]? = some t)
    (hs : s.taskStep i false t = some u) : u.left < s.left := by
  cases hnone : t.pc.observed with
  | some =>
    cases hpc : t.pc with
    | readLoop => exact readLoop_left ht hpc hs
    | readRetry => exact readRetry_left ht hpc hs
    | writeRetry => exact writeRetry_left ht hpc hs
    | runlockLoop => exact runlockLoop_left ht hpc hs
    | _ =>
      rw [hpc] at hnone
      cases hnone
  | none =>
    have habsurd : ∀ {pc : Pc}, pc.observed ≠ none → t.pc ≠ pc := fun hne hpc => hne (by rw [← hpc, hnone])
    cases taskStep_cases hs with
    | move hmove => exact left_set ht rfl (hmove.rank hnone)
    | acquireRead hpc =>
      rcases hpc with ⟨hpc, -⟩ | ⟨hpc, -⟩ <;> exact absurd hpc (habsurd (by simp))
    | acquireWrite hpc =>
      rcases hpc with ⟨hpc, -⟩ | ⟨hpc, -⟩
      · exact left_set ht rfl (by simp [hpc])
      · exact absurd hpc (habsurd (by simp))
    | enter hpc _ hnew =>
      refine left_set ht rfl ?_
      rcases hnew with ⟨-, rfl⟩ | ⟨-, rfl⟩ <;> simp [hpc]
    | joinPending hpc | joinReader hpc | joinWriter hpc | runlock hpc =>
      exact absurd hpc (habsurd (by simp))
    | misuse hpc => exact absurd hpc (h.not_misused ht)
    | unlock hpc | strand hpc | openReaders hpc => exact left_set ht rfl (by simp [hpc])
    | handOff hpc =>
      refine left_set ht rfl ?_
      rcases hpc with hpc | ⟨hpc, -⟩ <;> simp [hpc]
    | @wake kind n rest w hpc hw =>
      -- the waiter is one step further
      have hwpc := (h.placed.parked_of_wakeList ht hpc hw).1
      have hset := weight_set_set (count rank) ht hw (ne_of_parked ht hpc hw hwpc)
        { t with pc := .wakeList kind rest } { w with pc := .granted, wakes := w.wakes + 1 }
      simp only [Task.count, hpc, hwpc, Pc.rank] at hset
      refine left_of_rank ⟨?_, by simp [setPc, setTask]⟩
      unfold State.rank
      simp only [setPc, setTask]
      omega

lemma Kept.idle (h : Kept s) (ht : s.tasks[i]? = some t)
    (hnone : s.taskStep i false t = none) : t.pc = .parked ∨ (∃ acquired, t.pc = .returned acquired) ∨
      s.locked ∧ t.pc.inside = 0 := by
  cases hpc : t.pc with simp only [taskStep, hpc] at hnone
  | parked => exact .inl rfl
  | returned acquired => exact .inr (.inl ⟨acquired, rfl⟩)
  | suspend =>
    split at hnone
    · exact .inr (.inr ⟨‹_›, rfl⟩)
    · cases hnone
  | runlockSlow =>
    split at hnone
    · exact .inr (.inr ⟨‹_›, rfl⟩)
    · split at hnone <;> cases hnone
  | unlockSlow =>
    split at hnone
    · exact .inr (.inr ⟨‹_›, rfl⟩)
    · split at hnone
      · cases hnone
      · split at hnone <;> cases hnone
  | wakeList kind nodes =>
    cases nodes with
    | nil => cases hnone
    | cons n =>
      have hmem : n ∈ t.carries kind := by
        rw [Task.carries, hpc, Pc.carries, if_pos rfl]
        exact mem_cons_self
      obtain ⟨w, hw, -⟩ := (h.placed kind).parked_of_carried ht hmem
      simp only [hw] at hnone
      cases hnone
  | readRetry =>
    split at hnone
    · split at hnone <;> cases hnone
    · split at hnone
      · cases hnone
      · split at hnone <;> cases hnone
  | readLoop | runlockLoop =>
    split at hnone
    · cases hnone
    · split at hnone <;> cases hnone
  | writeRetry => split at hnone <;> split at hnone <;> cases hnone
  | writeExchange | unlockExchange => split at hnone <;> cases hnone
  | readLoad | granted | holding | runlockLoad => cases hnone

lemma Kept.unattended (h : Kept s) (hwr : s.state.writer = false) (hrs : s.state.readers = 0)
    (hflight : ∀ t ∈ s.tasks, t.pc ≠ .runlockSlow) : s.readWaiters = [] ∧ s.writeWaiters = [] := by
  have hdue : s.state.due.toNat = 0 := by
    rw [← h.booked.due]
    refine weight_eq_zero fun t ht => ?_
    rw [Task.count]
    cases hpc : t.pc with
    | runlockSlow => exact absurd hpc (hflight t ht)
    | _ => rfl
  have hpend : s.state.pending ≠ true := by
    intro hpend
    have hstate : s.state = { pending := true } :=
      calc s.state = ⟨s.state.writer, s.state.pending, s.state.readers⟩ := rfl
        _ = { pending := true } := by rw [hwr, hpend, hrs]
    rw [hstate] at hdue
    cases hdue
  rw [Ne, h.sound.pending, not_or, not_not, not_not] at hpend
  exact hpend

lemma Kept.returned_of_stuck (h : Kept s) (hstuck : draining.Stuck s) :
    ∀ t ∈ s.tasks, ∃ acquired, t.pc = .returned acquired := by
  -- whoever holds the queue lock can go on
  have hquiet : ∀ t ∈ s.tasks, t.pc = .parked ∨ ∃ acquired, t.pc = .returned acquired := by
    refine idle_of_waiting h.booked.inside ?_ fun t ht => ?_
    · rintro t (hpc | ⟨acquired, hpc⟩) <;> rw [Task.count, hpc] <;> rfl
    · obtain ⟨i, hi⟩ := mem_iff_getElem?.mp ht
      refine or_assoc.mpr (h.idle hi ?_)
      have hnone := hstuck i
      simp only [draining, rwStep, hi] at hnone
      exact hnone
  have hcar : ∀ k, ∀ t ∈ s.tasks, t.carries k = [] := by
    intro k t ht
    rw [Task.carries]
    rcases hquiet t ht with hpc | ⟨acquired, hpc⟩ <;> rw [hpc] <;> rfl
  -- so nobody owns the lock or hands it over, and nobody waits
  have hnobody : ∀ k, s.state.owners k = 0 := by
    intro k
    rw [← h.booked.own k]
    refine weight_eq_zero fun t ht => ?_
    rw [own, hcar k t ht]
    rcases hquiet t ht with hpc | ⟨acquired, hpc⟩ <;> rw [hpc] <;> exact ite_self 0
  have hflight : ∀ t ∈ s.tasks, t.pc ≠ .runlockSlow := by
    intro t ht
    rcases hquiet t ht with hpc | ⟨acquired, hpc⟩ <;> simp [hpc]
  have hempty : ∀ k, s.waiters k = [] := by
    obtain ⟨hread, hwrite⟩ := h.unattended (Bool.toNat_eq_zero.mp (hnobody .write)) (hnobody .read) hflight
    intro k
    cases k with
    | read => exact hread
    | write => exact hwrite
  intro t ht
  rcases hquiet t ht with hpc | hpc
  · obtain ⟨i, hi⟩ := mem_iff_getElem?.mp ht
    have hpark : 0 < t.parkedAs t.kind := by
      rw [parkedAs, if_pos rfl, hpc]
      decide
    rcases (h.placed t.kind).mem_or_carried hi hpark with hmem | ⟨x, hx, hmem⟩
    · rw [hempty] at hmem
      cases hmem
    · rw [hcar t.kind x hx] at hmem
      cases hmem
  · exact hpc

lemma draining_endsIn : draining.EndsIn fun s => ∀ t ∈ s.tasks, ∃ acquired, t.pc = .returned acquired := by
  refine System.endsIn_of_measure (P := Kept) (m := left) (fun s => kept_of_reachable)
    (fun s i u h hs => ⟨kept_step (a := .task i false) h hs, ?_⟩) fun s h => h.returned_of_stuck
  simp only [draining, rwStep] at hs
  split at hs
  · exact taskStep_left h ‹_› hs
  · cases hs

/-! ### The guarantee -/

/-- `excl`: a writer has the lock alone. `kept_out`: the readers grow only while no writer is queued. `idle`: nobody
waits for a lock that is free, unless a reader is about to hand it over. -/
structure RWSafe (s : State) : Prop where
  excl : ∀ (i j : Nat) (t u : Task), s.tasks[i]? = some t → s.tasks[j]? = some u → t.pc.owns = 1 → u.pc.owns = 1 →
    t.kind = .write → i = j
  pending : s.state.pending = true ↔ s.readWaiters ≠ [] ∨ s.writeWaiters ≠ []
  counted : s.waitingWriters = s.writeWaiters.length
  keptOut : ∀ (a : Act) (u : State), rwStep s a = some u → s.state.readers < u.state.readers → s.writeWaiters = []
  placed : ∀ (i : Nat) (t : Task), s.tasks[i]? = some t → t.pc = .parked →
    i ∈ s.waiters t.kind ∨ ∃ x ∈ s.tasks, i ∈ x.carries t.kind
  dispatched : ∀ t ∈ s.tasks, t.wakes = if t.waited = true ∧ t.pc ≠ .parked then 1 else 0
  idle : s.state.writer = false → s.state.readers = 0 → (∀ t ∈ s.tasks, t.pc ≠ .runlockSlow) →
    s.readWaiters = [] ∧ s.writeWaiters = []
  stranded : s.stranded = false

lemma Kept.excl (h : Kept s) {j : Nat} {u : Task} (ht : s.tasks[i]? = some t)
    (hu : s.tasks[j]? = some u) (hti : t.pc.owns = 1) (huj : u.pc.owns = 1) (hkind : t.kind = .write) : i = j := by
  have hwr := h.booked.writing ht hkind hti
  cases hukind : u.kind with
  | read => exact Bool.noConfusion (hwr.symm.trans (h.booked.reading h.sound hu hukind huj).1)
  | write =>
    refine eq_of_weight_le_one (f := own .write) ht hu ?_ ?_ ?_
    · rw [own, if_pos hkind, hti]
      omega
    · rw [own, if_pos hukind, huj]
      omega
    · rw [h.booked.own .write, Word.owners]
      exact Bool.toNat_le s.state.writer

/-- Readers are admitted one by one with an open word, or all at once when no writer is queued. -/
lemma Kept.keptOut (h : Kept s) {a : Act} (hs : rwStep s a = some u)
    (hmore : s.state.readers < u.state.readers) : s.writeWaiters = [] := by
  rcases rwStep_cases hs with ⟨kind, awaits, rfl⟩ | ⟨i, t, ht, htask⟩
  · exact absurd hmore (lt_irrefl _)
  cases htask with
  | acquireRead hpc hopen =>
    by_contra hne
    have hpend := h.sound.pending.mpr (.inr hne)
    rw [(Word.closed_of_pending hopen).2] at hpend
    cases hpend
  | openReaders hpc hwr hfree hqueue => exact hqueue
  | joinPending | joinReader | joinWriter =>
    rw [park_state] at hmore
    exact absurd hmore (lt_irrefl _)
  | runlock => exact absurd hmore (Nat.not_lt.mpr (Nat.sub_le _ _))
  | acquireWrite | unlock | handOff => cases hmore
  | strand hpc hqueue => exact hqueue
  | move | enter | misuse | wake => exact absurd hmore (lt_irrefl _)

lemma waiting_eq_zero : pc.waiting = 0 ↔ pc ≠ .parked := by
  cases pc <;> simp [waiting]

lemma Kept.dispatched (h : Kept s) (ht : t ∈ s.tasks) : t.wakes = if t.waited ∧ t.pc ≠ .parked then 1 else 0 := by
  rw [Parking.Woken.eq (h.woken t ht)]
  simp only [waiting_eq_zero]

lemma Kept.parked_place (h : Kept s) (ht : s.tasks[i]? = some t)
    (hpc : t.pc = .parked) : i ∈ s.waiters t.kind ∨ ∃ x ∈ s.tasks, i ∈ x.carries t.kind := by
  refine (h.placed t.kind).mem_or_carried ht ?_
  rw [parkedAs, if_pos rfl, hpc]
  decide

/-- **In every interleaving the reader-writer lock keeps writers apart, keeps readers behind queued writers and
serves every waiter once, and every call returns when the holders release.** -/
theorem rw_safe {s : State} (hs : rwSystem.Reachable s) :
    RWSafe s ∧ draining.EndsIn fun s => ∀ t ∈ s.tasks, ∃ acquired, t.pc = .returned acquired := by
  have h := kept_of_reachable hs
  exact ⟨{
    excl := fun i j t u => h.excl
    pending := h.sound.pending
    counted := h.sound.counted
    keptOut := fun a u => h.keptOut
    placed := fun i t => h.parked_place
    dispatched := fun t => h.dispatched
    idle := h.unattended
    stranded := h.sound.stranded }, draining_endsIn⟩

/-- A reader is about to hand the lock to a parked writer while another reader has to wait. -/
theorem rw_safe_due : ∃ s, rwSystem.Reachable s ∧ s.writeWaiters = [1] ∧ s.readWaiters = [2] ∧ s.state.due = true ∧
    RWSafe s := by
  obtain ⟨s, hs, hwrite, hread, hdue⟩ := rwSystem.reachable_of_run {}
    [.start .read true, .start .write true, .start .read true, .task 0 false, .task 0 false, .task 1 false,
      .task 1 false, .task 1 false, .task 2 false, .task 2 false, .task 2 false, .task 2 false, .task 0 false,
      .task 0 false, .task 0 false]
    (fun s => s.writeWaiters = [1] ∧ s.readWaiters = [2] ∧ s.state.due = true) rfl (by decide +kernel)
  exact ⟨s, hs, hwrite, hread, hdue, (rw_safe hs).1⟩

end Cio.RWMutex
