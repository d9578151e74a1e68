import Cio.RWMutexProgress

/-! The order of the writers. `write_waiters_` is pushed and taken at the front, so of two parked writers the later
one is served first, and a stream of writers can keep the first one parked. Where a writer parks only while no
other writer is parked, writers are served in the order they parked, and nobody is granted the lock before a
parked writer. -/

namespace Cio.RWMutex

open List

/-- A writer that is about to park finds no other writer parked. -/
def Alone (s : State) : Act → Prop
  | .start _ _ => True
  | .task i _ =>
    match s.tasks[i]? with
    | some t => t.pc = .writeRetry s.state ∧ s.state ≠ {} → s.writeWaiters = []
    | none => True

instance (s : State) (a : Act) : Decidable (Alone s a) :=
  match a with
  | .start _ _ => inferInstanceAs (Decidable True)
  | .task i _ =>
    show Decidable (match s.tasks[i]? with
      | some t => t.pc = .writeRetry s.state ∧ s.state ≠ {} → s.writeWaiters = []
      | none => True) from
    match s.tasks[i]? with
    | some t => inferInstanceAs (Decidable (t.pc = .writeRetry s.state ∧ s.state ≠ {} → s.writeWaiters = []))
    | none => inferInstanceAs (Decidable True)

/-- At most one writer is parked, and those before it were served in order. -/
structure InLine (s : State) : Prop where
  single : s.writeWaiters.length ≤ 1
  ordered : s.joined = s.obtained ++ s.writeWaiters

variable {s u : State} {t : Task} {i n : Nat}

lemma InLine.frame (h : InLine s) (hqueue : u.writeWaiters = s.writeWaiters)
    (hjoin : u.joined = s.joined) (hobt : u.obtained = s.obtained) : InLine u :=
  ⟨by rw [hqueue]; exact h.single, by rw [hjoin, hobt, hqueue]; exact h.ordered⟩

lemma InLine.parkRead (h : InLine s) {v : Word} (hkind : t.kind = .read) : InLine ({ s with state := v }.park i t) := by
  rw [park_read _ i hkind]
  exact h.frame rfl rfl rfl

lemma InLine.rest (h : InLine s) {rest : List Nat} (hqueue : s.writeWaiters = n :: rest) : rest = [] := by
  have hsingle := h.single
  rw [hqueue, length_cons] at hsingle
  exact length_eq_zero_iff.mp (by omega)

lemma inLine_taskStep (h : InLine s) (hbook : Booked s) (ht : s.tasks[i]? = some t)
    (halone : t.pc = .writeRetry s.state ∧ s.state ≠ {} → s.writeWaiters = []) (hs : TaskStep s i t u) : InLine u := by
  cases hs with
  | joinPending hpc | joinReader hpc => exact h.parkRead (hbook.kind_eq ht (hpc ▸ rfl))
  | joinWriter hpc hbusy =>
    have hempty := halone ⟨hpc, hbusy⟩
    rw [park_write _ i (hbook.kind_eq ht (hpc ▸ rfl))]
    refine ⟨?_, ?_⟩
    · rw [hempty]
      exact le_refl 1
    · show s.joined ++ [i] = s.obtained ++ i :: s.writeWaiters
      rw [h.ordered, hempty, append_nil]
  | @handOff n rest hpc _ hqueue =>
    refine ⟨?_, ?_⟩
    · rw [h.rest hqueue]
      exact Nat.zero_le 1
    · show s.joined = s.obtained ++ [n] ++ rest
      rw [h.ordered, hqueue, append_assoc]
      rfl
  | move | acquireRead | acquireWrite | enter | misuse | runlock | unlock
  | strand | openReaders | wake => exact h.frame rfl rfl rfl

lemma alone_task {spurious : Bool} (halone : Alone s (.task i spurious))
    (ht : s.tasks[i]? = some t) : t.pc = .writeRetry s.state ∧ s.state ≠ {} → s.writeWaiters = [] := by
  simp only [Alone, ht] at halone
  exact halone

lemma inLine_step {a : Act} (h : InLine s) (hkept : Kept s) (halone : Alone s a)
    (hs : rwStep s a = some u) : InLine u := by
  cases a with
  | start =>
    cases hs
    exact h.frame rfl rfl rfl
  | task i spurious =>
    simp only [rwStep] at hs
    split at hs
    · exact inLine_taskStep h hkept.booked ‹_› (alone_task halone ‹_›) (taskStep_cases hs)
    · cases hs

lemma inLine_of_reachable (hs : rwSystem.ReachableVia Alone s) : Kept s ∧ InLine s := by
  refine hs.invariant (P := fun s => Kept s ∧ InLine s) (fun s hinit => ?_)
    (fun s a u h halone hst => ⟨kept_step h.1 hst, inLine_step h.2 h.1 halone hst⟩)
  rw [show s = {} from hinit]
  exact ⟨kept_init, Nat.zero_le 1, rfl⟩

/-! ### A parked writer is next -/

lemma owners_addReader_closed (h : Sound s) (hn : n ∈ s.writeWaiters) : s.state.closed = true := by
  have hpend := h.pending.mpr (.inr (ne_nil_of_mem hn))
  rw [Word.closed, hpend, Bool.or_true]

lemma next_taskStep (h : Kept s) (hline : InLine s) (hs : TaskStep s i t u) (hn : n ∈ s.writeWaiters) :
    u.obtained = s.obtained ++ [n] ∨ n ∈ u.writeWaiters ∧ ∀ k, u.state.owners k ≤ s.state.owners k := by
  have hshut := owners_addReader_closed h.sound hn
  have hsame : ∀ {v : Word}, (∀ k, v.owners k = s.state.owners k) →
      (({ s with state := v }.park i t).obtained = s.obtained ++ [n] ∨
        n ∈ ({ s with state := v }.park i t).writeWaiters ∧
          ∀ k, ({ s with state := v }.park i t).state.owners k ≤ s.state.owners k) := by
    intro v howners
    refine .inr ⟨?_, fun k => by rw [park_state]; exact le_of_eq (howners k)⟩
    unfold State.park
    cases t.kind with
    | read => exact hn
    | write => exact mem_cons_of_mem i hn
  cases hs with
  | acquireRead _ hopen => exact Bool.noConfusion (hopen.symm.trans hshut)
  | acquireWrite _ hfree =>
    rw [hfree] at hshut
    cases hshut
  | joinPending => exact hsame fun k => rfl
  | joinReader | joinWriter => exact hsame fun k => (by cases k <;> rfl)
  | runlock =>
    refine .inr ⟨hn, fun k => ?_⟩
    cases k with
    | read => exact Nat.sub_le _ _
    | write => exact le_rfl
  | unlock _ hstate =>
    rw [hstate] at hshut
    exact .inr ⟨hn, fun k => (by cases k <;> exact Nat.zero_le _)⟩
  | strand _ hqueue | openReaders _ _ _ hqueue =>
    rw [hqueue] at hn
    cases hn
  | handOff _ _ hqueue =>
    have hrest := hline.rest hqueue
    rw [hqueue, hrest, mem_singleton] at hn
    subst hn
    exact .inl rfl
  | move | enter | misuse | wake => exact .inr ⟨hn, fun k => le_rfl⟩

/-- Writers are served in the order they parked, and while a writer is parked nobody else is let in. -/
structure WritersInOrder (s : State) : Prop where
  ordered : s.obtained <+: s.joined
  next : ∀ n ∈ s.writeWaiters, ∀ (a : Act) (u : State), rwStep s a = some u →
    u.obtained = s.obtained ++ [n] ∨ n ∈ u.writeWaiters ∧ ∀ k, u.state.owners k ≤ s.state.owners k

/-- **Where writers park one at a time, they are served in the order they parked, nobody is let in before a
parked writer, and every call returns when the holders release.** -/
theorem writers_in_order {s : State} (hs : rwSystem.ReachableVia Alone s) :
    WritersInOrder s ∧ draining.EndsIn fun s => ∀ t ∈ s.tasks, ∃ acquired, t.pc = .returned acquired := by
  obtain ⟨h, hline⟩ := inLine_of_reachable hs
  refine ⟨⟨⟨s.writeWaiters, hline.ordered.symm⟩, fun n hn a u hstep => ?_⟩, draining_endsIn⟩
  rcases rwStep_cases hstep with ⟨kind, awaits, rfl⟩ | ⟨i, t, ht, htask⟩
  · exact .inr ⟨hn, fun k => Nat.le_refl _⟩
  · exact next_taskStep h hline htask hn

theorem writers_in_order_two : ∃ s, rwSystem.ReachableVia Alone s ∧ s.obtained = [1] ∧ s.writeWaiters = [2] ∧
    WritersInOrder s := by
  obtain ⟨s, hs, hobt, hqueue⟩ := rwSystem.reachableVia_of_run Alone {}
    [.start .write true, .start .write true, .start .write true, .task 0 false, .task 1 false, .task 1 false,
      .task 1 false, .task 0 false, .task 0 false, .task 0 false, .task 2 false, .task 2 false, .task 2 false]
    (fun s => s.obtained = [1] ∧ s.writeWaiters = [2]) rfl (by decide +kernel)
  exact ⟨s, hs, hobt, hqueue, (writers_in_order hs).1⟩

/-- Writer 1 parks, then writer 2; the release serves writer 2. While writer 2 has the lock writer 3 parks and is
served next: writer 1 is still parked. -/
theorem writers_out_of_order : ∃ s, rwSystem.Reachable s ∧ s.joined = [1, 2, 3] ∧ s.obtained = [2, 3] ∧
    s.writeWaiters = [1] ∧ ¬ WritersInOrder s := by
  obtain ⟨s, hs, hjoin, hobt, hqueue⟩ := rwSystem.reachable_of_run {}
    [.start .write true, .start .write true, .start .write true, .task 0 false, .task 1 false, .task 1 false,
      .task 1 false, .task 2 false, .task 2 false, .task 2 false, .task 0 false, .task 0 false, .task 0 false,
      .task 0 false, .task 2 false, .start .write true, .task 3 false, .task 3 false, .task 3 false, .task 2 false,
      .task 2 false, .task 2 false]
    (fun s => s.joined = [1, 2, 3] ∧ s.obtained = [2, 3] ∧ s.writeWaiters = [1]) rfl (by decide +kernel)
  refine ⟨s, hs, hjoin, hobt, hqueue, fun h => ?_⟩
  have hserve := h.ordered
  rw [hjoin, hobt] at hserve
  exact absurd hserve (by decide)

end Cio.RWMutex
