import Cio.MutexKept

/-! `Mutex` is a fair lock: one owner at a time, waiters served in the order they were queued and never overtaken,
each of them dispatched once, and nobody left behind when the holders unlock. -/

namespace Cio.Mutex

open CallPool Parking Transition List Pc

/-! ### Dispatches -/

variable {s u : State} {t : Task} {i j : Nat} {pc : Pc}

lemma Task.Woken.set (h : t.Woken) (hwait : pc.waiting = t.pc.waiting)
    (hearly : pc.early → t.pc.early) : Task.Woken { t with pc := pc } :=
  Parking.Woken.move h hwait hearly

lemma woken_park (h : t.Woken) (hearly : t.pc.early) : Task.Woken { t with pc := .parked, waited := true } := by
  unfold Task.Woken at h
  rw [hearly] at h
  exact h.park

lemma woken_grant {w : Task} (h : w.Woken) (hpc : w.pc = .parked) :
    Task.Woken { w with pc := .granted, wakes := w.wakes + 1 } := by
  unfold Task.Woken at h
  rw [hpc] at h
  exact h.wake

lemma Move.early (h : Move s t pc) (hearly : pc.early) : t.pc.early = true := by
  cases h with
  | missed hpc => rcases hpc with hpc | hpc <;> rw [hpc] <;> rfl
  | exchange hpc => rw [hpc]; rfl
  | unlock | unlockExchange | unlockContended => cases hearly

lemma woken_taskStep (h : ∀ t ∈ s.tasks, t.Woken)
    (hat : Placed s) (ht : s.tasks[i]? = some t) (hs : TaskStep s i t u) : ∀ t ∈ u.tasks, t.Woken := by
  have hold := h t (mem_of_getElem? ht)
  have hset : ∀ {t' : Task}, t'.Woken → ∀ y ∈ s.tasks.set i t', y.Woken := fun ht' => forall_set h ht' i
  cases hs with
  | move hmove => exact hset (hold.set hmove.alike.waiting hmove.early)
  | acquire hpc | claim hpc | resume hpc | handOver hpc =>
    exact hset (hold.set (hpc ▸ rfl) nofun)
  | publish hpc => exact hset (hold.set (hpc ▸ rfl) (fun _ => by rw [hpc]; rfl))
  | enter hpc _ hseen =>
    refine hset (hold.set ?_ (fun _ => by rw [hpc]; rfl))
    rcases hseen with rfl | ⟨rfl, -⟩ <;> rw [hpc] <;> rfl
  | release hpc =>
    refine hset (hold.set ?_ nofun)
    rcases hpc with ⟨hpc, -⟩ | ⟨hpc, -⟩ <;> rw [hpc] <;> rfl
  | park hpc => exact hset (woken_park hold (hpc ▸ rfl))
  | dispatch hpc hw =>
    have hgrant := woken_grant (h _ (mem_of_getElem? hw)) (hat.parked_of_dispatch ht hpc hw)
    exact forall_set (forall_set h hgrant _) (hold.set (hpc ▸ rfl) (by rintro ⟨⟩)) i

/-! ### One step -/

lemma booked_taskStep (h : Booked s) (hat : Placed s)
    (ht : s.tasks[i]? = some t) (hs : TaskStep s i t u) : Booked u := by
  cases hs with
  | move hmove =>
    exact h.move ht rfl hmove.alike.inside hmove.alike.owning hmove.alike.claiming hmove.not_settle rfl rfl id
  | acquire hpc hstate => exact booked_acquire h ht hpc hstate
  | enter hpc hfree hseen => exact booked_enter h ht hpc hfree hseen
  | publish hpc => exact booked_publish h ht hpc
  | claim hpc hprev => exact booked_claim h ht hpc hprev
  | park hpc hprev => exact booked_park h ht hpc hprev
  | resume hpc =>
    exact h.move ht rfl (hpc ▸ rfl) (hpc ▸ rfl) (hpc ▸ rfl) (fun _ => by simp) rfl rfl id
  | release hpc => exact booked_release h ht hpc
  | handOver hpc _ hqueue =>
    exact h.move ht rfl (hpc ▸ rfl) (hpc ▸ rfl) (hpc ▸ rfl) (fun _ => by simp) rfl rfl
      (fun _ => by rw [hqueue]; simp)
  | dispatch hpc hw => exact booked_dispatch h ht hpc hw (hat.parked_of_dispatch ht hpc hw)

lemma placed_taskStep (h : Placed s) (hbook : Booked s)
    (ht : s.tasks[i]? = some t) (hs : TaskStep s i t u) : Placed u := by
  cases hs with
  | move hmove => exact h.move ht rfl hmove.alike.waiting hmove.alike.resuming hmove.alike.carries rfl rfl rfl rfl
  | acquire hpc | publish hpc | claim hpc =>
    exact h.move ht rfl (hpc ▸ rfl) (hpc ▸ rfl) (hpc ▸ rfl) rfl rfl rfl rfl
  | enter hpc _ hseen =>
    rcases hseen with rfl | ⟨rfl, -⟩
    all_goals exact h.move ht rfl (hpc ▸ rfl) (hpc ▸ rfl) (hpc ▸ rfl) rfl rfl rfl rfl
  | park hpc => exact placed_park h ht (hpc ▸ rfl) (hpc ▸ rfl) (hpc ▸ rfl)
  | resume hpc => exact placed_resume h ht hpc
  | release hpc =>
    rcases hpc with ⟨hpc, -⟩ | ⟨hpc, -⟩
    all_goals exact h.move ht rfl (hpc ▸ rfl) (hpc ▸ rfl) (hpc ▸ rfl) rfl rfl rfl rfl
  | handOver hpc _ hqueue => exact placed_handOver h hbook ht hpc hqueue
  | dispatch hpc hw => exact placed_dispatch h ht hpc hw (h.parked_of_dispatch ht hpc hw)

lemma kept_step {a : Act} (h : Kept s) (hs : mutexStep s a = some u) : Kept u := by
  rcases mutexStep_cases hs with ⟨awaits, rfl⟩ | ⟨i, t, -, ht, htask⟩
  · exact ⟨booked_start h.booked awaits, placed_start h.placed awaits, forall_append h.woken Parking.Woken.start⟩
  · exact ⟨booked_taskStep h.booked h.placed ht htask, placed_taskStep h.placed h.booked ht htask,
      woken_taskStep h.woken h.placed ht htask⟩

lemma kept_init : Kept {} := by
  refine ⟨⟨.inl rfl, rfl, rfl, rfl, (absurd rfl ·), nofun⟩, ⟨Lot.nil, fun n => rfl, rfl⟩, nofun⟩

lemma kept_of_reachable (hs : mutexSystem.Reachable s) : Kept s := by
  refine hs.invariant (P := Kept) (fun s hinit => ?_) (fun s a u h _ hst => kept_step h hst)
  rw [show s = {} from hinit]
  exact kept_init

/-! ### Owners -/

def Pc.holds : Pc → Bool
  | .holding _ | .unlock | .unlockExchange | .unlockContended => true
  | .load | .exchange | .suspend | .publish | .settle _ | .parked | .granted | .dispatch _ | .returned _ => false

/-- The call owns the mutex: it has the guard, or the mutex was handed to it. -/
def State.Owns (s : State) (i : Nat) : Prop := (∃ t, s.tasks[i]? = some t ∧ t.pc.holds = true) ∨ s.hand = some i

lemma Pc.books_of_holds (h : pc.holds) : pc.owning = 1 ∧ pc.resuming = 0 ∧ pc.carries = [] := by
  cases pc with
  | holding | unlock | unlockExchange | unlockContended => exact ⟨rfl, rfl, rfl⟩
  | load | exchange | suspend | publish | settle | parked | granted | dispatch | returned => cases h

lemma Kept.hand_none (h : Kept s) (ht : s.tasks[i]? = some t) (hholds : t.pc.holds) : s.hand = none :=
  have hbooks := books_of_holds hholds
  h.placed.hand_none h.booked ht hbooks.1 hbooks.2.1 hbooks.2.2

lemma Kept.exclusive (h : Kept s) (hi : s.Owns i) (hj : s.Owns j) : i = j := by
  rcases hi with ⟨t, ht, hti⟩ | hi
  · rcases hj with ⟨u, hu, huj⟩ | hj
    · have hone : weight (Task.count owning) s.tasks ≤ 1 := by
        rw [h.booked.owner, ownBit]
        split <;> omega
      refine eq_of_weight_le_one ht hu ?_ ?_ hone
      · rw [Task.count, (books_of_holds hti).1]
        exact Nat.one_pos
      · rw [Task.count, (books_of_holds huj).1]
        exact Nat.one_pos
    · rw [h.hand_none ht hti] at hj
      cases hj
  · rcases hj with ⟨u, hu, huj⟩ | hj
    · rw [h.hand_none hu huj] at hi
      cases hi
    · rw [hi] at hj
      exact Option.some.inj hj

lemma Kept.no_waiters (h : Kept s) (hstate : s.state ≠ kLocked ||| kContended) : s.waiters = [] := by
  by_contra hne
  exact hstate (h.booked.queued hne)

lemma owns_set {t' : Task} (hj : u.Owns j) (htasks : u.tasks = s.tasks.set i t')
    (hhand : u.hand = s.hand) : s.Owns j ∨ j = i ∧ t'.pc.holds = true := by
  rcases hj with ⟨y, hy, hholds⟩ | hj
  · rw [htasks] at hy
    by_cases hij : i = j
    · subst hij
      by_cases hlt : i < s.tasks.length
      · rw [getElem?_set_self hlt] at hy
        cases hy
        exact .inr ⟨rfl, hholds⟩
      · rw [getElem?_eq_none (by rw [length_set]; omega)] at hy
        cases hy
    · rw [getElem?_set_ne hij] at hy
      exact .inl (.inl ⟨y, hy, hholds⟩)
  · rw [hhand] at hj
    exact .inl (.inr hj)

/-- **Nobody comes to own the mutex before the head of the queue.** -/
lemma Kept.not_overtaken (h : Kept s) {a : Act} (hs : mutexStep s a = some u)
    (hj : u.Owns j) : s.Owns j ∨ s.waiters = [] ∨ s.waiters.head? = some j := by
  rcases mutexStep_cases hs with ⟨awaits, rfl⟩ | ⟨i, t, -, ht, htask⟩
  · rcases hj with ⟨y, hy, hholds⟩ | hj
    · obtain hold | ⟨-, rfl⟩ := lookup_concat hy
      · exact .inl (.inl ⟨y, hold, hholds⟩)
      · cases hholds
    · exact .inl (.inr hj)
  cases htask with
  | move hmove =>
    rcases owns_set (s := s) hj rfl rfl with hold | ⟨rfl, hholds⟩
    · exact .inl hold
    · refine .inl (.inl ⟨t, ht, ?_⟩)
      cases hmove with
      | missed =>
        unfold Task.missed at hholds
        split at hholds <;> cases hholds
      | exchange => cases hholds
      | unlock hpc | unlockExchange hpc => rw [hpc]; rfl
      | unlockContended hpc => rcases hpc with hpc | hpc | hpc <;> rw [hpc] <;> rfl
  | acquire hpc hstate => exact .inr (.inl (h.no_waiters (by rw [hstate]; decide)))
  | enter hpc _ hseen =>
    rcases owns_set (s := s) hj rfl rfl with hold | ⟨rfl, hholds⟩
    · exact .inl hold
    · rcases hseen with rfl | ⟨rfl, -⟩ <;> cases hholds
  | publish | park | release =>
    rcases owns_set (s := s) hj rfl rfl with hold | ⟨rfl, hholds⟩
    · exact .inl hold
    · cases hholds
  | claim hpc hprev =>
    have hstate := h.booked.claimed ht (by rw [hpc, claiming, if_pos hprev])
    exact .inr (.inl (h.no_waiters (by rw [hstate]; decide)))
  | resume hpc =>
    have hhand := h.placed.hand_of_granted ht hpc
    rcases hj with ⟨y, hy, hholds⟩ | hj
    · rcases owns_set (s := s) (u := ({ s with obtained := s.obtained ++ [i] }).setPc i t (.holding true))
        (.inl ⟨y, hy, hholds⟩) rfl rfl with hold | ⟨rfl, -⟩
      · exact .inl hold
      · exact .inl (.inr hhand)
    · cases hj
  | handOver hpc _ hqueue =>
    rcases hj with ⟨y, hy, hholds⟩ | hj
    · rcases owns_set (s := s) (u := s.setPc i t (.dispatch _)) (.inl ⟨y, hy, hholds⟩) rfl rfl
        with hold | ⟨rfl, hholds'⟩
      · exact .inl hold
      · cases hholds'
    · refine .inr (.inr ?_)
      rw [hqueue]
      exact hj
  | @dispatch n w hpc hw =>
    rcases owns_set (s := s.setTask n { w with pc := .granted, wakes := w.wakes + 1 }) hj rfl rfl
      with hold | ⟨rfl, hholds⟩
    · rcases owns_set (s := s) hold rfl rfl with hold | ⟨rfl, hholds⟩
      · exact .inl hold
      · cases hholds
    · cases hholds

/-! ### Holders that unlock -/

/-- No further calls: the calls that exist go on, and holders unlock. -/
def draining : System State Nat where
  init := mutexSystem.Reachable
  step s i := mutexStep s (.task i)

def Pc.rank : Pc → Nat
  | .load => 12
  | .exchange => 11
  | .suspend => 10
  | .publish => 9
  | .settle _ => 8
  | .parked => 7
  | .granted => 6
  | .holding _ => 5
  | .unlock => 4
  | .unlockExchange => 3
  | .unlockContended => 2
  | .dispatch _ => 1
  | .returned _ => 0

def State.rank (s : State) : Nat := weight (Task.count Pc.rank) s.tasks

lemma rank_set {t' : Task} (ht : s.tasks[i]? = some t)
    (htasks : u.tasks = s.tasks.set i t') (hless : t'.pc.rank < t.pc.rank) : u.rank < s.rank := by
  have hset := weight_set (Task.count rank) ht t'
  rw [← htasks, Task.count, Task.count] at hset
  unfold State.rank
  omega

lemma Move.rank (h : Move s t pc) : pc.rank < t.pc.rank := by
  cases h with
  | missed hpc =>
    unfold Task.missed
    rcases hpc with hpc | hpc <;> rw [hpc] <;> split <;> decide
  | exchange hpc | unlock hpc | unlockExchange hpc =>
    rw [hpc]
    decide
  | unlockContended hpc => rcases hpc with hpc | hpc | hpc <;> rw [hpc] <;> decide

lemma taskStep_rank (h : Placed s) (ht : s.tasks[i]? = some t) (hs : TaskStep s i t u) : u.rank < s.rank := by
  cases hs with
  | move hmove => exact rank_set ht rfl hmove.rank
  | acquire hpc | publish hpc | claim hpc | park hpc | resume hpc | handOver hpc =>
    exact rank_set ht rfl (by simp [hpc, Pc.rank])
  | enter hpc _ hseen =>
    refine rank_set ht rfl ?_
    rcases hseen with rfl | ⟨rfl, -⟩ <;> simp [hpc, Pc.rank]
  | release hpc =>
    refine rank_set ht rfl ?_
    rcases hpc with ⟨hpc, -⟩ | ⟨hpc, -⟩ <;> simp [hpc, Pc.rank]
  | @dispatch n w hpc hw =>
    -- the waiter is one step further as well
    have hwpc := h.parked_of_dispatch ht hpc hw
    have hne : n ≠ i := by
      rintro rfl
      rw [ht] at hw
      cases hw
      rw [hpc] at hwpc
      cases hwpc
    have hset := weight_set_set (Task.count Pc.rank) ht hw hne { t with pc := .returned true }
      { w with pc := .granted, wakes := w.wakes + 1 }
    simp only [Task.count, hpc, hwpc, Pc.rank] at hset
    show weight (Task.count Pc.rank) _ < weight (Task.count Pc.rank) s.tasks
    simp only [State.setPc, State.setTask]
    omega

lemma Kept.idle (h : Kept s) (ht : s.tasks[i]? = some t)
    (hnone : s.taskStep i t = none) : t.pc = .parked ∨ (∃ acquired, t.pc = .returned acquired) ∨
      s.locked ∧ t.pc.inside = 0 := by
  cases hpc : t.pc with simp only [State.taskStep, hpc] at hnone
  | parked => exact .inl rfl
  | returned acquired => exact .inr (.inl ⟨acquired, rfl⟩)
  | suspend =>
    split at hnone
    · exact .inr (.inr ⟨‹_›, rfl⟩)
    · cases hnone
  | unlockContended =>
    split at hnone
    · exact .inr (.inr ⟨‹_›, rfl⟩)
    · split at hnone <;> cases hnone
  | dispatch n =>
    have hmem : n ∈ t.carries := by
      rw [Task.carries, hpc]
      exact mem_singleton_self n
    obtain ⟨w, hw, -⟩ := h.placed.lot.parked_of_carried ht hmem
    simp only [hw] at hnone
    cases hnone
  | exchange | settle | unlockExchange =>
    split at hnone <;> cases hnone
  | load | publish | granted | holding | unlock =>
    cases hnone

lemma Kept.returned_of_stuck (h : Kept s) (hstuck : draining.Stuck s) :
    ∀ t ∈ s.tasks, ∃ acquired, t.pc = .returned acquired := by
  -- whoever holds the queue lock can go on
  have hquiet : ∀ t ∈ s.tasks, t.pc = .parked ∨ ∃ acquired, t.pc = .returned acquired := by
    refine idle_of_waiting h.booked.inside ?_ fun t ht => ?_
    · rintro t (hpc | ⟨acquired, hpc⟩) <;> rw [Task.count, hpc] <;> rfl
    · obtain ⟨i, hi⟩ := mem_iff_getElem?.mp ht
      refine or_assoc.mpr (h.idle hi ?_)
      have hnone := hstuck i
      simp only [draining, mutexStep, hi] at hnone
      exact hnone
  -- so nobody owns the mutex, and nobody is queued or about to be dispatched
  have hnobody : weight (Task.count owning) s.tasks = 0 := by
    refine weight_eq_zero fun t ht => ?_
    rw [Task.count]
    rcases hquiet t ht with hpc | ⟨acquired, hpc⟩ <;> rw [hpc] <;> rfl
  have hempty : s.waiters = [] := by
    by_contra hne
    have howner := h.booked.owner
    rw [h.booked.queued hne, hnobody] at howner
    cases howner
  intro t ht
  rcases hquiet t ht with hpc | hpc
  · obtain ⟨i, hi⟩ := mem_iff_getElem?.mp ht
    rcases h.placed.lot.mem_or_carried hi (by rw [Task.count, hpc]; decide) with hmem | ⟨x, hx, hmem⟩
    · rw [hempty] at hmem
      cases hmem
    · rw [Task.carries] at hmem
      rcases hquiet x hx with hxpc | ⟨acquired, hxpc⟩ <;> rw [hxpc] at hmem <;> cases hmem
  · exact hpc

lemma draining_endsIn : draining.EndsIn fun s => ∀ t ∈ s.tasks, ∃ acquired, t.pc = .returned acquired := by
  refine System.endsIn_of_measure (P := Kept) (m := State.rank) (fun s => kept_of_reachable)
    (fun s i u h hs => ⟨kept_step (a := .task i) h hs, ?_⟩) fun s h => h.returned_of_stuck
  simp only [draining, mutexStep] at hs
  split at hs
  · exact taskStep_rank h.placed ‹_› (taskStep_cases hs)
  · cases hs

/-! ### The guarantee -/

/-- At most one owner; waiters only while the mutex is taken; a parked task is in the queue or has been handed the
mutex; they obtain it in the order in which they joined, nobody overtakes the head of the queue, and each one that has
waited is woken once. -/
structure MutexSafe (s : State) : Prop where
  exclusive : ∀ i j, s.Owns i → s.Owns j → i = j
  locked : s.waiters ≠ [] → s.locked = false → s.state &&& kLocked ≠ 0
  parked : ∀ (i : Nat) (t : Task), s.tasks[i]? = some t → t.pc = .parked → i ∈ s.waiters ∨ s.hand = some i
  ordered : s.joined = s.obtained ++ s.hand.toList ++ s.waiters
  notOvertaken : ∀ (a : Act) (u : State) (j : Nat), mutexStep s a = some u → u.Owns j →
    s.Owns j ∨ s.waiters = [] ∨ s.waiters.head? = some j
  dispatched : ∀ t ∈ s.tasks, t.wakes = if t.waited = true ∧ t.pc ≠ .parked then 1 else 0

lemma Kept.parked_place (h : Kept s) (ht : s.tasks[i]? = some t)
    (hpc : t.pc = .parked) : i ∈ s.waiters ∨ s.hand = some i := by
  rcases h.placed.lot.mem_or_carried ht (by rw [Task.count, hpc]; decide) with hmem | ⟨x, hx, hmem⟩
  · exact .inl hmem
  · obtain ⟨j, hj⟩ := mem_iff_getElem?.mp hx
    have hcarried := le_carried Task.carries hj i
    have hpos := count_pos_iff.mpr hmem
    have hcount := h.placed.handed i
    have hhand : i ∈ s.hand.toList := count_pos_iff.mp (by omega)
    rw [Option.mem_toList] at hhand
    exact .inr hhand

lemma Pc.waiting_eq_zero : pc.waiting = 0 ↔ pc ≠ .parked := by
  cases pc <;> simp [waiting]

lemma Task.Woken.wakes_eq (h : t.Woken) : t.wakes = if t.waited ∧ t.pc ≠ .parked then 1 else 0 := by
  rw [Parking.Woken.eq h]
  simp only [waiting_eq_zero]

/-- **In every interleaving the mutex has one owner, serves its waiters in order and once each, and every call
returns when the holders unlock.** -/
theorem mutex_safe {s : State} (hs : mutexSystem.Reachable s) :
    MutexSafe s ∧ draining.EndsIn fun s => ∀ t ∈ s.tasks, ∃ acquired, t.pc = .returned acquired := by
  have h := kept_of_reachable hs
  refine ⟨⟨fun i j => h.exclusive, fun hne _ => ?_, fun i t => h.parked_place, h.placed.ordered,
    fun a u j hstep hj => h.not_overtaken hstep hj, fun t ht => (h.woken t ht).wakes_eq⟩, draining_endsIn⟩
  rw [h.booked.queued hne]
  decide

theorem mutex_safe_handOver : ∃ s, mutexSystem.Reachable s ∧ s.waiters = [2] ∧ s.hand = some 1 ∧ MutexSafe s := by
  obtain ⟨s, hs, hqueue, hhand⟩ := mutexSystem.reachable_of_run {}
    [.start true, .start true, .start true, .task 0, .task 0, .task 1, .task 1, .task 1, .task 1, .task 2, .task 2,
      .task 2, .task 0, .task 0, .task 0]
    (fun s => s.waiters = [2] ∧ s.hand = some 1) rfl (by decide +kernel)
  exact ⟨s, hs, hqueue, hhand, (mutex_safe hs).1⟩

end Cio.Mutex
