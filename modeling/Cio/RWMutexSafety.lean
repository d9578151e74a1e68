import Cio.RWMutexSteps

/-! `RWMutex` keeps its promises: writers exclude everybody, a waiting writer keeps new readers out, waiters are
dispatched once each, nobody waits for a free lock, and the defensive branch of `runlock` is dead. -/

namespace Cio.RWMutex

open CallPool Parking RWMutex.Task List Word

/-! ### Waiters -/

variable {s u : State} {t : Task} {i : Nat}

section

variable (h : Placed s) (ht : s.tasks[i]? = some t)

include h ht

lemma placed_set {t' : Task} (htasks : u.tasks = s.tasks.set i t') (hkind : t'.kind = t.kind)
    (hwait : t'.pc.waiting = t.pc.waiting) (hcar : ∀ k, t'.pc.carries k = t.pc.carries k)
    (hread : u.readWaiters = s.readWaiters) (hwrite : u.writeWaiters = s.writeWaiters) : Placed u := by
  intro k
  have hqueue : u.waiters k = s.waiters k := by
    cases k with
    | read => exact hread
    | write => exact hwrite
  rw [hqueue, htasks]
  refine (h k).move ht ?_ (hcar k)
  rw [parkedAs, parkedAs, hkind, hwait]

lemma placed_park {word : Word} (hwait : t.pc.waiting = 0) (hcar : ∀ k, t.pc.carries k = []) :
    Placed ({ s with state := word }.park i t) := by
  intro k
  have hpre : t.parkedAs k = 0 := by rw [parkedAs, hwait, ite_self]
  rw [park_tasks]
  by_cases hk : t.kind = k
  · refine (h k).park ht hpre ?_ (hcar k).symm ?_
    · rw [parkedAs, if_pos hk]
      rfl
    · subst hk
      unfold State.park
      cases t.kind <;> exact Perm.refl _
  · have hqueue : ({ s with state := word }.park i t).waiters k = s.waiters k := by
      unfold State.park
      cases hkind : t.kind <;> cases k <;> first | rfl | exact absurd hkind hk
    rw [hqueue]
    refine (h k).move ht ?_ (hcar k).symm
    rw [hpre, parkedAs, if_neg hk]

lemma placed_handOff {n : Nat} {rest : List Nat} (hwait : t.pc.waiting = 0) (hcar : ∀ k, t.pc.carries k = [])
    (hqueue : s.writeWaiters = n :: rest) : Placed (s.handOff i n rest t) := by
  have hparked : ∀ k, parkedAs k { t with pc := .wakeList .write [n] } = t.parkedAs k := by
    intro k
    rw [parkedAs, parkedAs, hwait]
    rfl
  intro k
  cases k with
  | read => exact (h .read).move ht (hparked .read) (hcar .read).symm
  | write =>
    refine (h .write).take ht (hparked .write) (hcar .write) ?_
    show s.writeWaiters.Perm ([n] ++ rest)
    rw [hqueue]
    exact Perm.refl _

lemma placed_openReaders (hwait : t.pc.waiting = 0) (hcar : ∀ k, t.pc.carries k = []) :
    Placed ({ s with readWaiters := [], state := { readers := s.readWaiters.length } }.setPc i t
      (.wakeList .read s.readWaiters)) := by
  have hparked : ∀ k, parkedAs k { t with pc := .wakeList .read s.readWaiters } = t.parkedAs k := by
    intro k
    rw [parkedAs, parkedAs, hwait]
    rfl
  intro k
  cases k with
  | read =>
    refine (h .read).take ht (hparked .read) (hcar .read) ?_
    show s.readWaiters.Perm (s.readWaiters ++ [])
    rw [append_nil]
  | write => exact (h .write).move ht (hparked .write) (hcar .write).symm

lemma placed_wake {n : Nat} {kind : Kind} {rest : List Nat} {w : Task} (hpc : t.pc = .wakeList kind (n :: rest))
    (hw : s.tasks[n]? = some w) (hwpc : w.pc = .parked) (hwkind : w.kind = kind) :
    Placed ((s.setTask n { w with pc := .granted, wakes := w.wakes + 1 }).setPc i t (.wakeList kind rest)) := by
  have hparked : ∀ k, t.parkedAs k = 0 ∧ parkedAs k { t with pc := .wakeList kind rest } = 0 := by
    intro k
    rw [parkedAs, parkedAs, hpc]
    exact ⟨ite_self 0, ite_self 0⟩
  have hgranted : ∀ k, parkedAs k { w with pc := .granted, wakes := w.wakes + 1 } = 0 := fun k => ite_self 0
  intro k
  by_cases hk : kind = k
  · refine (h k).wake ht hw ?_ (hparked k).1 (hparked k).2 ?_ (hgranted k) ?_
    · rw [Task.carries, Task.carries, hpc, Pc.carries, Pc.carries, if_pos hk, if_pos hk]
    · rw [parkedAs, if_pos (hwkind.trans hk), hwpc]
      rfl
    · rw [Task.carries, Task.carries, hwpc]
      rfl
  · -- for the other kind nothing happens
    have hne := ne_of_parked ht hpc hw hwpc
    have hfirst : Lot (parkedAs k) (carries k) (s.waiters k)
        (s.tasks.set n { w with pc := .granted, wakes := w.wakes + 1 }) := by
      refine (h k).move hw ?_ ?_
      · rw [hgranted k, parkedAs, if_neg (hwkind ▸ hk)]
      · rw [Task.carries, Task.carries, hwpc]
        rfl
    refine hfirst.move (by rw [getElem?_set_ne hne, ht]) ?_ ?_
    · rw [(hparked k).1, (hparked k).2]
    · rw [Task.carries, Task.carries, hpc, Pc.carries, Pc.carries, if_neg hk, if_neg hk]

end

/-! ### One step -/

section

variable (h : Kept s) (ht : s.tasks[i]? = some t)
include h ht

lemma Kept.not_stranded (hpc : t.pc = .runlockSlow) : s.writeWaiters ≠ [] := by
  have hstate := h.booked.leaving ht hpc
  exact h.sound.queued (by rw [hstate]) (by rw [hstate])

lemma Kept.not_misused : ¬ ((∃ observed, t.pc = .runlockLoop observed ∧ (observed.writer ∨ observed.readers = 0)) ∨
      t.pc = .unlockSlow ∧ s.state.writer = false) := by
  rintro (⟨observed, hpc, hwrong⟩ | ⟨hpc, hwr⟩)
  · obtain ⟨hw, hr⟩ := h.booked.held t (mem_of_getElem? ht) observed hpc
    rcases hwrong with hwrong | hwrong
    · exact Bool.noConfusion (hw.symm.trans hwrong)
    · omega
  · have hw := h.booked.writing ht (h.booked.kind_eq ht (hpc ▸ rfl)) (hpc ▸ rfl)
    exact Bool.noConfusion (hwr.symm.trans hw)

lemma sound_taskStep (hs : TaskStep s i t u) : Sound u := by
  cases hs with
  | move | enter | wake => exact { h.sound with }
  | acquireRead hpc hopen =>
    obtain ⟨hwr, -⟩ := closed_of_pending hopen
    exact { h.sound with excl := fun hw => Bool.noConfusion (hwr.symm.trans hw) }
  | acquireWrite hpc hfree => exact sound_acquireWrite h.sound hfree
  | @joinPending observed hpc hpend =>
    have hstate := h.booked.seen t (mem_of_getElem? ht) observed hpc hpend
    exact sound_parkRead h.sound (h.booked.kind_eq ht (hpc ▸ rfl)) rfl rfl hstate (fun hwr => h.sound.queued hwr hstate)
  | joinReader hpc hwr =>
    exact sound_parkRead h.sound (h.booked.kind_eq ht (hpc ▸ rfl)) rfl rfl rfl
      (fun hw => Bool.noConfusion (hw.symm.trans hwr))
  | joinWriter hpc => exact sound_parkWrite h.sound (h.booked.kind_eq ht (hpc ▸ rfl)) rfl rfl rfl
  | misuse hpc => exact absurd hpc (h.not_misused ht)
  | runlock hpc hrs hwr => exact { h.sound with excl := fun hw => Bool.noConfusion (hwr.symm.trans hw) }
  | unlock hpc hstate => exact sound_unlock h.sound hstate
  | strand hpc hqueue => exact absurd hqueue (h.not_stranded ht hpc)
  | handOff hpc hfree hqueue => exact sound_handOff h.sound hqueue
  | openReaders hpc hwr hfree hqueue => exact sound_openReaders h.sound hqueue

lemma booked_taskStep (hs : TaskStep s i t u) : Booked u := by
  have hbook := h.booked
  cases hs with
  | move hmove => exact booked_move hbook h.sound ht hmove
  | acquireRead hpc hopen => exact booked_acquireRead hbook ht hpc hopen
  | acquireWrite hpc hfree => exact booked_acquireWrite hbook ht hpc hfree
  | enter hpc hfree hnew => exact booked_enter hbook ht hpc hfree hnew
  | @joinPending observed hpc hpend =>
    exact booked_park hbook ht (.inl ⟨observed, hpc⟩) (fun k => rfl) rfl
      (hbook.seen t (mem_of_getElem? ht) observed hpc hpend)
  | joinReader hpc hwr =>
    refine booked_park hbook ht (.inl ⟨s.state, hpc⟩) (fun k => (by cases k <;> rfl)) ?_ rfl
    rw [due_false (w := s.state) (.inl hwr), due_false (w := s.state.mark) (.inl hwr)]
  | joinWriter hpc hbusy =>
    exact booked_park hbook ht (.inr ⟨s.state, hpc⟩) (fun k => (by cases k <;> rfl)) (mark_due hbusy) rfl
  | misuse hpc => exact absurd hpc (h.not_misused ht)
  | runlock hpc hrs hwr hnew => exact booked_runlock hbook ht hpc hrs hnew
  | unlock hpc hstate => exact booked_unlock hbook ht hpc hstate
  | strand hpc hqueue => exact absurd hqueue (h.not_stranded ht hpc)
  | handOff hpc hfree => exact booked_handOff hbook h.sound ht hpc hfree
  | openReaders hpc hwr hfree => exact booked_openReaders hbook h.sound ht hpc hwr hfree
  | wake hpc hw =>
    obtain ⟨hwpc, hwkind⟩ := h.placed.parked_of_wakeList ht hpc hw
    exact booked_wake hbook ht hpc hw hwpc hwkind

lemma placed_taskStep (hs : TaskStep s i t u) : Placed u := by
  have hat := h.placed
  cases hs with
  | move hmove =>
    exact placed_set hat ht rfl rfl hmove.alike.waiting hmove.alike.carries rfl rfl
  | acquireRead hpc | acquireWrite hpc =>
    rcases hpc with ⟨hpc, -⟩ | ⟨hpc, -⟩ <;>
      exact placed_set hat ht rfl rfl (hpc ▸ rfl) (fun k => by rw [hpc]; rfl) rfl rfl
  | enter hpc _ hnew =>
    rcases hnew with ⟨-, rfl⟩ | ⟨-, rfl⟩ <;>
      exact placed_set hat ht rfl rfl (hpc ▸ rfl) (fun k => by rw [hpc]; rfl) rfl rfl
  | joinPending hpc | joinReader hpc | joinWriter hpc =>
    exact placed_park hat ht (hpc ▸ rfl) (fun k => by rw [hpc]; rfl)
  | misuse hpc => exact absurd hpc (h.not_misused ht)
  | runlock hpc _ _ hnew =>
    refine placed_set hat ht rfl rfl ?_ (fun k => ?_) rfl rfl
    all_goals
      rw [hpc, hnew]
      split <;> rfl
  | unlock hpc =>
    exact placed_set hat ht rfl rfl (hpc ▸ rfl) (fun k => by rw [hpc]; rfl) rfl rfl
  | strand hpc hqueue => exact absurd hqueue (h.not_stranded ht hpc)
  | handOff hpc _ hqueue =>
    rcases hpc with hpc | ⟨hpc, -⟩ <;>
      exact placed_handOff hat ht (hpc ▸ rfl) (fun k => by rw [hpc]; rfl) hqueue
  | openReaders hpc => exact placed_openReaders hat ht (hpc ▸ rfl) (fun k => by rw [hpc]; rfl)
  | wake hpc hw =>
    obtain ⟨hwpc, hwkind⟩ := hat.parked_of_wakeList ht hpc hw
    exact placed_wake hat ht hpc hw hwpc hwkind

end

lemma Task.Woken.set (h : t.Woken) {pc : Pc} (hwait : pc.waiting = t.pc.waiting)
    (hearly : pc.early → t.pc.early) : Task.Woken { t with pc := pc } :=
  Parking.Woken.move h hwait hearly

lemma Move.early {pc : Pc} (h : Move s t pc) (hearly : pc.early) : t.pc.early = true := by
  cases h with
  | missed hpc => rcases hpc with ⟨_, hpc⟩ | hpc <;> rw [hpc] <;> rfl
  | readLoop hpc => rcases hpc with hpc | ⟨_, hpc⟩ <;> rw [hpc] <;> rfl
  | readRetry hpc | writeRetry hpc =>
    obtain ⟨_, hpc⟩ := hpc
    rw [hpc]
    rfl
  | resume | runlock | unlock | runlockLoop | unlockSlow | awake => cases hearly

lemma woken_taskStep (h : Kept s) (ht : s.tasks[i]? = some t) (hs : TaskStep s i t u) : ∀ t ∈ u.tasks, t.Woken := by
  have hold := h.woken t (mem_of_getElem? ht)
  have hset : ∀ {pc : Pc}, pc.waiting = t.pc.waiting → (pc.early → t.pc.early) →
      ∀ y ∈ s.tasks.set i { t with pc := pc }, y.Woken := fun hwait hearly =>
    forall_set h.woken (hold.set hwait hearly) i
  have hpark : ∀ {v : Word}, t.pc.early → ∀ y ∈ ({ s with state := v }.park i t).tasks, y.Woken := by
    intro v hearly
    rw [park_tasks]
    refine forall_set h.woken ?_ i
    unfold Task.Woken at hold
    rw [hearly] at hold
    exact hold.park
  cases hs with
  | move hmove => exact hset hmove.alike.waiting hmove.early
  | acquireRead hpc | acquireWrite hpc =>
    refine hset ?_ nofun
    rcases hpc with ⟨hpc, -⟩ | ⟨hpc, -⟩ <;> rw [hpc] <;> rfl
  | enter hpc _ hnew =>
    refine hset ?_ (fun _ => by rw [hpc]; rfl)
    rcases hnew with ⟨-, rfl⟩ | ⟨-, rfl⟩ <;> rw [hpc] <;> rfl
  | joinPending hpc => exact hpark (hpc ▸ rfl)
  | joinReader hpc | joinWriter hpc => exact hpark (hpc ▸ rfl)
  | misuse hpc => exact absurd hpc (h.not_misused ht)
  | runlock hpc _ _ hnew =>
    refine hset ?_ (fun he => ?_)
    · rw [hpc, hnew]
      split <;> rfl
    · rw [hnew] at he
      split at he <;> cases he
  | unlock hpc | strand hpc | openReaders hpc => exact hset (hpc ▸ rfl) nofun
  | handOff hpc =>
    refine hset ?_ nofun
    rcases hpc with hpc | ⟨hpc, -⟩ <;> rw [hpc] <;> rfl
  | @wake kind n rest w hpc hw =>
    have hgrant : Task.Woken { w with pc := .granted, wakes := w.wakes + 1 } := by
      have hwold := h.woken w (mem_of_getElem? hw)
      unfold Task.Woken at hwold
      rw [(h.placed.parked_of_wakeList ht hpc hw).1] at hwold
      exact hwold.wake
    exact forall_set (forall_set h.woken hgrant n) (hold.set (hpc ▸ rfl) (by rintro ⟨⟩)) i

lemma kept_start (h : Kept s) (kind : Kind) (awaits : Bool) :
    Kept { s with tasks := s.tasks ++ [start kind awaits] } := by
  have hnew : (start kind awaits).pc.inside = 0 ∧ (start kind awaits).pc.owns = 0 ∧
      (start kind awaits).pc.leaving = 0 ∧ (start kind awaits).pc.waiting = 0 ∧
      (∀ k, (start kind awaits).pc.carries k = []) ∧ (start kind awaits).pc.only = some kind := by
    cases kind <;> exact ⟨rfl, rfl, rfl, rfl, fun _ => rfl, rfl⟩
  obtain ⟨hin, howns, hleaving, hwait, hcar, honly⟩ := hnew
  refine ⟨{ h.sound with }, ⟨?_, fun k => ?_, ?_, ?_, ?_, ?_⟩, fun k => ?_, ?_⟩
  · rw [weight_concat, Task.count, hin]
    exact h.booked.inside
  · rw [weight_concat, Task.own, Task.carries, howns, hcar, ite_self]
    exact h.booked.own k
  · rw [weight_concat, Task.count, hleaving]
    exact h.booked.due
  · exact forall_append h.booked.typed fun k hk => Option.some.inj (honly.symm.trans hk)
  · exact forall_append h.booked.seen fun observed hpc => (by cases kind <;> cases hpc)
  · exact forall_append h.booked.held fun observed hpc => (by cases kind <;> cases hpc)
  · have hlot := (h.placed k).append (by rw [parkedAs, hwait, ite_self]) (hcar k)
    cases k <;> exact hlot
  · refine forall_append h.woken ?_
    unfold Task.Woken
    rw [hwait]
    exact Parking.Woken.start

lemma kept_step {a : Act} (h : Kept s) (hs : rwStep s a = some u) : Kept u := by
  rcases rwStep_cases hs with ⟨kind, awaits, rfl⟩ | ⟨i, t, ht, htask⟩
  · exact kept_start h kind awaits
  · exact ⟨sound_taskStep h ht htask, booked_taskStep h ht htask, placed_taskStep h ht htask, woken_taskStep h ht htask⟩

lemma kept_init : Kept {} := by
  refine ⟨⟨nofun, ⟨nofun, fun h => h.elim (absurd rfl) (absurd rfl)⟩,
    nofun, rfl, rfl⟩, ⟨rfl, fun k => (by cases k <;> rfl), rfl, nofun,
    nofun, nofun⟩, fun k => ?_, nofun⟩
  cases k <;> exact Lot.nil

lemma kept_of_reachable (hs : rwSystem.Reachable s) : Kept s := by
  refine hs.invariant (P := Kept) (fun s hinit => ?_) (fun s a u h _ hst => kept_step h hst)
  rw [show s = {} from hinit]
  exact kept_init

end Cio.RWMutex
