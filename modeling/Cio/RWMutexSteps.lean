import Cio.RWMutexKept

/-! Every step of a call keeps the books of the reader-writer lock. -/

namespace Cio.RWMutex

open CallPool State List

/-! ### Owners come and go -/

variable {t w : Task} {i n : Nat} {s : State} {locked : Bool} {rest : List Nat} {kind : Kind} {pc : Pc}

lemma booked_acquireRead (h : Booked s) (ht : s.tasks[i]? = some t)
    (hpc : t.pc = .readLoop s.state ∧ locked = s.locked ∨ t.pc = .readRetry s.state ∧ locked = false)
    (hopen : s.state.closed = false) :
    Booked ({ s with state := s.state.addReader, locked := locked }.setPc i t .holding) := by
  obtain ⟨hwr, hpend⟩ := Word.closed_of_pending hopen
  have hkind : t.kind = .read := by
    refine h.kind_eq ht ?_
    rcases hpc with ⟨hpc, -⟩ | ⟨hpc, -⟩ <;> rw [hpc] <;> rfl
  have hbooks : t.pc.owns = 0 ∧ t.pc.leaving = 0 ∧ ∀ k, t.pc.carries k = [] := by
    rcases hpc with ⟨hpc, -⟩ | ⟨hpc, -⟩ <;> rw [hpc] <;> exact ⟨rfl, rfl, fun _ => rfl⟩
  refine h.set ht rfl ?_ (fun k => ?_) ?_ nofun (by simp) (by simp) (fun hold _ => hold)
  · rcases hpc with ⟨hpc, rfl⟩ | ⟨hpc, rfl⟩
    · rw [hpc]
      rfl
    · rw [h.locked ht (hpc ▸ rfl), hpc]
      rfl
  · simp only [Task.own, Task.carries, hbooks.1, hbooks.2.2, hkind]
    cases k <;> rfl
  · rw [hbooks.2.1, Word.due_false (.inr (.inl hpend))]
    rw [Word.due_false (.inr (.inr (Nat.succ_pos _)))]
    rfl

lemma sound_acquireWrite (h : Sound s) (hfree : s.state = {}) :
    Sound ({ s with state := { writer := true }, locked := locked }.setPc i t .holding) := by
  have hpend := h.pending
  rw [hfree] at hpend
  exact { h with
    excl := fun _ => rfl
    pending := hpend
    queued := by rintro ⟨⟩ }

section

variable (h : Booked s) (ht : s.tasks[i]? = some t)

include h ht

lemma booked_acquireWrite
    (hpc : t.pc = .writeExchange ∧ locked = s.locked ∨ t.pc = .writeRetry s.state ∧ locked = false)
    (hfree : s.state = {}) : Booked ({ s with state := { writer := true }, locked := locked }.setPc i t .holding) := by
  have hkind : t.kind = .write := by
    refine h.kind_eq ht ?_
    rcases hpc with ⟨hpc, -⟩ | ⟨hpc, -⟩ <;> rw [hpc] <;> rfl
  have hbooks : t.pc.owns = 0 ∧ t.pc.leaving = 0 ∧ ∀ k, t.pc.carries k = [] := by
    rcases hpc with ⟨hpc, -⟩ | ⟨hpc, -⟩ <;> rw [hpc] <;> exact ⟨rfl, rfl, fun _ => rfl⟩
  refine h.set ht rfl ?_ (fun k => ?_) ?_ nofun (by simp) (by simp) (fun hold _ => ?_)
  · rcases hpc with ⟨hpc, rfl⟩ | ⟨hpc, rfl⟩
    · rw [hpc]
      rfl
    · rw [h.locked ht (hpc ▸ rfl), hpc]
      rfl
  · simp only [Task.own, Task.carries, hbooks.1, hbooks.2.2, hkind, hfree]
    cases k <;> rfl
  · rw [hbooks.2.1, hfree]
    rfl
  · rw [hfree] at hold
    cases hold

lemma booked_enter (hpc : t.pc = .suspend) (hfree : s.locked = false)
    (hnew : t.kind = .read ∧ pc = .readRetry s.state ∨ t.kind = .write ∧ pc = .writeRetry s.state) :
    Booked ({ s with locked := true }.setPc i t pc) := by
  have hbooks : pc.inside = 1 ∧ pc.owns = 0 ∧ pc.leaving = 0 ∧ (∀ k, pc.carries k = []) ∧
      pc.only = some t.kind := by
    rcases hnew with ⟨hkind, rfl⟩ | ⟨hkind, rfl⟩ <;> rw [hkind] <;> exact ⟨rfl, rfl, rfl, fun _ => rfl, rfl⟩
  refine h.set ht rfl ?_ (fun k => ?_) ?_ (fun k honly => ?_) (fun observed hnew' hpend => ?_)
    (fun observed hnew' => ?_) (fun hold _ => hold)
  · rw [hpc, hfree, hbooks.1]
    rfl
  · simp only [Task.own, Task.carries, hpc, hbooks.2.1, hbooks.2.2.2.1]
    rfl
  · rw [hpc, hbooks.2.2.1]
    rfl
  · exact Option.some.inj (hbooks.2.2.2.2.symm.trans honly)
  · rcases hnew with ⟨-, rfl⟩ | ⟨-, rfl⟩ <;> cases hnew'
    exact hpend
  · rcases hnew with ⟨-, rfl⟩ | ⟨-, rfl⟩ <;> cases hnew'

lemma booked_runlock (hpc : t.pc = .runlockLoop s.state) (hrs : 0 < s.state.readers)
    (hnew : pc = if s.state.dropReader.due then .runlockSlow else .returned true) :
    Booked ({ s with state := s.state.dropReader }.setPc i t pc) := by
  have hkind : t.kind = .read := h.kind_eq ht (hpc ▸ rfl)
  have hbooks : pc.inside = 0 ∧ pc.owns = 0 ∧ pc.leaving = s.state.dropReader.due.toNat ∧
      (∀ k, pc.carries k = []) ∧ ∀ k, pc.only = some k → k = .read := by
    rw [hnew]
    cases s.state.dropReader.due with
    | true => exact ⟨rfl, rfl, rfl, fun _ => rfl, fun k hk => (Option.some.inj hk).symm⟩
    | false => exact ⟨rfl, rfl, rfl, fun _ => rfl, nofun⟩
  have hdone : ∀ observed, pc ≠ .readRetry observed ∧ pc ≠ .runlockLoop observed := by
    intro observed
    rw [hnew]
    split <;> simp
  refine h.set ht rfl ?_ (fun k => ?_) ?_ (fun k honly => ?_) (fun observed hnew' => ?_) (fun observed hnew' => ?_)
    (fun hold _ => hold)
  · rw [hpc, hbooks.1]
    rfl
  · simp only [Task.own, Task.carries, hpc, hbooks.2.1, hbooks.2.2.2.1, hkind]
    cases k with
    | read =>
      show s.state.readers - 1 + (1 + 0) = s.state.readers + (0 + 0)
      omega
    | write => rfl
  · rw [hpc, hbooks.2.2.1, Word.due_false (.inr (.inr hrs))]
    show s.state.dropReader.due.toNat + 0 = 0 + s.state.dropReader.due.toNat
    omega
  · rw [hbooks.2.2.2.2 k honly]
    exact hkind
  · exact absurd hnew' (hdone observed).1
  · exact absurd hnew' (hdone observed).2

end

lemma sound_unlock (h : Sound s) (hstate : s.state = { writer := true }) :
    Sound ({ s with state := {} }.setPc i t (.returned true)) := by
  have hpend := h.pending
  rw [hstate] at hpend
  exact { h with
    excl := nofun
    pending := hpend
    queued := nofun }

lemma booked_unlock (h : Booked s) (ht : s.tasks[i]? = some t)
    (hpc : t.pc = .unlockExchange) (hstate : s.state = { writer := true }) :
    Booked ({ s with state := {} }.setPc i t (.returned true)) := by
  have hkind : t.kind = .write := h.kind_eq ht (hpc ▸ rfl)
  refine h.set ht rfl ?_ (fun k => ?_) ?_ nofun (by simp) (by simp) (fun hold _ => ?_)
  · rw [hpc]
    rfl
  · simp only [Task.own, Task.carries, hpc, hkind, hstate]
    cases k <;> rfl
  · rw [hpc, hstate]
    rfl
  · rw [hstate] at hold
    cases hold

/-! ### Parking -/

lemma park_read (s : State) (i : Nat) (hkind : t.kind = .read) :
    s.park i t = { s with locked := false, readWaiters := i :: s.readWaiters }.setTask i
      { t with pc := .parked, waited := true } := by
  simp only [park, hkind]

lemma park_write (s : State) (i : Nat) (hkind : t.kind = .write) : s.park i t = { s with
      locked := false
      waitingWriters := s.waitingWriters + 1
      writeWaiters := i :: s.writeWaiters
      joined := s.joined ++ [i] }.setTask i { t with pc := .parked, waited := true } := by
  simp only [park, hkind]

lemma park_tasks (s : State) (i : Nat) (t : Task) :
    (s.park i t).tasks = s.tasks.set i { t with pc := .parked, waited := true } := by
  unfold park
  cases t.kind <;> rfl

lemma park_state (s : State) (i : Nat) (t : Task) : (s.park i t).state = s.state := by
  unfold park
  cases t.kind <;> rfl

lemma park_locked (s : State) (i : Nat) (t : Task) : (s.park i t).locked = false := by
  unfold park
  cases t.kind <;> rfl

lemma booked_park (h : Booked s) {v : Word} (ht : s.tasks[i]? = some t)
    (hpc : (∃ observed, t.pc = .readRetry observed) ∨ ∃ observed, t.pc = .writeRetry observed)
    (howners : ∀ k, v.owners k = s.state.owners k) (hdue : v.due = s.state.due)
    (hpend : v.pending) : Booked ({ s with state := v }.park i t) := by
  have hbooks : t.pc.inside = 1 ∧ t.pc.owns = 0 ∧ t.pc.leaving = 0 ∧ ∀ k, t.pc.carries k = [] := by
    rcases hpc with ⟨observed, hpc⟩ | ⟨observed, hpc⟩ <;> rw [hpc] <;> exact ⟨rfl, rfl, rfl, fun _ => rfl⟩
  refine h.set ht (park_tasks _ i t) ?_ (fun k => ?_) ?_ nofun (by simp) (by simp) (fun _ _ => ?_)
  · rw [park_locked, h.locked ht hbooks.1, hbooks.1]
    rfl
  · simp only [park_state, howners, Task.own, Task.carries, hbooks.2.1, hbooks.2.2.2]
    rfl
  · rw [park_state, hdue, hbooks.2.2.1]
    rfl
  · rw [park_state]
    exact hpend

lemma sound_parkRead (h : Sound s) {v : Word} (hkind : t.kind = .read) (hwr : v.writer = s.state.writer)
    (hrs : v.readers = s.state.readers) (hpend : v.pending) (hq : s.state.writer = false → s.writeWaiters ≠ []) :
    Sound ({ s with state := v }.park i t) := by
  rw [park_read _ i hkind]
  exact {
    excl := fun hw => hrs.trans (h.excl (hwr.symm.trans hw))
    pending := ⟨fun _ => .inl (cons_ne_nil i _), fun _ => hpend⟩
    queued := fun hw _ => hq (hwr.symm.trans hw)
    counted := h.counted
    stranded := h.stranded }

lemma sound_parkWrite (h : Sound s) {word : Word} (hkind : t.kind = .write) (hwr : word.writer = s.state.writer)
    (hrs : word.readers = s.state.readers) (hpend : word.pending) : Sound ({ s with state := word }.park i t) := by
  rw [park_write _ i hkind]
  exact {
    excl := fun hw => hrs.trans (h.excl (hwr.symm.trans hw))
    pending := ⟨fun _ => .inr (cons_ne_nil i _), fun _ => hpend⟩
    queued := fun _ _ => cons_ne_nil i _
    counted := congrArg (· + 1) h.counted
    stranded := h.stranded }

/-! ### Handing over -/

lemma sound_handOff (h : Sound s) (hqueue : s.writeWaiters = n :: rest) : Sound (s.handOff i n rest t) := by
  have hcnt : s.waitingWriters - 1 = rest.length := by
    rw [h.counted, hqueue]
    rfl
  refine ⟨fun _ => rfl, ?_, nofun, hcnt, h.stranded⟩
  show decide (s.waitingWriters - 1 ≠ 0 ∨ s.readWaiters ≠ []) ↔ s.readWaiters ≠ [] ∨ rest ≠ []
  rw [decide_eq_true_iff, hcnt, length_eq_zero_iff.ne]
  exact or_comm

lemma booked_handOff (h : Booked s) (hsound : Sound s)
    (ht : s.tasks[i]? = some t) (hpc : t.pc = .runlockSlow ∨ t.pc = .unlockSlow ∧ s.state.writer)
    (hfree : s.locked = false) : Booked (s.handOff i n rest t) := by
  refine h.set ht rfl ?_ (fun k => ?_) ?_ nofun (by simp) (by simp) (fun _ hlock => ?_)
  · rcases hpc with hpc | ⟨hpc, -⟩ <;> rw [hpc] <;> rfl
  · rcases hpc with hpc | ⟨hpc, hwr⟩
    · have hkind : t.kind = .read := h.kind_eq ht (hpc ▸ rfl)
      simp only [Task.own, Task.carries, hpc, hkind, h.leaving ht hpc]
      cases k <;> rfl
    · have hkind : t.kind = .write := h.kind_eq ht (hpc ▸ rfl)
      simp only [Task.own, Task.carries, hpc, hkind]
      cases k with
      | read =>
        show 0 + (0 + 0) = s.state.readers + (0 + 0)
        rw [hsound.excl hwr]
      | write =>
        show 1 + (1 + 0) = s.state.writer.toNat + (0 + 1)
        rw [hwr]
        rfl
  · have hnew : (s.handOff i n rest t).state.due = false := Word.due_false (.inl rfl)
    rcases hpc with hpc | ⟨hpc, hwr⟩
    · rw [hnew, h.leaving ht hpc, hpc]
      rfl
    · rw [hnew, Word.due_false (.inl hwr), hpc]
      rfl
  · rw [hfree] at hlock
    cases hlock

lemma sound_openReaders (h : Sound s) (hqueue : s.writeWaiters = []) :
    Sound ({ s with readWaiters := [], state := { readers := s.readWaiters.length } }.setPc i t
      (.wakeList .read s.readWaiters)) :=
  { excl := nofun
    pending := ⟨nofun, fun hne => hne.elim (absurd rfl) (absurd hqueue)⟩
    queued := nofun
    counted := h.counted
    stranded := h.stranded }

lemma booked_openReaders (h : Booked s) (hsound : Sound s)
    (ht : s.tasks[i]? = some t) (hpc : t.pc = .unlockSlow) (hwr : s.state.writer) (hfree : s.locked = false) :
    Booked ({ s with readWaiters := [], state := { readers := s.readWaiters.length } }.setPc i t
      (.wakeList .read s.readWaiters)) := by
  have hkind : t.kind = .write := h.kind_eq ht (hpc ▸ rfl)
  refine h.set ht rfl ?_ (fun k => ?_) ?_ nofun (by simp) (by simp) (fun _ hlock => ?_)
  · rw [hpc]
    rfl
  · simp only [Task.own, Task.carries, hpc, hkind]
    cases k with
    | read =>
      show s.readWaiters.length + (0 + 0) = s.state.readers + (0 + s.readWaiters.length)
      rw [hsound.excl hwr]
      omega
    | write =>
      show 0 + (1 + 0) = s.state.writer.toNat + (0 + 0)
      rw [hwr]
      rfl
  · rw [Word.due_false (.inl hwr), hpc]
    rfl
  · rw [hfree] at hlock
    cases hlock

/-! ### Waking -/

lemma Placed.parked_of_wakeList (h : Placed s) (ht : s.tasks[i]? = some t) (hpc : t.pc = .wakeList kind (n :: rest))
    (hw : s.tasks[n]? = some w) : w.pc = .parked ∧ w.kind = kind := by
  have hmem : n ∈ t.carries kind := by
    rw [Task.carries, hpc, Pc.carries, if_pos rfl]
    exact mem_cons_self
  have hpark := (h kind).parked_pos ht hmem hw
  rw [Task.parkedAs] at hpark
  split at hpark
  · refine ⟨?_, ‹_›⟩
    cases hwpc : w.pc with
    | parked => rfl
    | _ =>
      rw [hwpc] at hpark
      cases hpark
  · cases hpark

lemma ne_of_parked {nodes : List Nat} (ht : s.tasks[i]? = some t) (hpc : t.pc = .wakeList kind nodes)
    (hw : s.tasks[n]? = some w) (hwpc : w.pc = .parked) : n ≠ i :=
  ne_of_lookup Task.pc ht hw (by simp [hpc, hwpc])

lemma booked_wake (h : Booked s) (ht : s.tasks[i]? = some t) (hpc : t.pc = .wakeList kind (n :: rest))
    (hw : s.tasks[n]? = some w) (hwpc : w.pc = .parked) (hwkind : w.kind = kind) :
    Booked ((s.setTask n { w with pc := .granted, wakes := w.wakes + 1 }).setPc i t (.wakeList kind rest)) := by
  have hset := fun f => weight_set_set f ht hw (ne_of_parked ht hpc hw hwpc) { t with pc := .wakeList kind rest }
    { w with pc := .granted, wakes := w.wakes + 1 }
  refine ⟨?_, fun k => ?_, ?_, forall_set (forall_set h.typed (by nofun) n) (by nofun) i,
    forall_set (forall_set h.seen (by nofun) n) (by nofun) i, forall_set (forall_set h.held (by nofun) n) (by nofun) i⟩
  · have hsame := hset (Task.count Pc.inside)
    simp only [Task.count, hpc, hwpc, Pc.inside] at hsame
    refine Eq.trans ?_ h.inside
    simp only [setPc, setTask]
    omega
  · have hsame := hset (Task.own k)
    have hcarrier : t.own k = Task.own k { t with pc := .wakeList kind rest } + if kind = k then 1 else 0 := by
      simp only [Task.own, Task.carries, hpc, Pc.owns, Pc.carries, ite_self, Nat.zero_add]
      split <;> simp
    have hwaiter : w.own k = 0 := by
      simp [Task.own, Task.carries, hwpc, Pc.owns, Pc.carries]
    have hgranted : Task.own k { w with pc := .granted, wakes := w.wakes + 1 } = if kind = k then 1 else 0 := by
      simp [Task.own, Task.carries, hwkind, Pc.owns, Pc.carries]
    refine Eq.trans ?_ (h.own k)
    simp only [setPc, setTask]
    omega
  · have hsame := hset (Task.count Pc.leaving)
    simp only [Task.count, hpc, hwpc, Pc.leaving] at hsame
    refine Eq.trans ?_ h.due
    simp only [setPc, setTask]
    omega

end Cio.RWMutex
