import Cio.RWMutexModel

/-! The books of the reader-writer lock: the word counts the owners of both kinds, those that are still being
handed the lock included; the pending bit says that somebody waits; and one call at most has a hand-off due. -/

namespace Cio.RWMutex

open CallPool Parking RWMutex.Task List Word

/-! ### What a program counter stands for -/

namespace Pc

def inside : Pc → Nat
  | .readRetry _ | .writeRetry _ => 1
  | .readLoad | .readLoop _ | .writeExchange | .suspend | .parked | .granted | .holding | .runlockLoad
  | .runlockLoop _ | .runlockSlow | .unlockExchange | .unlockSlow | .wakeList _ _ | .returned _ => 0

def owns : Pc → Nat
  | .granted | .holding | .runlockLoad | .runlockLoop _ | .unlockExchange | .unlockSlow => 1
  | .readLoad | .readLoop _ | .writeExchange | .suspend | .readRetry _ | .writeRetry _ | .parked | .runlockSlow
  | .wakeList _ _ | .returned _ => 0

def leaving : Pc → Nat
  | .runlockSlow => 1
  | .readLoad | .readLoop _ | .writeExchange | .suspend | .readRetry _ | .writeRetry _ | .parked | .granted
  | .holding | .runlockLoad | .runlockLoop _ | .unlockExchange | .unlockSlow | .wakeList _ _ | .returned _ => 0

def waiting : Pc → Nat
  | .parked => 1
  | .readLoad | .readLoop _ | .writeExchange | .suspend | .readRetry _ | .writeRetry _ | .granted | .holding
  | .runlockLoad | .runlockLoop _ | .runlockSlow | .unlockExchange | .unlockSlow | .wakeList _ _
  | .returned _ => 0

/-- The waiters of kind `k` the call has still to wake. -/
def carries (k : Kind) : Pc → List Nat
  | .wakeList kind nodes => if kind = k then nodes else []
  | .readLoad | .readLoop _ | .writeExchange | .suspend | .readRetry _ | .writeRetry _ | .parked | .granted
  | .holding | .runlockLoad | .runlockLoop _ | .runlockSlow | .unlockExchange | .unlockSlow | .returned _ => []

def only : Pc → Option Kind
  | .readLoad | .readLoop _ | .readRetry _ | .runlockLoad | .runlockLoop _ | .runlockSlow => some .read
  | .writeExchange | .writeRetry _ | .unlockExchange | .unlockSlow => some .write
  | .suspend | .parked | .granted | .holding | .wakeList _ _ | .returned _ => none

def early : Pc → Bool
  | .readLoad | .readLoop _ | .writeExchange | .suspend | .readRetry _ | .writeRetry _ => true
  | .parked | .granted | .holding | .runlockLoad | .runlockLoop _ | .runlockSlow | .unlockExchange | .unlockSlow
  | .wakeList _ _ | .returned _ => false

end Pc

namespace Task

def count (f : Pc → Nat) (t : Task) : Nat := f t.pc

def parkedAs (k : Kind) (t : Task) : Nat := if t.kind = k then t.pc.waiting else 0

def carries (k : Kind) (t : Task) : List Nat := t.pc.carries k

/-- How often the call has the lock as kind `k`, for itself or for the waiters it is going to wake. -/
def own (k : Kind) (t : Task) : Nat := (if t.kind = k then t.pc.owns else 0) + (t.carries k).length

end Task

def Word.owners (k : Kind) (w : Word) : Nat :=
  match k with
  | .read => w.readers
  | .write => w.writer.toNat

def State.waiters (s : State) : Kind → List Nat
  | .read => s.readWaiters
  | .write => s.writeWaiters

/-! ### The invariant -/

/-- The word agrees with the queues. -/
structure Sound (s : State) : Prop where
  excl : s.state.writer = true → s.state.readers = 0
  pending : s.state.pending = true ↔ s.readWaiters ≠ [] ∨ s.writeWaiters ≠ []
  queued : s.state.writer = false → s.state.pending = true → s.writeWaiters ≠ []
  counted : s.waitingWriters = s.writeWaiters.length
  stranded : s.stranded = false

/-- What the calls have to do with it. A pending bit that was seen under the queue lock is still there, and a
reader that leaves has seen readers. -/
structure Booked (s : State) : Prop where
  inside : weight (Task.count Pc.inside) s.tasks = s.locked.toNat
  own : ∀ k, weight (own k) s.tasks = s.state.owners k
  due : weight (Task.count Pc.leaving) s.tasks = s.state.due.toNat
  typed : ∀ t ∈ s.tasks, ∀ k, t.pc.only = some k → t.kind = k
  seen : ∀ t ∈ s.tasks, ∀ observed, t.pc = .readRetry observed → observed.pending = true →
    s.state.pending = true
  held : ∀ t ∈ s.tasks, ∀ observed, t.pc = .runlockLoop observed →
    observed.writer = false ∧ 0 < observed.readers

def Placed (s : State) : Prop := ∀ k, Lot (parkedAs k) (carries k) (s.waiters k) s.tasks

def Task.Woken (t : Task) : Prop := Parking.Woken t.waited t.wakes t.pc.waiting t.pc.early

structure Kept (s : State) : Prop where
  sound : Sound s
  booked : Booked s
  placed : Placed s
  woken : ∀ t ∈ s.tasks, t.Woken

variable {t : Task} {s : State} {i : Nat} {pc : Pc} {w : Word}

lemma Word.due_eq (h : w.due) : w = { pending := true } := by
  rw [due, beq_iff_eq] at h
  exact h

lemma Word.due_false (h : w.writer ∨ w.pending = false ∨ 0 < w.readers) : w.due = false := by
  rw [Bool.eq_false_iff]
  intro hdue
  rw [due_eq hdue] at h
  simp at h

lemma Word.mark_due (h : w ≠ {}) : w.mark.due = w.due := by
  cases hdue : w.due with
  | true =>
    rw [due_eq hdue]
    rfl
  | false =>
    refine due_false ?_
    by_contra hnot
    obtain ⟨hwr, hrs⟩ : w.writer = false ∧ w.readers = 0 := by
      simpa [mark] using hnot
    obtain ⟨writer, pending, readers⟩ := w
    cases hwr
    cases hrs
    cases pending with
    | true => cases hdue
    | false => exact h rfl

/-! ### Owners -/

section

variable (h : Booked s)

include h

lemma Booked.le_owners (ht : s.tasks[i]? = some t) (k : Kind) : t.own k ≤ s.state.owners k := by
  rw [← h.own k]
  exact le_weight (Task.own k) (mem_of_getElem? ht)

lemma Booked.reading (hsound : Sound s) (ht : s.tasks[i]? = some t) (hkind : t.kind = .read) (howns : t.pc.owns = 1) :
    s.state.writer = false ∧ 0 < s.state.readers := by
  have hle := h.le_owners ht .read
  rw [Task.own, if_pos hkind, howns, Word.owners] at hle
  have hpos : 0 < s.state.readers := by omega
  refine ⟨?_, hpos⟩
  rw [Bool.eq_false_iff]
  intro hwr
  rw [hsound.excl hwr] at hpos
  exact lt_irrefl 0 hpos

lemma Booked.writing (ht : s.tasks[i]? = some t)
    (hkind : t.kind = .write) (howns : t.pc.owns = 1) : s.state.writer = true := by
  have hle := h.le_owners ht .write
  rw [Task.own, if_pos hkind, howns, Word.owners] at hle
  cases hwr : s.state.writer with
  | true => rfl
  | false =>
    rw [hwr] at hle
    exact absurd hle (by simp)

lemma Booked.leaving (ht : s.tasks[i]? = some t) (hpc : t.pc = .runlockSlow) : s.state = { pending := true } := by
  have hle := le_weight (Task.count Pc.leaving) (mem_of_getElem? ht)
  rw [h.due, Task.count, hpc] at hle
  cases hdue : s.state.due with
  | true => exact due_eq hdue
  | false =>
    rw [hdue] at hle
    cases hle

lemma Booked.locked (ht : s.tasks[i]? = some t) (hin : t.pc.inside = 1) : s.locked = true := by
  exact locked_of_weight h.inside (mem_of_getElem? ht) hin

lemma Booked.kind_eq {k : Kind} (ht : s.tasks[i]? = some t)
    (honly : t.pc.only = some k) : t.kind = k := h.typed t (mem_of_getElem? ht) k honly

end

/-! ### One call advances -/

/-- The books after one call has advanced. A pending bit may only go while nobody is inside the queue lock. -/
lemma Booked.set {u : State} (h : Booked s) {t' : Task} (ht : s.tasks[i]? = some t)
    (htasks : u.tasks = s.tasks.set i t') (hin : u.locked.toNat + t.pc.inside = s.locked.toNat + t'.pc.inside)
    (hown : ∀ k, u.state.owners k + t.own k = s.state.owners k + t'.own k)
    (hdue : u.state.due.toNat + t.pc.leaving = s.state.due.toNat + t'.pc.leaving)
    (htyped : ∀ k, t'.pc.only = some k → t'.kind = k)
    (hseen : ∀ observed, t'.pc = .readRetry observed → observed.pending → u.state.pending)
    (hheld : ∀ observed, t'.pc = .runlockLoop observed → observed.writer = false ∧ 0 < observed.readers)
    (hkeep : s.state.pending → s.locked → u.state.pending) : Booked u := by
  refine ⟨?_, fun k => ?_, ?_, htasks ▸ forall_set h.typed htyped i, htasks ▸ forall_set ?_ hseen i,
    htasks ▸ forall_set h.held hheld i⟩
  · exact weight_of_set ht htasks h.inside hin
  · exact weight_of_set ht htasks (h.own k) (hown k)
  · exact weight_of_set ht htasks h.due hdue
  · intro y hold observed hpc hpend
    refine hkeep (h.seen y hold observed hpc hpend) (locked_of_weight h.inside hold ?_)
    rw [Task.count, hpc]
    rfl

structure Pc.Alike (pc pc' : Pc) : Prop where
  inside : pc.inside = pc'.inside
  owns : pc.owns = pc'.owns
  leaving : pc.leaving = pc'.leaving
  waiting : pc.waiting = pc'.waiting
  carries : ∀ k, pc.carries k = pc'.carries k

lemma Move.alike (h : Move s t pc) : pc.Alike t.pc := by
  cases h with
  | missed hpc =>
    unfold Task.missed
    rcases hpc with ⟨observed, hpc⟩ | hpc <;> rw [hpc] <;> split <;> exact ⟨rfl, rfl, rfl, rfl, fun _ => rfl⟩
  | readLoop hpc | runlockLoop hpc =>
    rcases hpc with hpc | ⟨observed, hpc⟩ <;> rw [hpc] <;> exact ⟨rfl, rfl, rfl, rfl, fun _ => rfl⟩
  | readRetry hpc | writeRetry hpc =>
    obtain ⟨observed, hpc⟩ := hpc
    rw [hpc]
    exact ⟨rfl, rfl, rfl, rfl, fun _ => rfl⟩
  | resume hpc | runlock hpc | unlock hpc | unlockSlow hpc =>
    rw [hpc]
    exact ⟨rfl, rfl, rfl, rfl, fun _ => rfl⟩
  | awake hpc =>
    rw [hpc]
    exact ⟨rfl, rfl, rfl, rfl, fun k => by simp [Pc.carries]⟩

lemma Pc.Alike.own (h : pc.Alike t.pc) (k : Kind) : own k { t with pc := pc } = t.own k := by
  simp only [Task.own, Task.carries, h.owns, h.carries k]

lemma Move.typed (h : Move s t pc) (hold : ∀ k, t.pc.only = some k → t.kind = k)
    (k : Kind) (honly : pc.only = some k) : t.kind = k := by
  cases h with
  | missed =>
    unfold Task.missed at honly
    split at honly <;> cases honly
  | readLoop hpc | runlockLoop hpc =>
    cases honly
    rcases hpc with hpc | ⟨observed, hpc⟩ <;> exact hold .read (hpc ▸ rfl)
  | readRetry hpc =>
    cases honly
    obtain ⟨observed, hpc⟩ := hpc
    exact hold .read (hpc ▸ rfl)
  | writeRetry hpc =>
    cases honly
    obtain ⟨observed, hpc⟩ := hpc
    exact hold .write (hpc ▸ rfl)
  | runlock hpc hkind | unlock hpc hkind =>
    cases honly
    exact hkind
  | unlockSlow hpc =>
    cases honly
    exact hold .write (hpc ▸ rfl)
  | resume | awake => cases honly

lemma booked_move (h : Booked s) (hsound : Sound s)
    (ht : s.tasks[i]? = some t) (hmove : Move s t pc) : Booked (s.setPc i t pc) := by
  have halike := hmove.alike
  refine h.set ht rfl ?_ (fun k => ?_) ?_ (fun k => ?_) ?_ ?_ (fun hold _ => hold)
  · rw [halike.inside]
    rfl
  · rw [halike.own k]
    rfl
  · rw [halike.leaving]
    rfl
  · exact hmove.typed (fun k => h.typed t (mem_of_getElem? ht) k) k
  · intro observed hpc hpend
    have hpc : pc = .readRetry observed := hpc
    cases hmove with
    | readRetry =>
      cases hpc
      exact hpend
    | missed =>
      unfold missed at hpc
      split at hpc <;> cases hpc
    | readLoop | writeRetry | resume | runlock | unlock | runlockLoop | unlockSlow | awake => cases hpc
  · intro observed hpc
    have hpc : pc = .runlockLoop observed := hpc
    cases hmove with
    | runlockLoop hold =>
      cases hpc
      refine h.reading hsound ht (h.kind_eq ht ?_) ?_
      · rcases hold with hold | ⟨_, hold⟩ <;> rw [hold] <;> rfl
      · rcases hold with hold | ⟨_, hold⟩ <;> rw [hold] <;> rfl
    | missed =>
      unfold missed at hpc
      split at hpc <;> cases hpc
    | readLoop | readRetry | writeRetry | resume | runlock | unlock | unlockSlow | awake => cases hpc

end Cio.RWMutex
