import Cio.WrapCounter
import Mathlib.Logic.Function.Basic

/-! Bounded FIFO rings over an array of cells, with a write index, a read index and a count. The
abstract value of a ring is a list: a write appends to it, a read takes its head. A ring of capacity
zero holds nothing and is never written. -/

namespace RingBuffer

open Function List Option

/-- A circular buffer. -/
structure FifoRing (α : Type) where
  capacity : ℕ
  count : ℕ := 0
  sendIndex : ℕ := 0
  recvIndex : ℕ := 0
  cell : ℕ → Option α := fun _ => none

namespace FifoRing

variable {α : Type}

def next (r : FifoRing α) (i : ℕ) : ℕ := if i + 1 = r.capacity then 0 else i + 1

def front (r : FifoRing α) : Option α := r.cell r.recvIndex

def put (r : FifoRing α) (x : Option α) : FifoRing α :=
  { r with
    cell := update r.cell r.sendIndex x
    sendIndex := r.next r.sendIndex
    count := r.count + 1 }

def drop (r : FifoRing α) : FifoRing α :=
  { r with
    cell := update r.cell r.recvIndex none
    recvIndex := r.next r.recvIndex
    count := r.count - 1 }

def contents (r : FifoRing α) : List (Option α) :=
  (range r.count).map fun i => r.cell ((r.recvIndex + i) % r.capacity)

/-- The ring holds `l`, from `recvIndex` on. -/
structure Holds (r : FifoRing α) (l : List α) : Prop where
  count : r.count = l.length
  le : r.count ≤ r.capacity
  recv : 0 < r.capacity → r.recvIndex < r.capacity
  send : 0 < r.capacity → r.sendIndex = (r.recvIndex + r.count) % r.capacity
  cells : ∀ i, i < l.length → r.cell ((r.recvIndex + i) % r.capacity) = l[i]?

lemma next_eq {r : FifoRing α} {i : ℕ} (hi : i < r.capacity) : r.next i = (i + 1) % r.capacity := by
  rw [next]
  split
  · rename_i heq
    rw [heq, Nat.mod_self]
  · rw [Nat.mod_eq_of_lt (by omega)]

namespace Holds

variable {r : FifoRing α} {l : List α}

lemma empty (capacity : ℕ) : Holds ({ capacity := capacity } : FifoRing α) [] :=
  ⟨rfl, Nat.zero_le _, id, fun _ => (Nat.zero_mod _).symm, nofun⟩

lemma contents_eq (h : Holds r l) : r.contents = l.map some := by
  apply ext_getElem?
  intro i
  rw [contents, getElem?_map, getElem?_map, h.count]
  by_cases hi : i < l.length
  · rw [getElem?_range hi, map_some, h.cells i hi, getElem?_eq_getElem hi, map_some]
  · rw [getElem?_eq_none (by simpa using hi), getElem?_eq_none (by omega)]
    rfl

lemma put (h : Holds r l) (hroom : r.count < r.capacity) (v : α) : Holds (r.put (some v)) (l ++ [v]) := by
  have hpos : 0 < r.capacity := by omega
  have hsend := h.send hpos
  have hcount := h.count
  refine ⟨?_, hroom, h.recv, fun _ => ?_, fun i hi => ?_⟩
  · rw [length_append, ← hcount]
    rfl
  · show r.next r.sendIndex = (r.recvIndex + (r.count + 1)) % r.capacity
    rw [next_eq (hsend ▸ Nat.mod_lt _ hpos), hsend, Nat.mod_add_mod, Nat.add_assoc]
  · show update r.cell r.sendIndex (some v) ((r.recvIndex + i) % r.capacity) = (l ++ [v])[i]?
    rw [length_append, length_singleton] at hi
    by_cases hlast : i < l.length
    · have hother : (r.recvIndex + i) % r.capacity ≠ r.sendIndex := by
        rw [hsend]
        exact (WrapCounter.mod_ne_of_near (by omega) (by omega)).symm
      rw [update_of_ne hother, getElem?_append_left hlast]
      exact h.cells i hlast
    · obtain rfl : i = l.length := by omega
      rw [← hcount, ← hsend, update_self, hcount, getElem?_concat_length]

lemma front {v : α} (h : Holds r (v :: l)) : r.front = some v := by
  have hcount := h.count
  have hle := h.le
  rw [length_cons] at hcount
  have hfirst := h.cells 0 (Nat.succ_pos _)
  rw [Nat.add_zero, Nat.mod_eq_of_lt (h.recv (by omega))] at hfirst
  exact hfirst

lemma drop {v : α} (h : Holds r (v :: l)) : Holds r.drop l := by
  have hcount := h.count
  have hle := h.le
  rw [length_cons] at hcount
  have hpos : 0 < r.capacity := by omega
  have hrecv := h.recv hpos
  have hnext : r.next r.recvIndex = (r.recvIndex + 1) % r.capacity := next_eq hrecv
  refine ⟨?_, ?_, fun _ => ?_, fun _ => ?_, fun i hi => ?_⟩
  · show r.count - 1 = l.length
    omega
  · show r.count - 1 ≤ r.capacity
    omega
  · show r.next r.recvIndex < r.capacity
    rw [hnext]
    exact Nat.mod_lt _ hpos
  · show r.sendIndex = (r.next r.recvIndex + (r.count - 1)) % r.capacity
    rw [hnext, Nat.mod_add_mod, h.send hpos]
    congr 1
    omega
  · show update r.cell r.recvIndex none ((r.next r.recvIndex + i) % r.capacity) = l[i]?
    rw [hnext, Nat.mod_add_mod, Nat.add_assoc, Nat.add_comm 1]
    have hother : (r.recvIndex + (i + 1)) % r.capacity ≠ r.recvIndex := by
      have hne := WrapCounter.mod_ne_of_near (c := r.capacity) (m := r.recvIndex + (i + 1))
        (n := r.recvIndex) (by omega) (by omega)
      rwa [Nat.mod_eq_of_lt hrecv] at hne
    rw [update_of_ne hother, h.cells (i + 1) (by rw [length_cons]; omega), getElem?_cons_succ]

end Holds

end FifoRing

end RingBuffer
