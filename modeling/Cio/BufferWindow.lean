import Mathlib.Data.List.Range
import Mathlib.Data.List.GetD

/-! A buffer that is written in pieces and read through windows. Several parties may stage
their data in one buffer; what a window shows after a write is what decides whether they may. -/

namespace Buffer

open List

variable {α : Type*}

/-- The buffer after `bytes` were stored from index 0 on. -/
def overwrite (buf : ℕ → α) (bytes : List α) : ℕ → α := fun i => bytes.getD i (buf i)

/-- The contents from index `a` up to, not including, `b`. -/
def window (buf : ℕ → α) (a b : ℕ) : List α := (range' a (b - a)).map buf

variable (buf : ℕ → α)

@[simp] lemma window_self (a : ℕ) : window buf a a = [] := by
  simp [window]

variable {a b : ℕ}

lemma window_append {c : ℕ} (hab : a ≤ b) (hbc : b ≤ c) : window buf a b ++ window buf b c = window buf a c := by
  have hsplit : c - a = (b - a) + (c - b) := by omega
  have hstart : a + (b - a) = b := by omega
  rw [window, window, window, ← map_append, hsplit, ← range'_append_1, hstart]

lemma window_overwrite (bytes : List α) : window (overwrite buf bytes) 0 bytes.length = bytes := by
  apply ext_getElem
  · simp [window]
  · intro i hi hi'
    simp [window, overwrite, hi']

lemma length_window (a b : ℕ) : (window buf a b).length = b - a := by
  simp [window]

lemma window_congr {buf other : ℕ → α} (h : ∀ i, a ≤ i → i < b → buf i = other i) :
    window buf a b = window other a b := by
  apply map_congr_left
  intro i hi
  obtain ⟨hge, hlt⟩ := mem_range'_1.mp hi
  exact h i hge (by omega)

lemma take_window {c : ℕ} (hab : a ≤ b) (hbc : b ≤ c) : (window buf a c).take (b - a) = window buf a b := by
  rw [← window_append buf hab hbc, ← length_window buf a b, take_left]

/-- The buffer after `bytes` were stored from index `a` on. -/
def store (buf : ℕ → α) (a : ℕ) (bytes : List α) : ℕ → α :=
  fun i => if a ≤ i then bytes.getD (i - a) (buf i) else buf i

lemma window_store (hab : a ≤ b) (bytes : List α) :
    window (store buf b bytes) a (b + bytes.length) = window buf a b ++ bytes := by
  rw [← window_append _ hab (Nat.le_add_right b _)]
  congr 1
  · apply window_congr
    intro i _ hlt
    rw [store, if_neg (not_le.mpr hlt)]
  · apply ext_getElem
    · simp [window]
    · intro i hi hi'
      simp [window, store, hi']

/-- Copies `n` cells from `src` on to `dst` on, the lowest first. -/
def copyN (buf : ℕ → α) (src dst : ℕ) : ℕ → ℕ → α
  | 0 => buf
  | n + 1 => fun i => if i = dst + n then copyN buf src dst n (src + n) else copyN buf src dst n i

lemma copyN_apply {src dst : ℕ} (h : dst ≤ src) (n i : ℕ) :
    copyN buf src dst n i = if dst ≤ i ∧ i < dst + n then buf (src + (i - dst)) else buf i := by
  induction n generalizing i with
  | zero => rw [copyN, if_neg (by omega)]
  | succ n ih =>
    show (if i = dst + n then copyN buf src dst n (src + n) else copyN buf src dst n i) = _
    split
    · rename_i hi
      rw [ih, if_neg (by omega), if_pos (by omega), hi, Nat.add_sub_cancel_left]
    · rw [ih]
      exact if_congr (by omega) rfl rfl

lemma window_copyN {src : ℕ} (n : ℕ) : window (copyN buf src 0 n) 0 n = window buf src (src + n) := by
  apply ext_getElem
  · simp [window]
  · intro i hi hi'
    have hlt : i < n := by simpa [window] using hi
    simp [window, copyN_apply buf (Nat.zero_le src), hlt]

end Buffer
