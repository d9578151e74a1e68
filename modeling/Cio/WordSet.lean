import Mathlib.Data.Nat.Basic
import Mathlib.Logic.Function.Basic

/-! Sets of natural numbers packed into 64-bit words. Element `i` is bit `i % 64` of word `i / 64`;
inserting and erasing change one bit of one word, and the lowest bit of a word gives an element. -/

namespace WordSet

open Function

abbrev Words := ℕ → BitVec 64

def bit (i : ℕ) : BitVec 64 := BitVec.twoPow 64 (i % 64)

def test (ws : Words) (i : ℕ) : Bool := (ws (i / 64)).getLsbD (i % 64)

def insert (ws : Words) (i : ℕ) : Words := update ws (i / 64) (ws (i / 64) ||| bit i)

def erase (ws : Words) (i : ℕ) : Words := update ws (i / 64) (ws (i / 64) &&& ~~~bit i)

def lowest (x : BitVec 64) : ℕ := x.ctz.toNat

lemma getLsbD_bit (i j : ℕ) (hj : j < 64) : (bit i).getLsbD j = decide (i % 64 = j) := by
  rw [bit, BitVec.getLsbD_twoPow]
  by_cases heq : i % 64 = j <;> simp [heq, hj]

variable (ws : Words)

lemma test_insert_self (i : ℕ) : test (insert ws i) i = true := by
  rw [test, insert, update_self, BitVec.getLsbD_or, getLsbD_bit _ _ (Nat.mod_lt _ (by decide))]
  simp

variable {i j k : ℕ}

lemma test_insert_of_ne (hne : j ≠ i) : test (insert ws i) j = test ws j := by
  rw [test, test, insert]
  by_cases hword : j / 64 = i / 64
  · have hbit : i % 64 ≠ j % 64 := by omega
    rw [hword, update_self, BitVec.getLsbD_or, getLsbD_bit _ _ (Nat.mod_lt _ (by decide))]
    simp [hbit]
  · rw [update_of_ne hword]

lemma test_erase_self (i : ℕ) : test (erase ws i) i = false := by
  have hlt : i % 64 < 64 := Nat.mod_lt _ (by decide)
  rw [test, erase, update_self, BitVec.getLsbD_and, BitVec.getLsbD_not, getLsbD_bit _ _ hlt]
  simp

lemma test_erase_of_ne (hne : j ≠ i) : test (erase ws i) j = test ws j := by
  rw [test, test, erase]
  by_cases hword : j / 64 = i / 64
  · have hbit : i % 64 ≠ j % 64 := by omega
    have hlt : j % 64 < 64 := Nat.mod_lt _ (by decide)
    rw [hword, update_self, BitVec.getLsbD_and, BitVec.getLsbD_not, getLsbD_bit _ _ hlt]
    simp [hbit, hlt]
  · rw [update_of_ne hword]

lemma test_of_test_erase {ws : Words} (h : test (erase ws i) j) : test ws j = true := by
  by_cases hne : j = i
  · rw [hne, test_erase_self] at h
    cases h
  · rwa [test_erase_of_ne ws hne] at h

lemma getLsbD_lowest {x : BitVec 64} (hx : x ≠ 0) : x.getLsbD (lowest x) = true :=
  BitVec.getLsbD_true_ctz_of_ne_zero hx

lemma lowest_lt {x : BitVec 64} (hx : x ≠ 0) : lowest x < 64 := BitVec.lt_of_getLsbD (getLsbD_lowest hx)

lemma test_word_mul_add (word : ℕ) (hk : k < 64) : test ws (word * 64 + k) = (ws word).getLsbD k := by
  rw [test, show (word * 64 + k) / 64 = word by omega, show (word * 64 + k) % 64 = k by omega]

lemma erase_word_mul_add (word : ℕ) (hk : k < 64) :
    erase ws (word * 64 + k) = update ws word (ws word &&& ~~~BitVec.twoPow 64 k) := by
  rw [erase, bit, show (word * 64 + k) / 64 = word by omega, show (word * 64 + k) % 64 = k by omega]

lemma getLsbD_of_and_eq_zero {x mask : BitVec 64} (h : x &&& mask = 0) (hk : mask.getLsbD k) : x.getLsbD k = false := by
  have hbit := congrArg (fun y => BitVec.getLsbD y k) h
  simpa [hk] using hbit

end WordSet
