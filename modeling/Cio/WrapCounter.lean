import Mathlib.Algebra.Group.Nat.Defs

/-! Free-running 32-bit counters. A counter that has been advanced `n` times holds `n` modulo
`2 ^ 32`; differences and equalities of two counters are exact as long as the counts behind them are
less than `2 ^ 32` apart, and masking with `2 ^ k - 1` gives the count modulo `2 ^ k`. -/

namespace WrapCounter

open Nat UInt32

abbrev word (n : ℕ) : UInt32 := ofNat n

lemma word_add (m n : ℕ) : word m + word n = word (m + n) := (ofNat_add m n).symm

lemma word_toNat (w : UInt32) : word w.toNat = w := UInt32.ofNat_toNat

lemma sub_add_of_add_eq {a b c d : UInt32} (h : a + b = c + d) : a - d + b = c := by
  rw [UInt32.sub_eq_add_neg, UInt32.add_assoc, UInt32.add_comm (-d), ← UInt32.add_assoc, h,
    UInt32.add_assoc, UInt32.add_right_neg, UInt32.add_zero]

variable {m n : ℕ}

lemma toNat_word_sub (hle : n ≤ m) (hnear : m - n < 2 ^ 32) : (word m - word n).toNat = m - n := by
  rw [UInt32.toNat_sub, toNat_ofNat', toNat_ofNat']
  omega

lemma eq_of_word_eq (hle : n ≤ m) (hnear : m - n < 2 ^ 32) (h : word m = word n) : m = n := by
  have hmod := congrArg UInt32.toNat h
  rw [toNat_ofNat', toNat_ofNat'] at hmod
  omega

lemma toNat_word_and_mask (n : ℕ) {k : ℕ} (hk : k ≤ 32) : (word n &&& word (2 ^ k - 1)).toNat = n % 2 ^ k := by
  have hpow : 2 ^ k ≤ 2 ^ 32 := Nat.pow_le_pow_right (by decide) hk
  have hpos : 0 < 2 ^ k := Nat.two_pow_pos k
  have hmask : (2 ^ k - 1) % 2 ^ 32 = 2 ^ k - 1 := mod_eq_of_lt (by omega)
  rw [UInt32.toNat_and, toNat_ofNat', toNat_ofNat', hmask,
    and_two_pow_sub_one_eq_mod, mod_mod_of_dvd _ (Nat.pow_dvd_pow 2 hk)]

lemma mod_ne_of_near {c : ℕ} (hlt : n < m) (hnear : m < n + c) : m % c ≠ n % c := by
  intro heq
  have hzero := sub_mod_eq_zero_of_mod_eq heq
  rw [mod_eq_of_lt (by omega)] at hzero
  omega

end WrapCounter
