import Cio.SchedulerPark

/-! `AtomicWorkerBitmap`, searched without interference. The words that `claimWord` lists, the upper part of the first
word, the other words and the lower part of the first, are the bits in cyclic order. -/

namespace Cio.WorkerBitmap

open WordSet List Sched.ParkState

def kInvalidWorkerId : Nat := 2 ^ 32 - 1

def workerId (n : Nat) : Nat := n % 2 ^ 32

/-- No bit beyond the count is set. -/
structure Bitmap where
  bitCount : Nat
  words : Words
  -- `set` refuses the others
  within : ∀ i, test words i → i < bitCount

variable (n : Nat) (ws : Words)

def wordCount : Nat := (n + 63) / 64

/-- `find_from_impl`, with the bit count `n`. -/
def findFrom (start : Nat) : Nat :=
  if n = 0 then kInvalidWorkerId else
  ((range (wordCount n + 1)).findSome? fun pos => (claimWord n (start % workerId n) pos).bind fun visit =>
    let candidates := ws visit.1 &&& visit.2
    let result := workerId (visit.1 * 64 + lowest candidates)
    -- the bound is checked in the loop over the other words only
    if candidates = 0 ∨ 0 < pos ∧ pos < wordCount n ∧ n ≤ result then none else some result).getD kInvalidWorkerId

/-- `claim_from_word`, where the compare-exchange succeeds. -/
def claimFromWord (word : Nat) (allowed : BitVec 64) : Nat × Words :=
  let candidates := ws word &&& allowed
  if candidates = 0 then (kInvalidWorkerId, ws) else
  let selected := lowest candidates
  let result := workerId (word * 64 + selected)
  (if result < n then result else kInvalidWorkerId,
    Function.update ws word (ws word &&& ~~~BitVec.twoPow 64 selected))

/-- `claim_from` from a start below the bit count goes on to the word at `pos` while nothing is claimed. -/
def claimStep (start : Nat) (claimed : Nat × Words) (pos : Nat) : Nat × Words :=
  if claimed.1 ≠ kInvalidWorkerId then claimed else
  match claimWord n start pos with
  | none => claimed
  | some (word, allowed) => claimFromWord n claimed.2 word allowed

def claimFrom (start : Nat) : Nat × Words :=
  if n = 0 then (kInvalidWorkerId, ws)
  else (range (wordCount n + 1)).foldl (claimStep n (start % workerId n)) (kInvalidWorkerId, ws)

/-! ### A search of the words -/

/-- The lowest bit that is allowed in the word at `pos`. -/
def inWord (start pos : Nat) : Option Nat :=
  (claimWord n start pos).bind fun (word, allowed) =>
    if ws word &&& allowed = 0 then none else some (word * 64 + lowest (ws word &&& allowed))

variable {n ws} {i j k b r s pos word : Nat} {allowed : BitVec 64}

lemma hit (hne : ws word &&& allowed ≠ 0) : test ws (word * 64 + lowest (ws word &&& allowed)) ∧
    allowed.getLsbD (lowest (ws word &&& allowed)) := by
  have hbit := getLsbD_lowest hne
  rw [BitVec.getLsbD_and, Bool.and_eq_true] at hbit
  rwa [test_word_mul_add _ _ (lowest_lt hne)]

section

variable (hwithin : ∀ i, test ws i → i < n) (hn : n < 2 ^ 32)

include hwithin hn

lemma hit_lt (hne : ws word &&& allowed ≠ 0) (hr : word * 64 + lowest (ws word &&& allowed) = r) :
    r < n ∧ r ≠ kInvalidWorkerId ∧ workerId r = r := by
  have hlt := hwithin r (hr ▸ (hit hne).1)
  exact ⟨hlt, by unfold kInvalidWorkerId; omega, Nat.mod_eq_of_lt (by omega)⟩

lemma find_eq (start : Nat) (h0 : n ≠ 0) :
    findFrom n ws start = ((range (wordCount n + 1)).findSome? (inWord n ws (start % n))).getD kInvalidWorkerId := by
  rw [findFrom, if_neg h0, show workerId n = n from Nat.mod_eq_of_lt hn]
  congr 2
  funext pos
  rw [inWord]
  congr 1
  funext ⟨word, allowed⟩
  dsimp only
  by_cases hzero : ws word &&& allowed = 0
  · rw [if_pos hzero, if_pos (.inl hzero)]
  · have ⟨hlt, _, hid⟩ := hit_lt hwithin hn hzero rfl
    rw [hid, if_neg hzero, if_neg fun h => h.elim hzero fun h => h.2.2.not_gt hlt]

lemma claim_eq (l : List Nat) : l.foldl (claimStep n s) (kInvalidWorkerId, ws) =
    ((l.findSome? (inWord n ws s)).getD kInvalidWorkerId, (l.findSome? (inWord n ws s)).elim ws (erase ws)) := by
  induction l with
  | nil => rfl
  | cons pos l ih =>
    rw [foldl_cons, claimStep, if_neg (by simp), findSome?_cons, inWord]
    rcases claimWord n s pos with _ | ⟨word, allowed⟩
    · exact ih
    dsimp only [Option.bind_some, claimFromWord]
    by_cases hzero : ws word &&& allowed = 0
    · rw [if_pos hzero, if_pos hzero]
      exact ih
    · have ⟨hlt, hne, hid⟩ := hit_lt hwithin hn hzero rfl
      rw [if_neg hzero, if_neg hzero, hid, if_pos hlt, ← erase_word_mul_add _ _ (lowest_lt hzero)]
      -- the other words are left alone
      refine foldl_fixed' (fun _ => ?_) l
      exact if_pos hne

end

/-! ### The words are in cyclic order -/

def ahead (n s i : Nat) : Nat := if s ≤ i then i - s else i + n - s

/-- Where the bit `i` is looked at. -/
def place (n s i : Nat) : Nat :=
  if i / 64 = s / 64 then if s ≤ i then 0 else wordCount n
  else if s / 64 < i / 64 then i / 64 - s / 64 else i / 64 + wordCount n - s / 64

lemma mod_eq {a b c : Nat} (ha : a < c) (hb : b < c) : (a + b) % c = if a + b < c then a + b else a + b - c := by
  split_ifs with h
  · exact Nat.mod_eq_of_lt h
  · rw [Nat.mod_eq_sub_mod (by omega), Nat.mod_eq_of_lt (by omega)]

lemma getLsbD_high (hk : k < 64) : (BitVec.allOnes 64 <<< b).getLsbD k = decide (b ≤ k) := by
  rw [BitVec.getLsbD_shiftLeft, BitVec.getLsbD_allOnes]
  by_cases h : k < b <;> simp [h, hk]
  omega

lemma getLsbD_low (hb : b < 64) (hk : k < 64) : (BitVec.twoPow 64 b - 1).getLsbD k = decide (k < b) := by
  have hmask : BitVec.twoPow 64 b - 1 = BitVec.ofNat 64 (2 ^ b - 1) := by
    have hle : 2 ^ b < 2 ^ 64 := Nat.pow_lt_pow_right (by decide) hb
    have hpos := Nat.two_pow_pos b
    apply BitVec.eq_of_toNat_eq
    rw [BitVec.toNat_sub, BitVec.toNat_twoPow_of_lt hb, BitVec.toNat_ofNat]
    simp
    omega
  rw [hmask, BitVec.getLsbD_ofNat, Nat.testBit_two_pow_sub_one]
  simp [hk]

lemma place_iff (hs : s < n) (hi : i < n) (h : claimWord n s pos = some (word, allowed)) :
    i / 64 = word ∧ allowed.getLsbD (i % 64) ↔ place n s i = pos := by
  have hmod : i % 64 < 64 := Nat.mod_lt _ (by decide)
  simp only [claimWord, Nat.mod_eq_of_lt hs] at h
  unfold place wordCount
  split at h
  · cases h
    rw [getLsbD_high hmod, decide_eq_true_eq]
    split_ifs <;> omega
  · split at h
    · cases h
      rw [BitVec.getLsbD_allOnes, decide_eq_true_eq, mod_eq (by omega) (by omega)]
      split_ifs <;> omega
    · split at h
      · cases h
        rw [getLsbD_low (Nat.mod_lt _ (by decide)) hmod, decide_eq_true_eq]
        split_ifs <;> omega
      · cases h

lemma exists_place (hs : s < n) (hi : i < n) :
    place n s i < wordCount n + 1 ∧ ∃ v, claimWord n s (place n s i) = some v := by
  simp only [claimWord, Nat.mod_eq_of_lt hs]
  unfold place wordCount
  split_ifs <;> simp <;> omega

lemma ahead_le (hs : s < n) (hi : i < n) (hj : j < n) (hle : place n s i ≤ place n s j)
    (heq : place n s i = place n s j → i ≤ j) : ahead n s i ≤ ahead n s j := by
  unfold place wordCount at hle heq
  unfold ahead
  split_ifs at hle heq ⊢ <;> omega

lemma add_ahead (hs : s < n) (hr : r < n) : ahead n s r < n ∧ (s + ahead n s r) % n = r := by
  have hlt : ahead n s r < n := by unfold ahead; split <;> omega
  refine ⟨hlt, ?_⟩
  rw [mod_eq hs hlt]
  unfold ahead
  split <;> split <;> omega

lemma ahead_add {e : Nat} (hs : s < n) (he : e < n) : ahead n s ((s + e) % n) = e := by
  rw [mod_eq hs he]
  unfold ahead
  split <;> split <;> omega

section

variable (hwithin : ∀ i, test ws i → i < n) (hs : s < n)

include hwithin hs

lemma inWord_some (h : inWord n ws s pos = some r) :
    test ws r ∧ place n s r = pos ∧ ∀ j, test ws j → place n s j = pos → r ≤ j := by
  obtain ⟨⟨word, allowed⟩, hword, h⟩ := Option.bind_eq_some_iff.mp h
  dsimp only at h
  split at h
  · cases h
  next hne =>
    cases h
    have hlt := lowest_lt hne
    obtain ⟨hset, hbit⟩ := hit hne
    refine ⟨hset, (place_iff hs (hwithin _ hset) hword).mp ⟨by omega, ?_⟩, fun j hj hplace => ?_⟩
    · rwa [Nat.mul_add_mod_self_right, Nat.mod_eq_of_lt hlt]
    · obtain ⟨hw, hmask⟩ := (place_iff hs (hwithin j hj) hword).mpr hplace
      by_contra hlow
      have hzero := BitVec.getLsbD_false_of_lt_ctz (x := ws word &&& allowed) (i := j % 64)
        (show j % 64 < lowest _ by omega)
      rw [BitVec.getLsbD_and, hmask, ← hw, show (ws (j / 64)).getLsbD (j % 64) = true from hj] at hzero
      cases hzero

lemma inWord_place (hi : test ws i) : inWord n ws s (place n s i) ≠ none := by
  obtain ⟨-, ⟨word, allowed⟩, hword⟩ := exists_place hs (hwithin i hi)
  obtain ⟨hw, hmask⟩ := (place_iff hs (hwithin i hi) hword).mpr rfl
  rw [inWord, hword]
  intro hnone
  have hbit := getLsbD_of_and_eq_zero (of_not_not fun hne => nomatch (if_neg hne).symm.trans hnone) hmask
  rw [← hw, show (ws (i / 64)).getLsbD (i % 64) = true from hi] at hbit
  cases hbit

lemma search_none (h : (range (wordCount n + 1)).findSome? (inWord n ws s) = none) : ¬ test ws i := fun hi =>
  inWord_place hwithin hs hi (findSome?_eq_none_iff.mp h _ (mem_range.mpr (exists_place hs (hwithin i hi)).1))

lemma search_some (h : (range k).findSome? (inWord n ws s) = some r) :
    test ws r ∧ ∀ j, test ws j → ahead n s r ≤ ahead n s j := by
  induction k with
  | zero => cases h
  | succ k ih =>
    rw [range_succ, findSome?_append] at h
    cases hk : (range k).findSome? (inWord n ws s) with
    | some r' =>
      rw [hk] at h
      exact ih (hk.trans h)
    | none =>
      rw [hk, Option.none_or, findSome?_singleton] at h
      obtain ⟨hset, hplace, hlow⟩ := inWord_some hwithin hs h
      refine ⟨hset, fun j hj => ?_⟩
      refine ahead_le hs (hwithin r hset) (hwithin j hj) ?_ fun h => hlow j hj (h.symm.trans hplace)
      rw [hplace]
      exact not_lt.mp fun hlt => inWord_place hwithin hs hj (findSome?_eq_none_iff.mp hk _ (mem_range.mpr hlt))

end

/-- `find_from` and `claim_from` find the first set bit in cyclic order, and the second erases it. -/
def CyclicScan (b : Bitmap) (start : Nat) : Prop :=
  ∃ r, findFrom b.bitCount b.words start = r ∧
    claimFrom b.bitCount b.words start = (r, if r = kInvalidWorkerId then b.words else erase b.words r) ∧
    (r = kInvalidWorkerId ↔ ∀ i, ¬ test b.words i) ∧
    (r ≠ kInvalidWorkerId → ∃ d < b.bitCount, r = (start + d) % b.bitCount ∧ test b.words r ∧
      ∀ e < d, ¬ test b.words ((start + e) % b.bitCount))

lemma cyclicScan_of_lt (b : Bitmap) (start : Nat) (hcount : b.bitCount < 2 ^ 32) : CyclicScan b start := by
  unfold CyclicScan
  obtain ⟨n, ws, hwithin⟩ := b
  dsimp only at hcount ⊢
  by_cases h0 : n = 0
  · subst h0
    exact ⟨_, rfl, rfl, iff_of_true rfl fun i hi => Nat.not_lt_zero i (hwithin i hi), fun hne => absurd rfl hne⟩
  have hs : start % n < n := Nat.mod_lt _ (by omega)
  rw [find_eq hwithin hcount start h0, claimFrom, if_neg h0, show workerId n = n from Nat.mod_eq_of_lt hcount,
    claim_eq hwithin hcount]
  cases h : (range (wordCount n + 1)).findSome? (inWord n ws (start % n)) with
  | none => exact ⟨_, rfl, rfl, iff_of_true rfl fun i => search_none hwithin hs h, fun hne => absurd rfl hne⟩
  | some r =>
    obtain ⟨hset, hfirst⟩ := search_some hwithin hs h
    have hr := hwithin r hset
    have hne : r ≠ kInvalidWorkerId := by unfold kInvalidWorkerId; omega
    obtain ⟨hlt, hadd⟩ := add_ahead hs hr
    rw [Nat.mod_add_mod] at hadd
    refine ⟨r, rfl, by rw [if_neg hne]; rfl, iff_of_false hne fun hall => hall r hset,
      fun _ => ⟨_, hlt, hadd.symm, hset, fun e he hbit => ?_⟩⟩
    have hle := hfirst _ hbit
    rw [← Nat.mod_add_mod, ahead_add hs (Nat.lt_trans he hlt)] at hle
    omega

lemma workerCount_lt {requested hardware : Nat} {workers : Sched.Workers}
    (h : Sched.workerCount requested hardware = some workers) : workers.count < 2 ^ 32 := by
  unfold Sched.workerCount at h
  split_ifs at h <;> cases h <;> dsimp only <;> omega

/-- **`find_from` and `claim_from` are a cyclic scan from the start modulo the bit count**, for up to as many bits as
the constructor of the scheduler accepts workers. -/
theorem cyclic_scan (requested hardware : Nat) (workers : Sched.Workers)
    (hmade : Sched.workerCount requested hardware = some workers) (b : Bitmap) (hcount : b.bitCount ≤ workers.count)
    (start : Nat) : CyclicScan b start :=
  cyclicScan_of_lt b start (Nat.lt_of_le_of_lt hcount (workerCount_lt hmade))

def twoBits : Bitmap where
  bitCount := 100
  words := WordSet.insert (WordSet.insert (fun _ => 0) 0) 5
  within i hi := by
    by_contra hge
    rw [test_insert_of_ne _ (by omega), test_insert_of_ne _ (by omega)] at hi
    simp [test] at hi

theorem cyclic_scan_twoBits : claimFrom 100 twoBits.words 101 = (5, erase twoBits.words 5) := by
  obtain ⟨r, hfind, hclaim, -⟩ := cyclic_scan 100 8 ⟨100, by decide⟩ rfl twoBits (by decide) 101
  obtain rfl : 5 = r := .trans (by decide +kernel) hfind
  exact hclaim

end Cio.WorkerBitmap
