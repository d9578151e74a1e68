import Cio.CallPool

/-! Calls that park. A call parks by putting its number on a list; a call that releases others takes a part of
the list with it and wakes what it carries one after the other. Every parked call is in exactly one place, on
the list or with one carrier, so it is woken by one call and once. -/

namespace Parking

open CallPool List

variable {β : Type}

def entry (f : β → ℕ) (calls : List β) (n : ℕ) : ℕ :=
  match calls[n]? with
  | some x => f x
  | none => 0

variable {i n : ℕ}

variable {x : β}

lemma entry_eq {f : β → ℕ} (hx : calls[n]? = some x) : entry f calls n = f x := by
  rw [entry, hx]

lemma exists_of_entry_pos {f : β → ℕ} (h : 0 < entry f calls n) : ∃ x, calls[n]? = some x ∧ 0 < f x := by
  unfold entry at h
  cases hx : calls[n]? with
  | none =>
    rw [hx] at h
    cases h
  | some x =>
    rw [hx] at h
    exact ⟨x, rfl, h⟩

lemma entry_set (f : β → ℕ) (hx : calls[i]? = some x) (y : β) (n : ℕ) :
    entry f (calls.set i y) n + (if n = i then f x else 0) = entry f calls n + (if n = i then f y else 0) := by
  by_cases hn : n = i
  · subst hn
    have hy : (calls.set n y)[n]? = some y := getElem?_set_self (List.getElem?_eq_some_iff.mp hx).1
    rw [entry_eq hx, entry_eq hy, if_pos rfl, if_pos rfl, Nat.add_comm]
  · rw [entry, entry, getElem?_set_ne (Ne.symm hn), if_neg hn, if_neg hn]

variable {y : β}

lemma entry_append (f : β → ℕ) (calls : List β) (hy : f y = 0) (n : ℕ) :
    entry f (calls ++ [y]) n = entry f calls n := by
  rw [entry, entry]
  rcases Nat.lt_trichotomy n calls.length with hlt | rfl | hgt
  · rw [getElem?_append_left hlt]
  · rw [getElem?_concat_length, getElem?_eq_none (Nat.le_refl _)]
    exact hy
  · rw [getElem?_eq_none (by rw [length_append]; exact hgt), getElem?_eq_none (Nat.le_of_lt hgt)]

def carried (carries : β → List ℕ) (calls : List β) (n : ℕ) : ℕ := weight (fun x => (carries x).count n) calls

lemma carried_append (carries : β → List ℕ) (calls : List β) (hy : carries y = []) (n : ℕ) :
    carried carries (calls ++ [y]) n = carried carries calls n := by
  rw [carried, carried, weight_concat, hy, count_nil, Nat.add_zero]

lemma carried_set (carries : β → List ℕ) (hx : calls[i]? = some x) (y : β) (n : ℕ) :
    carried carries (calls.set i y) n + (carries x).count n = carried carries calls n + (carries y).count n :=
  weight_set (fun x => (carries x).count n) hx y

lemma le_carried (carries : β → List ℕ) (hx : calls[i]? = some x) (n : ℕ) :
    (carries x).count n ≤ carried carries calls n :=
  le_weight (fun x => (carries x).count n) (mem_of_getElem? hx)

/-- Every parked call is on the list or with one carrier, and nobody else is. -/
def Lot (parked : β → ℕ) (carries : β → List ℕ) (waiters : List ℕ) (calls : List β) : Prop :=
  ∀ n, waiters.count n + carried carries calls n = entry parked calls n

namespace Lot

variable {parked : β → ℕ} {carries : β → List ℕ} {waiters waiters' : List ℕ} {calls : List β}

lemma nil : Lot parked carries [] [] := fun _ => rfl

section

variable (h : Lot parked carries waiters calls)
include h

lemma append (hpark : parked y = 0) (hcar : carries y = []) : Lot parked carries waiters (calls ++ [y]) := by
  intro n
  rw [carried_append carries calls hcar, entry_append parked calls hpark]
  exact h n

lemma set {x y : β} (hx : calls[i]? = some x)
    (hplace : ∀ n, waiters'.count n + (carries y).count n + (if n = i then parked x else 0) =
      waiters.count n + (carries x).count n + (if n = i then parked y else 0)) :
    Lot parked carries waiters' (calls.set i y) := by
  intro n
  have hold := h n
  have hentry := entry_set parked hx y n
  have hcarried := carried_set carries hx y n
  have hsame := hplace n
  omega

lemma move {x y : β} (hx : calls[i]? = some x) (hpark : parked y = parked x) (hcar : carries y = carries x) :
    Lot parked carries waiters (calls.set i y) :=
  h.set hx fun n => by rw [hpark, hcar]

lemma park {x y : β} (hx : calls[i]? = some x)
    (hpre : parked x = 0) (hafter : parked y = 1) (hcar : carries y = carries x)
    (hqueue : waiters'.Perm (i :: waiters)) : Lot parked carries waiters' (calls.set i y) := by
  refine h.set hx fun n => ?_
  rw [hqueue.count_eq, count_cons, hcar, hpre, hafter]
  by_cases hn : n = i
  · subst hn
    simp
    omega
  · simp [hn, Ne.symm hn]

lemma take {x y : β} (hx : calls[i]? = some x) (hpark : parked y = parked x) (hpre : carries x = [])
    (hqueue : waiters.Perm (carries y ++ waiters')) : Lot parked carries waiters' (calls.set i y) := by
  refine h.set hx fun n => ?_
  rw [hqueue.count_eq, count_append, hpark, hpre, count_nil]
  omega

lemma parked_of_mem (hn : n ∈ waiters) : ∃ w, calls[n]? = some w ∧ 0 < parked w := by
  have hcount := count_pos_iff.mpr hn
  have hplace := h n
  exact exists_of_entry_pos (by omega)

lemma parked_of_carried (hx : calls[i]? = some x) (hn : n ∈ carries x) : ∃ w, calls[n]? = some w ∧ 0 < parked w := by
  have hcount := count_pos_iff.mpr hn
  have hplace := h n
  have hle := le_carried carries hx n
  exact exists_of_entry_pos (by omega)

lemma parked_pos {w : β} (hx : calls[i]? = some x) (hn : n ∈ carries x) (hw : calls[n]? = some w) : 0 < parked w := by
  obtain ⟨w', hw', hpos⟩ := h.parked_of_carried hx hn
  cases hw.symm.trans hw'
  exact hpos

lemma mem_or_carried {w : β} (hw : calls[n]? = some w)
    (hpark : 0 < parked w) : n ∈ waiters ∨ ∃ x ∈ calls, n ∈ carries x := by
  have hplace := h n
  rw [entry_eq hw] at hplace
  by_cases hn : 0 < waiters.count n
  · exact .inl (count_pos_iff.mp hn)
  · obtain ⟨x, hx, hcount⟩ := exists_of_weight_pos (show 0 < carried carries calls n by omega)
    exact .inr ⟨x, hx, count_pos_iff.mp hcount⟩

lemma wake {x y w w' : β} (hx : calls[i]? = some x) (hw : calls[n]? = some w) (hcar : carries x = n :: carries y)
    (hfree : parked x = 0) (hfree' : parked y = 0) (hpark : parked w = 1) (hwoken : parked w' = 0)
    (hrest : carries w' = carries w) : Lot parked carries waiters ((calls.set n w').set i y) := by
  have hne : n ≠ i := ne_of_lookup parked hx hw (by omega)
  have hx' : (calls.set n w')[i]? = some x := by rw [getElem?_set_ne hne, hx]
  intro m
  have hold := h m
  have hfirst := entry_set parked hw w' m
  have hsnd := entry_set parked hx' y m
  have hcfirst := carried_set carries hw w' m
  have hcsec := carried_set carries hx' y m
  rw [hrest] at hcfirst
  rw [hcar, count_cons] at hcsec
  rw [hpark, hwoken] at hfirst
  rw [hfree, hfree'] at hsnd
  by_cases hm : m = n
  · subst hm
    simp at hfirst hsnd hcsec
    omega
  · simp [hm, Ne.symm hm] at hfirst hsnd hcsec
    omega

end

end Lot

/-! ### Dispatches -/

/-- How often a call was woken: not before it parked, not while it is parked, and once since. A call that has
parked does not come back to where it could park. -/
structure Woken (waited : Bool) (wakes waiting : ℕ) (early : Bool) : Prop where
  fresh : waited = false → wakes = 0 ∧ waiting = 0
  parked : waited = true → 0 < waiting → wakes = 0
  woken : waited = true → waiting = 0 → wakes = 1
  once : waited = true → early = false

namespace Woken

variable {waited early early' : Bool} {wakes waiting waiting' : ℕ}

lemma start : Woken false 0 0 early := ⟨fun _ => ⟨rfl, rfl⟩, by simp, by simp, by simp⟩

lemma move (h : Woken waited wakes waiting early) (hwait : waiting' = waiting) (hearly : early' → early) :
    Woken waited wakes waiting' early' := by
  subst hwait
  refine { h with once := fun hw => ?_ }
  rw [Bool.eq_false_iff]
  exact fun hnew => Bool.noConfusion ((hearly hnew).symm.trans (h.once hw))

lemma park (h : Woken waited wakes waiting true) : Woken true wakes 1 false := by
  have hfresh : waited = false := by
    rw [Bool.eq_false_iff]
    exact fun hw => Bool.noConfusion (h.once hw)
  exact ⟨by simp, fun _ _ => (h.fresh hfresh).1, by simp, fun _ => rfl⟩

lemma wake (h : Woken waited wakes 1 early) : Woken waited (wakes + 1) 0 false := by
  have hway : waited = true := by
    by_contra hw
    cases (h.fresh (Bool.eq_false_iff.mpr hw)).2
  have hzero := h.parked hway Nat.one_pos
  refine ⟨fun hw => Bool.noConfusion (hway.symm.trans hw), fun _ hpos => absurd hpos (Nat.lt_irrefl 0),
    fun _ _ => ?_, fun _ => rfl⟩
  rw [hzero]

lemma eq (h : Woken waited wakes waiting early) : wakes = if waited ∧ waiting = 0 then 1 else 0 := by
  cases hway : waited with
  | false =>
    rw [if_neg (by simp)]
    exact (h.fresh hway).1
  | true =>
    by_cases hzero : waiting = 0
    · rw [if_pos ⟨rfl, hzero⟩]
      exact h.woken hway hzero
    · rw [if_neg (by simp [hzero])]
      exact h.parked hway (Nat.pos_of_ne_zero hzero)

end Woken
end Parking
