import Mathlib.Data.List.Basic

/-! A pool of calls in progress, each at its own program counter. A call advances by replacing its
entry, a new call is appended; what some call is about to do and the total weight of the calls follow
the entry that changed. -/

namespace CallPool

open List

variable {β : Type}

def weight (f : β → ℕ) : List β → ℕ
  | [] => 0
  | x :: rest => f x + weight f rest

lemma weight_append (f : β → ℕ) (l m : List β) : weight f (l ++ m) = weight f l + weight f m := by
  induction l with
  | nil => rw [nil_append, weight, Nat.zero_add]
  | cons x rest ih => rw [cons_append, weight, weight, ih, Nat.add_assoc]

lemma weight_concat (f : β → ℕ) (l : List β) (x : β) : weight f (l ++ [x]) = weight f l + f x := by
  rw [weight_append, weight, weight, Nat.add_zero]

variable {i : ℕ} {γ : Type}

lemma weight_map (f : β → ℕ) (g : γ → β) (l : List γ) : weight f (l.map g) = weight (fun x => f (g x)) l := by
  induction l with
  | nil => rfl
  | cons x rest ih => rw [map_cons, weight, weight, ih]

variable {l : List β}

lemma weight_set (f : β → ℕ) {x : β} (hx : l[i]? = some x) (y : β) : weight f (l.set i y) + f x = weight f l + f y := by
  induction l generalizing i with
  | nil => cases hx
  | cons z rest ih =>
    cases i with
    | zero =>
      cases hx
      rw [set_cons_zero, weight, weight]
      omega
    | succ i =>
      have hrest := ih hx
      rw [set_cons_succ, weight, weight]
      omega

variable {f : β → ℕ} {x y : β}

lemma weight_le_set (hx : l[i]? = some x) (hle : f x ≤ f y) : weight f l ≤ weight f (l.set i y) := by
  have hset := weight_set f hx y
  omega

lemma weight_of_set {l' : List β} {f : β → ℕ} {x y : β} {n n' : ℕ} (hx : l[i]? = some x) (hl : l' = l.set i y)
    (hold : weight f l = n) (hnew : n' + f x = n + f y) : weight f l' = n' := by
  have hset := weight_set f hx y
  rw [← hl] at hset
  omega

lemma weight_set_set (f : β → ℕ) {n : ℕ} {x z : β} (hx : l[i]? = some x) (hz : l[n]? = some z) (hne : n ≠ i)
    (x' z' : β) : weight f ((l.set n z').set i x') + f x + f z = weight f l + f x' + f z' := by
  have hi : (l.set n z')[i]? = some x := by rw [getElem?_set_ne hne, hx]
  have hfirst := weight_set f hz z'
  have hsecond := weight_set f hi x'
  omega

lemma weight_eq_zero (h : ∀ x ∈ l, f x = 0) : weight f l = 0 := by
  induction l with
  | nil => rfl
  | cons x rest ih => rw [weight, h x mem_cons_self, ih fun y hy => h y (mem_cons_of_mem _ hy)]

lemma le_weight (f : β → ℕ) {x : β} (hx : x ∈ l) : f x ≤ weight f l := by
  induction l with
  | nil => cases hx
  | cons y rest ih =>
    rw [weight]
    rcases mem_cons.mp hx with rfl | hrest
    · exact Nat.le_add_right _ _
    · exact Nat.le_trans (ih hrest) (Nat.le_add_left _ _)

lemma locked_of_weight {x : β} {locked : Bool} (hl : weight f l = locked.toNat) (hx : x ∈ l) (hf : f x = 1) :
    locked = true := by
  have hle := le_weight f hx
  rw [hl, hf] at hle
  exact Bool.toNat_eq_one.mp (Nat.le_antisymm (Bool.toNat_le locked) hle)

lemma weight_mono {f g : β → ℕ} (h : ∀ x, f x ≤ g x) (l : List β) : weight f l ≤ weight g l := by
  induction l with
  | nil => exact Nat.le_refl 0
  | cons x rest ih => exact Nat.add_le_add (h x) ih

lemma weight_le_mul {f g : β → ℕ} {c : ℕ} (h : ∀ x, f x ≤ c * g x) (l : List β) : weight f l ≤ c * weight g l := by
  induction l with
  | nil => exact Nat.zero_le _
  | cons x rest ih =>
    rw [weight, weight, Nat.mul_add]
    exact Nat.add_le_add (h x) ih

lemma weight_le_length (h : ∀ x, f x ≤ 1) (l : List β) : weight f l ≤ l.length := by
  induction l with
  | nil => exact Nat.le_refl 0
  | cons x rest ih =>
    rw [weight, length_cons, Nat.add_comm rest.length]
    exact Nat.add_le_add (h x) ih

lemma exists_of_weight_pos (h : 0 < weight f l) : ∃ x ∈ l, 0 < f x := by
  by_contra hnone
  simp only [not_exists, not_and, Nat.not_lt, Nat.le_zero] at hnone
  rw [weight_eq_zero hnone] at h
  exact Nat.lt_irrefl 0 h

/-- Where every call is idle or waits for a lock, nobody holds the lock, so they are all idle. -/
lemma idle_of_waiting {P : β → Prop} {locked : Bool} (hheld : weight f l = locked.toNat)
    (hzero : ∀ x, P x → f x = 0) (h : ∀ x ∈ l, P x ∨ locked ∧ f x = 0) : ∀ x ∈ l, P x := by
  have hfree : locked.toNat = 0 := by
    rw [← hheld]
    exact weight_eq_zero fun x hx => (h x hx).elim (hzero x) And.right
  intro x hx
  refine (h x hx).resolve_right fun hlock => ?_
  rw [hlock.1] at hfree
  cases hfree

lemma weight_eq_of_alone {f g : β → ℕ} {x : β} (hx : l[i]? = some x)
    (hle : ∀ y, f y ≤ g y) (hall : weight g l ≤ g x) : weight f l = f x := by
  induction l generalizing i with
  | nil => cases hx
  | cons z rest ih =>
    rw [weight] at hall ⊢
    cases i with
    | zero =>
      cases hx
      have hrest := weight_mono hle rest
      omega
    | succ i =>
      have hin := le_weight g (mem_of_getElem? (i := i) hx)
      have hz := hle z
      rw [ih (i := i) hx (by omega)]
      omega

lemma eq_of_weight_le_one {j : ℕ} (hx : l[i]? = some x)
    (hy : l[j]? = some y) (hfx : 0 < f x) (hfy : 0 < f y) (hall : weight f l ≤ 1) : i = j := by
  induction l generalizing i j with
  | nil => cases hx
  | cons z rest ih =>
    rw [weight] at hall
    cases i with
    | zero =>
      cases j with
      | zero => rfl
      | succ j =>
        cases hx
        have hin := le_weight f (mem_of_getElem? (i := j) hy)
        omega
    | succ i =>
      have hin := le_weight f (mem_of_getElem? (i := i) hx)
      cases j with
      | zero =>
        cases hy
        omega
      | succ j => rw [ih (i := i) (j := j) hx hy (by omega)]

variable {Q : β → Prop}

lemma forall_append (h : ∀ x ∈ l, Q x) {y : β} (hy : Q y) : ∀ x ∈ l ++ [y], Q x := by
  intro x hx
  rcases mem_append.mp hx with hold | hnew
  · exact h x hold
  · rw [mem_singleton.mp hnew]
    exact hy

lemma forall_set (h : ∀ x ∈ l, Q x) {y : β} (hy : Q y) (i : ℕ) : ∀ x ∈ l.set i y, Q x := by
  intro x hx
  rcases mem_or_eq_of_mem_set hx with hold | rfl
  · exact h x hold
  · exact hy

lemma exists_append (h : ∃ x ∈ l, Q x) (y : β) : ∃ x ∈ l ++ [y], Q x := by
  obtain ⟨x, hx, hq⟩ := h
  exact ⟨x, mem_append_left _ hx, hq⟩

lemma exists_set_self (hx : l[i]? = some x) (hq : Q y) : ∃ z ∈ l.set i y, Q z := by
  have hi := (List.getElem?_eq_some_iff.mp hx).1
  exact ⟨y, mem_set hi y, hq⟩

lemma exists_set_or {x : β} (hx : l[i]? = some x) (h : ∃ z ∈ l, Q z) (y : β) : (∃ z ∈ l.set i y, Q z) ∨ Q x := by
  obtain ⟨z, hz, hq⟩ := h
  obtain ⟨j, hj⟩ := mem_iff_getElem?.mp hz
  by_cases hij : i = j
  · subst hij
    rw [hx] at hj
    cases hj
    exact .inr hq
  · refine .inl ⟨z, mem_of_getElem? (i := j) ?_, hq⟩
    rw [getElem?_set_ne hij, hj]

lemma exists_set (hx : l[i]? = some x) (h : ∃ z ∈ l, Q z) (hkeep : Q x → Q y) : ∃ z ∈ l.set i y, Q z := by
  rcases exists_set_or hx h y with hset | hq
  · exact hset
  · exact exists_set_self hx (hkeep hq)

lemma ne_of_lookup (f : β → γ) {n : ℕ} (hx : l[i]? = some x) (hy : l[n]? = some y) (hf : f y ≠ f x) : n ≠ i := by
  rintro rfl
  rw [hx] at hy
  cases hy
  exact hf rfl

lemma lookup_concat (h : (l ++ [y])[i]? = some x) : l[i]? = some x ∨ i = l.length ∧ x = y := by
  rcases Nat.lt_trichotomy i l.length with hlt | heq | hgt
  · rw [getElem?_append_left hlt] at h
    exact .inl h
  · rw [heq, getElem?_concat_length] at h
    exact .inr ⟨heq, (Option.some.inj h).symm⟩
  · rw [getElem?_eq_none (length_append ▸ hgt)] at h
    cases h

lemma lookup_set (f : β → γ) (hx : l[i]? = some x) (hf : f y = f x)
    (n : ℕ) (w : β) (hw : (l.set i y)[n]? = some w) : ∃ z, l[n]? = some z ∧ f z = f w := by
  by_cases hn : i = n
  · subst hn
    rw [getElem?_set_self (List.getElem?_eq_some_iff.mp hx).1] at hw
    cases hw
    exact ⟨x, hx, hf.symm⟩
  · rw [getElem?_set_ne hn] at hw
    exact ⟨w, hw, rfl⟩

lemma lookup_set_set (f : β → γ) {n : ℕ} {x y z v : β} (hx : l[i]? = some x)
    (hf : f y = f x) (hz : l[n]? = some z) (hf' : f v = f z) (hne : n ≠ i) (m : ℕ) (w : β)
    (hw : ((l.set n v).set i y)[m]? = some w) : ∃ u, l[m]? = some u ∧ f u = f w := by
  have hx' : (l.set n v)[i]? = some x := by rw [getElem?_set_ne hne, hx]
  obtain ⟨u, hu, hfu⟩ := lookup_set f hx' hf m w hw
  obtain ⟨u', hu', hfu'⟩ := lookup_set f hz hf' m u hu
  exact ⟨u', hu', hfu'.trans hfu⟩

end CallPool
