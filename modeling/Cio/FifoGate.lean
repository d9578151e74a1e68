import Mathlib.Data.List.Nodup

/-! A first-in first-out gate. Tasks enter at the back, the head owns the gate, and every task inside
has staged some data. What was handed on, followed by what is staged in gate order, is everything
that was ever staged: nothing is lost, doubled or reordered. The lemmas say how the moves of one task
keep this. -/

namespace Gate

open Function List

variable {τ π β : Type*}

/-- `pc` says where each task stands, `inside` which positions are inside the gate and `staged` what
is staged there; `handed` was handed on out of `all`. -/
structure Fifo (inside : π → Bool) (staged : π → List β) (pc : τ → π) (ops : List τ)
    (handed all : List β) : Prop where
  nodup : ops.Nodup
  mem : ∀ task, task ∈ ops ↔ inside (pc task) = true
  bytes : handed ++ ops.flatMap (fun task => staged (pc task)) = all

namespace Fifo

variable {inside : π → Bool} {staged : π → List β} {pc : τ → π} {ops : List τ}
  {handed all : List β}

lemma isPrefix (h : Fifo inside staged pc ops handed all) : handed <+: all := ⟨_, h.bytes⟩

lemma restage (h : Fifo inside staged pc ops handed all) (staged' : π → List β)
    (hsame : ∀ task ∈ ops, staged' (pc task) = staged (pc task)) : Fifo inside staged' pc ops handed all :=
  ⟨h.nodup, h.mem, by rw [flatMap_congr hsame, h.bytes]⟩

variable {task : τ}

lemma head_split (h : Fifo inside staged pc ops handed all) (hhead : ops.head? = some task) :
    ∃ rest, ops = task :: rest ∧ task ∉ rest ∧ rest.Nodup := by
  obtain ⟨rest, rfl⟩ := head?_eq_some_iff.mp hhead
  exact ⟨rest, rfl, (nodup_cons.mp h.nodup).1, (nodup_cons.mp h.nodup).2⟩

variable [DecidableEq τ]

lemma flatMap_update {new : π} (hnot : task ∉ ops) : ops.flatMap (fun other => staged (update pc task new other)) =
      ops.flatMap (fun other => staged (pc other)) := by
  apply flatMap_congr
  intro other hmem
  rw [update_of_ne (ne_of_mem_of_not_mem hmem hnot)]

lemma mem_update {new : π} {ops' : List τ} (h : Fifo inside staged pc ops handed all)
    (hself : task ∈ ops' ↔ inside new) (hother : ∀ other, other ≠ task → (other ∈ ops' ↔ other ∈ ops))
    (other : τ) : other ∈ ops' ↔ inside (update pc task new other) = true := by
  by_cases hsame : other = task
  · subst hsame
    rw [update_self]
    exact hself
  · rw [update_of_ne hsame, hother other hsame]
    exact h.mem other

section

variable (h : Fifo inside staged pc ops handed all)
include h

lemma move (task : τ) (new : π) (hold : inside (pc task) = false) (hnew : inside new = false) :
    Fifo inside staged (update pc task new) ops handed all := by
  have hnot : task ∉ ops := fun hmem => by simp [(h.mem task).mp hmem] at hold
  refine ⟨h.nodup, h.mem_update (by simp [hnot, hnew]) fun _ _ => Iff.rfl, ?_⟩
  rw [flatMap_update hnot]
  exact h.bytes

lemma enter (task : τ) (new : π) (hold : inside (pc task) = false) (hnew : inside new) :
    Fifo inside staged (update pc task new) (ops ++ [task]) handed (all ++ staged new) := by
  have hnot : task ∉ ops := fun hmem => by simp [(h.mem task).mp hmem] at hold
  refine ⟨?_, h.mem_update (by simp [hnew]) fun other hne => by simp [hne], ?_⟩
  · rw [nodup_append]
    refine ⟨h.nodup, nodup_singleton task, fun other hmem other' hmem' => ?_⟩
    rw [mem_singleton.mp hmem']
    exact ne_of_mem_of_not_mem hmem hnot
  · rw [flatMap_append, flatMap_update hnot, flatMap_singleton, update_self, ← append_assoc, h.bytes]

/-- The owner hands on the front of what it has staged. -/
lemma advance (task : τ) (new : π) (front : List β)
    (hhead : ops.head? = some task) (hnew : inside new) (hstaged : staged (pc task) = front ++ staged new) :
    Fifo inside staged (update pc task new) ops (handed ++ front) all := by
  obtain ⟨rest, rfl, hnot, _⟩ := h.head_split hhead
  refine ⟨h.nodup, h.mem_update (by simp [hnew]) fun _ _ => Iff.rfl, ?_⟩
  have hbytes := h.bytes
  rw [flatMap_cons, hstaged] at hbytes
  rw [flatMap_cons, update_self, flatMap_update hnot, ← hbytes]
  simp only [append_assoc]

lemma leave (task : τ) (new : π) (hhead : ops.head? = some task) (hnew : inside new = false) :
    Fifo inside staged (update pc task new) ops.tail (handed ++ staged (pc task)) all := by
  obtain ⟨rest, rfl, hnot, hnodup⟩ := h.head_split hhead
  refine ⟨hnodup, h.mem_update (by simp [hnot, hnew]) fun other hne => by simp [hne], ?_⟩
  have hbytes := h.bytes
  rw [flatMap_cons] at hbytes
  rw [tail_cons, flatMap_update hnot, ← hbytes]
  simp only [append_assoc]

lemma load (task : τ) (new : π)
    (hhead : ops.head? = some task) (hnew : inside new) (hempty : ∀ other ∈ ops, staged (pc other) = []) :
    Fifo inside staged (update pc task new) ops handed (all ++ staged new) := by
  have hall : handed = all := by
    rw [← h.bytes, flatMap_eq_nil_iff.mpr hempty, append_nil]
  obtain ⟨rest, rfl, hnot, _⟩ := h.head_split hhead
  refine ⟨h.nodup, h.mem_update (by simp [hnew]) fun _ _ => Iff.rfl, ?_⟩
  rw [flatMap_cons, update_self, flatMap_update hnot,
    flatMap_eq_nil_iff.mpr fun other hmem => hempty other (mem_cons_of_mem _ hmem),
    append_nil, hall]

end

end Fifo
end Gate
