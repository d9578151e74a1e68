import Mathlib.Order.Basic

/-! Mutual exclusion by a lock word that names its holder. `Guards lock inside` says that whoever is inside
the critical section is the holder; it is kept when nobody enters, when a party enters with a free lock
and when the holder leaves. -/

namespace SpinLock

variable {π : Type} {lock lock' : Option π} {inside inside' : π → Prop}

def Guards (lock : Option π) (inside : π → Prop) : Prop := ∀ p, inside p → lock = some p

namespace Guards

lemma keep (h : Guards lock inside) (hin : ∀ p, inside' p → inside p) : Guards lock inside' :=
  fun p hp => h p (hin p hp)

lemma acquire (h : Guards none inside) {p : π} (hin : ∀ q, inside' q → inside q ∨ q = p) : Guards (some p) inside' := by
  intro q hq
  rcases hin q hq with hold | rfl
  · cases h q hold
  · rfl

lemma eq (h : Guards lock inside) {p q : π} (hp : inside p) (hq : inside q) : p = q :=
  Option.some.inj ((h p hp).symm.trans (h q hq))

lemma release (h : Guards lock inside) {p : π} (hp : inside p)
    (hin : ∀ q, inside' q → inside q ∧ q ≠ p) : Guards lock' inside' := by
  intro q hq
  obtain ⟨hold, hne⟩ := hin q hq
  exact absurd (h.eq hold hp) hne

lemma not_inside (h : Guards none inside) (p : π) : ¬ inside p := fun hp => by cases h p hp

end Guards
end SpinLock
