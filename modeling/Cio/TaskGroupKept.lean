import Cio.TaskGroupModel

/-! The word of the group. It counts the outstanding children, or stands at `kFinishing` when there are none and a
completion has claimed that; while joiners are parked and no child is outstanding, somebody is going to take them. -/

namespace Cio.TaskGroup

open CallPool List Pc

/-! ### What a program counter stands for -/

namespace Pc

def inside : Pc → Nat
  | .startStore | .startAdd | .finishStore => 1
  | _ => 0

def stores : Pc → Bool
  | .startStore | .finishStore => true
  | _ => false

def claimed : Pc → Bool
  | .finishLock | .finishStore => true
  | _ => false

def waiting : Pc → Nat
  | .parked => 1
  | _ => 0

def carries : Pc → List Nat
  | .wakeList nodes => nodes
  | _ => []

def early : Pc → Bool
  | .joinLoad | .parkJoin => true
  | _ => false

def resumed : Pc → Bool
  | .resume | .rethrow | .joined _ _ => true
  | _ => false

lemma inside_of_stores {pc : Pc} (h : pc.stores) : pc.inside = 1 := by
  cases pc <;> first | rfl | cases h

lemma finish_counted (direct : Bool) : (finish direct).counted = 1 ∧ (finish direct).inside = 0 ∧
    (finish direct).waiting = 0 ∧ (finish direct).carries = [] ∧ (finish direct).early = false ∧
      (finish direct).resumed = false ∧ (finish direct).stores = false := by
  cases direct <;> exact ⟨rfl, rfl, rfl, rfl, rfl, rfl, rfl⟩

end Pc

def Task.carries (t : Task) : List Nat := t.pc.carries

/-! ### The word -/

def countOf (outstanding : Nat) : Nat := if outstanding = kFinishing then 0 else outstanding

lemma countOf_finishing : countOf kFinishing = 0 := if_pos rfl

variable {outstanding : Nat} {pc : Pc} {r : Task}

lemma countOf_eq (h : outstanding ≠ kFinishing) : countOf outstanding = outstanding := if_neg h

lemma countOf_small (h : outstanding < kFinishing) : countOf outstanding = outstanding :=
  countOf_eq (ne_of_lt h)

lemma fetchAdd_eq (h : outstanding + 1 < kFinishing) : fetchAdd outstanding = outstanding + 1 := by
  unfold fetchAdd
  unfold kFinishing at h
  omega

lemma fetchSub_eq (hpos : 0 < outstanding) (h : outstanding ≤ kFinishing) : fetchSub outstanding = outstanding - 1 := by
  unfold fetchSub
  unfold kFinishing at h
  omega

/-- The word counts the children, and a finishing task owns it. -/
structure Sound (s : State) : Prop where
  range : s.outstanding ≤ kFinishing
  count : s.children = countOf s.outstanding
  inside : weight (Task.count inside) s.tasks = if s.locked = true then 1 else 0
  storing : ∀ t ∈ s.tasks, t.pc.stores = true → s.outstanding = kFinishing
  claimed : s.outstanding = kFinishing → ∃ t ∈ s.tasks, t.pc.claimed = true
  zero : s.outstanding = 0 → s.waiters = [] ∨ ∃ t ∈ s.tasks, t.pc = .claim

namespace Sound

variable {s u : State} {i : Nat} {t : Task}

section

variable (h : Sound s) (ht : s.tasks[i]? = some t)
include h ht

lemma locked_of_inside (hin : t.pc.inside = 1) : s.locked = true := by
  have hle := le_weight (Task.count Pc.inside) (List.mem_of_getElem? ht)
  rw [h.inside, Task.count, hin] at hle
  by_contra hne
  rw [if_neg hne] at hle
  cases hle

lemma nobody_inside (hin : t.pc.inside = 1)
    (hout : r.pc.inside = 0) {p : Prop} : ∀ y ∈ s.tasks.set i r, y.pc.stores → p := by
  intro y hy hst
  have hset := weight_set (Task.count Pc.inside) ht r
  rw [h.inside, if_pos (h.locked_of_inside ht hin), Task.count, Task.count, hin, hout] at hset
  have hle := le_weight (Task.count Pc.inside) hy
  rw [Task.count, Pc.inside_of_stores hst] at hle
  omega

lemma word_pos (hcnt : t.pc.counted = 1) : s.outstanding ≠ kFinishing ∧ 0 < s.outstanding := by
  have hle := le_weight (Task.count counted) (mem_of_getElem? ht)
  rw [Task.count, hcnt] at hle
  have hcount : weight (Task.count counted) s.tasks = countOf s.outstanding := h.count
  have hne : s.outstanding ≠ kFinishing := by
    intro heq
    rw [heq, countOf_finishing] at hcount
    omega
  rw [countOf_eq hne] at hcount
  exact ⟨hne, by omega⟩

lemma set (htasks : u.tasks = s.tasks.set i r) (hrange : u.outstanding ≤ kFinishing)
    (hcount : countOf u.outstanding + t.pc.counted = countOf s.outstanding + r.pc.counted)
    (hinside : (if u.locked then 1 else 0) + t.pc.inside = (if s.locked then 1 else 0) + r.pc.inside)
    (hstoring : ∀ y ∈ s.tasks.set i r, y.pc.stores → u.outstanding = kFinishing)
    (hclaimed : u.outstanding = kFinishing → ∃ y ∈ s.tasks.set i r, y.pc.claimed)
    (hzero : u.outstanding = 0 → u.waiters = [] ∨ ∃ y ∈ s.tasks.set i r, y.pc = .claim) : Sound u := by
  refine ⟨hrange, ?_, ?_, by rwa [htasks], by rwa [htasks], by rwa [htasks]⟩
  · exact weight_of_set ht htasks h.count hcount
  · exact weight_of_set ht htasks h.inside hinside

lemma keep {old : Pc} (hpc : t.pc = old)
    (hqueue : u.waiters = s.waiters ∨ s.outstanding ≠ 0) (htasks : u.tasks = s.tasks.set i r := by rfl)
    (hword : u.outstanding = s.outstanding := by rfl) (hlock : u.locked = s.locked := by rfl)
    (hcnt : old.counted = r.pc.counted := by rfl) (hinside : old.inside = r.pc.inside := by rfl)
    (hst : r.pc.stores = false := by rfl) (hclaimed : old.claimed → s.outstanding ≠ kFinishing := by rintro ⟨⟩)
    (hclaim : old = .claim → s.outstanding ≠ 0 := by rintro ⟨⟩) : Sound u := by
  subst hpc
  refine h.set ht htasks (hword ▸ h.range) (by rw [hword, hcnt]) (by rw [hlock, hinside]) ?_ ?_ ?_
  · refine forall_set (fun y hy hs => hword.trans (h.storing y hy hs)) (fun hs => ?_) i
    rw [hst] at hs
    cases hs
  · intro hfin
    rw [hword] at hfin
    exact exists_set ht (h.claimed hfin) fun hq => absurd hfin (hclaimed hq)
  · intro hzero
    rw [hword] at hzero
    rcases hqueue with hsame | hne
    · rw [hsame]
      exact (h.zero hzero).imp_right fun hex => exists_set ht hex fun hq => absurd hzero (hclaim hq)
    · exact absurd hzero hne

end

end Sound

/-! ### The word after a step -/

lemma Move.alike {s : State} {t : Task} (h : Move s t pc) :
    t.pc.counted = pc.counted ∧ t.pc.inside = 0 ∧ pc.inside = 0 ∧ pc.stores = false ∧ t.pc.waiting = 0 ∧
      pc.waiting = 0 ∧ t.pc.carries = [] ∧ pc.carries = [] := by
  cases h with
  | startLoop hpc => rcases hpc with hpc | ⟨_, hpc⟩ <;> rw [hpc] <;> exact ⟨rfl, rfl, rfl, rfl, rfl, rfl, rfl, rfl⟩
  | @finish direct hpc =>
    obtain ⟨hc, hi, hw, hl, -, -, hs⟩ := finish_counted direct
    rw [hpc]
    exact ⟨hc.symm, rfl, hi, hs, rfl, hw, rfl, hl⟩
  | resume hpc => rcases hpc with hpc | hpc <;> rw [hpc] <;> exact ⟨rfl, rfl, rfl, rfl, rfl, rfl, rfl, rfl⟩
  | startLock hpc | failed hpc | finishSub hpc | unclaimed hpc | cancelled hpc | awake hpc | parkJoin hpc
  | rethrow hpc | returned hpc | threw hpc =>
    rw [hpc]
    exact ⟨rfl, rfl, rfl, rfl, rfl, rfl, rfl, rfl⟩

lemma Move.gives_up {s : State} {t : Task} (h : Move s t pc) :
    (t.pc.claimed → s.outstanding ≠ kFinishing) ∧ (t.pc = .claim → s.outstanding ≠ 0) := by
  cases h with
  | unclaimed hpc hword =>
    rw [hpc]
    exact ⟨nofun, fun _ => hword⟩
  | cancelled hpc hword =>
    rw [hpc]
    exact ⟨fun _ => hword, nofun⟩
  | startLoop hpc => rcases hpc with hpc | ⟨_, hpc⟩ <;> rw [hpc] <;> exact ⟨nofun, nofun⟩
  | resume hpc => rcases hpc with hpc | hpc <;> rw [hpc] <;> exact ⟨nofun, nofun⟩
  | startLock hpc | failed hpc | finish hpc | finishSub hpc | awake hpc | parkJoin hpc | rethrow hpc
  | returned hpc | threw hpc =>
    rw [hpc]
    exact ⟨nofun, nofun⟩

section Steps

variable {s : State} {i : Nat} {t : Task}

section

variable (h : Sound s) (ht : s.tasks[i]? = some t)
include h ht

lemma sound_start (hpc : t.pc = .startLoop s.outstanding) (hfits : s.outstanding + 1 < kFinishing) {direct : Bool} :
    Sound ({ s with outstanding := s.outstanding + 1 }.setPc i t (.running direct)) := by
  have hne : s.outstanding ≠ kFinishing := Nat.ne_of_lt (Nat.lt_of_succ_lt hfits)
  refine h.set ht rfl hfits.le ?_ ?_ ?_ ?_ (fun hzero => absurd hzero (Nat.succ_ne_zero _))
  · rw [hpc, countOf_eq hne]
    show countOf (s.outstanding + 1) + 0 = s.outstanding + 1
    rw [countOf_small hfits]
  · rw [hpc]
    rfl
  · exact forall_set (fun y hy hs => absurd (h.storing y hy hs) hne) nofun i
  · exact fun heq => absurd heq (ne_of_lt hfits)

lemma sound_enter (hfree : s.locked = false)
    (hpc : t.pc = .startLock ∧ (pc = .startStore ∧ s.outstanding = kFinishing ∨ pc = .startAdd) ∨
      t.pc = .finishLock ∧ pc = .finishStore ∧ s.outstanding = kFinishing) :
    Sound ({ s with locked := true }.setPc i t pc) := by
  have hbooks : t.pc.counted = 0 ∧ pc.counted = 0 ∧ t.pc.inside = 0 ∧ pc.inside = 1 ∧ t.pc ≠ .claim ∧
      (pc.stores → s.outstanding = kFinishing) ∧ (t.pc.claimed → pc.claimed) := by
    rcases hpc with ⟨hpc, ⟨rfl, hword⟩ | rfl⟩ | ⟨hpc, rfl, hword⟩ <;> rw [hpc]
    · exact ⟨rfl, rfl, rfl, rfl, by simp, fun _ => hword, nofun⟩
    · exact ⟨rfl, rfl, rfl, rfl, by simp, nofun, nofun⟩
    · exact ⟨rfl, rfl, rfl, rfl, by simp, fun _ => hword, fun _ => rfl⟩
  obtain ⟨hc, hc', hin, hin', hclaim, hst, hclaimed⟩ := hbooks
  refine h.set ht rfl h.range ?_ ?_ ?_ ?_ ?_
  · rw [hc]
    exact congrArg (countOf s.outstanding + ·) hc'.symm
  · rw [hin, hfree]
    exact (congrArg (0 + ·) hin').symm
  · exact forall_set h.storing hst i
  · exact fun hfin => exists_set ht (h.claimed hfin) hclaimed
  · exact fun hzero => (h.zero hzero).imp_right fun hex => exists_set ht hex fun hq => absurd hq hclaim

lemma sound_store (hpc : t.pc = .startStore) :
    Sound ({ s with outstanding := 1, locked := false }.setPc i t (.running true)) := by
  have hword := h.storing t (mem_of_getElem? ht) (hpc ▸ rfl)
  have hlock := h.locked_of_inside ht (hpc ▸ rfl)
  have hsmall : 1 < kFinishing := by decide
  refine h.set ht rfl hsmall.le ?_ ?_ (h.nobody_inside ht (hpc ▸ rfl) rfl)
    (fun heq => absurd heq (Nat.ne_of_lt hsmall)) (fun heq => absurd heq Nat.one_ne_zero)
  · rw [hpc, hword, countOf_finishing]
    show countOf 1 + 0 = 0 + 1
    rw [countOf_small hsmall]
  · rw [hpc, hlock]
    rfl

lemma sound_add {word : Nat} (hpc : t.pc = .startAdd)
    (hfits : s.outstanding + 1 < kFinishing) (hword : word = fetchAdd s.outstanding) {direct : Bool} :
    Sound ({ s with outstanding := word, locked := false }.setPc i t (.running direct)) := by
  have hne : s.outstanding ≠ kFinishing := Nat.ne_of_lt (Nat.lt_of_succ_lt hfits)
  have hlock := h.locked_of_inside ht (hpc ▸ rfl)
  rw [hword, fetchAdd_eq hfits]
  refine h.set ht rfl hfits.le ?_ ?_ (h.nobody_inside ht (hpc ▸ rfl) rfl)
    (fun heq => absurd heq (Nat.ne_of_lt hfits)) (fun heq => absurd heq (Nat.succ_ne_zero _))
  · rw [hpc, countOf_eq hne]
    show countOf (s.outstanding + 1) + 0 = s.outstanding + 1
    rw [countOf_small hfits]
  · rw [hpc, hlock]
    rfl

lemma sound_claim (hpc : t.pc = .finishDirect ∧ s.outstanding = 1 ∨ t.pc = .claim ∧ s.outstanding = 0) :
    Sound ({ s with outstanding := kFinishing }.setPc i t .finishLock) := by
  refine h.set ht rfl (le_rfl) ?_ ?_ (fun _ _ _ => rfl) (fun _ => exists_set_self ht rfl) ?_
  · show countOf kFinishing + t.pc.counted = countOf s.outstanding + 0
    rw [countOf_finishing]
    rcases hpc with ⟨hpc, hword⟩ | ⟨hpc, hword⟩ <;> rw [hpc, hword] <;> decide
  · rcases hpc with ⟨hpc, -⟩ | ⟨hpc, -⟩ <;> rw [hpc] <;> rfl
  · exact fun heq => absurd heq (show kFinishing ≠ 0 by decide)

lemma sound_sub {word : Nat} (hpc : t.pc = .finishSub) (hword : word = fetchSub s.outstanding) :
    Sound ({ s with outstanding := word }.setPc i t (if 1 < s.outstanding then .finished else .claim)) := by
  obtain ⟨hne, hpos⟩ := h.word_pos ht (hpc ▸ rfl)
  have hlt : s.outstanding - 1 < kFinishing := by
    have hrange := h.range
    omega
  rw [hword, fetchSub_eq hpos h.range]
  have hbooks : (if 1 < s.outstanding then finished else .claim).counted = 0 ∧
      (if 1 < s.outstanding then finished else .claim).inside = 0 ∧
        (if 1 < s.outstanding then finished else .claim).stores = false := by
    split <;> exact ⟨rfl, rfl, rfl⟩
  refine h.set ht rfl hlt.le ?_ ?_ ?_ (fun heq => absurd heq (ne_of_lt hlt)) (fun hzero => .inr ?_)
  · show countOf (s.outstanding - 1) + t.pc.counted = countOf s.outstanding + counted _
    rw [hbooks.1, hpc, countOf_eq hne, countOf_small hlt]
    exact Nat.sub_add_cancel hpos
  · rw [hbooks.2.1, hpc]
    rfl
  · refine forall_set (fun y hy hs => absurd (h.storing y hy hs) hne) (fun hs => ?_) i
    rw [show stores _ = false from hbooks.2.2] at hs
    cases hs
  · -- this was the last child
    have hzero : s.outstanding - 1 = 0 := hzero
    refine exists_set_self ht ?_
    rw [if_neg (by omega)]

lemma sound_release (hpc : t.pc = .finishStore) :
    Sound ({ s with waiters := [], outstanding := 0, locked := false }.setPc i t (.wakeList s.waiters)) := by
  have hword := h.storing t (mem_of_getElem? ht) (hpc ▸ rfl)
  have hlock := h.locked_of_inside ht (hpc ▸ rfl)
  refine h.set ht rfl (Nat.zero_le _) ?_ ?_ (h.nobody_inside ht (hpc ▸ rfl) rfl) (fun heq => ?_) (fun _ => .inl rfl)
  · rw [hpc, hword, countOf_finishing]
    exact (countOf_small (show 0 < kFinishing by decide))
  · rw [hpc, hlock]
    rfl
  · exact absurd heq (show 0 ≠ kFinishing by decide)

end

end Steps

end Cio.TaskGroup
