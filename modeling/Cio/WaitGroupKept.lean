import Cio.WaitGroupModel

/-! The books of the wait group. At most one call is finalizing a zero, the list it is going to take holds the
waiters that expect it, and whoever it took expects it. -/

namespace Cio.WaitGroup

open CallPool Parking List Pc

/-! ### What a program counter stands for -/

namespace Pc

def draining : Pc → Nat
  | .drain _ => 1
  | .addLoad _ | .addLoop _ _ | .sub _ | .publish _ _ | .wakeList _ _ | .waitLoad | .parkWait | .spin | .parked
  | .granted | .added | .threw _ _ | .completed _ => 0

def finishing : Pc → Nat
  | .drain _ | .publish _ _ => 1
  | .addLoad _ | .addLoop _ _ | .sub _ | .wakeList _ _ | .waitLoad | .parkWait | .spin | .parked | .granted
  | .added | .threw _ _ | .completed _ => 0

def waiting : Pc → Nat
  | .parked => 1
  | .addLoad _ | .addLoop _ _ | .sub _ | .drain _ | .publish _ _ | .wakeList _ _ | .waitLoad | .parkWait | .spin
  | .granted | .added | .threw _ _ | .completed _ => 0

def carries : Pc → List Nat
  | .publish _ nodes | .wakeList _ nodes => nodes
  | .addLoad _ | .addLoop _ _ | .sub _ | .drain _ | .waitLoad | .parkWait | .spin | .parked | .granted | .added
  | .threw _ _ | .completed _ => []

def serves : Pc → Option Nat
  | .drain transition | .publish transition _ | .wakeList transition _ => some transition
  | .addLoad _ | .addLoop _ _ | .sub _ | .waitLoad | .parkWait | .spin | .parked | .granted | .added | .threw _ _
  | .completed _ => none

def early : Pc → Bool
  | .waitLoad | .parkWait => true
  | .addLoad _ | .addLoop _ _ | .sub _ | .drain _ | .publish _ _ | .wakeList _ _ | .spin | .parked | .granted
  | .added | .threw _ _ | .completed _ => false

def positive : Pc → Bool
  | .addLoad amount | .addLoop amount _ | .sub amount => decide (0 < amount)
  | .drain _ | .publish _ _ | .wakeList _ _ | .waitLoad | .parkWait | .spin | .parked | .granted | .added
  | .threw _ _ | .completed _ => true

end Pc

def Task.count (f : Pc → Nat) (t : Task) : Nat := f t.pc

def Task.carries (t : Task) : List Nat := t.pc.carries

/-! ### The invariant -/

structure Sound (s : State) : Prop where
  range : s.state ≤ kMaxCount + 1
  finishing : weight (Task.count finishing) s.tasks = if s.state = kFinishing then 1 else 0
  zero : s.state = 0 → s.list = []
  published : ∀ t ∈ s.tasks, ∀ transition nodes, t.pc = .publish transition nodes → s.waiters = none
  present : ∀ t ∈ s.tasks, t.pc.finishing = 1 → t.pc.serves = some s.transitions
  past : ∀ t ∈ s.tasks, ∀ transition, t.pc.serves = some transition → transition ≤ s.transitions
  positive : ∀ t ∈ s.tasks, t.pc.positive = true

/-- A waiter is woken by the transition it waits for. -/
structure Placed (s : State) : Prop where
  lot : Lot (Task.count waiting) Task.carries s.list s.tasks
  next : ∀ n ∈ s.list, ∀ w, s.tasks[n]? = some w →
    w.expects + weight (Task.count draining) s.tasks = s.transitions + 1
  carried : ∀ x ∈ s.tasks, ∀ n ∈ x.carries, ∀ w, s.tasks[n]? = some w → x.pc.serves = some w.expects

/-- What a call knows about the past: a waiter whose transition has happened, and a call that saw a zero being
finalized, began before the last zero. -/
structure Task.Timed (clock zeroAt transitions : Nat) (t : Task) : Prop where
  began : t.began ≤ clock
  served : t.waited = true → t.expects ≤ transitions → t.began ≤ zeroAt
  spun : t.pc = .spin → t.began ≤ zeroAt
  granted : t.pc = .granted → t.waited = true ∧ t.expects ≤ transitions
  completed : ∀ z, t.pc = .completed z → t.began ≤ z
  woken : t.wokenBy = if t.waited = true ∧ t.pc.waiting = 0 then some t.expects else none

structure Timed (s : State) : Prop where
  now : countOf s.state = 0 → s.zeroAt = s.clock
  before : s.zeroAt ≤ s.clock
  tasks : ∀ t ∈ s.tasks, t.Timed s.clock s.zeroAt s.transitions

def Task.Woken (t : Task) : Prop := Parking.Woken t.waited t.wakes t.pc.waiting t.pc.early

structure Kept (s : State) : Prop where
  sound : Sound s
  placed : Placed s
  timed : Timed s
  woken : ∀ t ∈ s.tasks, t.Woken

/-! ### Words -/

variable {s : State} {t : Task} {i state magnitude : Nat}

lemma fetchSub_eq (hle : magnitude ≤ state) (hrange : state ≤ kMaxCount + 1) :
    fetchSub state magnitude = state - magnitude := by
  have hsmall : state < 2 ^ 64 := hrange.trans_lt (by decide)
  have hsplit : state + 2 ^ 64 - magnitude = (state - magnitude) + 2 ^ 64 := by omega
  rw [fetchSub, hsplit, Nat.add_mod_right, Nat.mod_eq_of_lt (by omega)]

lemma countOf_eq (h : kFinishing < state) : countOf state = state - 1 := if_pos h

lemma countOf_zero (h : state ≤ kFinishing) : countOf state = 0 := if_neg (not_lt.mpr h)

lemma lt_of_countOf_pos (h : 0 < countOf state) : kFinishing < state := by
  by_contra hle
  rw [countOf_zero (not_lt.mp hle)] at h
  exact lt_irrefl 0 h

lemma sub_more (hmore : magnitude < countOf state) (hrange : state ≤ kMaxCount + 1) :
    fetchSub state magnitude = state - magnitude ∧ kFinishing < state - magnitude ∧
      kFinishing < state := by
  have hstate := lt_of_countOf_pos (Nat.lt_of_le_of_lt (Nat.zero_le _) hmore)
  rw [countOf_eq hstate] at hmore
  have hbound : kFinishing < state - magnitude := by
    unfold kFinishing at *
    omega
  exact ⟨fetchSub_eq (by omega) hrange, hbound, hstate⟩

lemma sub_last (hlast : magnitude = countOf state) (hpos : 0 < magnitude) (hrange : state ≤ kMaxCount + 1) :
    fetchSub state magnitude = kFinishing ∧ kFinishing < state := by
  have hstate : kFinishing < state := lt_of_countOf_pos (by omega)
  rw [countOf_eq hstate] at hlast
  rw [fetchSub_eq (by omega) hrange]
  unfold kFinishing at *
  omega

/-! ### The call that finalizes -/

lemma Sound.word_of_finishing (h : Sound s) (ht : s.tasks[i]? = some t)
    (hfin : t.pc.finishing = 1) : s.state = kFinishing := by
  have hle := le_weight (Task.count Pc.finishing) (List.mem_of_getElem? ht)
  rw [h.finishing, Task.count, hfin] at hle
  by_contra hne
  rw [if_neg hne] at hle
  cases hle

lemma draining_le_finishing (t : Task) : t.count draining ≤ t.count finishing := by
  unfold Task.count
  cases t.pc <;> simp [draining, finishing]

lemma Sound.not_draining (h : Sound s) (hstate : s.state ≠ kFinishing) : weight (Task.count draining) s.tasks = 0 := by
  have hle := weight_mono draining_le_finishing s.tasks
  rw [h.finishing, if_neg hstate] at hle
  exact Nat.le_zero.mp hle

lemma Sound.draining (h : Sound s) (hstate : s.state = kFinishing) (hlist : s.waiters ≠ none) :
    weight (Task.count Pc.draining) s.tasks = 1 := by
  have hsame : weight (Task.count Pc.draining) s.tasks = weight (Task.count Pc.finishing) s.tasks := by
    refine le_antisymm (weight_mono draining_le_finishing s.tasks) ?_
    have hpos : 0 < weight (Task.count Pc.finishing) s.tasks := by
      rw [h.finishing, if_pos hstate]
      exact Nat.one_pos
    obtain ⟨t, ht, htpos⟩ := exists_of_weight_pos hpos
    have hdrain : t.count Pc.draining = 1 := by
      rw [Task.count] at htpos ⊢
      cases hpc : t.pc with
      | drain => rfl
      | publish transition nodes => exact absurd (h.published t ht transition nodes hpc) hlist
      | _ =>
        rw [hpc] at htpos
        cases htpos
    rw [h.finishing, if_pos hstate, ← hdrain]
    exact le_weight (Task.count Pc.draining) ht
  rw [hsame, h.finishing, if_pos hstate]

lemma Sound.drains_alone (h : Sound s) (ht : s.tasks[i]? = some t)
    (hpc : t.pc.finishing = 1) : weight (Task.count Pc.draining) s.tasks = t.pc.draining := by
  refine weight_eq_of_alone ht draining_le_finishing ?_
  rw [h.finishing, if_pos (h.word_of_finishing ht hpc), Task.count, hpc]

/-! ### The word after a step -/

lemma Sound.set {u : State} (h : Sound s) {t' : Task} (ht : s.tasks[i]? = some t)
    (htasks : u.tasks = s.tasks.set i t') (hrange : u.state ≤ kMaxCount + 1)
    (hfin : (if u.state = kFinishing then 1 else 0) + t.pc.finishing =
      (if s.state = kFinishing then 1 else 0) + t'.pc.finishing)
    (hzero : u.state = 0 → u.list = [])
    (hpublished : (∃ y ∈ s.tasks, ∃ transition nodes, y.pc = .publish transition nodes) → u.waiters = none)
    (hpublished' : ∀ transition nodes, t'.pc = .publish transition nodes → u.waiters = none)
    (htrans : s.transitions ≤ u.transitions)
    (hpresent : ∀ y ∈ s.tasks, y.pc.finishing = 1 → u.transitions = s.transitions)
    (hserve : ∀ transition, t'.pc.serves = some transition → transition ≤ u.transitions)
    (hserves' : t'.pc.finishing = 1 → t'.pc.serves = some u.transitions) (hpositive : t'.pc.positive) :
    Sound u := by
  refine ⟨hrange, ?_, hzero, ?_, ?_, ?_, ?_⟩
  · exact weight_of_set ht htasks h.finishing hfin
  · rw [htasks]
    exact forall_set (fun y hy transition nodes hpc => hpublished ⟨y, hy, transition, nodes, hpc⟩) hpublished' i
  · rw [htasks]
    refine forall_set (fun y hy hf => ?_) hserves' i
    rw [hpresent y hy hf]
    exact h.present y hy hf
  · rw [htasks]
    exact forall_set (fun y hy transition hs => le_trans (h.past y hy transition hs) htrans) hserve i
  · rw [htasks]
    exact forall_set h.positive hpositive i

lemma Sound.move {u : State} (h : Sound s) {t' : Task} (ht : s.tasks[i]? = some t)
    (htasks : u.tasks = s.tasks.set i t') (hstate : u.state = s.state) (hqueue : u.waiters = s.waiters)
    (htrans : u.transitions = s.transitions) (hfin : t'.pc.finishing = t.pc.finishing) (hquiet : t'.pc.finishing = 0)
    (hserve : ∀ transition, t'.pc.serves = some transition → transition ≤ s.transitions) (hpositive : t'.pc.positive) :
    Sound u := by
  refine h.set ht htasks (hstate ▸ h.range) (by rw [hstate, hfin]) ?_ ?_ ?_
    htrans.symm.le (fun _ _ _ => htrans) ?_ ?_ hpositive
  · intro hzero
    rw [State.list, hqueue]
    exact h.zero (hstate.symm.trans hzero)
  · rintro ⟨y, hy, transition, nodes, hpc⟩
    rw [hqueue]
    exact h.published y hy transition nodes hpc
  · intro transition nodes hpc
    rw [hpc] at hquiet
    cases hquiet
  · intro transition hs
    rw [htrans]
    exact hserve transition hs
  · intro hf
    rw [hquiet] at hf
    cases hf

lemma Move.quiet {pc : Pc} (h : Move s t pc) :
    pc.finishing = 0 ∧ t.pc.finishing = 0 ∧ pc.serves = none ∧ pc.carries = [] ∧ t.pc.carries = [] ∧
      pc.draining = 0 ∧ t.pc.draining = 0 := by
  cases h with
  | addLoop hpc => rcases hpc with hpc | ⟨_, hpc⟩ <;> rw [hpc] <;> exact ⟨rfl, rfl, rfl, rfl, rfl, rfl, rfl⟩
  | threw hpc | awake hpc | parkWait hpc =>
    rw [hpc]
    exact ⟨rfl, rfl, rfl, rfl, rfl, rfl, rfl⟩
  | completed hpc =>
    rcases hpc with ⟨hpc | hpc, -⟩ | hpc | hpc <;> rw [hpc] <;> exact ⟨rfl, rfl, rfl, rfl, rfl, rfl, rfl⟩
  | spin hpc => rcases hpc with hpc | hpc <;> rw [hpc] <;> exact ⟨rfl, rfl, rfl, rfl, rfl, rfl, rfl⟩

lemma Move.positive {pc : Pc} (h : Move s t pc) (hold : t.pc.positive) : pc.positive = true := by
  cases h with
  | addLoop hpc => rcases hpc with hpc | ⟨_, hpc⟩ <;> rw [hpc] at hold <;> exact hold
  | threw | awake | completed | parkWait | spin => rfl

section

variable (h : Sound s)
include h

lemma Sound.positive_of {amount : Nat} (ht : s.tasks[i]? = some t)
    (hpc : t.pc = .sub amount ∨ ∃ observed, t.pc = .addLoop amount observed) : 0 < amount := by
  have hpositive := h.positive t (mem_of_getElem? ht)
  rcases hpc with hpc | ⟨observed, hpc⟩ <;> rw [hpc] at hpositive <;> exact of_decide_eq_true hpositive

lemma Sound.not_publishing (hstate : s.state ≠ kFinishing) : ∀ y ∈ s.tasks, y.pc.finishing ≠ 1 := by
  intro y hy hf
  obtain ⟨j, hj⟩ := mem_iff_getElem?.mp hy
  exact hstate (h.word_of_finishing hj hf)

section

variable (ht : s.tasks[i]? = some t)

include ht

lemma sound_add {amount : Nat} (hpc : t.pc = .addLoop amount s.state) (hstate : s.state ≠ kFinishing)
    (hfits : amount ≤ kMaxCount - countOf s.state) :
    Sound ({ s with state := if s.state = 0 then amount + 1 else s.state + amount }.setPc i t .added) := by
  have hpos := h.positive_of ht (.inr ⟨_, hpc⟩)
  have hnone := h.not_publishing hstate
  have hword : kFinishing < (if s.state = 0 then amount + 1 else s.state + amount) ∧
      (if s.state = 0 then amount + 1 else s.state + amount) ≤ kMaxCount + 1 := by
    by_cases hzero : s.state = 0
    · rw [if_pos hzero]
      unfold kFinishing
      omega
    · rw [if_neg hzero]
      have hlarge : kFinishing < s.state := by
        unfold kFinishing at *
        omega
      have hrange := h.range
      rw [countOf_eq hlarge] at hfits
      omega
  refine h.set ht rfl hword.2 ?_ (fun hzero => ?_) ?_ nofun (le_rfl) (fun _ _ _ => rfl) nofun nofun rfl
  · rw [if_neg hstate, hpc]
    show (if (if s.state = 0 then amount + 1 else s.state + amount) = kFinishing then 1 else 0) + 0 = 0 + 0
    rw [if_neg (ne_of_gt hword.1)]
  · exact absurd (hzero ▸ hword.1 : kFinishing < 0) (Nat.not_lt_zero _)
  · rintro ⟨y, hy, transition, nodes, hpub⟩
    exact absurd (hpub ▸ rfl) (hnone y hy)

lemma sound_sub {word : Nat} (hpc : t.pc = .sub magnitude) (hmore : magnitude < countOf s.state)
    (hword : word = fetchSub s.state magnitude) : Sound ({ s with state := word }.setPc i t .added) := by
  obtain ⟨hsub, hlarge, hstate⟩ := sub_more hmore h.range
  have hnone := h.not_publishing (ne_of_gt hstate)
  rw [hword, hsub]
  refine h.set ht rfl (Nat.le_trans (Nat.sub_le _ _) h.range) ?_ (fun hzero => ?_) ?_ nofun
    (le_rfl) (fun _ _ _ => rfl) nofun nofun rfl
  · rw [if_neg (ne_of_gt hstate), hpc]
    show (if s.state - magnitude = kFinishing then 1 else 0) + 0 = 0 + 0
    rw [if_neg (ne_of_gt hlarge)]
  · exact absurd (hzero ▸ hlarge : kFinishing < 0) (Nat.not_lt_zero _)
  · rintro ⟨y, hy, transition, nodes, hpub⟩
    exact absurd (hpub ▸ rfl) (hnone y hy)

lemma sound_last {word : Nat} (hpc : t.pc = .sub magnitude) (hlast : magnitude = countOf s.state)
    (hword : word = fetchSub s.state magnitude) :
    Sound ({ s with state := word, transitions := s.transitions + 1 }.setPc i t (.drain (s.transitions + 1))) := by
  obtain ⟨hsub, hstate⟩ := sub_last hlast (h.positive_of ht (.inl hpc)) h.range
  have hnone := h.not_publishing (ne_of_gt hstate)
  rw [hword, hsub]
  refine h.set ht rfl (show kFinishing ≤ kMaxCount + 1 by decide) ?_ nofun ?_
    nofun (Nat.le_succ _) (fun y hy hf => absurd hf (hnone y hy)) ?_ (fun _ => rfl) rfl
  · rw [if_neg (ne_of_gt hstate), hpc]
    rfl
  · rintro ⟨y, hy, transition, nodes, hpub⟩
    exact absurd (hpub ▸ rfl) (hnone y hy)
  · intro transition hnew
    cases hnew
    exact le_rfl

lemma sound_drain {transition : Nat} (hpc : t.pc = .drain transition) :
    Sound ({ s with waiters := none }.setPc i t (.publish transition s.list)) := by
  have hserve := h.present t (mem_of_getElem? ht) (hpc ▸ rfl)
  rw [hpc] at hserve
  cases hserve
  refine h.set ht rfl h.range ?_ (fun _ => rfl) (fun _ => rfl) (fun _ _ _ => rfl) (le_rfl)
    (fun _ _ _ => rfl) ?_ (fun _ => rfl) rfl
  · rw [hpc]
    rfl
  · intro transition hnew
    cases hnew
    exact le_rfl

lemma sound_publish {transition : Nat} {nodes : List Nat} (hpc : t.pc = .publish transition nodes) :
    Sound ({ s with state := 0 }.setPc i t (.wakeList transition nodes)) := by
  have hmem := mem_of_getElem? ht
  have hqueue := h.published t hmem transition nodes hpc
  have hstate := h.word_of_finishing ht (hpc ▸ rfl)
  refine h.set ht rfl (Nat.zero_le _) ?_ (fun _ => ?_) (fun _ => hqueue) (fun _ _ _ => hqueue) (Nat.le_refl _)
    (fun _ _ _ => rfl) ?_ nofun rfl
  · rw [if_pos hstate, hpc]
    rfl
  · rw [State.list, hqueue]
    rfl
  · intro transition' hnew
    cases hnew
    exact h.past t hmem transition (hpc ▸ rfl)

lemma sound_park {expects : Nat} (hpc : t.pc = .parkWait)
    (hexp : s.state = kFinishing ∧ s.waiters ≠ none ∧ expects = s.transitions ∨
      kFinishing < s.state ∧ expects = s.transitions + 1) : Sound (s.park i t expects) := by
  have hnone : ¬ ∃ y ∈ s.tasks, ∃ transition nodes, y.pc = .publish transition nodes := by
    rintro ⟨y, hy, transition, nodes, hpub⟩
    rcases hexp with ⟨-, hlist, -⟩ | ⟨hstate, -⟩
    · exact hlist (h.published y hy transition nodes hpub)
    · exact absurd (hpub ▸ rfl) (h.not_publishing (ne_of_gt hstate) y hy)
  refine h.set ht rfl h.range ?_ (fun hzero => ?_) (fun hex => absurd hex hnone) nofun
    (le_rfl) (fun _ _ _ => rfl) nofun nofun rfl
  · rw [hpc]
    rfl
  · have hzero : s.state = 0 := hzero
    rcases hexp with ⟨hstate, -⟩ | ⟨hstate, -⟩
    all_goals
      rw [hzero] at hstate
      cases hstate

end

end

end Cio.WaitGroup
