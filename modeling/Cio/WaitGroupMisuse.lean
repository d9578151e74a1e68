import Cio.WaitGroupSafety

/-! The misuse check of `add`. The marker it looks for stands in the word while the last `done()` finalizes the zero,
whether anybody waits or not, so an `add` of the next round can be refused on a group nobody has waited on. Callers keep
it right when an `add` and the end of the last `done()` come to overlap only while somebody waits. -/

namespace Cio.WaitGroup

open CallPool

/-- A `wait()` is in progress when an `add` of more than zero begins while a `done()` is between its `fetch_sub` and its
store of the zero, and when a `done()` brings the count to zero while such an `add` is in progress. -/
def Attended (s : State) : Act → Prop
  | .add delta => 0 < delta → (∃ t ∈ s.tasks, t.pc.finishing = 1) → ∃ w ∈ s.tasks, w.pc.waits = true
  | .wait => True
  | .task i _ => ∀ t ∈ s.tasks[i]?, t.pc = .sub (countOf s.state) → (∃ x ∈ s.tasks, x.pc.adds = true) →
    ∃ w ∈ s.tasks, w.pc.waits = true

instance (s : State) (a : Act) : Decidable (Attended s a) :=
  match a with
  | .add _ => inferInstanceAs (Decidable (_ → _ → _))
  | .wait => inferInstanceAs (Decidable True)
  | .task i _ => inferInstanceAs (Decidable (∀ t ∈ s.tasks[i]?, _ → _ → _))

/-! ### What a refused call knows -/

/-- A call of `add` that may meet the marker, or has met it, began before the last moment of a `wait()`. -/
structure Task.Warned (state waitAt : Nat) (t : Task) : Prop where
  adds : t.pc.adds = true → state = kFinishing → t.began ≤ waitAt
  loaded : ∀ amount, t.pc = .addLoop amount kFinishing → t.began ≤ waitAt
  threw : ∀ what z, t.pc = .threw what z → t.began ≤ z

structure Warned (s : State) : Prop where
  before : s.waitAt ≤ s.clock
  tasks : ∀ t ∈ s.tasks, t.Warned s.state s.waitAt

variable {s v : State} {t : Task}

lemma Task.Warned.of {state waitAt : Nat} (hadds : t.pc.adds = false) (hthrew : ∀ what z, t.pc ≠ .threw what z) :
    t.Warned state waitAt := by
  refine ⟨fun h => ?_, fun amount hpc => ?_, fun what z hpc => absurd hpc (hthrew what z)⟩
  · cases hadds.symm.trans h
  · rw [hpc] at hadds
    cases hadds

lemma waitAt_tick (h : ∃ w ∈ v.tasks, w.pc.waits = true) : v.tick.waitAt = v.clock + 1 :=
  if_pos (List.any_eq_true.mpr h)

section

variable (h : Warned s) (hclock : v.clock = s.clock) (hwait : v.waitAt = s.waitAt)

include h hclock hwait

lemma Warned.later
    (hstate : v.state = kFinishing → s.state = kFinishing) (ht : t ∈ s.tasks) : t.Warned v.state v.tick.waitAt := by
  have hle : s.waitAt ≤ v.tick.waitAt := by
    show s.waitAt ≤ if v.tasks.any (fun t => t.pc.waits) then v.clock + 1 else v.waitAt
    split
    · rw [hclock]
      exact Nat.le_succ_of_le h.before
    · exact le_of_eq hwait.symm
  have hold := h.tasks t ht
  exact ⟨fun hadds hfin => (hold.adds hadds (hstate hfin)).trans hle,
    fun amount hpc => (hold.loaded amount hpc).trans hle, hold.threw⟩

lemma Warned.tick (htasks : ∀ t ∈ v.tasks, t.Warned v.state v.tick.waitAt) : Warned v.tick := by
  refine ⟨?_, htasks⟩
  show (if v.tasks.any (fun t => t.pc.waits) then v.clock + 1 else v.waitAt) ≤ v.clock + 1
  split
  · exact le_rfl
  · rw [hwait, hclock]
    exact Nat.le_succ_of_le h.before

/-- A step that does not bring the marker into the word. -/
lemma Warned.set {i : Nat} {r : Task} (hstate : v.state = kFinishing → s.state = kFinishing)
    (htasks : v.tasks = s.tasks.set i r) (hr : r.Warned v.state v.tick.waitAt) : Warned v.tick := by
  refine h.tick hclock hwait ?_
  rw [htasks]
  exact forall_set (fun x hx => h.later hclock hwait hstate hx) hr i

end

lemma Task.Warned.move {pc : Pc} {waitAt : Nat} (hold : t.Warned s.state waitAt)
    (hthrew : ∀ amount, t.pc = .addLoop amount kFinishing → t.began ≤ s.waitAt) (hmove : Move s t pc) :
    Task.Warned s.state waitAt { t with pc := pc } := by
  cases hmove with
  | @addLoop amount hpc =>
    have hadds : t.pc.adds = true := by
      rcases hpc with hpc | ⟨observed, hpc⟩ <;> rw [hpc] <;> rfl
    refine ⟨fun _ => hold.adds hadds, fun amount' hnew => ?_, nofun⟩
    have hstate : s.state = kFinishing := by
      injection hnew
    exact hold.adds hadds hstate
  | @threw amount hpc =>
    refine ⟨nofun, nofun, fun what z hnew => ?_⟩
    cases hnew
    exact hthrew amount hpc
  | awake | completed | parkWait | spin => exact .of rfl (by simp)

/-- The count comes to zero: whoever adds then does so beside a `wait()`. -/
lemma warned_last (h : Warned s) (hkept : Kept s) {i magnitude word : Nat} (ht : s.tasks[i]? = some t)
    (hpc : t.pc = .sub magnitude) (hover : (∃ x ∈ s.tasks, x.pc.adds = true) → ∃ w ∈ s.tasks, w.pc.waits = true) :
    Warned
      ({ s with state := word, transitions := s.transitions + 1 }.setPc i t (.drain (s.transitions + 1))).tick := by
  refine h.tick rfl rfl (forall_set (fun x hx => ?_) (.of rfl (by simp)) i)
  have hold := h.later (v := s.setPc i t (.drain (s.transitions + 1))) rfl rfl id hx
  refine ⟨fun hadds _ => ?_, hold.loaded, hold.threw⟩
  have hwaits : ∃ w ∈ s.tasks.set i { t with pc := .drain (s.transitions + 1) }, w.pc.waits = true :=
    exists_set ht (hover ⟨x, hx, hadds⟩) fun hw => by rw [hpc] at hw; cases hw
  rw [waitAt_tick hwaits]
  exact Nat.le_succ_of_le (hkept.timed.tasks x hx).began

lemma warned_taskStep (h : Warned s) (hkept : Kept s) {i : Nat} (ht : s.tasks[i]? = some t)
    (hover : t.pc = .sub (countOf s.state) → (∃ x ∈ s.tasks, x.pc.adds = true) → ∃ w ∈ s.tasks, w.pc.waits = true)
    (hs : TaskStep s i t v) : Warned v.tick := by
  have hmem := List.mem_of_getElem? ht
  cases hs with
  | @move pc hmove =>
    have hold := h.later (v := s.setPc i t pc) rfl rfl id hmem
    exact h.set rfl rfl id rfl (Task.Warned.move (s := s) hold (h.tasks t hmem).loaded hmove)
  | @add amount hpc hstate =>
    refine h.set rfl rfl (fun hfin => ?_) rfl (.of rfl (by simp))
    have hpos : 0 < amount := by
      have hpositive := hkept.sound.positive t hmem
      rw [hpc] at hpositive
      exact of_decide_eq_true hpositive
    have hfin : (if s.state = 0 then amount + 1 else s.state + amount) = 1 := hfin
    split at hfin <;> omega
  | @sub magnitude word hpc hmore hword =>
    obtain ⟨heq, hlarge, -⟩ := sub_more hmore hkept.sound.range
    refine h.set rfl rfl (fun hfin => ?_) rfl (.of rfl (by simp))
    exact absurd (hword.symm.trans hfin) (by rw [heq]; exact ne_of_gt hlarge)
  | last hpc hlast => exact warned_last h hkept ht hpc (hover (hlast ▸ hpc))
  | drain | park => exact h.set rfl rfl id rfl (.of rfl (by simp))
  | publish => exact h.set rfl rfl nofun rfl (.of rfl (by simp))
  | @wake transition n rest w hpc hw =>
    refine h.tick rfl rfl (forall_set (forall_set (fun x hx => ?_) (.of rfl (by simp)) n) (.of rfl (by simp)) i)
    exact h.later rfl rfl id hx

lemma warned_start (h : Warned s) {pc : Pc} (hpc : pc.starts)
    (hover : pc.adds → s.state = kFinishing → ∃ w ∈ s.tasks, w.pc.waits) : Warned (s.start pc).tick := by
  have hold : ∀ x ∈ s.tasks, x.Warned (s.start pc).state (s.start pc).tick.waitAt := fun x hx => h.later rfl rfl id hx
  refine h.tick rfl rfl (forall_append hold ⟨fun hadds hfin => ?_, ?_, ?_⟩)
  · rw [waitAt_tick (exists_append (hover hadds hfin) _)]
    exact le_rfl
  all_goals
    intros
    subst_vars
    cases hpc

/-! ### The guarantee -/

lemma warned_groupStep {u : State} {a : Act} (h : Warned s) (hkept : Kept s) (hrange : InRange s a)
    (hover : Attended s a) (hs : groupStep s a = some u) : Warned u := by
  rcases groupStep_cases hrange hs with ⟨pc, hpc, hadds, rfl⟩ | ⟨i, spurious, t, v, rfl, ht, htask, rfl⟩
  · refine warned_start h hpc fun hstart hfin => ?_
    obtain ⟨delta, rfl, hpos⟩ := hadds hstart
    have hone := hkept.sound.finishing
    rw [if_pos hfin] at hone
    obtain ⟨x, hx, hxpos⟩ := exists_of_weight_pos (show 0 < weight _ s.tasks by rw [hone]; exact Nat.one_pos)
    refine hover hpos ⟨x, hx, ?_⟩
    have hle := le_weight (Task.count Pc.finishing) hx
    rw [hone] at hle
    exact Nat.le_antisymm hle hxpos
  · exact warned_taskStep h hkept ht (hover t ht) htask

/-- **When an `add` and the end of the last `done()` come to overlap only while somebody waits, `add` throws only beside
a `wait()`.** -/
theorem add_throws_beside_wait {s : State} (hs : groupSystem.ReachableVia (fun s a => InRange s a ∧ Attended s a) s) :
    ∀ t ∈ s.tasks, ∀ what z, t.pc = .threw what z → t.began ≤ z := by
  have hboth : Kept s ∧ Warned s := by
    refine hs.invariant (P := fun s => Kept s ∧ Warned s) ?_ (fun s a u h hc hstep => ?_)
    · rintro s rfl
      exact ⟨kept_init, Nat.le_refl _, nofun⟩
    · exact ⟨kept_groupStep h.1 hc.1 hstep, warned_groupStep h.2 h.1 hc.1 hc.2 hstep⟩
  exact fun t ht => (hboth.2.tasks t ht).threw

theorem add_throws_beside_parked : ∃ s, groupSystem.ReachableVia (fun s a => InRange s a ∧ Attended s a) s ∧
    (s.tasks.map Task.pc) = [.added, .parked, .drain 1, .threw .concurrent 10] ∧
      ∀ t ∈ s.tasks, ∀ what z, t.pc = .threw what z → t.began ≤ z := by
  obtain ⟨s, hs, hp⟩ := groupSystem.reachableVia_of_run (fun s a => InRange s a ∧ Attended s a) {}
    [.add 1, .task 0 false, .task 0 false, .wait, .task 1 false, .task 1 false, .add (-1), .task 2 false, .add 1,
      .task 3 false, .task 3 false]
    (fun s => (s.tasks.map Task.pc) = [.added, .parked, .drain 1, .threw .concurrent 10]) rfl
    (by decide +kernel)
  exact ⟨s, hs, hp, add_throws_beside_wait hs⟩

/-- Nobody has called `wait()`: one call adds one, another takes it away and finalizes the zero, and the `add` of the
next round is refused. -/
theorem add_throws_alone : ∃ s, groupSystem.ReachableVia InRange s ∧ s.waitAt = 0 ∧
    (s.tasks.map fun t => (t.began, t.pc)) = [(1, .added), (4, .drain 1), (6, .threw .concurrent 0)] := by
  exact groupSystem.reachableVia_of_run InRange {}
    [.add 1, .task 0 false, .task 0 false, .add (-1), .task 1 false, .add 1, .task 2 false, .task 2 false]
    _ rfl
    (by decide +kernel)

end Cio.WaitGroup
