import Cio.WaitGroupKept

/-! Every step of a call keeps the books of the wait group. -/

namespace Cio.WaitGroup

open CallPool Parking WaitGroup.Task List Pc

/-! ### Waiters -/

variable {s v u : State} {t w : Task} {i transition n : Nat} {pc : Pc} {rest : List Nat}

/-- The waiters after a step that changes no expectation. The expectations of the list follow the transitions and
the call that is about to take it. -/
lemma Placed.of (h : Placed s) (hlot : Lot (Task.count waiting) carries u.list u.tasks)
    (hlook : ∀ (n : Nat) (w : Task), u.tasks[n]? = some w → ∃ w', s.tasks[n]? = some w' ∧ w'.expects = w.expects)
    (hlist : ∀ n ∈ u.list, n ∈ s.list) (hnext : u.list ≠ [] → u.transitions + weight (Task.count draining) s.tasks =
      s.transitions + weight (Task.count draining) u.tasks)
    (hcarried : ∀ x ∈ u.tasks, ∀ n ∈ x.carries, (∃ y ∈ s.tasks, y.pc.serves = x.pc.serves ∧ n ∈ y.carries) ∨
      ∀ w, s.tasks[n]? = some w → x.pc.serves = some w.expects) : Placed u := by
  refine ⟨hlot, fun n hn w hw => ?_, fun x hx n hn w hw => ?_⟩
  · obtain ⟨w', hw', hexp⟩ := hlook n w hw
    have hold := h.next n (hlist n hn) w' hw'
    have hsame := hnext (ne_nil_of_mem hn)
    omega
  · obtain ⟨w', hw', hexp⟩ := hlook n w hw
    rw [← hexp]
    rcases hcarried x hx n hn with ⟨y, hy, hserve, hmem⟩ | hnew
    · rw [← hserve]
      exact h.carried y hy n hmem w' hw'
    · exact hnew w' hw'

lemma Placed.set (h : Placed s) {t' : Task} (ht : s.tasks[i]? = some t)
    (htasks : u.tasks = s.tasks.set i t') (hlot : Lot (Task.count waiting) carries u.list u.tasks)
    (hexp : t'.expects = t.expects) (hlist : ∀ n ∈ u.list, n ∈ s.list)
    (hnext : u.list ≠ [] → u.transitions + t.pc.draining = s.transitions + t'.pc.draining)
    (hcarried : ∀ n ∈ t'.carries, ∀ w, s.tasks[n]? = some w → t'.pc.serves = some w.expects) : Placed u := by
  refine h.of hlot (fun n w hw => ?_) hlist (fun hne => ?_) ?_
  · rw [htasks] at hw
    exact lookup_set expects ht hexp n w hw
  · have hset := weight_set (Task.count draining) ht t'
    have hsame := hnext hne
    rw [← htasks, Task.count, Task.count] at hset
    omega
  · rw [htasks]
    exact forall_set (fun y hy n hn => .inl ⟨y, hy, rfl, hn⟩) (fun n hn => .inr (hcarried n hn)) i

lemma Move.waiting (h : Move s t pc) : pc.waiting = 0 ∧ t.pc.waiting = 0 := by
  cases h with
  | addLoop hpc => rcases hpc with hpc | ⟨_, hpc⟩ <;> rw [hpc] <;> exact ⟨rfl, rfl⟩
  | threw hpc | awake hpc | parkWait hpc =>
    rw [hpc]
    exact ⟨rfl, rfl⟩
  | completed hpc => rcases hpc with ⟨hpc | hpc, -⟩ | hpc | hpc <;> rw [hpc] <;> exact ⟨rfl, rfl⟩
  | spin hpc => rcases hpc with hpc | hpc <;> rw [hpc] <;> exact ⟨rfl, rfl⟩

lemma placed_plain (h : Placed s) (ht : s.tasks[i]? = some t)
    (htasks : u.tasks = s.tasks.set i { t with pc := pc }) (hqueue : u.waiters = s.waiters)
    (hwait : pc.waiting = 0 ∧ t.pc.waiting = 0) (hcar : pc.carries = [] ∧ t.pc.carries = [])
    (hnext : u.transitions + t.pc.draining = s.transitions + pc.draining) : Placed u := by
  have hlist : u.list = s.list := by rw [State.list, State.list, hqueue]
  refine h.set ht htasks ?_ rfl (fun n hn => by rwa [hlist] at hn) (fun _ => hnext) (fun n hn => ?_)
  · rw [hlist, htasks]
    refine h.lot.move ht ?_ ?_
    · rw [Task.count, Task.count, hwait.1, hwait.2]
    · rw [Task.carries, Task.carries, hcar.1, hcar.2]
  · rw [Task.carries, hcar.1] at hn
    cases hn

lemma placed_drain (h : Placed s) (hsound : Sound s) (ht : s.tasks[i]? = some t) (hpc : t.pc = .drain transition) :
    Placed ({ s with waiters := none }.setPc i t (.publish transition s.list)) := by
  refine h.set ht rfl ?_ rfl nofun (absurd rfl ·) (fun n hn w hw => ?_)
  · refine h.lot.take ht ?_ ?_ ?_
    · rw [Task.count, Task.count, hpc]
      rfl
    · rw [Task.carries, hpc]
      rfl
    · show s.list.Perm (s.list ++ [])
      rw [append_nil]
  · -- the waiters of the list expect the present transition
    have hserve := hsound.present t (mem_of_getElem? ht) (hpc ▸ rfl)
    have halone := hsound.drains_alone ht (hpc ▸ rfl)
    have hexp := h.next n hn w hw
    rw [halone, hpc] at hexp
    rw [hpc] at hserve
    cases hserve
    show some s.transitions = some w.expects
    rw [show w.expects = s.transitions from Nat.succ.inj hexp]

lemma placed_publish (h : Placed s) {nodes : List Nat}
    (ht : s.tasks[i]? = some t) (hpc : t.pc = .publish transition nodes) :
    Placed ({ s with state := 0 }.setPc i t (.wakeList transition nodes)) := by
  refine h.set ht rfl ?_ rfl (fun n hn => hn) (fun _ => by rw [hpc]; rfl) (fun n hn w hw => ?_)
  · refine h.lot.move ht ?_ ?_
    · rw [Task.count, Task.count, hpc]
      rfl
    · rw [Task.carries, Task.carries, hpc]
      rfl
  · have hold := h.carried t (mem_of_getElem? ht) n (by rw [Task.carries, hpc]; exact hn) w hw
    rw [hpc] at hold
    exact hold

lemma placed_park (h : Placed s) (hsound : Sound s) {expects : Nat}
    (ht : s.tasks[i]? = some t) (hpc : t.pc = .parkWait)
    (hexp : s.state = kFinishing ∧ s.waiters ≠ none ∧ expects = s.transitions ∨
      kFinishing < s.state ∧ expects = s.transitions + 1) : Placed (s.park i t expects) := by
  have hlot : Lot (Task.count waiting) carries (i :: s.list)
      (s.tasks.set i { t with pc := .parked, waited := true, expects := expects }) := by
    refine h.lot.park ht ?_ rfl ?_ (Perm.refl _)
    · rw [Task.count, hpc]
      rfl
    · rw [Task.carries, Task.carries, hpc]
      rfl
  have huncarried : ∀ x ∈ s.tasks, i ∉ x.carries := by
    intro x hx hi
    obtain ⟨j, hj⟩ := mem_iff_getElem?.mp hx
    have hpos := h.lot.parked_pos hj hi ht
    rw [Task.count, hpc] at hpos
    cases hpos
  have hdrain : weight (Task.count draining)
      (s.tasks.set i { t with pc := .parked, waited := true, expects := expects }) =
        weight (Task.count draining) s.tasks := by
    have hset := weight_set (Task.count draining) ht { t with pc := .parked, waited := true, expects := expects }
    rw [Task.count, Task.count, hpc] at hset
    exact hset
  have hother : ∀ (n : Nat) (w : Task), n ≠ i → (s.park i t expects).tasks[n]? = some w → s.tasks[n]? = some w := by
    intro n w hne hw
    rw [← hw]
    exact (getElem?_set_ne (Ne.symm hne)).symm
  refine ⟨hlot, fun n hn w hw => ?_, fun x hx n hn w hw => ?_⟩
  · rw [show weight (Task.count draining) (s.park i t expects).tasks = _ from hdrain]
    by_cases hi : n = i
    · subst hi
      rw [show (s.park n t expects).tasks[n]? = _ from
        getElem?_set_self (List.getElem?_eq_some_iff.mp ht).1] at hw
      cases hw
      show expects + weight (Task.count draining) s.tasks = s.transitions + 1
      rcases hexp with ⟨hstate, hlist, rfl⟩ | ⟨hstate, rfl⟩
      · rw [hsound.draining hstate hlist]
      · rw [hsound.not_draining (ne_of_gt hstate)]
    · exact h.next n ((mem_cons.mp hn).resolve_left hi) w (hother n w hi hw)
  · rcases mem_or_eq_of_mem_set hx with hold | rfl
    · have hne : n ≠ i := fun heq => huncarried x hold (heq ▸ hn)
      exact h.carried x hold n hn w (hother n w hne hw)
    · cases hn

/-! ### Waking -/

abbrev Task.grant (w : Task) (transition : Nat) : Task :=
  { w with pc := .granted, wakes := w.wakes + 1, wokenBy := some transition }

abbrev State.wake (s : State) (i n : Nat) (t w : Task) (transition : Nat) (rest : List Nat) : State :=
  (s.setTask n (w.grant transition)).setPc i t (.wakeList transition rest)

section Waking

variable (ht : s.tasks[i]? = some t) (hpc : t.pc = .wakeList transition (n :: rest)) (hw : s.tasks[n]? = some w)
include ht hpc hw

lemma Placed.parked_of_wakeList (h : Placed s) : w.pc = .parked ∧ w.expects = transition := by
  have hmem : n ∈ t.carries := by
    rw [Task.carries, hpc]
    exact mem_cons_self
  have hpos := h.lot.parked_pos ht hmem hw
  have hserve := h.carried t (mem_of_getElem? ht) n hmem w hw
  rw [hpc] at hserve
  refine ⟨?_, (Option.some.inj hserve).symm⟩
  rw [Task.count] at hpos
  cases hwpc : w.pc with
  | parked => rfl
  | _ =>
    rw [hwpc] at hpos
    cases hpos

lemma ne_of_wakeList (hwpc : w.pc = .parked) : n ≠ i := ne_of_lookup Task.pc ht hw (by rw [hpc, hwpc]; simp)

lemma placed_wake (h : Placed s) (hwpc : w.pc = .parked) : Placed (s.wake i n t w transition rest) := by
  have hne := ne_of_wakeList ht hpc hw hwpc
  refine h.of ?_ (fun m y hy => ?_) (fun m hm => hm) (fun _ => ?_) ?_
  · refine h.lot.wake (x := t) (w := w) ht hw ?_ ?_ rfl ?_ rfl ?_
    · rw [Task.carries, hpc]
      rfl
    · rw [Task.count, hpc]
      rfl
    · rw [Task.count, hwpc]
      rfl
    · rw [Task.carries, Task.carries, hwpc]
      rfl
  · exact lookup_set_set expects (y := { t with pc := .wakeList transition rest })
      (v := w.grant transition) ht rfl hw rfl hne m y hy
  · have hset := weight_set_set (Task.count draining) ht hw hne { t with pc := .wakeList transition rest }
      (w.grant transition)
    simp only [Task.count, hpc, hwpc, draining] at hset
    exact congrArg (s.transitions + ·) hset.symm
  · refine forall_set (forall_set (fun y hy m hm => .inl ⟨y, hy, rfl, hm⟩) ?_ n) ?_ i
    · intro m hm
      cases hm
    · intro m hm
      refine .inl ⟨t, mem_of_getElem? ht, by rw [hpc]; rfl, ?_⟩
      rw [Task.carries, hpc]
      exact mem_cons_of_mem n hm

lemma sound_wake (h : Sound s) (hwpc : w.pc = .parked) : Sound (s.wake i n t w transition rest) := by
  have hne := ne_of_wakeList ht hpc hw hwpc
  have hfirst : Sound (s.setTask n (w.grant transition)) :=
    h.move hw rfl rfl rfl rfl (hwpc ▸ rfl) rfl nofun rfl
  refine hfirst.move ?_ rfl rfl rfl rfl (by rw [hpc]; rfl) rfl (fun transition' hnew => ?_) rfl
  · rw [← ht]
    exact getElem?_set_ne hne
  · cases hnew
    exact h.past t (mem_of_getElem? ht) transition (hpc ▸ rfl)

end Waking

/-! ### The clock -/

/-- Time goes on; a transition makes the last zero later than the beginning of every call. -/
lemma Task.Timed.mono {clock clock' zeroAt zeroAt' transitions transitions' : Nat}
    (h : t.Timed clock zeroAt transitions) (hclock : clock ≤ clock') (hzero : zeroAt ≤ zeroAt')
    (hmore : transitions ≤ transitions') (hlast : transitions' = transitions ∨ t.began ≤ zeroAt') :
    t.Timed clock' zeroAt' transitions' := by
  refine { h with
    began := h.began.trans hclock
    served := fun hway hexp => ?_
    spun := fun hpc => le_trans (h.spun hpc) hzero
    granted := fun hpc => ⟨(h.granted hpc).1, le_trans (h.granted hpc).2 hmore⟩ }
  rcases hlast with hsame | hbegan
  · rw [hsame] at hexp
    exact le_trans (h.served hway hexp) hzero
  · exact hbegan

lemma Task.Timed.later {clock zeroAt zeroAt' transitions : Nat} (h : t.Timed clock zeroAt transitions)
    (hlater : zeroAt ≤ zeroAt') : t.Timed (clock + 1) zeroAt' transitions :=
  h.mono (Nat.le_succ _) hlater le_rfl (.inl rfl)

lemma Task.Timed.set {clock zeroAt transitions : Nat} (h : t.Timed clock zeroAt transitions)
    (hwait : pc.waiting = t.pc.waiting) (hspun : pc = .spin → t.began ≤ zeroAt) (hgrant : pc ≠ .granted)
    (hcompleted : ∀ z, pc = .completed z → t.began ≤ z) : Task.Timed clock zeroAt transitions { t with pc := pc } := by
  refine { h with
    spun := hspun
    granted := fun hpc => absurd hpc hgrant
    completed := hcompleted
    woken := ?_ }
  rw [hwait]
  exact h.woken

lemma Timed.move (h : Timed s) (ht : t ∈ s.tasks) (hmove : Move s t pc) :
    Task.Timed s.clock s.zeroAt s.transitions { t with pc := pc } := by
  have hold := h.tasks t ht
  have hwait : pc.waiting = t.pc.waiting := hmove.waiting.1.trans hmove.waiting.2.symm
  have hnow : countOf s.state = 0 → t.began ≤ s.zeroAt := by
    intro hcount
    rw [h.now hcount]
    exact hold.began
  cases hmove with
  | addLoop | threw | awake | parkWait =>
    exact hold.set hwait (by simp) (by simp) nofun
  | spin _ hstate =>
    refine hold.set hwait (fun _ => hnow ?_) (by simp) nofun
    exact countOf_zero hstate.le
  | completed hpc =>
    refine hold.set hwait (by simp) (by simp) (fun z hnew => ?_)
    cases hnew
    rcases hpc with ⟨-, hstate⟩ | hpc | hpc
    · exact hnow (by rw [hstate]; rfl)
    · exact hold.spun hpc
    · exact hold.served (hold.granted hpc).1 (hold.granted hpc).2

section Ticking

variable (h : Timed s) (hclock : v.clock = s.clock) (hzero : v.zeroAt = s.zeroAt)
include h hclock hzero

lemma zeroAt_le_tick : s.zeroAt ≤ v.tick.zeroAt := by
  show s.zeroAt ≤ if countOf v.state = 0 then v.clock + 1 else v.zeroAt
  split
  · rw [hclock]
    exact Nat.le_succ_of_le h.before
  · exact le_of_eq hzero.symm

lemma Timed.tick (htasks : ∀ t ∈ v.tasks, t.Timed (s.clock + 1) v.tick.zeroAt v.transitions) : Timed v.tick := by
  refine ⟨fun hcount => if_pos hcount, ?_, ?_⟩
  · show (if countOf v.state = 0 then v.clock + 1 else v.zeroAt) ≤ v.clock + 1
    split
    · exact le_rfl
    · rw [hzero, hclock]
      exact Nat.le_succ_of_le h.before
  · rw [show v.tick.clock = s.clock + 1 by rw [← hclock]; rfl]
    exact htasks

lemma Timed.set {t' : Task} (htasks : v.tasks = s.tasks.set i t') (htrans : v.transitions = s.transitions)
    (ht' : t'.Timed s.clock s.zeroAt s.transitions) : Timed v.tick := by
  refine h.tick hclock hzero ?_
  rw [htasks, htrans]
  have hlater := zeroAt_le_tick h hclock hzero
  exact forall_set (fun y hy => (h.tasks y hy).later hlater) (ht'.later hlater) i

lemma timed_plain (ht : s.tasks[i]? = some t)
    (htasks : v.tasks = s.tasks.set i { t with pc := pc }) (htrans : v.transitions = s.transitions)
    (hwait : pc.waiting = 0 ∧ t.pc.waiting = 0) (hadds : pc.waits = false) (hdone : ∀ z, pc ≠ .completed z) :
    Timed v.tick := by
  refine h.set hclock hzero htasks htrans ((h.tasks t (mem_of_getElem? ht)).set ?_ ?_ ?_ ?_)
  · exact hwait.1.trans hwait.2.symm
  · intro hpc
    rw [hpc] at hadds
    cases hadds
  · intro hpc
    rw [hpc] at hadds
    cases hadds
  · intro z hpc
    exact absurd hpc (hdone z)

lemma timed_last (ht : s.tasks[i]? = some t)
    (htasks : v.tasks = s.tasks.set i { t with pc := .drain transition }) (htrans : v.transitions = s.transitions + 1)
    (hcount : countOf v.state = 0) (hwait : t.pc.waiting = 0) : Timed v.tick := by
  refine h.tick hclock hzero ?_
  have hnow : v.tick.zeroAt = s.clock + 1 := by
    rw [← hclock]
    exact if_pos hcount
  rw [htasks, htrans, hnow]
  have hmono : ∀ y : Task, y.Timed s.clock s.zeroAt s.transitions →
      y.Timed (s.clock + 1) (s.clock + 1) (s.transitions + 1) := fun y hy =>
    hy.mono (Nat.le_succ _) (Nat.le_succ_of_le h.before) (Nat.le_succ _) (.inr (Nat.le_succ_of_le hy.began))
  refine forall_set (fun y hy => hmono y (h.tasks y hy)) (hmono _ ?_) i
  exact (h.tasks t (mem_of_getElem? ht)).set hwait.symm (by simp) (by simp) nofun

end Ticking

lemma timed_park (h : Timed s) {expects : Nat} (ht : s.tasks[i]? = some t)
    (hway : t.waited = false) (hexp : s.state = kFinishing ∧ s.waiters ≠ none ∧ expects = s.transitions ∨
      kFinishing < s.state ∧ expects = s.transitions + 1) : Timed (s.park i t expects).tick := by
  have hold := h.tasks t (mem_of_getElem? ht)
  refine h.set rfl rfl rfl rfl ⟨hold.began, fun _ hserved => ?_, by simp, by simp, nofun, ?_⟩
  · -- the present transition is being finalized, so the count is zero now
    rcases hexp with ⟨hstate, -, -⟩ | ⟨-, rfl⟩
    · rw [h.now (countOf_zero hstate.le)]
      exact hold.began
    · exact absurd hserved (Nat.not_succ_le_self _)
  · have hwoken := hold.woken
    rw [if_neg (by simp [hway])] at hwoken
    exact hwoken

lemma timed_wake (h : Timed s) (ht : s.tasks[i]? = some t) (hpc : t.pc = .wakeList transition (n :: rest))
    (hw : s.tasks[n]? = some w) (hway : w.waited) (hexp : w.expects = transition) (hpast : transition ≤ s.transitions) :
    Timed (s.wake i n t w transition rest).tick := by
  have hgrant : Task.Timed s.clock s.zeroAt s.transitions (w.grant transition) := by
    have hold := h.tasks w (mem_of_getElem? hw)
    refine { hold with
      spun := by simp
      granted := fun _ => ⟨hway, le_trans hexp.le hpast⟩
      completed := nofun
      woken := ?_ }
    rw [if_pos ⟨hway, rfl⟩, hexp]
  have hrest : Task.Timed s.clock s.zeroAt s.transitions { t with pc := .wakeList transition rest } :=
    (h.tasks t (mem_of_getElem? ht)).set (hpc ▸ rfl) (by simp) (by simp)
      nofun
  have hlater := zeroAt_le_tick (v := s.wake i n t w transition rest) h rfl rfl
  have hother := fun y hy => (h.tasks y hy).later hlater
  exact h.tick rfl rfl (forall_set (forall_set hother (hgrant.later hlater) n) (hrest.later hlater) i)

end Cio.WaitGroup
