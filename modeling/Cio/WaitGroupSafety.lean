import Cio.WaitGroupSteps

/-! `wait()` over every interleaving in which the count stays in range. A waiter returns after the count was zero,
it is woken by the transition it waits for and by no other, and nobody stays parked on a count of zero. -/

namespace Cio.WaitGroup

open CallPool Parking List Pc

/-! ### New calls -/

variable {s : State} {pc : Pc} {t : Task} {i : Nat}

lemma Pc.starts_plain (h : pc.starts) :
    pc.finishing = 0 ∧ pc.draining = 0 ∧ pc.waiting = 0 ∧ pc.carries = [] ∧ pc.serves = none ∧ pc.positive ∧
      pc ≠ .spin ∧ pc ≠ .granted ∧ ∀ z, pc ≠ .completed z := by
  cases pc with
  | addLoad | sub => exact ⟨rfl, rfl, rfl, rfl, rfl, h, by simp, by simp, by simp⟩
  | added | waitLoad => exact ⟨rfl, rfl, rfl, rfl, rfl, rfl, by simp, by simp, by simp⟩
  | _ => cases h

lemma sound_start (h : Sound s) (hpc : pc.starts) : Sound (s.start pc) := by
  obtain ⟨hfin, -, -, -, hserve, hpositive, -⟩ := starts_plain hpc
  refine ⟨h.range, ?_, h.zero, forall_append h.published ?_, forall_append h.present ?_, forall_append h.past ?_,
    forall_append h.positive hpositive⟩
  · show weight (Task.count finishing) (s.tasks ++ [_]) = _
    rw [weight_concat, Task.count, hfin]
    exact h.finishing
  · intro transition nodes hpub
    rw [show pc = .publish transition nodes from hpub] at hfin
    cases hfin
  · intro hf
    exact absurd (hfin.symm.trans hf) (by decide)
  · intro transition hs
    rw [show pc.serves = some transition from hs] at hserve
    cases hserve

lemma placed_start (h : Placed s) (hpc : pc.starts) : Placed (s.start pc) := by
  obtain ⟨-, hdrain, hwait, hcar, -⟩ := starts_plain hpc
  have hold : ∀ (n : Nat) (w w' : Task), s.tasks[n]? = some w' → (s.start pc).tasks[n]? = some w →
      s.tasks[n]? = some w := fun n w w' hw' hw =>
    (getElem?_append_left (List.getElem?_eq_some_iff.mp hw').1).symm.trans hw
  refine ⟨h.lot.append hwait hcar, fun n hn w hw => ?_, forall_append (fun x hx n hn w hw => ?_) ?_⟩
  · obtain ⟨w', hw', -⟩ := h.lot.parked_of_mem hn
    have hnext := h.next n hn w (hold n w w' hw' hw)
    show w.expects + weight (Task.count draining) (s.tasks ++ [_]) = s.transitions + 1
    rw [weight_concat, Task.count, hdrain]
    exact hnext
  · obtain ⟨j, hj⟩ := mem_iff_getElem?.mp hx
    obtain ⟨w', hw', -⟩ := h.lot.parked_of_carried hj hn
    exact h.carried x hx n hn w (hold n w w' hw' hw)
  · intro n hn
    rw [show Task.carries _ = pc.carries from rfl, hcar] at hn
    cases hn

lemma timed_start (h : Timed s) (hpc : pc.starts) : Timed (s.start pc).tick := by
  obtain ⟨-, -, -, -, -, -, hspin, hgrant, hdone⟩ := starts_plain hpc
  have hlater := zeroAt_le_tick h rfl rfl
  refine h.tick rfl rfl (forall_append (fun y hy => ?_) ?_)
  · exact (h.tasks y hy).later hlater
  · exact ⟨le_rfl, by simp, fun hnew => absurd hnew hspin,
      fun hnew => absurd hnew hgrant, fun z hnew => absurd hnew (hdone z), rfl⟩

lemma woken_start (h : ∀ t ∈ s.tasks, t.Woken) (hpc : pc.starts) : ∀ t ∈ (s.start pc).tasks, t.Woken := by
  refine forall_append h ?_
  show Parking.Woken false 0 pc.waiting pc.early
  rw [(starts_plain hpc).2.2.1]
  exact Parking.Woken.start

/-! ### Steps of calls -/

lemma Move.early (h : Move s t pc) (hnew : pc.early) : t.pc.early = true := by
  cases h with
  | parkWait hpc =>
    rw [hpc]
    rfl
  | addLoop | threw | awake | completed | spin => cases hnew

section

variable (h : ∀ t ∈ s.tasks, t.Woken) (ht : s.tasks[i]? = some t)

include h ht

lemma woken_plain (hwait : pc.waiting = t.pc.waiting)
    (hearly : pc.early → t.pc.early) : ∀ y ∈ s.tasks.set i { t with pc := pc }, y.Woken := by
  refine forall_set h ?_ i
  exact Parking.Woken.move (h t (mem_of_getElem? ht)) hwait hearly

lemma woken_park (hpc : t.pc = .parkWait) (expects : Nat) : ∀ y ∈ (s.park i t expects).tasks, y.Woken := by
  have hold := h t (mem_of_getElem? ht)
  rw [Task.Woken, hpc] at hold
  refine forall_set h ?_ i
  exact Parking.Woken.park hold

lemma woken_wake {n transition : Nat} {rest : List Nat} {w : Task} (hpc : t.pc = .wakeList transition (n :: rest))
    (hw : s.tasks[n]? = some w) (hwpc : w.pc = .parked) : ∀ y ∈ (s.wake i n t w transition rest).tasks, y.Woken := by
  have hold := h w (mem_of_getElem? hw)
  rw [Task.Woken, hwpc] at hold
  have hcall := h t (mem_of_getElem? ht)
  rw [Task.Woken, hpc] at hcall
  refine forall_set (forall_set h ?_ n) ?_ i
  · exact Parking.Woken.wake hold
  · exact hcall

end

lemma Task.Woken.waited (h : t.Woken) : (t.pc = .parkWait → t.waited = false) ∧ (t.pc = .parked → t.waited) := by
  refine ⟨fun hpc => ?_, fun hpc => ?_⟩ <;> rw [Task.Woken, hpc] at h
  · rw [Bool.eq_false_iff]
    intro hway
    cases h.once hway
  · by_contra hway
    cases (h.fresh (Bool.eq_false_iff.mpr hway)).2

lemma Kept.tick {v : State} (hsound : Sound v) (hat : Placed v) (htimed : Timed v.tick)
    (hwoken : ∀ t ∈ v.tasks, t.Woken) : Kept v.tick :=
  ⟨{ hsound with }, { hat with }, htimed, hwoken⟩

lemma kept_taskStep {v : State} (h : Kept s) (ht : s.tasks[i]? = some t) (hst : TaskStep s i t v) : Kept v.tick := by
  obtain ⟨hsound, hat, htimed, hwoken⟩ := h
  cases hst with
  | move hmove =>
    obtain ⟨hf, hf', hs, hc, hc', hd, hd'⟩ := hmove.quiet
    have hw := hmove.waiting
    refine .tick ?_ (placed_plain hat ht rfl rfl hw ⟨hc, hc'⟩ (by rw [hd, hd']; rfl))
      (htimed.set rfl rfl rfl rfl (htimed.move (mem_of_getElem? ht) hmove))
      (woken_plain hwoken ht (hw.1.trans hw.2.symm) hmove.early)
    refine hsound.move ht rfl rfl rfl rfl (hf.trans hf'.symm) hf (fun transition hnew => ?_)
      (hmove.positive (hsound.positive t (mem_of_getElem? ht)))
    cases hs.symm.trans hnew
  | add hpc hstate hfits =>
    have hw : waiting .added = 0 ∧ t.pc.waiting = 0 := ⟨rfl, by rw [hpc]; rfl⟩
    exact .tick (sound_add hsound ht hpc hstate hfits)
      (placed_plain hat ht rfl rfl hw ⟨rfl, by rw [hpc]; rfl⟩ (hpc ▸ rfl))
      (timed_plain htimed rfl rfl ht rfl rfl hw rfl (by simp))
      (woken_plain hwoken ht (hw.1.trans hw.2.symm) nofun)
  | sub hpc hmore hword =>
    have hw : waiting .added = 0 ∧ t.pc.waiting = 0 := ⟨rfl, by rw [hpc]; rfl⟩
    exact .tick (sound_sub hsound ht hpc hmore hword)
      (placed_plain hat ht rfl rfl hw ⟨rfl, by rw [hpc]; rfl⟩ (hpc ▸ rfl))
      (timed_plain htimed rfl rfl ht rfl rfl hw rfl (by simp))
      (woken_plain hwoken ht (hw.1.trans hw.2.symm) nofun)
  | last hpc hlast hword =>
    have hw : waiting (.drain (s.transitions + 1)) = 0 ∧ t.pc.waiting = 0 := ⟨rfl, by rw [hpc]; rfl⟩
    have hlow := (sub_last hlast (hsound.positive_of ht (.inl hpc)) hsound.range).1
    refine .tick (sound_last hsound ht hpc hlast hword)
      (placed_plain hat ht rfl rfl hw ⟨rfl, by rw [hpc]; rfl⟩ (hpc ▸ rfl))
      (timed_last htimed rfl rfl ht rfl rfl ?_ hw.2)
      (woken_plain hwoken ht (hw.1.trans hw.2.symm) nofun)
    exact countOf_zero (le_of_eq (hword.trans hlow))
  | @drain transition hpc =>
    have hw : waiting (.publish transition s.list) = 0 ∧ t.pc.waiting = 0 := ⟨rfl, by rw [hpc]; rfl⟩
    exact .tick (sound_drain hsound ht hpc) (placed_drain hat hsound ht hpc)
      (timed_plain htimed rfl rfl ht rfl rfl hw rfl (by simp))
      (woken_plain hwoken ht (hw.1.trans hw.2.symm) nofun)
  | @publish transition nodes hpc =>
    have hw : waiting (.wakeList transition nodes) = 0 ∧ t.pc.waiting = 0 := ⟨rfl, by rw [hpc]; rfl⟩
    exact .tick (sound_publish hsound ht hpc) (placed_publish hat ht hpc)
      (timed_plain htimed rfl rfl ht rfl rfl hw rfl (by simp))
      (woken_plain hwoken ht (hw.1.trans hw.2.symm) nofun)
  | park hpc hexp =>
    have hfresh := (hwoken t (mem_of_getElem? ht)).waited.1 hpc
    exact .tick (sound_park hsound ht hpc hexp) (placed_park hat hsound ht hpc hexp)
      (timed_park htimed ht hfresh hexp) (woken_park hwoken ht hpc _)
  | wake hpc hw =>
    obtain ⟨hwpc, hexp⟩ := hat.parked_of_wakeList ht hpc hw
    have hway := (hwoken _ (mem_of_getElem? hw)).waited.2 hwpc
    have hpast := hsound.past t (mem_of_getElem? ht) _ (by rw [hpc]; rfl)
    exact .tick (sound_wake ht hpc hw hsound hwpc) (placed_wake ht hpc hw hat hwpc)
      (timed_wake htimed ht hpc hw hway hexp hpast) (woken_wake hwoken ht hpc hw hwpc)

lemma kept_init : Kept {} := by
  refine ⟨⟨Nat.zero_le _, rfl, fun _ => rfl, ?_, ?_, ?_, ?_⟩, ⟨Lot.nil, ?_, ?_⟩,
    ⟨fun _ => rfl, le_rfl, ?_⟩, ?_⟩ <;> intro t ht <;> cases ht

lemma kept_groupStep {u : State} {a : Act} (h : Kept s) (hrange : InRange s a) (hs : groupStep s a = some u) :
    Kept u := by
  rcases groupStep_cases hrange hs with ⟨pc, hpc, -, rfl⟩ | ⟨i, spurious, t, v, -, ht, htask, rfl⟩
  · exact .tick (sound_start h.sound hpc) (placed_start h.placed hpc) (timed_start h.timed hpc)
      (woken_start h.woken hpc)
  · exact kept_taskStep h ht htask

/-! ### The guarantee -/

def Pc.rests : Pc → Bool
  | .parked | .added | .threw _ _ | .completed _ => true
  | .addLoad _ | .addLoop _ _ | .sub _ | .drain _ | .publish _ _ | .wakeList _ _ | .waitLoad | .parkWait | .spin
  | .granted => false

lemma Pc.rests_plain (h : pc.rests) : pc.serves = none ∧ pc.finishing = 0 ∧ pc.draining = 0 := by
  cases pc with
  | parked | added | threw | completed => exact ⟨rfl, rfl, rfl⟩
  | _ => cases h

lemma Kept.expected (h : Kept s) (ht : t ∈ s.tasks) (hpc : t.pc = .parked) :
    t.expects = s.transitions + 1 ∨ ∃ x ∈ s.tasks, x.pc.serves = some t.expects := by
  obtain ⟨n, hn⟩ := mem_iff_getElem?.mp ht
  rcases h.placed.lot.mem_or_carried hn (by rw [Task.count, hpc]; decide) with hmem | ⟨x, hx, hmem⟩
  · have hnext := h.placed.next n hmem t hn
    rcases Nat.eq_zero_or_pos (weight (Task.count draining) s.tasks) with hzero | hpos
    · rw [hzero] at hnext
      exact .inl hnext
    · -- somebody is about to take the list: it completes the present transition
      obtain ⟨x, hx, hxpos⟩ := exists_of_weight_pos hpos
      obtain ⟨j, hj⟩ := mem_iff_getElem?.mp hx
      have hfin : x.pc.finishing = 1 := by
        rw [Task.count] at hxpos
        cases hxpc : x.pc with
        | drain => rfl
        | _ =>
          rw [hxpc] at hxpos
          cases hxpos
      have halone := h.sound.drains_alone hj hfin
      have hle : x.pc.draining ≤ 1 := by cases x.pc <;> simp [draining]
      have hexp : t.expects = s.transitions := by omega
      refine .inr ⟨x, hx, ?_⟩
      rw [hexp]
      exact h.sound.present x hx hfin
  · exact .inr ⟨x, hx, h.placed.carried x hx n hmem t hn⟩

lemma Kept.not_parked (h : Kept s) (hcount : countOf s.state = 0)
    (hrests : ∀ t ∈ s.tasks, t.pc.rests) : ∀ t ∈ s.tasks, t.pc ≠ .parked := by
  intro t ht hpc
  obtain ⟨n, hn⟩ := mem_iff_getElem?.mp ht
  have hquiet : weight (Task.count finishing) s.tasks = 0 :=
    weight_eq_zero fun x hx => (rests_plain (hrests x hx)).2.1
  have hstate : s.state ≠ kFinishing := by
    intro heq
    have hfin := h.sound.finishing
    rw [hquiet, if_pos heq] at hfin
    cases hfin
  have hzero : s.state = 0 := by
    by_contra hne
    have hlarge : kFinishing < s.state := by
      unfold kFinishing at *
      omega
    rw [countOf_eq hlarge] at hcount
    unfold kFinishing at *
    omega
  rcases h.placed.lot.mem_or_carried hn (by rw [Task.count, hpc]; decide) with hmem | ⟨x, hx, hmem⟩
  · rw [h.sound.zero hzero] at hmem
    cases hmem
  · have hserve := h.placed.carried x hx n hmem t hn
    rw [(rests_plain (hrests x hx)).1] at hserve
    cases hserve

lemma Pc.waiting_eq_zero : pc.waiting = 0 ↔ pc ≠ .parked := by
  cases pc <;> simp [waiting]

/-- `completed` is the moment of the last zero before the return. A waiter that parks records the transition that is
going to wake it, `wokenBy` the one that did. -/
structure WaitSafe (s : State) : Prop where
  afterZero : ∀ t ∈ s.tasks, ∀ z, t.pc = .completed z → t.began ≤ z
  once : ∀ t ∈ s.tasks, t.wakes = if t.waited = true ∧ t.pc ≠ .parked then 1 else 0
  generation : ∀ t ∈ s.tasks, t.wokenBy = if t.waited = true ∧ t.pc ≠ .parked then some t.expects else none
  parked : ∀ t ∈ s.tasks, t.pc = .parked →
    t.expects = s.transitions + 1 ∨ ∃ x ∈ s.tasks, x.pc.serves = some t.expects
  released : countOf s.state = 0 → (∀ t ∈ s.tasks, t.pc.rests = true) → ∀ t ∈ s.tasks, t.pc ≠ .parked

/-- **While the count stays in range, `wait()` returns after a zero, and each waiter is woken once, by the transition
it parked for.** -/
theorem wait_safe {s : State} (hs : groupSystem.ReachableVia InRange s) : WaitSafe s := by
  have h : Kept s := by
    refine hs.invariant ?_ (fun s a u h hrange hstep => kept_groupStep h hrange hstep)
    rintro s rfl
    exact kept_init
  refine ⟨fun t ht => (h.timed.tasks t ht).completed, fun t ht => ?_, fun t ht => ?_, fun t => h.expected, h.not_parked⟩
  · rw [Parking.Woken.eq (h.woken t ht)]
    simp only [waiting_eq_zero]
  · rw [(h.timed.tasks t ht).woken]
    simp only [waiting_eq_zero]

/-- One call waits for the first transition; another one waits for the second while the first is still waking. -/
theorem wait_safe_twoGenerations : ∃ s, groupSystem.ReachableVia InRange s ∧
    (s.tasks.map fun t => (t.pc, t.expects)) =
      [(.added, 0), (.parked, 1), (.wakeList 1 [1], 0), (.added, 0), (.parked, 2)] ∧ WaitSafe s := by
  obtain ⟨s, hs, hp⟩ := groupSystem.reachableVia_of_run InRange {}
    [.add 1, .task 0 false, .task 0 false, .wait, .task 1 false, .task 1 false, .add (-1), .task 2 false,
      .task 2 false, .task 2 false, .add 1, .task 3 false, .task 3 false, .wait, .task 4 false, .task 4 false]
    (fun s => (s.tasks.map fun t => (t.pc, t.expects)) =
      [(.added, 0), (.parked, 1), (.wakeList 1 [1], 0), (.added, 0), (.parked, 2)]) rfl (by decide +kernel)
  exact ⟨s, hs, hp, wait_safe hs⟩

end Cio.WaitGroup
