import Cio.OperationLock

/-! A node is recycled when no operation uses it: whoever is in the queue, in a hand-off, inside the lock or in
a system call keeps it. -/

namespace Cio.Reactor.Operation

open CallPool WrapCounter Operation.Task List Pc

variable {s : State} {t : Task}

lemma Counted.of_zero (h : Counted s) (hrefs : s.desc.refs = 0) (d : Dir) :
    (s.queue d).pinned = false ∧ (s.queue d).waiters = [] ∧
      weight (count dropping) s.tasks = 0 := by
  unfold Counted at h
  have hfalse : ∀ b : Bool, b.toNat = 0 → b = false := by decide
  cases d with
  | read | write => exact ⟨hfalse _ (by omega), eq_nil_of_length_eq_zero (by omega), by omega⟩

lemma at_of_getElem {n : Nat} (ht : s.tasks[n]? = some t) (f : Task → Nat) : s.at n f = f t := by
  rw [State.at, ht]

lemma Kept.unplaced_of_zero (h : Kept s) (halive : s.Alive) (hrefs : s.desc.refs = 0) {n : Nat}
    (ht : s.tasks[n]? = some t) : t.pc.waiting = 0 ∧ t.pc.handed = 0 ∧ ∀ m, t.pc.carries m = 0 := by
  obtain ⟨hpinned, hqueue, -⟩ := h.counted.of_zero hrefs t.dir
  have hhanded : ∀ (m : Nat) (x : Task), s.tasks[m]? = some x → x.pc.handed = 0 := by
    intro m x hx
    have hat := (h.placed x.dir m).handed
    have hhand : (s.queue x.dir).hand = none := by
      by_contra hne
      have hp := (h.directed halive x.dir).handed hne
      rw [(h.counted.of_zero hrefs x.dir).1] at hp
      cases hp
    rw [hhand, at_of_getElem hx, along, if_pos rfl] at hat
    exact hat.symm
  refine ⟨?_, hhanded n t ht, fun m => ?_⟩
  · have hat := (h.placed t.dir n).queued
    rw [hqueue, at_of_getElem ht, along, if_pos rfl] at hat
    exact hat.symm
  · by_contra hne
    have hle := le_weight (count (carries m)) (mem_of_getElem? ht)
    have hcar := (h.placed t.dir m).carried
    rw [State.at] at hcar
    split at hcar
    · rename_i x hx
      have hx' := hhanded m x hx
      have hundispatched : x.pc.undispatched = 0 := by
        cases hpc : x.pc <;> rw [hpc] at hx' <;> first | rfl | cases hx'
      simp only [Task.count] at hle hcar
      omega
    · simp only [Task.count] at hle hcar
      omega

lemma Kept.light_of_pending (h : Kept s) (hfreer : s.freer = .pending) (hlock : s.locked = false)
    (ht : t ∈ s.tasks) : t.pc.light = true := by
  by_cases hcur : t.inc = s.inc
  · have halive := h.known.current t ht hcur
    obtain ⟨hphase, hrefs⟩ := h.known.pending hfreer
    obtain ⟨n, hn⟩ := mem_iff_getElem?.mp ht
    obtain ⟨hwait, hhanded, hcarries⟩ := h.unplaced_of_zero halive hrefs hn
    have hinside := h.locked.not_inside hlock ht
    have hdrop := le_weight (count dropping) ht
    rw [(h.counted.of_zero hrefs t.dir).2.2] at hdrop
    have hlease := le_weight (along t.dir leasing) ht
    rw [h.leased.active, h.leased.released (.inl hphase)] at hlease
    simp only [Task.count, along, if_true, Bool.toNat_false, Nat.le_zero] at hdrop hlease
    cases hpc : t.pc with
    | enter | validate | suspend | holding | reset | release | returned => rfl
    | inspect | takeIdle | upgrade =>
      rw [hpc] at hinside
      cases hinside
    | queued =>
      rw [hpc] at hwait
      cases hwait
    | popped | granted =>
      rw [hpc] at hhanded
      cases hhanded
    | leased =>
      rw [hpc] at hlease
      cases hlease
    | drop =>
      rw [hpc] at hdrop
      cases hdrop
    | dispatch err m =>
      have hm := hcarries m
      rw [hpc] at hm
      simp [carries] at hm
  · exact h.known.light t ht hcur

lemma known_attach (h : Known s) {fd : Int} (hphase : s.phase = .vacant) (hfd : 0 ≤ fd) :
    Known { s with desc := s.desc.attachFields fd, phase := .attached } := by
  obtain ⟨hidle, -⟩ := h.vacant hphase
  have halive : ∀ t ∈ s.tasks, t.inc ≠ s.inc := fun t ht heq => (h.current t ht heq).phase hphase
  refine ⟨h.generation, h.token, fun t ht heq => absurd heq (halive t ht), h.light, fun _ => ⟨rfl, hfd⟩,
    fun hp => absurd rfl hp, fun t ht hin => absurd (h.inside t ht hin).1 (halive t ht), fun hp => ?_,
    fun rest hp => ?_, by simp⟩
  all_goals cases hidle.symm.trans hp

lemma known_bump (h : Kept s) (hfreer : s.freer = .pending) (hlock : s.locked = false) : Known { s with
      desc := s.desc.freeFields, inc := s.inc + 1, locked := true, freer := .resetting [.read, .write] } := by
  obtain ⟨hphase, hrefs⟩ := h.known.pending hfreer
  have hword := word_add s.inc 1
  rw [← h.known.generation] at hword
  have hlt : ∀ t ∈ s.tasks, t.inc ≠ s.inc + 1 := fun t ht heq => by
    have hle := (h.known.token t ht).2
    omega
  refine ⟨hword, fun t ht => ?_, fun t ht heq => absurd heq (hlt t ht), fun t ht _ => ?_, fun hp => ?_,
    fun _ _ => rfl, fun t ht hin => ?_, by simp, fun _ _ => ⟨hphase, hrefs⟩, fun hp => ?_⟩
  · obtain ⟨hg, hle⟩ := h.known.token t ht
    exact ⟨hg, Nat.le_succ_of_le hle⟩
  · exact h.light_of_pending hfreer hlock ht
  · cases hphase.symm.trans hp
  · rw [h.locked.not_inside hlock ht] at hin
    cases hin
  · cases hphase.symm.trans hp

lemma step_known {u : State} {act : Act} (hk : Kept s) (hfresh : CapturesFresh s) (hs : Step s act u) : Known u := by
  have h := hk.known
  have hsame : ∀ t ∈ s.tasks, t.Follows s := fun t ht => h.follows ht
  cases hs with
  | attach fd hphase hlock hfd => exact known_attach h hphase hfd
  | start dir foreign awaits hphase =>
    have halive : s.Alive := by
      refine ⟨by simp [hphase], fun rest hp => ?_⟩
      cases hphase.symm.trans (h.resetting rest hp).1
    have hnew : ∀ t ∈ s.tasks ++ [{
        dir := dir, generation := s.desc.generation, inc := s.inc, foreign := foreign, awaits := awaits }],
        t ∈ s.tasks ∨ (t.generation = s.desc.generation ∧ t.inc = s.inc ∧ t.pc = .enter) := by
      exact forall_append (fun t ht => .inl ht) (.inr ⟨rfl, rfl, rfl⟩)
    refine ⟨h.generation, fun t ht => ?_, fun t ht _ => ⟨halive.phase, halive.freer⟩, fun t ht hne => ?_,
      h.attached, h.closing, fun t ht hin => ?_, h.pending, h.resetting, h.vacant⟩
    · rcases hnew t ht with hold | ⟨hg, hi, -⟩
      · exact h.token t hold
      · exact ⟨by rw [hg, hi, h.generation], by rw [hi]⟩
    · rcases hnew t ht with hold | ⟨-, hi, -⟩
      · exact h.light t hold hne
      · exact absurd hi hne
    · rcases hnew t ht with hold | ⟨-, -, hpc⟩
      · exact h.inside t hold hin
      · rw [hpc] at hin
        cases hin
  | shut hphase hlock =>
    have hfreer : ∀ rest, s.freer ≠ .resetting rest := fun rest hp => by
      cases hphase.symm.trans (h.resetting rest hp).1
    refine ⟨h.generation, h.token, fun t ht heq => ⟨by simp, hfreer⟩, h.light, fun hp => (by cases hp),
      fun _ _ => rfl, fun t ht hin => ?_, fun hp => ?_, fun rest hp => absurd hp (hfreer rest),
      fun hp => (by cases hp)⟩
    · rw [hk.locked.not_inside hlock ht] at hin
      cases hin
    · cases hphase.symm.trans (h.pending hp).1
  | awaited d rest hphase =>
    have hfreer : ∀ rest, s.freer ≠ .resetting rest := fun rest hp => by
      cases hphase.symm.trans (h.resetting rest hp).1
    refine ⟨h.generation, h.token, fun t ht heq => ⟨by simp, hfreer⟩, h.light, fun hp => (by cases hp),
      fun _ _ => h.closing (by simp [hphase]) (by simp [hphase]), h.inside, fun hp => ?_,
      fun rest hp => absurd hp (hfreer rest), fun hp => (by cases hp)⟩
    cases hphase.symm.trans (h.pending hp).1
  | detach hphase =>
    have hrefs := hk.counted.pos_of_phase (by rw [hphase]; rfl)
    exact h.of_releaseDesc hrefs rfl rfl rfl rfl (.inr ⟨hphase, rfl⟩) (fun _ => rfl) rfl rfl hsame
  | pin hrefs =>
    refine ⟨h.generation, h.token, fun t ht heq => ?_, h.light, h.attached, h.closing, h.inside, fun hp => ?_,
      fun rest hp => ?_, fun hp => ?_⟩
    · exact ⟨(h.current t ht heq).phase, (h.current t ht heq).freer⟩
    · exact absurd (h.pending hp).2 (Nat.ne_of_gt hrefs)
    · exact absurd (h.resetting rest hp).2 (Nat.ne_of_gt hrefs)
    · exact absurd (h.vacant hp).2 (Nat.ne_of_gt hrefs)
  | unpin haws =>
    have hrefs := hk.counted.pos_of_awaiter haws
    exact h.of_releaseDesc hrefs rfl rfl rfl rfl (.inl rfl)
      (fun hone => hk.phase_of_last hone (Nat.add_pos_left haws _)) rfl rfl hsame
  | bump hfreer hlock => exact known_bump hk hfreer hlock
  | resetOwner d rest hfreer =>
    obtain ⟨hphase, hrefs⟩ := h.resetting _ hfreer
    refine ⟨h.generation, h.token, fun t ht heq => ?_, h.light, h.attached, h.closing, h.inside,
      fun hp => (by cases hp), fun _ _ => ⟨hphase, hrefs⟩, fun hp => ?_⟩
    · exact absurd hfreer ((h.current t ht heq).freer _)
    · cases hphase.symm.trans hp
  | freed hfreer =>
    obtain ⟨hphase, hrefs⟩ := h.resetting _ hfreer
    refine ⟨h.generation, h.token, fun t ht heq => ?_, h.light, fun hp => (by cases hp), fun _ hp => absurd rfl hp,
      h.inside, fun hp => (by cases hp), fun _ hp => (by cases hp), fun _ => ⟨rfl, hrefs⟩⟩
    exact absurd hfreer ((h.current t ht heq).freer _)
  | task i t ht hs =>
    cases hs with
    | move pc hmove =>
      refine h.of_tasks rfl rfl rfl rfl rfl rfl (fun _ => rfl)
        (h.setPc_follows ht rfl rfl rfl (fun hne => ?_) fun hin => ?_)
      · exact hmove.light_of_light (h.light t (mem_of_getElem? ht) hne)
      · rw [hmove.inside_eq] at hin
        exact h.inside t (mem_of_getElem? ht) hin
    | enter | resume | finish | clear | expel | take =>
      exact h.of_tasks rfl rfl rfl rfl rfl rfl (fun _ => rfl)
        (h.setPc_follows ht rfl rfl rfl (fun _ => rfl) fun hin => (by cases hin))
    | publish hpc hgen hopen =>
      have hcur := h.current_of_generation hfresh ht (by rw [hpc]; rfl) hgen
      have hphase := h.attached_of_open ht hcur hopen
      exact h.of_tasks rfl rfl rfl rfl rfl rfl (fun hp => by rw [hphase] at hp; cases hp)
        (h.setPc_follows ht rfl rfl rfl (fun _ => rfl) fun hin => (by cases hin))
    | lock hpc hlock hgen hopen =>
      have hcur := h.current_of_generation hfresh ht (by rw [hpc]; rfl) hgen
      exact h.of_tasks rfl rfl rfl rfl rfl rfl (fun _ => rfl)
        (h.setPc_follows ht rfl rfl rfl (fun hne => absurd hcur hne) fun _ => ⟨hcur, hopen⟩)
    | takeForeign hpc =>
      obtain ⟨hcur, hopen⟩ := h.inside t (mem_of_getElem? ht) (by rw [hpc]; exact Nat.one_pos)
      have hphase := h.attached_of_open ht hcur hopen
      exact h.of_tasks rfl rfl rfl rfl rfl rfl (fun hp => by rw [hphase] at hp; cases hp)
        (h.setPc_follows ht rfl rfl rfl (fun _ => rfl) fun hin => (by cases hin))
    | join hpc =>
      have hinside : 0 < t.pc.inside := by rcases hpc with hpc | hpc <;> rw [hpc] <;> exact Nat.one_pos
      obtain ⟨hcur, hopen⟩ := h.inside t (mem_of_getElem? ht) hinside
      have hphase := h.attached_of_open ht hcur hopen
      exact h.of_tasks rfl rfl rfl rfl rfl rfl (fun hp => by rw [hphase] at hp; cases hp)
        (h.setPc_follows ht rfl rfl rfl (fun hne => absurd hcur hne) fun hin => (by cases hin))
    | begin hpc hgen =>
      have hcur := h.current_of_generation hfresh ht (by rw [hpc]; rfl) hgen
      exact h.of_tasks rfl rfl rfl rfl rfl rfl (fun _ => rfl)
        (h.setPc_follows ht rfl rfl rfl (fun hne => absurd hcur hne) fun hin => (by cases hin))
    | pass err n rest w hpc hlock hgen hqueue hw =>
      have hcur := h.current_of_generation hfresh ht (by rw [hpc]; rfl) hgen
      obtain ⟨hne, hwpc, -⟩ := hk.pass_target ht hpc hqueue hw
      have hwcur := h.current_of_heavy hw (by rw [hwpc]; rfl)
      refine h.of_tasks rfl rfl rfl rfl rfl rfl (fun _ => rfl) (forall_set (forall_set hsame ?_ n) ?_ i)
      · exact ⟨⟨w, mem_of_getElem? hw, rfl, rfl⟩, fun hn => absurd hwcur hn, fun hin => (by cases hin)⟩
      · refine ⟨⟨t, mem_of_getElem? ht, rfl, rfl⟩, fun hn => absurd hcur hn, fun hin => ?_⟩
        split at hin <;> cases hin
    | vacate err hpc hlock hgen =>
      have hcur := h.current_of_generation hfresh ht (by rw [hpc]; rfl) hgen
      refine h.of_tasks rfl rfl rfl rfl rfl rfl (fun _ => rfl)
        (h.setPc_follows ht rfl rfl rfl (fun hne => absurd hcur hne) fun hin => ?_)
      split at hin <;> cases hin
    | drop err next hpc =>
      have hcur := h.current_of_heavy ht (by rw [hpc]; rfl)
      have hrefs := hk.counted.pos_of_drop ht (by rw [hpc]; rfl)
      have hmore := le_weight (Task.count dropping) (mem_of_getElem? ht)
      simp only [Task.count, hpc, dropping] at hmore
      refine h.of_releaseDesc hrefs rfl rfl rfl rfl (.inl rfl)
        (fun hone => hk.phase_of_last hone (Nat.add_pos_right _ hmore)) rfl rfl
        (h.setPc_follows ht rfl rfl rfl (fun hne => absurd hcur hne) fun hin => ?_)
      cases next <;> cases hin
    | dispatch err n w hpc hw =>
      obtain ⟨hne, hwpc⟩ := hk.dispatch_target ht hpc hw
      have hwcur := h.current_of_heavy hw (by rw [hwpc]; rfl)
      refine h.of_tasks rfl rfl rfl rfl rfl rfl (fun _ => rfl) (forall_set (forall_set hsame ?_ n) ?_ i)
      · exact ⟨⟨w, mem_of_getElem? hw, rfl, rfl⟩, fun hn => absurd hwcur hn, fun hin => (by cases hin)⟩
      · exact ⟨⟨t, mem_of_getElem? ht, rfl, rfl⟩, fun _ => rfl, fun hin => (by cases hin)⟩

end Cio.Reactor.Operation
