import Cio.OperationSafety

/-! Operations of different incarnations. The uncontended admission exchanges the owner word before the captured
generation is validated, so a delayed operation of an old incarnation can own a direction of the new one for a
moment; an operation of the new one then finds a foreign tag and is refused. Where no such exchange succeeds,
the incarnations do not meet. -/

namespace Cio.Reactor.Operation

open CallPool Function List

/-- An operation that takes an idle direction on admission has captured the generation the node has. -/
def AdmissionsCurrent (s : State) : Act → Prop
  | .task i _ _ _ =>
    ∀ t ∈ s.tasks[i]?, t.pc = .enter → (s.queue t.dir).owner = 0 → s.desc.generation = t.generation
  | .attach _ | .start _ _ _ | .close | .pin | .unpin | .free => True

def Separate (s : State) (act : Act) : Prop := CapturesFresh s ∧ AdmissionsCurrent s act

instance (s : State) (act : Act) : Decidable (Separate s act) :=
  haveI : Decidable (CapturesFresh s) := by unfold CapturesFresh; infer_instance
  haveI : Decidable (AdmissionsCurrent s act) := by cases act <;> unfold AdmissionsCurrent <;> infer_instance
  inferInstanceAs (Decidable (CapturesFresh s ∧ AdmissionsCurrent s act))

variable {s u : State} {t : Task} {spurious again : Bool} {i : Nat} {act : Act}

lemma Separate.admits {env : Env Unit} (h : Separate s (.task i env spurious again)) (hknown : Known s)
    (ht : s.tasks[i]? = some t) (hpc : t.pc = .enter) (howner : (s.queue t.dir).owner = 0) : t.inc = s.inc :=
  hknown.current_of_generation h.1 ht (hpc ▸ rfl) (h.2 t ht hpc howner)

/-- The directions `free_desc` has still to reset. -/
def FreePc.rest : FreePc → List Dir
  | .resetting rest => rest
  | .idle | .pending => []

/-- A node that is not in use is idle in both directions, once they have been reset. -/
def Idle (s : State) : Prop := ¬ s.Alive → ∀ d, d ∉ s.freer.rest → (s.queue d).owner = 0

lemma Known.alive_of_phase (h : Known s) (hphase : s.phase ≠ .vacant) (hrel : s.phase ≠ .released) : s.Alive :=
  ⟨hphase, fun rest hp => hrel (h.resetting rest hp).1⟩

lemma State.Alive.releaseDesc (h : s.Alive) (hphase : u.phase ≠ .vacant)
    (hfreer : u.freer = s.releaseDesc.freer) : u.Alive := by
  refine ⟨hphase, fun rest hp => ?_⟩
  rw [hfreer, State.releaseDesc] at hp
  split at hp
  · cases hp
  · exact h.freer rest hp

lemma owner_update {queue : Dir → Queue} {d d' : Dir} {q : Queue} (hq : q.owner = 0 ∨ q.owner = (queue d').owner)
    (howner : (queue d).owner = 0) : (update queue d' q d).owner = 0 := by
  by_cases hd : d = d'
  · subst hd
    rw [update_self]
    rcases hq with hq | hq
    · exact hq
    · rw [hq, howner]
  · rw [update_of_ne hd, howner]

lemma TaskStep.alive (hs : TaskStep s i spurious again t u) (h : s.Alive) : u.Alive := by
  cases hs with
  | drop => exact h.releaseDesc h.phase rfl
  | _ => exact ⟨h.phase, h.freer⟩

lemma Idle.of_task (hk : Kept s)
    (hfresh : CapturesFresh s) (henter : t.pc = .enter → (s.queue t.dir).owner = 0 → t.inc = s.inc)
    (ht : s.tasks[i]? = some t) (hs : TaskStep s i spurious again t u) (hdead : ¬ s.Alive) {d : Dir}
    (howner : (s.queue d).owner = 0) : (u.queue d).owner = 0 := by
  have hmem := mem_of_getElem? ht
  have hstale : t.inc ≠ s.inc := fun heq => hdead (hk.known.current t hmem heq)
  cases hs with
  | move | lock | expel | begin | finish | drop | dispatch => exact howner
  | enter hpc hidle => exact absurd (henter hpc hidle) hstale
  | publish hpc hgen =>
    exact absurd (hk.known.current_of_generation hfresh ht (hpc ▸ rfl) hgen) hstale
  | take hpc | takeForeign hpc =>
    exact absurd (hk.known.inside t hmem (hpc ▸ Nat.one_pos)).1 hstale
  | join hpc =>
    have hin : 0 < t.pc.inside := by rcases hpc with hpc | hpc <;> rw [hpc] <;> exact Nat.one_pos
    exact absurd (hk.known.inside t hmem hin).1 hstale
  | resume | pass => exact owner_update (.inr rfl) howner
  | clear | vacate => exact owner_update (.inl rfl) howner

lemma step_idle (hk : Kept s) (hknown : Known u) (h : Idle s) (hsep : Separate s act) (hs : Step s act u) : Idle u := by
  intro hdead d hd
  cases hs with
  | attach | shut | awaited => exact absurd (hknown.alive_of_phase (by simp) (by simp)) hdead
  | start => exact h (fun ha => hdead ⟨ha.phase, ha.freer⟩) d hd
  | detach hphase =>
    have halive := hk.known.alive_of_pos (hk.counted.pos_of_phase (hphase ▸ rfl))
    exact (hdead (halive.releaseDesc (by simp) rfl)).elim
  | pin hrefs =>
    have halive := hk.known.alive_of_pos hrefs
    exact (hdead ⟨halive.phase, halive.freer⟩).elim
  | unpin haws =>
    have halive := hk.known.alive_of_pos (hk.counted.pos_of_awaiter haws)
    exact (hdead (halive.releaseDesc halive.phase rfl)).elim
  | bump => cases d <;> simp [FreePc.rest] at hd
  | resetOwner d' rest hfreer =>
    dsimp only [State.setOwner, State.setQueue]
    by_cases hne : d = d'
    · rw [hne, update_self]
    · rw [update_of_ne hne]
      refine h (fun ha => ha.freer _ hfreer) d ?_
      rw [hfreer]
      exact not_mem_cons_of_ne_of_not_mem hne hd
  | freed hfreer =>
    refine h (fun ha => ha.freer _ hfreer) d ?_
    rw [hfreer]
    exact not_mem_nil
  | task i t ht hs =>
    by_cases halive : s.Alive
    · exact (hdead (hs.alive halive)).elim
    · have hfreer : u.freer = s.freer := by
        cases hs with
        | drop err next hpc =>
          exact absurd (hk.known.alive_of_pos (hk.counted.pos_of_drop ht (hpc ▸ rfl))) halive
        | _ => rfl
      rw [hfreer] at hd
      exact Idle.of_task hk hsep.1 (hsep.admits hk.known ht) ht hs halive (h halive d hd)

lemma Separate.undisturbed (h : Separate s act) (hk : Kept s) (hidle : Idle s)
    (hs : Step s act u) : Undisturbed s act := by
  cases hs with
  | attach fd hphase =>
    intro d
    refine hidle (fun ha => ha.phase hphase) d ?_
    rw [(hk.known.vacant hphase).1]
    exact not_mem_nil
  | task =>
    intro x hx hpc howner _
    exact h.admits hk.known hx hpc howner
  | _ => trivial

/-! ### Refusals -/

/-- An operation that returns `closed` belongs to an incarnation that was closed. -/
def Refused (s : State) (t : Task) : Prop :=
  t.pc.err = some (.errc .closed) → t.inc = s.inc → s.phase ≠ .attached

lemma Move.refused_closed {pc : Pc} (hk : Kept s)
    (ht : t ∈ s.tasks) (hmove : Move s spurious t pc) (h : Refused s t) : Refused s { t with pc := pc } := by
  intro herr hcur hphase
  obtain ⟨hopen, hfd⟩ := hk.known.attached hphase
  have hgen : s.desc.generation = t.generation := by rw [hk.known.generation, (hk.known.token t ht).1, hcur]
  cases hmove with
  | refused | busy | validated | idle | owned | retryIdle | retryOwned | finished => cases herr
  | invalid e hpc hshut =>
    cases herr
    rcases hshut rfl with hne | hend | ⟨hfirst, hsnd⟩
    · exact hne hgen
    · rw [hopen] at hend
      cases hend
    · have hdir := hk.directed (hk.known.current t ht hcur) t.dir
      have hword := hdir.word
      rw [← hk.known.tag_eq ht hcur] at hword
      rcases hword with hzero | htag | hmark
      · exact hdir.owner_ne ht hcur (hpc ▸ rfl) hzero
      · exact hfirst htag
      · exact hsnd hmark
  | unsuspended e hpc hshut =>
    cases herr
    rcases hshut rfl with hne | hend
    · exact hne hgen
    · rw [hopen] at hend
      cases hend
  | denied e hpc hshut =>
    cases herr
    rcases hshut rfl with hne | hend | hnegative
    · exact hne hgen
    · rw [hopen] at hend
      cases hend
    · omega
  | slow err hpc | stale err hpc => exact h (hpc ▸ herr) hcur hphase

lemma Kept.not_expelled (hk : Kept s) (ht : t ∈ s.tasks) (hpc : t.pc = .inspect) (hidle : (s.queue t.dir).owner ≠ 0)
    (howned : (s.queue t.dir).owner ≠ t.tag) (hcont : (s.queue t.dir).owner ≠ t.tag ||| 1) : False := by
  have hcur := (hk.known.inside t ht (hpc ▸ Nat.one_pos)).1
  have hword := (hk.directed (hk.known.current t ht hcur) t.dir).word
  rw [← hk.known.tag_eq ht hcur] at hword
  rcases hword with hzero | htag | hmark
  · exact hidle hzero
  · exact howned htag
  · exact hcont hmark

lemma refused_task (hk : Kept s) (ht : s.tasks[i]? = some t) (h : ∀ x ∈ s.tasks, Refused s x)
    (hs : TaskStep s i spurious again t u) : ∀ x ∈ u.tasks, Refused s x := by
  have hmem := mem_of_getElem? ht
  have hsame : ∀ {pc : Pc}, pc.err = t.pc.err → Refused s { t with pc := pc } := by
    intro pc herr hshut
    rw [herr] at hshut
    exact h t hmem hshut
  cases hs with
  | move pc hmove => exact forall_set h (hmove.refused_closed hk hmem (h t hmem)) i
  | enter | publish | lock | take | takeForeign | join | resume | begin | finish =>
    exact forall_set h (by nofun) i
  | expel hpc hidle howned hcont => exact (hk.not_expelled hmem hpc hidle howned hcont).elim
  | clear err hpc => exact forall_set h (hsame (hpc ▸ rfl)) i
  | pass err n rest w hpc =>
    refine forall_set (forall_set h (by nofun) n) (hsame ?_) i
    rw [hpc]
    split <;> rfl
  | vacate err hpc =>
    refine forall_set h (hsame ?_) i
    rw [hpc]
    split <;> rfl
  | drop err next hpc =>
    refine forall_set h (hsame ?_) i
    rw [hpc]
    cases next <;> rfl
  | dispatch err n w hpc =>
    exact forall_set (forall_set h (by nofun) n) (hsame (hpc ▸ rfl)) i

lemma step_refused (hk : Kept s) (h : ∀ t ∈ s.tasks, Refused s t) (hs : Step s act u) : ∀ t ∈ u.tasks, Refused u t := by
  cases hs with
  | attach fd hphase => exact fun t ht _ hcur => absurd hphase (hk.known.current t ht hcur).phase
  | start => exact forall_append h nofun
  | shut | awaited | detach | freed => exact fun t ht _ _ hp => (by cases hp)
  | pin | unpin | resetOwner => exact h
  | bump =>
    intro t ht _ hcur
    have hle := (hk.known.token t ht).2
    dsimp only at hcur
    omega
  | task i t ht hs =>
    obtain ⟨hinc, -⟩ := hs.frame
    have hphase : u.phase = s.phase := by cases hs <;> rfl
    intro x hx herr hcur
    rw [hphase]
    exact refused_task hk ht h hs x hx herr (hcur.trans hinc)

/-- **Where no stale admission succeeds, an operation is refused only because its incarnation was closed.** -/
theorem refused_only_closed {s : State} (hs : operationSystem.ReachableVia Separate s) (t : Task)
    (ht : t ∈ s.tasks) (herr : t.pc.err = some (.errc .closed)) : t.inc < s.inc ∨ s.phase ≠ .attached := by
  obtain ⟨hk, -, hrefused⟩ := hs.invariant (P := fun s => Kept s ∧ Idle s ∧ ∀ t ∈ s.tasks, Refused s t)
    (fun s hinit => by
      cases hinit
      exact ⟨kept_init, fun _ _ _ => rfl, by simp⟩)
    (fun s act u h hsep hstep => by
      obtain ⟨hk, hidle, hrefused⟩ := h
      have hcases := operationStep_cases hstep
      have hkept := step_kept hk hsep.1 (hsep.undisturbed hk hidle hcases) hcases
      exact ⟨hkept, step_idle hk hkept.known hidle hsep hcases, step_refused hk hrefused hcases⟩)
  rcases Nat.lt_or_eq_of_le (hk.known.token t ht).2 with hlt | heq
  · exact .inl hlt
  · exact .inr (hrefused t ht herr heq)

/-- An operation is admitted, the socket is closed under it and the node is used again; the next operation is
served. -/
def reuse (env : Env Unit) : List Act :=
  [.attach 3, .start .read false true, .task 0 env false false, .close, .close, .close, .close, .free,
    .task 0 env false false, .task 0 env false false, .free, .free, .free, .attach 4, .start .read false true,
    .task 1 env false false, .task 1 env false false]

theorem refused_only_closed_reuse : ∃ s, operationSystem.ReachableVia Separate s ∧
    ∃ t ∈ s.tasks, t.pc.err = some (.errc .closed) ∧ (t.inc < s.inc ∨ s.phase ≠ .attached) := by
  obtain ⟨s, hs, t, ht, herr⟩ := operationSystem.reachableVia_of_run Separate {} (reuse ⟨0, false, fun _ => false⟩)
    (fun s => ∃ t ∈ s.tasks, t.pc.err = some (.errc .closed)) rfl (by decide +kernel)
  exact ⟨s, hs, t, ht, herr, refused_only_closed hs t ht herr⟩

/-- The delayed operation of the first incarnation takes the direction before it validates, and the operation
of the second, which nobody closed, is refused. -/
theorem refused_open : ∃ s, operationSystem.Reachable s ∧
    ∃ t ∈ s.tasks, t.pc.err = some (.errc .closed) ∧ ¬ (t.inc < s.inc ∨ s.phase ≠ .attached) := by
  exact operationSystem.reachable_of_run {}
    [.attach 3, .start .read false true, .close, .close, .close, .close, .free, .free, .free, .free, .attach 4,
      .task 0 ⟨0, false, fun _ => false⟩ false false, .start .read false true,
      .task 1 ⟨0, false, fun _ => false⟩ false false, .task 1 ⟨0, false, fun _ => false⟩ false false,
      .task 1 ⟨0, false, fun _ => false⟩ false false]
    _
    rfl (by decide +kernel)

end Cio.Reactor.Operation
