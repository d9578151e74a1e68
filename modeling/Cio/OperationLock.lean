import Cio.OperationBooks

/-! The lifecycle lock, the incarnations and the references of the operation queue: what a step keeps of
them. -/

namespace Cio.Reactor.Operation

open CallPool WrapCounter State List Pc

def Pc.live : Pc → Bool
  | .returned _ => false
  | .enter | .validate | .suspend | .inspect | .takeIdle | .upgrade | .queued | .popped | .granted | .holding
  | .leased | .reset _ | .release _ | .drop _ _ | .dispatch _ _ => true

/-- The node was recycled fewer than `2 ^ 32` times since the incarnation of any live operation was
captured. -/
def CapturesFresh (s : State) : Prop := ∀ t ∈ s.tasks, t.pc.live = true → s.inc < t.inc + 2 ^ 32

/-- A direction of an incarnation in use is taken from idle only by an operation of that incarnation, and a
node is attached only when both directions are idle. -/
def Undisturbed (s : State) : Act → Prop
  | .attach _ => ∀ d, (s.queue d).owner = 0
  | .task i _ _ _ => ∀ t, s.tasks[i]? = some t → t.pc = .enter → (s.queue t.dir).owner = 0 → s.Alive →
      t.inc = s.inc
  | .start _ _ _ | .close | .pin | .unpin | .free => True

variable {s u : State} {t w t' : Task} {i n : Nat}

lemma Known.current_of_generation (h : Known s) (hfresh : CapturesFresh s) (ht : s.tasks[i]? = some t)
    (hlive : t.pc.live) (hgen : s.desc.generation = t.generation) : t.inc = s.inc := by
  have hmem := mem_of_getElem? ht
  obtain ⟨hword, hle⟩ := h.token t hmem
  have hnear := hfresh t hmem hlive
  rw [h.generation, hword] at hgen
  exact (eq_of_word_eq hle (by omega) hgen).symm

lemma Known.current_of_heavy (h : Known s) (ht : s.tasks[i]? = some t)
    (hheavy : t.pc.light = false) : t.inc = s.inc := by
  by_contra hne
  rw [h.light t (mem_of_getElem? ht) hne] at hheavy
  cases hheavy

lemma Known.attached_of_open (h : Known s) (ht : s.tasks[i]? = some t)
    (hcur : t.inc = s.inc) (hopen : s.desc.closing = false) : s.phase = .attached := by
  by_contra hphase
  have halive := h.current t (mem_of_getElem? ht) hcur
  rw [h.closing hphase halive.phase] at hopen
  cases hopen

/-! ### The lock -/

section

variable (h : Locked s) (ht : s.tasks[i]? = some t)

include h ht

lemma Locked.set (htasks : u.tasks = s.tasks.set i t') (hfreer : u.freer.inside = s.freer.inside)
    (hlocked : u.locked.toNat + t.pc.inside = s.locked.toNat + t'.pc.inside) : Locked u := by
  have hsum := weight_set (Task.count inside) ht t'
  unfold Locked at h ⊢
  simp only [Task.count] at hsum h ⊢
  rw [htasks, hfreer]
  omega

lemma Locked.set_set {w' : Task}
    (hw : s.tasks[n]? = some w) (hne : n ≠ i) (htasks : u.tasks = (s.tasks.set n w').set i t')
    (hfreer : u.freer.inside = s.freer.inside) (hlocked : u.locked = s.locked)
    (hin : t.pc.inside = 0 ∧ t'.pc.inside = 0 ∧ w.pc.inside = 0 ∧ w'.pc.inside = 0) : Locked u := by
  have hsum := weight_set_set (Task.count inside) ht hw hne t' w'
  unfold Locked at h ⊢
  simp only [Task.count] at hsum h ⊢
  rw [htasks, hfreer, hlocked]
  omega

lemma Locked.of_inside (hin : t.pc.inside = 1) : s.locked ∧ s.freer.inside = 0 := by
  have hle := le_weight (Task.count inside) (mem_of_getElem? ht)
  unfold Locked at h
  simp only [Task.count] at hle h
  cases hlock : s.locked
  · rw [hlock] at h
    simp only [Bool.toNat_false] at h
    omega
  · rw [hlock] at h
    simp only [Bool.toNat_true] at h
    exact ⟨rfl, by omega⟩

end

lemma Locked.not_inside (h : Locked s) (hlock : s.locked = false) (ht : t ∈ s.tasks) : t.pc.inside = 0 := by
  have hle := le_weight (Task.count inside) ht
  unfold Locked at h
  rw [hlock] at h
  simp only [Task.count, Bool.toNat_false] at hle h
  omega

lemma Move.inside_eq {spurious : Bool} {pc : Pc} (h : Move s spurious t pc) : pc.inside = t.pc.inside := by
  cases h <;> simp only [‹t.pc = _›, inside]

lemma Known.releaseDesc_freer (h : Known s) (hrefs : 0 < s.desc.refs) :
    s.releaseDesc.freer.inside = s.freer.inside := by
  unfold releaseDesc
  split
  · cases hfreer : s.freer with
    | idle | pending => rfl
    | resetting rest =>
      have hzero := (h.resetting rest hfreer).2
      omega
  · rfl

lemma Counted.pos_of_drop (h : Counted s) (ht : s.tasks[i]? = some t)
    (hdrop : t.pc.dropping = 1) : 0 < s.desc.refs := by
  have hle := le_weight (Task.count dropping) (mem_of_getElem? ht)
  unfold Counted at h
  simp only [Task.count] at hle h
  omega

lemma Counted.pos_of_phase (h : Counted s) (hphase : s.phase.refs = 1) : 0 < s.desc.refs := by
  unfold Counted at h
  omega

lemma Counted.pos_of_awaiter (h : Counted s) (haws : 0 < s.awaiters) : 0 < s.desc.refs := by
  unfold Counted at h
  omega

lemma Placed.pc_of_waiter {d : Dir} (h : Placed s d n) (hn : n ∈ (s.queue d).waiters)
    (hw : s.tasks[n]? = some w) : w.pc = .queued ∧ w.dir = d := by
  have hq := h.queued
  have hpos := count_pos_iff.mpr hn
  rw [State.at, hw] at hq
  simp only [Task.along] at hq
  split at hq
  · rename_i hdir
    refine ⟨?_, hdir⟩
    cases hpc : w.pc <;> rw [hpc] at hq <;> simp only [waiting] at hq <;> first | rfl | omega
  · omega

lemma Placed.pc_of_carried {d : Dir} (h : Placed s d n) (ht : s.tasks[i]? = some t) (hcarries : t.pc.carries n = 1)
    (hw : s.tasks[n]? = some w) : w.pc = .popped := by
  have hcar := h.carried
  have hle := le_weight (Task.count (carries n)) (mem_of_getElem? ht)
  rw [State.at, hw] at hcar
  simp only [Task.count] at hcar hle
  cases hpc : w.pc <;> rw [hpc] at hcar <;> simp only [undispatched] at hcar <;> first | rfl | omega

lemma Kept.pass_target (h : Kept s) {rest : List Nat} {err : Option Error}
    (ht : s.tasks[i]? = some t) (hpc : t.pc = .release err) (hqueue : (s.queue t.dir).waiters = n :: rest)
    (hw : s.tasks[n]? = some w) : n ≠ i ∧ w.pc = .queued ∧ w.dir = t.dir := by
  have hw' := (h.placed t.dir n).pc_of_waiter (hqueue ▸ mem_cons_self) hw
  refine ⟨?_, hw'⟩
  rintro rfl
  cases ht.symm.trans hw
  rw [hpc] at hw'
  cases hw'.1

lemma Kept.dispatch_target (h : Kept s) {err : Option Error} (ht : s.tasks[i]? = some t)
    (hpc : t.pc = .dispatch err n) (hw : s.tasks[n]? = some w) : n ≠ i ∧ w.pc = .popped := by
  have hw' := (h.placed t.dir n).pc_of_carried ht (hpc ▸ if_pos rfl) hw
  refine ⟨?_, hw'⟩
  rintro rfl
  cases ht.symm.trans hw
  rw [hpc] at hw'
  cases hw'

lemma step_locked {act : Act} (h : Kept s) (hs : Step s act u) : Locked u := by
  have hl := h.locked
  cases hs with
  | attach | shut | awaited | pin => exact hl
  | start =>
    unfold Locked
    rw [weight_concat]
    exact hl
  | detach hphase =>
    have hfreer := h.known.releaseDesc_freer (h.counted.pos_of_phase (hphase ▸ rfl))
    unfold Locked at hl ⊢
    rw [hfreer]
    exact hl
  | unpin haws =>
    have hfreer := h.known.releaseDesc_freer (h.counted.pos_of_awaiter haws)
    unfold Locked at hl ⊢
    rw [hfreer]
    exact hl
  | bump hfreer hlock =>
    unfold Locked at hl ⊢
    rw [hfreer, hlock] at hl
    simp only [FreePc.inside, Bool.toNat_false, Bool.toNat_true] at hl ⊢
    omega
  | resetOwner d rest hfreer =>
    unfold Locked at hl ⊢
    rw [hfreer] at hl
    exact hl
  | freed hfreer =>
    have hone := Bool.toNat_le s.locked
    unfold Locked at hl ⊢
    rw [hfreer] at hl
    simp only [FreePc.inside, Bool.toNat_false] at hl ⊢
    omega
  | task i t ht hs =>
    cases hs with
    | move pc hmove => exact hl.set ht rfl rfl (hmove.inside_eq ▸ rfl)
    | enter hpc | publish hpc | resume hpc | begin hpc | finish hpc | clear err hpc =>
      exact hl.set ht rfl rfl (hpc ▸ rfl)
    | lock hpc hlock => exact hl.set ht rfl rfl (by rw [hpc, hlock]; rfl)
    | expel hpc | take hpc | takeForeign hpc =>
      have hlock := (hl.of_inside ht (hpc ▸ rfl)).1
      exact hl.set ht rfl rfl (by rw [hpc, hlock]; rfl)
    | join hpc =>
      have hin : t.pc.inside = 1 := by rcases hpc with hpc | hpc <;> rw [hpc] <;> rfl
      have hlock := (hl.of_inside ht hin).1
      exact hl.set ht rfl rfl (by rw [hin, hlock]; rfl)
    | pass err n rest w hpc hlock hgen hqueue hw =>
      obtain ⟨hne, hwpc, -⟩ := h.pass_target ht hpc hqueue hw
      refine hl.set_set ht hw hne rfl rfl rfl ⟨by rw [hpc]; rfl, ?_, by rw [hwpc]; rfl, rfl⟩
      split <;> rfl
    | vacate err hpc =>
      refine hl.set ht rfl rfl ?_
      rw [hpc]
      split <;> rfl
    | drop err next hpc =>
      have hrefs := h.counted.pos_of_drop ht (hpc ▸ rfl)
      refine hl.set ht rfl (h.known.releaseDesc_freer hrefs) ?_
      rw [hpc]
      cases next <;> rfl
    | dispatch err n w hpc hw =>
      obtain ⟨hne, hwpc⟩ := h.dispatch_target ht hpc hw
      exact hl.set_set ht hw hne rfl rfl rfl ⟨by rw [hpc]; rfl, rfl, by rw [hwpc]; rfl, rfl⟩

/-! ### Incarnations -/

/-- What an operation of the new state needs: it was there before with the same capture, it is light when it is
stale, and it is inside only with its incarnation open. -/
structure Task.Follows (s : State) (t' : Task) : Prop where
  from' : ∃ t ∈ s.tasks, t'.generation = t.generation ∧ t'.inc = t.inc
  light : t'.inc ≠ s.inc → t'.pc.light = true
  inside : 0 < t'.pc.inside → t'.inc = s.inc ∧ s.desc.closing = false

lemma Known.follows (h : Known s) (ht : t ∈ s.tasks) : t.Follows s :=
  ⟨⟨t, ht, rfl, rfl⟩, h.light t ht, h.inside t ht⟩

lemma Known.of_tasks (h : Known s) (hgen : u.desc.generation = s.desc.generation)
    (hend : u.desc.closing = s.desc.closing) (hfd : u.desc.fd = s.desc.fd) (hinc : u.inc = s.inc)
    (hphase : u.phase = s.phase) (hfreer : u.freer = s.freer)
    (hrefs : s.phase.refs = 0 → u.desc.refs = s.desc.refs) (htasks : ∀ t ∈ u.tasks, t.Follows s) : Known u := by
  have halive : s.Alive → u.Alive := fun ha => ⟨hphase ▸ ha.phase, hfreer ▸ ha.freer⟩
  refine ⟨by rw [hgen, hinc, h.generation], fun t ht => ?_, fun t ht => ?_, fun t ht => ?_, ?_, ?_,
    fun t ht => ?_, fun hp => ?_, fun rest hp => ?_, fun hp => ?_⟩
  · obtain ⟨t₀, ht₀, hg, hi⟩ := (htasks t ht).from'
    rw [hg, hi, hinc]
    exact h.token t₀ ht₀
  · obtain ⟨t₀, ht₀, -, hi⟩ := (htasks t ht).from'
    rw [hi, hinc]
    exact fun heq => halive (h.current t₀ ht₀ heq)
  · rw [hinc]
    exact (htasks t ht).light
  · rw [hphase, hend, hfd]
    exact h.attached
  · rw [hphase, hend]
    exact h.closing
  · rw [hinc, hend]
    exact (htasks t ht).inside
  · obtain ⟨hr, hz⟩ := h.pending (hfreer ▸ hp)
    exact ⟨hphase.trans hr, (hrefs (hr ▸ rfl)).trans hz⟩
  · obtain ⟨hr, hz⟩ := h.resetting rest (hfreer ▸ hp)
    exact ⟨hphase.trans hr, (hrefs (hr ▸ rfl)).trans hz⟩
  · obtain ⟨hi, hz⟩ := h.vacant (hphase ▸ hp)
    exact ⟨hfreer.trans hi, (hrefs (by rw [hphase] at hp; rw [hp]; rfl)).trans hz⟩

lemma Known.of_releaseDesc (h : Known s) (hrefs : 0 < s.desc.refs) (hgen : u.desc.generation = s.desc.generation)
    (hend : u.desc.closing = s.desc.closing) (hfd : u.desc.fd = s.desc.fd) (hinc : u.inc = s.inc)
    (hphase : u.phase = s.phase ∨ (s.phase = .closing [] ∧ u.phase = .released))
    (hrel : s.desc.refs = 1 → u.phase = .released) (hfreer : u.freer = s.releaseDesc.freer)
    (hrefs' : u.desc.refs = s.desc.refs - 1) (htasks : ∀ t ∈ u.tasks, t.Follows s) : Known u := by
  have hnotvacant : s.phase ≠ .vacant := fun hv => by
    have hzero := (h.vacant hv).2
    omega
  have hnotpending : s.freer ≠ .pending := fun hp => by
    have hzero := (h.pending hp).2
    omega
  have hnotresetting : ∀ rest, s.freer ≠ .resetting rest := fun rest hp => by
    have hzero := (h.resetting rest hp).2
    omega
  have hvac : u.phase ≠ .vacant := by
    rcases hphase with hp | ⟨-, hp⟩
    · rw [hp]
      exact hnotvacant
    · simp [hp]
  have hfreer' : ∀ rest, u.freer ≠ .resetting rest := by
    intro rest
    rw [hfreer, releaseDesc]
    split
    · simp
    · exact hnotresetting rest
  refine ⟨by rw [hgen, hinc, h.generation], fun t ht => ?_, fun t ht _ => ⟨hvac, hfreer'⟩, fun t ht => ?_,
    fun hp => ?_, fun hp _ => ?_, fun t ht => ?_, fun hp => ?_, fun rest hp => absurd hp (hfreer' rest),
    fun hp => absurd hp hvac⟩
  · obtain ⟨t₀, ht₀, hg, hi⟩ := (htasks t ht).from'
    rw [hg, hi, hinc]
    exact h.token t₀ ht₀
  · rw [hinc]
    exact (htasks t ht).light
  · rw [hend, hfd]
    rcases hphase with heq | ⟨-, heq⟩
    · exact h.attached (heq.symm.trans hp)
    · cases heq.symm.trans hp
  · rw [hend]
    rcases hphase with heq | ⟨hold, -⟩
    · exact h.closing (heq ▸ hp) hnotvacant
    · exact h.closing (by simp [hold]) (by simp [hold])
  · rw [hinc, hend]
    exact (htasks t ht).inside
  · rw [hfreer, releaseDesc] at hp
    split at hp
    · rename_i hone
      exact ⟨hrel hone, by omega⟩
    · exact absurd hp hnotpending

lemma Move.light_of_light {spurious : Bool} {pc : Pc} (h : Move s spurious t pc) (hlight : t.pc.light) :
    pc.light = true := by
  cases h <;> simp_all [light]

lemma Known.setPc_follows (h : Known s) {tasks : List Task} (ht : s.tasks[i]? = some t)
    (htasks : tasks = s.tasks.set i t') (hgen : t'.generation = t.generation) (hinc : t'.inc = t.inc)
    (hlight : t.inc ≠ s.inc → t'.pc.light) (hin : 0 < t'.pc.inside → t.inc = s.inc ∧ s.desc.closing = false) :
    ∀ x ∈ tasks, x.Follows s := by
  rw [htasks]
  exact forall_set (fun _ => h.follows) ⟨⟨t, mem_of_getElem? ht, hgen, hinc⟩, hinc ▸ hlight, hinc ▸ hin⟩ i

lemma Kept.phase_of_last (h : Kept s) (hrefs : s.desc.refs = 1)
    (hmore : 0 < s.awaiters + weight (Task.count dropping) s.tasks) : s.phase = .released := by
  have hcnt := h.counted
  unfold Counted at hcnt
  have hphase : s.phase.refs = 0 := by omega
  cases hp : s.phase with
  | released => rfl
  | vacant =>
    have hzero := (h.known.vacant hp).2
    omega
  | attached | closing =>
    rw [hp] at hphase
    cases hphase

end Cio.Reactor.Operation
