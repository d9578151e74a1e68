import Cio.OperationKnown

/-! The references of the node and the leases of its two directions. The reference a waiter was given when it
joined becomes the pin of the next owner when it is taken from the queue; the releasing operation drops the pin
it leaves behind. -/

namespace Cio.Reactor.Operation

open CallPool Function State Operation.Task List Pc

/-! ### References -/

variable {s u : State} {t : Task} {i : Nat}

lemma Counted.update (h : Counted s) {d : Dir} {q : Queue} {a b : Nat}
    (hqueue : u.queue = update s.queue d q) (hphase : u.phase = s.phase) (haws : u.awaiters = s.awaiters)
    (hdrop : weight (count dropping) u.tasks + a = weight (count dropping) s.tasks + b)
    (hrefs : u.desc.refs + (s.queue d).pinned.toNat + (s.queue d).waiters.length + a =
      s.desc.refs + q.pinned.toNat + q.waiters.length + b) : Counted u := by
  unfold Counted at h ⊢
  rw [hqueue, hphase, haws]
  cases d with
  | read | write =>
    rw [update_self, update_of_ne (by decide)]
    omega

lemma Counted.of_refs (h : Counted s) {a b : Nat} (hqueue : u.queue = s.queue)
    (hdrop : weight (count dropping) u.tasks + a = weight (count dropping) s.tasks + b)
    (hrefs : u.desc.refs + s.phase.refs + s.awaiters + a = s.desc.refs + u.phase.refs + u.awaiters + b) :
    Counted u := by
  unfold Counted at h ⊢
  rw [hqueue]
  omega

lemma Move.dropping_eq {spurious : Bool} {pc : Pc} (h : Move s spurious t pc) : pc.dropping = t.pc.dropping := by
  cases h <;> simp only [‹t.pc = _›, dropping]

lemma counted_attach (h : Kept s) {fd : Int} (hphase : s.phase = .vacant) :
    Counted { s with desc := s.desc.attachFields fd, phase := .attached } := by
  have hzero := (h.known.vacant hphase).2
  have hcnt := h.counted
  unfold Counted at hcnt ⊢
  dsimp only [IoDesc.attachFields, Phase.refs]
  omega

lemma step_counted {act : Act} (hk : Kept s) (hfresh : CapturesFresh s) (hs : Step s act u) : Counted u := by
  have h := hk.counted
  cases hs with
  | attach fd hphase => exact counted_attach hk hphase
  | start => exact h.of_refs rfl (a := 0) (b := 0) (weight_concat _ _ _) rfl
  | shut hphase | awaited d rest hphase => exact h.of_refs rfl (a := 0) (b := 0) rfl (hphase ▸ rfl)
  | detach hphase =>
    have hpos := h.pos_of_phase (hphase ▸ rfl)
    refine h.of_refs rfl (a := 0) (b := 0) rfl ?_
    rw [hphase]
    dsimp only [releaseDesc, Phase.refs]
    omega
  | pin =>
    refine h.of_refs rfl (a := 0) (b := 0) rfl ?_
    dsimp only
    omega
  | unpin haws =>
    have hpos := h.pos_of_awaiter haws
    refine h.of_refs rfl (a := 0) (b := 0) rfl ?_
    dsimp only [releaseDesc]
    omega
  | bump => exact h
  | resetOwner => exact h.update rfl rfl rfl (a := 0) (b := 0) rfl rfl
  | freed hfreer => exact h.of_refs rfl (a := 0) (b := 0) rfl (by rw [(hk.known.resetting _ hfreer).1]; rfl)
  | task i t ht hs =>
    have hset := weight_set (count dropping) ht
    cases hs with
    | move pc hmove =>
      have hdrop := hmove.dropping_eq
      exact h.of_refs rfl (hset _) (by dsimp only [Task.count]; rw [hdrop]; rfl)
    | lock hpc | expel hpc | begin hpc | finish hpc =>
      exact h.of_refs rfl (hset _) (by dsimp only [Task.count]; rw [hpc]; rfl)
    | enter hpc | resume hpc | clear err hpc | take hpc =>
      exact h.update rfl rfl rfl (hset _) (by dsimp only [Task.count]; rw [hpc]; rfl)
    | publish hpc | takeForeign hpc =>
      refine h.update rfl rfl rfl (hset _) ?_
      dsimp only [Task.count]
      rw [hpc]
      cases (s.queue t.dir).pinned <;> rfl
    | join hpc =>
      have hquiet : t.pc.dropping = 0 := by rcases hpc with hpc | hpc <;> rw [hpc] <;> rfl
      refine h.update rfl rfl rfl (hset _) ?_
      dsimp only [Task.count, setTask, setQueue]
      rw [hquiet, length_append, length_singleton]
      cases (s.queue t.dir).pinned with
      | true =>
        simp only [Bool.not_true, Bool.toNat_true, Bool.toNat_false, dropping]
        omega
      | false =>
        simp only [Bool.not_false, Bool.toNat_true, Bool.toNat_false, dropping]
        omega
    | pass err n rest w hpc hlock hgen hwaiters hw =>
      obtain ⟨hne, hwpc, -⟩ := hk.pass_target ht hpc hwaiters hw
      have hcur := hk.known.current_of_generation hfresh ht (hpc ▸ rfl) hgen
      have hpin := (hk.directed (hk.known.current t (mem_of_getElem? ht) hcur) t.dir).queued
        (hwaiters ▸ cons_ne_nil _ _)
      have hsets := weight_set_set (count dropping) ht hw hne
        { t with pc := .drop err (some n) } { w with pc := .popped }
      simp only [Task.count, hpc, hwpc, dropping] at hsets
      rw [if_pos hpin]
      refine h.update (d := t.dir) (a := 0) (b := 1) rfl rfl rfl hsets ?_
      dsimp only [setPc, setTask, setQueue]
      rw [hwaiters, length_cons]
      omega
    | vacate err hpc hlock hgen hwaiters =>
      refine h.update rfl rfl rfl (hset _) ?_
      dsimp only [Task.count]
      rw [hpc, hwaiters]
      cases (s.queue t.dir).pinned <;> rfl
    | drop err next hpc =>
      have hpos := h.pos_of_drop ht (hpc ▸ rfl)
      have hdropped : (dropped err next).dropping = 0 := by cases next <;> rfl
      refine h.of_refs rfl (hset _) ?_
      dsimp only [Task.count, releaseDesc, setPc, setTask]
      rw [hdropped, hpc]
      dsimp only [dropping]
      omega
    | dispatch err n w hpc hw =>
      obtain ⟨hne, hwpc⟩ := hk.dispatch_target ht hpc hw
      have hsets := weight_set_set (count dropping) ht hw hne
        { t with pc := .returned err } { w with pc := .granted, wakes := w.wakes + 1 }
      simp only [Task.count, hpc, hwpc, dropping] at hsets
      exact h.of_refs rfl (a := 0) (b := 0) hsets rfl

/-! ### Leases -/

lemma Move.leasing_eq {spurious : Bool} {pc : Pc} (h : Move s spurious t pc) : pc.leasing = t.pc.leasing := by
  cases h <;> simp only [‹t.pc = _›, leasing]

section

variable (h : Leased s)

include h

lemma Leased.of_weight (hact : u.desc.syscallActive = s.desc.syscallActive)
    (hsum : ∀ d, weight (along d leasing) u.tasks = weight (along d leasing) s.tasks)
    (hawaited : ∀ rest, u.phase = .closing rest → ∀ d, d ∉ rest → s.desc.syscallActive d = false)
    (hrel : u.phase = .released ∨ u.phase = .vacant → ∀ d, s.desc.syscallActive d = false) : Leased u := by
  refine ⟨fun d => ?_, ?_, ?_⟩
  · rw [hsum, hact]
    exact h.active d
  · rw [hact]
    exact hawaited
  · rw [hact]
    exact hrel

lemma Leased.set {t' : Task} (ht : s.tasks[i]? = some t)
    (htasks : u.tasks = s.tasks.set i t') (hdir : t'.dir = t.dir) (hlease : t'.pc.leasing = t.pc.leasing)
    (hact : u.desc.syscallActive = s.desc.syscallActive) (hphase : u.phase = s.phase) : Leased u := by
  refine h.of_weight hact (fun d => ?_) (hphase ▸ h.awaited) (hphase ▸ h.released)
  have hset := weight_set (along d leasing) ht t'
  simp only [along, hdir, hlease] at hset
  rw [htasks]
  omega

lemma Leased.set_set {n : Nat} {t' w w' : Task} (ht : s.tasks[i]? = some t) (hw : s.tasks[n]? = some w) (hne : n ≠ i)
    (htasks : u.tasks = (s.tasks.set n w').set i t') (hdir : t'.dir = t.dir) (hwdir : w'.dir = w.dir)
    (hlease : t'.pc.leasing = t.pc.leasing) (hwleasing : w'.pc.leasing = w.pc.leasing)
    (hact : u.desc.syscallActive = s.desc.syscallActive) (hphase : u.phase = s.phase) : Leased u := by
  refine h.of_weight hact (fun d => ?_) (hphase ▸ h.awaited) (hphase ▸ h.released)
  have hset := weight_set_set (along d leasing) ht hw hne t' w'
  simp only [along, hdir, hlease, hwdir, hwleasing] at hset
  rw [htasks]
  omega

lemma Leased.active_set (ht : s.tasks[i]? = some t) {pc : Pc} {b : Bool}
    (hlease : (s.desc.syscallActive t.dir).toNat + pc.leasing = b.toNat + t.pc.leasing) (d : Dir) :
    weight (along d leasing) (s.tasks.set i { t with pc := pc }) =
      (Function.update s.desc.syscallActive t.dir b d).toNat := by
  have hset := weight_set (along d leasing) ht { t with pc := pc }
  have hact := h.active d
  simp only [along] at hset
  by_cases hdir : t.dir = d
  · subst hdir
    rw [update_self]
    simp only [if_true] at hset
    omega
  · rw [update_of_ne (Ne.symm hdir)]
    simp only [hdir, if_false] at hset
    omega

lemma leased_begin (ht : s.tasks[i]? = some t) (hpc : t.pc = .holding) (hphase : s.phase = .attached)
    (hfree : s.desc.syscallActive t.dir = false) : Leased ({ s with desc := { s.desc with
      syscallActive := update s.desc.syscallActive t.dir true } }.setPc i t .leased) := by
  refine ⟨h.active_set ht (by rw [hfree, hpc]; rfl), fun rest hp => ?_, fun hp => ?_⟩
  · cases hphase.symm.trans hp
  · rcases hp with hp | hp <;> cases hphase.symm.trans hp

lemma leased_finish (ht : s.tasks[i]? = some t) (hpc : t.pc = .leased) : Leased ({ s with desc := { s.desc with
      syscallActive := update s.desc.syscallActive t.dir false } }.setPc i t .holding) := by
  have hupd : ∀ d, s.desc.syscallActive d = false → update s.desc.syscallActive t.dir false d = false := by
    intro d hd
    rw [update_apply]
    split
    · rfl
    · exact hd
  have hone : s.desc.syscallActive t.dir = true := by
    have hle := le_weight (along t.dir leasing) (mem_of_getElem? ht)
    rw [h.active, along, if_pos rfl, hpc] at hle
    cases hact : s.desc.syscallActive t.dir with
    | true => rfl
    | false =>
      rw [hact] at hle
      cases hle
  exact ⟨h.active_set ht (by rw [hone, hpc]; rfl), fun rest hp d hd => hupd d (h.awaited rest hp d hd),
    fun hp d => hupd d (h.released hp d)⟩

end

lemma step_leased {act : Act} (hk : Kept s) (hfresh : CapturesFresh s) (hs : Step s act u) : Leased u := by
  have h := hk.leased
  have hsame : ∀ d, weight (along d leasing) s.tasks = weight (along d leasing) s.tasks :=
    fun _ => rfl
  cases hs with
  | attach fd hphase =>
    refine ⟨fun d => ?_, fun rest hp => (by cases hp), fun hp => ?_⟩
    · have hact := h.active d
      rw [h.released (.inr hphase)] at hact
      exact hact
    · rcases hp with hp | hp <;> cases hp
  | start =>
    refine h.of_weight rfl (fun d => ?_) h.awaited h.released
    rw [weight_concat, along]
    dsimp only [leasing]
    rw [ite_self, Nat.add_zero]
  | shut =>
    refine h.of_weight rfl hsame (fun rest hp d hd => ?_) fun hp => ?_
    · cases hp
      cases d <;> simp at hd
    · rcases hp with hp | hp <;> cases hp
  | awaited d rest hphase hidle =>
    refine h.of_weight rfl hsame (fun rest' hp d' hd' => ?_) fun hp => ?_
    · cases hp
      by_cases heq : d' = d
      · rw [heq, hidle]
      · exact h.awaited _ hphase d' (by simp [heq, hd'])
    · rcases hp with hp | hp <;> cases hp
  | detach hphase =>
    exact h.of_weight rfl hsame (fun rest hp => (by cases hp)) fun _ d =>
      h.awaited _ hphase d not_mem_nil
  | pin | unpin | bump | resetOwner => exact h.of_weight rfl hsame h.awaited h.released
  | freed hfreer =>
    have hphase := (hk.known.resetting _ hfreer).1
    exact h.of_weight rfl hsame (fun rest hp => (by cases hp)) fun _ => h.released (.inl hphase)
  | task i t ht hs =>
    cases hs with
    | move pc hmove => exact h.set ht rfl rfl hmove.leasing_eq rfl rfl
    | enter hpc | publish hpc | lock hpc | expel hpc | take hpc | takeForeign hpc | resume hpc
    | clear err hpc => exact h.set ht rfl rfl (by rw [hpc]; rfl) rfl rfl
    | join hpc => exact h.set ht rfl rfl (by rcases hpc with hpc | hpc <;> rw [hpc] <;> rfl) rfl rfl
    | begin hpc hgen hopen hfree =>
      have hcur := hk.known.current_of_generation hfresh ht (by rw [hpc]; rfl) hgen
      exact leased_begin h ht hpc (hk.known.attached_of_open ht hcur hopen) hfree
    | finish hpc => exact leased_finish h ht hpc
    | pass err n rest w hpc hlock hgen hwaiters hw =>
      obtain ⟨hne, hwpc, -⟩ := hk.pass_target ht hpc hwaiters hw
      refine h.set_set ht hw hne rfl rfl rfl ?_ (by rw [hwpc]; rfl) rfl rfl
      rw [hpc]
      split <;> rfl
    | vacate err hpc =>
      refine h.set ht rfl rfl ?_ rfl rfl
      rw [hpc]
      split <;> rfl
    | drop err next hpc =>
      refine h.set ht rfl rfl ?_ rfl rfl
      rw [hpc]
      cases next <;> rfl
    | dispatch err n w hpc hw =>
      obtain ⟨hne, hwpc⟩ := hk.dispatch_target ht hpc hw
      exact h.set_set ht hw hne rfl rfl rfl (by rw [hpc]; rfl) (by rw [hwpc]; rfl) rfl rfl

end Cio.Reactor.Operation
