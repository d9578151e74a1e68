import Cio.CancelTreeKept

/-! The steps of `make_scope`, of the destructor and of `cancel`, one frame at a time, and the calls of the users. -/

namespace Cio.CancelTree

open CallPool State List Scope Nat CancelTree.Frame

variable {s u : State} {i n m : Nat} {f : Frame} {rest q : List Frame} {g : Frame → Nat}

/-! ### Construction -/

variable {cause : Cause} {b : Bool} {x : Scope}

lemma Reach.place (h : Reach s) (hat : (s.scopes n).placed = false)
    (hcov : ∀ m, (s.scopes n).parent = some m → 0 < s.running (exchanges n) ∨
      b ∧ (s.scopes m).fired = false ∧ .link n ∈ (s.scopes m).hooks)
    (hu : Moves s u n { s.scopes n with stage := .finish, linked := b } s.tasks) : Reach u := by
  have hgrows : Grows s u := hu.grows ⟨fun _ hm => hm, id, id, id, fun _ => rfl⟩ id
  have hcut : ∀ k, (u.scopes k).cancelled = (s.scopes k).cancelled :=
    hu.forall (R := fun a b => b.cancelled = a.cancelled) (fun _ => rfl) rfl
  have hfired : ∀ k, (u.scopes k).fired = (s.scopes k).fired :=
    hu.forall (R := fun a b => b.fired = a.fired) (fun _ => rfl) rfl
  have hhooks : ∀ k, (u.scopes k).hooks = (s.scopes k).hooks :=
    hu.forall (R := fun a b => b.hooks = a.hooks) (fun _ => rfl) rfl
  have hdone : ∀ k, (u.scopes k).done = (s.scopes k).done :=
    hu.forall (R := fun a b => b.done = a.done) (fun _ => rfl) rfl
  have hlive : ∀ k, (u.scopes k).live = (s.scopes k).live :=
    hu.forall (R := fun a b => b.live = a.live) (fun _ => rfl) rfl
  have hrun : ∀ g, u.running g = s.running g := fun g => by rw [running, hu.tasks, running]
  refine ⟨fun k hk => ?_, fun k hk => ?_, fun k m hlivek hup hplacedk => ?_, fun k hk hopen => ?_,
    fun k hook hhook => ?_, ?_, fun k hk => ?_, fun k m hup hor => ?_⟩
  · rw [hfired] at hk
    rw [hcut, hhooks]
    exact h.fired k hk
  · rw [hcut] at hk
    rw [hfired, hrun]
    exact h.collecting k hk
  · rw [Covered, hcut, hfired, hhooks, hrun, hrun]
    by_cases hkn : k = n
    · subst hkn
      rw [hu.self] at hup ⊢
      exact .inr ((hcov m hup).imp_right fun hlinked => ⟨hlinked.1, .inl hlinked.2⟩)
    · rw [hlive] at hlivek
      rw [hu.other k hkn] at hup hplacedk ⊢
      exact h.covered k m hlivek hup hplacedk
  · rw [hfired] at hk
    rw [hdone] at hopen
    rw [hrun]
    exact h.closing k hk hopen
  · rw [hhooks] at hhook
    exact hgrows.links (h.hooks k hook hhook)
  · rw [hu.tasks]
    exact fun task htask x hx => hgrows.sound (h.frames task htask x hx)
  · rw [hcut] at hk
    exact hgrows.caused (h.caused k hk)
  · rw [hlive]
    by_cases hkn : k = n
    · subst hkn
      rw [hu.self] at hup
      exact h.alive k m hup (.inl hat)
    · rw [hu.other k hkn] at hup hor
      exact h.alive k m hup hor

lemma moves_modify (h : Scope → Scope) (l : List (List Frame)) :
    Moves s { s.modify n h with tasks := l } n (h (s.scopes n)) l where
  self := modify_self h
  other _ hk := modify_ne hk h
  count := rfl
  tasks := rfl

lemma build_keeps (hn : (s.scopes n).stage ≠ .ready → 0 < weight (builds n) q) (k : Nat)
    (hk : (s.scopes k).stage ≠ .ready) : (build n).builds k ≤ weight (builds k) q := by
  by_cases hnk : n = k
  · subst hnk
    rw [builds, if_pos rfl]
    exact hn hk
  · rw [builds, if_neg hnk]
    exact zero_le _

attribute [local simp] exchanges weight builds delivers closes

lemma weight_build (n : Nat) : 0 < weight (builds n) [.build n] := by
  simp

lemma Scope.target_of_settled (hx : x.settled) : x.target = x.deadlineNs := by
  rw [settled] at hx
  rw [target]
  split
  · rename_i hstore
    rw [hstore] at hx
    cases hx
  · rfl

section

variable (h : Kept s) (hi : s.tasks[i]? = some (.build n :: rest))
include h hi

lemma Kept.set_build (hn : (s.scopes n).stage ≠ .ready → 0 < weight (builds n) q) (hnew : ∀ x ∈ q, x.Sound s) :
    Kept { s with tasks := s.tasks.set i (q ++ rest) } where
  shape := h.shape.set hi (build_keeps hn)
  reach := h.reach.set hi hnew

lemma Kept.sound_build : ∀ x ∈ [build n], x.Sound s := by
  intro x hx
  rw [mem_singleton.mp hx]
  exact h.reach.sound hi

lemma Kept.store {deadline : Int}
    (hstage : (s.scopes n).stage = .store deadline) {t : Stage} (ht : t = .link ∨ t = .arm ∧ deadline ≠ 0) :
    Kept (s.modify n fun x => { x with deadlineNs := deadline, stage := t }) := by
  have hn : n < s.count := h.reach.sound hi
  have huns : (s.scopes n).settled = false := by rw [settled, hstage]
  have hvoid : ∀ {p : Prop}, (s.scopes n).settled → p :=
    fun htrue => absurd (huns.symm.trans htrue) Bool.false_ne_true
  refine ⟨h.shape.modify hn ⟨rfl, rfl, ?_, hvoid, hvoid, ?_, fun hb => ?_, ?_⟩,
    h.reach.alike ⟨rfl, rfl, rfl, ?_, id, hvoid, id, fun _ => id, id⟩ rfl rfl (.inl rfl)⟩
  · rw [target, target, hstage]
    rcases ht with rfl | ⟨rfl, -⟩ <;> rfl
  · rcases ht with rfl | ⟨rfl, -⟩ <;> rintro ⟨⟩
  · rcases ht with rfl | ⟨rfl, hne⟩
    · refine .inl ?_
      rw [timed, hstage]
      exact hb
    · exact .inr ⟨rfl, hne⟩
  · rw [hstage]
    exact fun _ => Stage.noConfusion
  · rw [placed, placed, hstage]
    rcases ht with rfl | ⟨rfl, -⟩ <;> rfl

lemma Kept.advance {t : Stage} (hsettled : (s.scopes n).settled) (hready : (s.scopes n).stage ≠ .ready)
    (hstage : { s.scopes n with stage := t }.settled)
    (htimed : { s.scopes n with timer := b, stage := t }.timed → (s.scopes n).timed)
    (hat : { s.scopes n with stage := t }.placed = (s.scopes n).placed) :
    Kept (s.modify n fun x => { x with timer := b, stage := t }) := by
  have hn : n < s.count := h.reach.sound hi
  refine ⟨h.shape.modify hn ⟨rfl, rfl, ?_, fun _ => rfl, fun _ => hstage, ?_, fun hb => .inl (htimed hb),
      fun _ => hready⟩,
    h.reach.alike ⟨rfl, rfl, rfl, hat, id, fun _ => hstage, id, fun _ => id, id⟩ rfl rfl (.inl rfl)⟩
  · exact (target_of_settled hstage).trans (target_of_settled hsettled).symm
  · intro hfalse
    have hstage : { s.scopes n with timer := b, stage := t }.settled = true := hstage
    rw [hstage] at hfalse
    cases hfalse

end

lemma Kept.place (h : Kept s) (hn : n < s.count) (hstage : (s.scopes n).stage = .link)
    (hcov : ∀ m, (s.scopes n).parent = some m → 0 < s.running (exchanges n) ∨
      b ∧ (s.scopes m).fired = false ∧ .link n ∈ (s.scopes m).hooks) :
    Kept (s.modify n fun x => { x with stage := .finish, linked := b }) where
  shape := by
    have hsettled : (s.scopes n).settled = true := by rw [settled, hstage]
    refine h.shape.modify hn ⟨rfl, rfl, ?_, fun _ => rfl, fun _ => rfl, (fun hfalse => by cases hfalse),
      fun hb => .inl ?_, fun _ => ?_⟩
    · exact (target_of_settled hsettled).symm
    · rw [timed, hstage]
      exact hb
    · rw [hstage]
      exact Stage.noConfusion
  reach := h.reach.place (by rw [placed, hstage]) hcov
    (moves_modify (fun x => { x with stage := .finish, linked := b }) s.tasks)

lemma Kept.hook (h : Kept s) (hm : m < s.count) (hfired : (s.scopes m).fired = false)
    (hlinks : s.Links m (.link n)) : Kept (s.modify m fun x => { x with hooks := x.hooks ++ [.link n] }) where
  shape := h.shape.touch hm ⟨id, rfl, rfl, rfl, rfl⟩
  reach := by
    refine h.reach.modify ⟨rfl, rfl, rfl, rfl, id, id, id, fun _ => id, id⟩ (fun hook hhook => ?_) (fun k _ hhook => ?_)
      (fun htrue => ?_) (fun _ hopen => hopen) (.inl rfl)
    · rcases mem_append.mp hhook with hold | hnew
      · exact .inl hold
      · rw [mem_singleton.mp hnew]
        exact .inr hlinks
    · exact mem_append_left _ hhook
    · rw [hfired] at htrue
      cases htrue

lemma Kept.linkToParent (h : Kept s) (hi : s.tasks[i]? = some (.build n :: rest))
    (hstage : (s.scopes n).stage = .link) :
    Kept { (s.linkToParent n).1 with tasks := s.tasks.set i ((s.linkToParent n).2 ++ rest) } := by
  have hn : n < s.count := h.reach.sound hi
  have hsettled : (s.scopes n).settled = true := by rw [settled, hstage]
  rw [State.linkToParent]
  split
  · rename_i hup
    have hplace : Kept (s.modify n fun x => { x with stage := .finish, linked := (s.scopes n).linked }) :=
      h.place hn hstage fun m hm => by rw [hup] at hm; cases hm
    exact hplace.set_build hi (fun _ => weight_build n) (hplace.sound_build hi)
  · rename_i m hup
    split
    · rename_i hfired
      -- the parent has fired: the child's own cancel comes first
      have hnew : ∀ x ∈ [exchange n ((s.scopes m).cause.getD .explicit), .build n], x.Sound s := by
        intro x hx
        rcases mem_cons.mp hx with rfl | hx
        · exact ⟨.inr ⟨m, hup, (h.reach.fired m hfired).1⟩, hsettled⟩
        · exact h.sound_build hi x hx
      have hset := h.set_build hi (fun _ => by simp) hnew
      refine hset.place hn hstage fun _ _ => .inl ?_
      exact running_gain hi (by simp)
    · rename_i hfired
      have hfired : (s.scopes m).fired = false := Bool.eq_false_iff.mpr hfired
      have hlt := h.shape.ordered n m hup
      have hne : n ≠ m := ne_of_gt hlt
      have hhook := h.hook (hlt.trans hn) hfired ⟨hup, hsettled⟩
      have hplace := hhook.place hn (by rw [modify_ne hne]; exact hstage)
        fun k hk => by
          rw [modify_ne hne, hup] at hk
          cases hk
          rw [modify_self]
          exact .inr ⟨rfl, hfired, mem_append_right _ mem_cons_self⟩
      exact hplace.set_build hi (fun _ => weight_build n) (hplace.sound_build hi)

lemma Kept.build (h : Kept s) (hi : s.tasks[i]? = some (.build n :: rest)) :
    Kept { (s.build n).1 with tasks := s.tasks.set i ((s.build n).2 ++ rest) } := by
  rw [State.build]
  cases hstage : (s.scopes n).stage with
  | store deadline =>
    dsimp only
    split
    · rename_i hzero
      have hunset : (s.scopes n).deadlineNs = 0 := h.shape.unset n (by rw [Scope.settled, hstage])
      have hsame : { s.scopes n with stage := .link } = { s.scopes n with deadlineNs := deadline, stage := .link } := by
        simp [hzero, hunset]
      have hstore := h.store hi (t := .link) hstage (.inl rfl)
      rw [State.modify, ← hsame] at hstore
      exact hstore.set_build hi (fun _ => weight_build n) (hstore.sound_build hi)
    · rename_i hne
      have hstore := h.store hi (t := .arm) hstage (.inr ⟨rfl, hne⟩)
      exact hstore.set_build hi (fun _ => weight_build n) (hstore.sound_build hi)
  | arm =>
    have hadv := h.advance hi (t := .link) (b := true) (by rw [Scope.settled, hstage])
      (by rw [hstage]; exact Stage.noConfusion)
      rfl (fun _ => by rw [Scope.timed, hstage, beq_self_eq_true, Bool.or_true])
      (by rw [Scope.placed, Scope.placed, hstage])
    exact hadv.set_build hi (fun _ => weight_build n) (hadv.sound_build hi)
  | link => exact h.linkToParent hi hstage
  | finish =>
    have hadv := h.advance hi (t := .ready) (b := (s.scopes n).timer) (by rw [Scope.settled, hstage])
      (by rw [hstage]; exact Stage.noConfusion) rfl (fun hb => by rw [Scope.timed, hstage]; exact hb)
      (by rw [Scope.placed, Scope.placed, hstage])
    refine hadv.set_build (q := []) hi (fun hne => ?_) (fun x hx => by cases hx)
    rw [State.modify_self] at hne
    exact absurd rfl hne
  | ready => exact h.set_build (q := []) hi (fun hne => absurd hstage hne) (fun x hx => by cases hx)

structure Made (s u : State) (x : Scope) : Prop where
  self : u.scopes s.count = x
  other : ∀ k, k ≠ s.count → u.scopes k = s.scopes k
  count : u.count = s.count + 1
  tasks : u.tasks = s.tasks ++ [[.build s.count]]

lemma Shape.parent_ne (h : Shape s) {k : Nat} (hup : (s.scopes k).parent = some m) : m ≠ s.count := by
  rintro rfl
  have hsettled := h.parents k s.count hup
  rw [h.absent s.count le_rfl] at hsettled
  cases hsettled

lemma Shape.usable_ne (h : Shape s) (hm : s.usable m) : m ≠ s.count :=
  Nat.ne_of_lt (h.lt_of_live (Bool.and_eq_true_iff.mp hm).1)

lemma settled_of_usable (hm : s.usable m) : (s.scopes m).settled = true := by
  rw [settled, beq_iff_eq.mp (Bool.and_eq_true_iff.mp hm).2]

lemma Made.running (hu : Made s u x) (hpos : 0 < s.running g) : 0 < u.running g := by
  rw [State.running, hu.tasks]
  exact running_spawn [.build s.count] hpos

lemma Made.grows (hu : Made s u x) (h : Shape s) : Grows s u where
  scopes k := by
    by_cases hk : k = s.count
    · rw [hk, h.absent s.count le_rfl]
      exact ⟨nofun, nofun, nofun, nofun, nofun⟩
    · rw [hu.other k hk]
      exact .refl _
  count := by
    rw [hu.count]
    exact le_succ _
  dead k hk hdead := by rwa [hu.other k (Nat.ne_of_lt hk)]

lemma Shape.make (h : Shape s) {parent : Option Nat} (hup : ∀ m, parent = some m → s.usable m) {own : Int}
    (hu : Made s u (.create parent own (clamp own (s.deadlineOf parent)))) : Shape u := by
  refine ⟨fun k hk => ?_, fun k m hm => ?_, fun k => ?_, fun k hk => ?_, fun k m hm => ?_, fun k hk => ?_,
    fun k hk hready => ?_⟩
  · rw [hu.count] at hk
    rw [hu.other k (ne_of_gt hk)]
    exact h.absent k (le_of_succ_le hk)
  · by_cases hkn : k = s.count
    · subst hkn
      rw [hu.self] at hm
      exact h.lt_of_live (Bool.and_eq_true_iff.mp (hup m hm)).1
    · rw [hu.other k hkn] at hm
      exact h.ordered k m hm
  · by_cases hkn : k = s.count
    · subst hkn
      rw [hu.self]
      refine congrArg (clamp own) ?_
      rcases parent with _ | m
      · rfl
      · exact congrArg deadlineNs (hu.other m (h.usable_ne (hup m rfl))).symm
    · rw [hu.other k hkn, h.clamped k]
      rcases hm : (s.scopes k).parent with _ | m
      · rfl
      · exact congrArg (fun x : Scope => clamp _ x.deadlineNs) (hu.other m (h.parent_ne hm)).symm
  · by_cases hkn : k = s.count
    · subst hkn
      rw [hu.self]
      rfl
    · rw [hu.other k hkn] at hk ⊢
      exact h.unset k hk
  · by_cases hkn : k = s.count
    · subst hkn
      rw [hu.self] at hm
      rw [hu.other m (h.usable_ne (hup m hm))]
      exact settled_of_usable (hup m hm)
    · rw [hu.other k hkn] at hm
      rw [hu.other m (h.parent_ne hm)]
      exact h.parents k m hm
  · by_cases hkn : k = s.count
    · subst hkn
      rw [hu.self] at hk
      cases hk
    · rw [hu.other k hkn] at hk ⊢
      exact h.timed k hk
  · by_cases hkn : k = s.count
    · subst hkn
      rw [running, hu.tasks, weight_concat]
      simp
    · rw [hu.count] at hk
      rw [hu.other k hkn] at hready
      exact hu.running (h.building k (lt_of_le_of_ne (le_of_lt_succ hk) hkn) hready)

lemma Kept.make (h : Kept s) {parent : Option Nat} (hup : ∀ m, parent = some m → s.usable m) {own : Int}
    (hu : Made s u (.create parent own (clamp own (s.deadlineOf parent)))) : Kept u := by
  have hgrows := hu.grows h.shape
  have hr := h.reach
  refine ⟨h.shape.make hup hu, fun k hk => ?_, fun k hk => ?_, fun k m hlive hm hat => ?_, fun k hk hopen => ?_,
    fun k hook hhook => ?_, ?_, fun k hk => ?_, fun k m hm hor => ?_⟩
  all_goals try by_cases hkn : k = s.count
  · subst hkn
    rw [hu.self] at hk
    cases hk
  · rw [hu.other k hkn] at hk ⊢
    exact hr.fired k hk
  · subst hkn
    rw [hu.self] at hk
    cases hk
  · rw [hu.other k hkn] at hk ⊢
    exact (hr.collecting k hk).imp_right hu.running
  · subst hkn
    rw [hu.self] at hat
    cases hat
  · rw [hu.other k hkn] at hlive hm hat
    rw [Covered, hu.other k hkn, hu.other m (h.shape.parent_ne hm)]
    exact (hr.covered k m hlive hm hat).imp_right (Or.imp hu.running (And.imp_right (Or.imp_right hu.running)))
  · subst hkn
    rw [hu.self] at hk
    cases hk
  · rw [hu.other k hkn] at hk hopen
    exact hu.running (hr.closing k hk hopen)
  · subst hkn
    rw [hu.self] at hhook
    cases hhook
  · rw [hu.other k hkn] at hhook
    exact hgrows.links (hr.hooks k hook hhook)
  · rw [hu.tasks]
    refine hgrows.frames_spawn hr.frames fun x hx => ?_
    rw [mem_singleton.mp hx]
    show s.count < u.count
    rw [hu.count]
    exact lt_succ_self _
  · subst hkn
    rw [hu.self] at hk
    cases hk
  · rw [hu.other k hkn] at hk
    exact hgrows.caused (hr.caused k hk)
  · subst hkn
    rw [hu.self] at hm
    rw [hu.other m (h.shape.usable_ne (hup m hm))]
    exact (Bool.and_eq_true_iff.mp (hup m hm)).1
  · rw [hu.other k hkn] at hm hor
    rw [hu.other m (h.shape.parent_ne hm)]
    exact hr.alive k m hm hor

/-! ### Destruction -/

lemma Kept.unneeded (h : Kept s) (hunowned : s.unowned n) {k : Nat} (hup : (s.scopes k).parent = some n) :
    (s.scopes k).placed ∧ (s.scopes k).linked = false := by
  obtain ⟨hframes, hchildren⟩ := Bool.and_eq_true_iff.mp hunowned
  have hk : k < s.count := h.shape.lt_count fun habs => by rw [habs] at hup; cases hup
  refine ⟨?_, ?_⟩
  · by_contra hat
    have hstage : (s.scopes k).stage ≠ .ready := by
      intro hready
      rw [placed, hready] at hat
      exact hat rfl
    obtain ⟨task, htask, hpos⟩ := exists_of_weight_pos (h.shape.building k hk hstage)
    obtain ⟨x, hx, hbuild⟩ := exists_of_weight_pos hpos
    have hfree := all_eq_true.mp (all_eq_true.mp hframes task htask) x hx
    cases x with
    | build c =>
      rw [builds] at hbuild
      split at hbuild
      · rename_i hck
        subst hck
        simp [holds, hup] at hfree
      · cases hbuild
    | exchange | collect | fire | unlink => cases hbuild
  · have hfree := all_eq_true.mp hchildren k (mem_range.mpr hk)
    simpa [hup] using hfree

lemma Kept.destroy (h : Kept s) (huse : s.usable n) (hunowned : s.unowned n) :
    Kept ((s.modify n fun x => { x with live := false }).spawn (if (s.scopes n).linked then [.unlink n] else [])) := by
  have hn := h.shape.lt_of_live (Bool.and_eq_true_iff.mp huse).1
  have hshape : Shape (s.modify n fun x => { x with live := false }) :=
    h.shape.touch hn ⟨id, rfl, rfl, rfl, rfl⟩
  have hreach : Reach (s.modify n fun x => { x with live := false }) :=
    h.reach.alike ⟨rfl, rfl, rfl, rfl, id, id, nofun, nofun, id⟩ rfl rfl
      (.inr fun k hk => h.unneeded hunowned hk)
  refine ⟨hshape.spawn _, hreach.spawn fun x hx => ?_⟩
  split at hx
  · rw [mem_singleton.mp hx]
    exact ⟨hn, by rw [modify_self]⟩
  · cases hx

lemma Kept.unlink (h : Kept s) (hi : s.tasks[i]? = some (.unlink n :: rest)) :
    Kept { s.unlink n with tasks := s.tasks.set i ([] ++ rest) } := by
  obtain ⟨hn, hdead⟩ : n < s.count ∧ (s.scopes n).live = false := h.reach.sound hi
  have hset : ∀ {v : State}, Kept v → v.tasks = s.tasks → Kept { v with tasks := s.tasks.set i ([] ++ rest) } := by
    intro v hv htasks
    rw [← htasks] at hi ⊢
    exact ⟨hv.shape.set hi fun _ _ => zero_le _, hv.reach.set hi nofun⟩
  rw [State.unlink]
  split
  · exact hset h rfl
  · rename_i m hup
    have hlt := h.shape.ordered n m hup
    have hne : n ≠ m := ne_of_gt hlt
    have hhooks : Kept (s.modify m fun x => { x with hooks := x.hooks.erase (.link n) }) := by
      refine ⟨h.shape.touch (hlt.trans hn) ⟨id, rfl, rfl, rfl, rfl⟩,
        h.reach.modify ⟨rfl, rfl, rfl, rfl, id, id, id, fun _ => id, id⟩ (fun hook hhook => ?_)
          (fun k hlive hhook => ?_) (fun hfired => ?_) (fun _ hopen => hopen) (.inl rfl)⟩
      · exact .inl (mem_of_mem_erase hhook)
      · refine (mem_erase_of_ne fun heq => ?_).mpr hhook
        cases heq
        rw [hdead] at hlive
        cases hlive
      · rw [(h.reach.fired m hfired).2]
        rfl
    refine hset ⟨hhooks.shape.touch hn ⟨id, rfl, rfl, rfl, rfl⟩,
      hhooks.reach.alike ⟨rfl, rfl, rfl, rfl, id, id, id, fun hlive => ?_, nofun⟩ rfl rfl
        (.inl rfl)⟩ rfl
    have hlive : ((s.modify m _).scopes n).live = true := hlive
    rw [modify_ne hne, hdead] at hlive
    cases hlive

/-! ### Cancellation -/

lemma Kept.exchange (h : Kept s) (hi : s.tasks[i]? = some (.exchange n cause :: rest)) : Kept
      { (s.frameStep (.exchange n cause)).1 with
        tasks := s.tasks.set i ((s.frameStep (.exchange n cause)).2 ++ rest) } := by
  have hn := h.shape.lt_of_caused (h.reach.sound hi).1
  rw [frameStep]
  split
  · rename_i hcut
    refine ⟨h.shape.set hi fun _ _ => zero_le _, h.reach.set hi nofun fun k hk => ?_⟩
    -- who is told to cancel a cancelled scope owes nothing
    have hne : n ≠ k := by
      rintro rfl
      rw [hcut] at hk
      cases hk
    rw [exchanges, if_neg hne]
    exact zero_le _
  · rename_i hopen
    have hshape : Shape (s.modify n fun x => { x with cancelled := true, cause := some cause }) :=
      h.shape.touch hn ⟨id, rfl, rfl, rfl, rfl⟩
    exact ⟨hshape.set hi fun _ _ => zero_le _, h.reach.exchange hi (Bool.eq_false_iff.mpr hopen) (moves_modify _ _)⟩

lemma Kept.collect (h : Kept s) (hi : s.tasks[i]? = some (.collect n cause :: rest)) : Kept
      { (s.frameStep (.collect n cause)).1 with
        tasks := s.tasks.set i ((s.frameStep (.collect n cause)).2 ++ rest) } := by
  have hshape : Shape (s.modify n fun x => { x with fired := true, hooks := [] }) :=
    h.shape.touch (h.shape.lt_of_cancelled (h.reach.sound hi)) ⟨id, rfl, rfl, rfl, rfl⟩
  exact ⟨hshape.set hi fun _ _ => zero_le _, h.reach.collect hi (moves_modify _ _)⟩

lemma Kept.fire (h : Kept s) {hook : Hook} {todo : List Hook} {close : Bool}
    (hi : s.tasks[i]? = some (.fire n cause (hook :: todo) close :: rest)) (hq : ∀ x ∈ q, x.Sound s)
    (hhook : ∀ k, (s.scopes k).live → hook = .link k → 0 < weight (exchanges k) q) :
    Kept { s with tasks := s.tasks.set i ((q ++ [.fire n cause todo close]) ++ rest) } := by
  obtain ⟨hfired, hlinks⟩ := h.reach.sound hi
  refine ⟨h.shape.set hi fun _ _ => zero_le _,
    h.reach.set hi (fun x hx => ?_) (fun _ _ => zero_le _) (fun m k hlive => ?_) fun k _ => ?_⟩
  · rcases mem_append.mp hx with hx | hx
    · exact hq x hx
    · rw [mem_singleton.mp hx]
      exact ⟨hfired, fun k hk => hlinks k (mem_cons_of_mem _ hk)⟩
  · rw [weight_append, weight_append]
    by_cases heq : hook = .link k
    · exact .inr (lt_of_lt_of_le (hhook k hlive heq) (le_add_right _ _))
    · refine .inl (le_trans (le_of_eq ?_) (le_add_left _ _))
      simp [Ne.symm heq]
  · rw [weight_append]
    exact le_add_left _ _

lemma Kept.close (h : Kept s) {close : Bool} (hi : s.tasks[i]? = some (.fire n cause [] close :: rest)) : Kept
      { (s.frameStep (.fire n cause [] close)).1 with
        tasks := s.tasks.set i ((s.frameStep (.fire n cause [] close)).2 ++ rest) } := by
  obtain ⟨hfired, -⟩ := h.reach.sound hi
  have hn := h.shape.lt_of_cancelled (h.reach.fired n hfired).1
  rw [frameStep]
  cases close with
  | false =>
    refine ⟨h.shape.set hi fun _ _ => zero_le _,
      h.reach.set hi nofun (fun _ _ => zero_le _) (fun m k _ => .inl ?_) fun k _ => ?_⟩
    · simp
    · simp
  | true =>
    have hshut : Kept (s.modify n fun x => { x with done := .closed }) :=
      ⟨h.shape.touch hn ⟨id, rfl, rfl, rfl, rfl⟩,
        h.reach.modify ⟨rfl, rfl, rfl, rfl, id, id, id, fun _ => id, id⟩ (fun _ => .inl) (fun _ _ => id)
          (fun hfired => (h.reach.fired n hfired).2) nofun (.inl rfl)⟩
    refine ⟨hshut.shape.set hi fun _ _ => zero_le _,
      hshut.reach.set hi nofun (fun _ _ => zero_le _) (fun m k _ => .inl ?_) fun k hopen => ?_⟩
    · simp
    · have hne : n ≠ k := by
        rintro rfl
        rw [modify_self] at hopen
        cases hopen
      simp [hne]

lemma Kept.frameStep (h : Kept s) (hi : s.tasks[i]? = some (f :: rest)) :
    Kept { (s.frameStep f).1 with tasks := s.tasks.set i ((s.frameStep f).2 ++ rest) } := by
  cases f with
  | exchange => exact h.exchange hi
  | collect => exact h.collect hi
  | build => exact h.build hi
  | unlink => exact h.unlink hi
  | fire n cause todo close =>
    rcases todo with _ | ⟨hook, todo⟩
    · exact h.close hi
    · obtain ⟨hfired, hlinks⟩ := h.reach.sound hi
      have hhook := hlinks hook mem_cons_self
      cases hook with
      | user k =>
        have hfire := h.fire (q := []) hi nofun nofun
        exact ⟨{ hfire.shape with }, { hfire.reach with }⟩
      | link child =>
        rw [frameStep]
        split
        · refine h.fire (q := [.exchange child cause]) hi (fun x hx => ?_) fun k _ hlink => ?_
          · rw [mem_singleton.mp hx]
            exact ⟨.inr ⟨n, hhook.1, (h.reach.fired n hfired).1⟩, hhook.2⟩
          · cases hlink
            simp
        · rename_i hdead
          refine h.fire (q := []) hi nofun fun k hlive hlink => ?_
          cases hlink
          exact absurd hlive hdead

end Cio.CancelTree
