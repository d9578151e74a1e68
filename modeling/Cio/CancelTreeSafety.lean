import Cio.CancelTreeSteps

/-! Cancellation in every run of the tree: it reaches every live descendant, has a cause, runs each hook once and closes
the done channel, and the deadline of a scope is the least of its chain. -/

namespace Cio.CancelTree

open CallPool Transition Function State List Scope

variable {s u : State} {i n m k : Nat} {f : Frame} {rest q : List Frame} {g : Frame → Nat}

/-! ### Every run -/

lemma Kept.ask (h : Kept s) (hn : n < s.count) (hsettled : (s.scopes n).settled) {b : Bool}
    (htimer : b → (s.scopes n).timer) (cause : Cause) :
    Kept ((s.modify n fun x => { x with asked := true, timer := b }).spawn [.exchange n cause]) := by
  have hreach : Reach (s.modify n fun x => { x with asked := true, timer := b }) :=
    h.reach.alike ⟨rfl, rfl, rfl, rfl, fun _ => rfl, id, id, fun _ => id, id⟩ rfl rfl (.inl rfl)
  refine ⟨(h.shape.touch hn ⟨htimer, rfl, rfl, rfl, rfl⟩).spawn _, hreach.spawn fun x hx => ?_⟩
  rw [mem_singleton.mp hx]
  refine ⟨.inl ?_, ?_⟩
  · rw [modify_self]
  · rw [modify_self]
    exact hsettled

lemma Kept.userHooks (h : Kept s) (huse : s.usable n) {l : List Hook}
    (hnew : ∀ c, .link c ∈ l ↔ .link c ∈ (s.scopes n).hooks) (hempty : (s.scopes n).fired → l = []) :
    Kept (s.modify n fun x => { x with hooks := l }) := by
  have hn := h.shape.lt_of_live (Bool.and_eq_true_iff.mp huse).1
  refine ⟨h.shape.touch hn ⟨id, rfl, rfl, rfl, rfl⟩,
    h.reach.modify ⟨rfl, rfl, rfl, rfl, id, id, id, fun _ => id, id⟩ (fun hook hhook => ?_)
      (fun c _ hlink => (hnew c).mpr hlink) hempty (fun _ => id) (.inl rfl)⟩
  cases hook with
  | link c => exact .inl ((hnew c).mp hhook)
  | user => exact .inr trivial

lemma Kept.doneChannel (h : Kept s) (huse : s.usable n) :
    Kept (s.modify n fun x => { x with done := if x.fired then .closed else .open }) := by
  have hn := h.shape.lt_of_live (Bool.and_eq_true_iff.mp huse).1
  refine ⟨h.shape.touch hn ⟨id, rfl, rfl, rfl, rfl⟩,
    h.reach.modify ⟨rfl, rfl, rfl, rfl, id, id, id, fun _ => id, id⟩ (fun _ => .inl) (fun _ _ => id)
      (fun hfired => (h.reach.fired n hfired).2) (fun hfired hopen => ?_) (.inl rfl)⟩
  rw [if_pos hfired] at hopen
  cases hopen

lemma kept_step {a : Act} (h : Kept s) (hu : s.step a = some u) : Kept u := by
  cases a with
  | make parent =>
    obtain ⟨hup, rfl⟩ := of_guard hu
    have huse : ∀ m, parent = some m → s.usable m = true := by
      rintro m rfl
      exact hup
    exact h.make huse ⟨update_self .., fun k hk => update_of_ne hk .., rfl, rfl⟩
  | cancel =>
    obtain ⟨hguard, rfl⟩ := of_guard hu
    exact h.ask (h.shape.lt_of_live (Bool.and_eq_true_iff.mp hguard).1) (settled_of_usable hguard) id _
  | expire =>
    obtain ⟨hguard, rfl⟩ := of_guard hu
    have hsettled := (h.shape.timed _ (by rw [timed, hguard.1]; rfl)).1
    exact h.ask (h.shape.lt_of_live hguard.2.1) hsettled (fun hfalse => by cases hfalse) _
  | addHook n =>
    obtain ⟨huse, hu⟩ := Option.ite_none_right_eq_some.mp hu
    split at hu <;> cases hu
    · exact ⟨{ h.shape with }, { h.reach with }⟩
    · rename_i hfired
      have hadd := h.userHooks huse (l := (s.scopes n).hooks ++ [.user s.nextHook]) (fun c => by simp)
        fun htrue => absurd htrue hfired
      exact ⟨{ hadd.shape with }, { hadd.reach with }⟩
  | removeHook n k =>
    obtain ⟨⟨huse, -⟩, rfl⟩ := of_guard hu
    have hremove := h.userHooks huse (l := (s.scopes n).hooks.erase (.user k))
      (fun c => mem_erase_of_ne Hook.noConfusion) fun hfired => by rw [(h.reach.fired n hfired).2]; rfl
    exact ⟨{ hremove.shape with }, { hremove.reach with }⟩
  | doneChannel =>
    obtain ⟨huse, hu⟩ := Option.ite_none_right_eq_some.mp hu
    split at hu <;> cases hu
    · exact h.doneChannel huse
    · exact h
  | destroy =>
    obtain ⟨hguard, rfl⟩ := of_guard hu
    exact h.destroy hguard.1 hguard.2
  | step i =>
    rw [step] at hu
    split at hu
    · rename_i f rest hi
      cases hu
      exact h.frameStep hi
    · cases hu
  | tick =>
    cases hu
    exact ⟨{ h.shape with }, { h.reach with }⟩

lemma kept_start (now : Int) : Kept (.start now) where
  shape :=
    { absent := fun _ _ => rfl
      ordered := nofun
      clamped := fun _ => rfl
      unset := fun _ _ => rfl
      parents := nofun
      timed := nofun
      building := fun _ hn => absurd hn (Nat.not_lt_zero _) }
  reach :=
    { fired := nofun
      collecting := nofun
      covered := nofun
      closing := nofun
      hooks := nofun
      frames := nofun
      caused := nofun
      alive := nofun }

/-! ### The users' hooks -/

/-- How often the frame will run the hook `k` of the scope `n`. -/
def Frame.runs (n k : Nat) : Frame → Nat
  | .fire m _ todo _ => if m = n then todo.count (.user k) else 0
  | _ => 0

/-- Every accepted hook is in one place: registered, about to run, run, or erased. -/
structure Ledger (s : State) : Prop where
  balance : ∀ n k, (s.scopes n).hooks.count (.user k) + s.running (Frame.runs n k) + s.ran.count (n, k) +
    s.erased.count (n, k) = s.accepted.count (n, k)
  unique : ∀ p, s.accepted.count p + s.refused.count p ≤ 1
  fresh : ∀ n k, s.nextHook ≤ k → s.accepted.count (n, k) + s.refused.count (n, k) = 0
  fired : ∀ p ∈ s.ran, (s.scopes p.1).fired = true
  early : ∀ p ∈ s.early, p ∈ s.erased

structure SameLog (s u : State) : Prop where
  nextHook : u.nextHook = s.nextHook
  accepted : u.accepted = s.accepted
  refused : u.refused = s.refused
  erased : u.erased = s.erased
  early : u.early = s.early
  ran : u.ran = s.ran

lemma Ledger.of_log (h : Ledger s) (hlog : SameLog s u)
    (hsum : ∀ n k, (u.scopes n).hooks.count (.user k) + u.running (Frame.runs n k) =
      (s.scopes n).hooks.count (.user k) + s.running (Frame.runs n k))
    (hfired : ∀ n, (s.scopes n).fired → (u.scopes n).fired) : Ledger u where
  balance n k := by
    rw [hsum, hlog.ran, hlog.erased, hlog.accepted]
    exact h.balance n k
  unique p := by
    rw [hlog.accepted, hlog.refused]
    exact h.unique p
  fresh n k hk := by
    rw [hlog.accepted, hlog.refused]
    exact h.fresh n k (hlog.nextHook ▸ hk)
  fired p hp := hfired p.1 (h.fired p (hlog.ran ▸ hp))
  early p hp := by
    rw [hlog.erased]
    exact h.early p (hlog.early ▸ hp)

lemma Ledger.same (h : Ledger s) (hlog : SameLog s u)
    (hhooks : ∀ n k, (u.scopes n).hooks.count (.user k) = (s.scopes n).hooks.count (.user k))
    (hruns : ∀ n k, u.running (Frame.runs n k) = s.running (Frame.runs n k))
    (hfired : ∀ n, (s.scopes n).fired → (u.scopes n).fired) : Ledger u :=
  h.of_log hlog (fun n k => by rw [hhooks, hruns]) hfired

lemma running_same (hi : s.tasks[i]? = some (f :: rest)) (hg : g f = weight g q) :
    weight (weight g) (s.tasks.set i (q ++ rest)) = s.running g := by
  have hset := running_set (q := q) hi g
  omega

lemma running_spawn_same {task : List Frame} (hg : weight g task = 0) : (s.spawn task).running g = s.running g := by
  show weight (weight g) (s.tasks ++ [task]) = _
  rw [weight_concat, hg]
  rfl

lemma count_modify {h : Scope → Scope}
    (hcount : (h (s.scopes n)).hooks.count (.user k) = (s.scopes n).hooks.count (.user k)) (j : Nat) :
    ((s.modify n h).scopes j).hooks.count (.user k) = (s.scopes j).hooks.count (.user k) :=
  modify_forall (R := fun _ a b => b.hooks.count (.user k) = a.hooks.count (.user k)) (fun _ _ => rfl) hcount j

structure Unrelated (s : State) (r : State × List Frame) : Prop where
  log : SameLog s r.1
  hooks : ∀ n k, (r.1.scopes n).hooks.count (.user k) = (s.scopes n).hooks.count (.user k)
  runs : ∀ n k, weight (Frame.runs n k) r.2 = 0
  fired : ∀ n, (s.scopes n).fired = true → (r.1.scopes n).fired = true

lemma unrelated_refl : Unrelated s (s, []) :=
  ⟨⟨rfl, rfl, rfl, rfl, rfl, rfl⟩, fun _ _ => rfl, fun _ _ => rfl, fun _ => id⟩

lemma unrelated_modify {h : Scope → Scope} (hcount : ∀ k, (h (s.scopes n)).hooks.count (.user k) =
      (s.scopes n).hooks.count (.user k)) (hfired : (s.scopes n).fired → (h (s.scopes n)).fired)
    (hq : ∀ n k, weight (Frame.runs n k) q = 0) : Unrelated s (s.modify n h, q) where
  log := ⟨rfl, rfl, rfl, rfl, rfl, rfl⟩
  hooks j k := count_modify (hcount k) j
  runs := hq
  fired := modify_forall (R := fun _ a b => a.fired → b.fired) (fun _ _ => id) hfired

lemma unrelated_trans {v : State} (h : Unrelated s (u, [])) (h' : Unrelated u (v, q)) : Unrelated s (v, q) where
  log := ⟨h'.log.nextHook.trans h.log.nextHook, h'.log.accepted.trans h.log.accepted,
    h'.log.refused.trans h.log.refused, h'.log.erased.trans h.log.erased,
    h'.log.early.trans h.log.early, h'.log.ran.trans h.log.ran⟩
  hooks n k := (h'.hooks n k).trans (h.hooks n k)
  runs := h'.runs
  fired n hn := h'.fired n (h.fired n hn)

lemma unrelated_build (n : Nat) : Unrelated s (s.build n) := by
  have hsame : ∀ (t : Scope → Scope) {q : List Frame}, (t (s.scopes n)).hooks = (s.scopes n).hooks →
      (t (s.scopes n)).fired = (s.scopes n).fired → (∀ n k, weight (Frame.runs n k) q = 0) →
        Unrelated s (s.modify n t, q) := fun t q hhooks hfired hq =>
    unrelated_modify (fun k => by rw [hhooks]) (fun hn => hfired.trans hn) hq
  rw [build]
  split
  · split
    all_goals exact hsame _ rfl rfl fun _ _ => rfl
  · exact hsame _ rfl rfl fun _ _ => rfl
  · rw [linkToParent]
    split
    · exact hsame _ rfl rfl fun _ _ => rfl
    · split
      · exact hsame _ rfl rfl fun _ _ => rfl
      · refine unrelated_trans (unrelated_modify (fun k => ?_) id fun _ _ => rfl)
          (unrelated_modify (fun k => rfl) id fun _ _ => rfl)
        simp [count_append]
  · exact hsame _ rfl rfl fun _ _ => rfl
  · exact unrelated_refl

lemma unrelated_unlink (n : Nat) : Unrelated s (s.unlink n, []) := by
  rw [unlink]
  split
  · exact unrelated_refl
  · refine unrelated_trans (unrelated_modify (fun k => ?_) id fun _ _ => rfl)
      (unrelated_modify (fun k => rfl) id fun _ _ => rfl)
    exact count_erase_of_ne Hook.noConfusion

section

variable (h : Ledger s)

include h

lemma Ledger.unrelated (hi : s.tasks[i]? = some (f :: rest)) {r : State × List Frame} (hr : Unrelated s r)
    (hf : ∀ n k, f.runs n k = 0) : Ledger { r.1 with tasks := s.tasks.set i (r.2 ++ rest) } :=
  h.same { hr.log with } hr.hooks
    (fun n k => running_same hi ((hf n k).trans (hr.runs n k).symm)) hr.fired

lemma Ledger.collect {cause : Cause} (hi : s.tasks[i]? = some (.collect n cause :: rest))
    (hu : Moves s u n { s.scopes n with fired := true, hooks := [] }
      (s.tasks.set i ([.fire n cause (s.scopes n).hooks ((s.scopes n).done != .absent)] ++ rest)))
    (hlog : SameLog s u) : Ledger u := by
  refine h.of_log hlog (fun j k => ?_) (hu.forall (R := fun a b => a.fired → b.fired) (fun _ => id) (fun _ => rfl))
  have hset := running_set (q := [.fire n cause (s.scopes n).hooks ((s.scopes n).done != .absent)]) hi (Frame.runs j k)
  rw [running, hu.tasks]
  by_cases hj : j = n
  · subst hj
    rw [hu.self]
    simp only [Frame.runs, weight, if_true, Nat.add_zero] at hset
    rw [count_nil]
    omega
  · rw [hu.other j hj]
    simp only [Frame.runs, weight, if_neg (Ne.symm hj), Nat.add_zero] at hset
    omega

lemma Ledger.run {cause : Cause} {todo : List Hook} {close : Bool}
    (hi : s.tasks[i]? = some (.fire n cause (.user k :: todo) close :: rest)) (hfired : (s.scopes n).fired) :
    Ledger { s with ran := s.ran ++ [(n, k)], tasks := s.tasks.set i ([.fire n cause todo close] ++ rest) } :=
  { h with
    balance := fun j l => by
      have hset := running_set (q := [.fire n cause todo close]) hi (Frame.runs j l)
      have hbal := h.balance j l
      show (s.scopes j).hooks.count (.user l) + weight (weight (Frame.runs j l)) (s.tasks.set i _) +
        (s.ran ++ [(n, k)]).count (j, l) + s.erased.count (j, l) = s.accepted.count (j, l)
      simp only [Frame.runs, weight, Nat.add_zero] at hset
      rw [count_append, count_singleton]
      by_cases hj : n = j
      · subst hj
        rw [if_pos rfl, if_pos rfl, count_cons] at hset
        simp only [beq_iff_eq, Hook.user.injEq, Prod.mk.injEq, true_and] at hset ⊢
        omega
      · rw [if_neg hj, if_neg hj] at hset
        rw [if_neg (by simp [hj])]
        omega
    fired := forall_append h.fired hfired }

lemma Ledger.frameStep (hk : Kept s) (hi : s.tasks[i]? = some (f :: rest)) :
    Ledger { (s.frameStep f).1 with tasks := s.tasks.set i ((s.frameStep f).2 ++ rest) } := by
  cases f with
  | exchange =>
    refine h.unrelated hi ?_ fun _ _ => rfl
    rw [frameStep]
    split
    · exact unrelated_refl
    · exact unrelated_modify (fun k => rfl) id fun _ _ => rfl
  | collect => exact h.collect hi (moves_modify _ _) ⟨rfl, rfl, rfl, rfl, rfl, rfl⟩
  | build n => exact h.unrelated hi (unrelated_build n) fun _ _ => rfl
  | unlink n => exact h.unrelated hi (unrelated_unlink n) fun _ _ => rfl
  | fire n cause todo close =>
    rcases todo with _ | ⟨hook, todo⟩
    · refine h.unrelated hi ?_ fun j k => ?_
      · rw [frameStep]
        cases close with
        | false => exact unrelated_refl
        | true =>
          rw [if_pos rfl]
          exact unrelated_modify (fun k => rfl) id fun _ _ => rfl
      · simp [Frame.runs]
    · cases hook with
      | user => exact h.run hi (hk.reach.sound hi).1
      | link =>
        rw [frameStep]
        refine h.same ⟨rfl, rfl, rfl, rfl, rfl, rfl⟩ (fun _ _ => rfl) (fun j k => running_same hi ?_) fun _ => id
        split <;> simp [weight, Frame.runs]

lemma Ledger.spawn {t : Scope → Scope} (hhooks : (t (s.scopes n)).hooks = (s.scopes n).hooks)
    (hfired : (t (s.scopes n)).fired = (s.scopes n).fired) {task : List Frame}
    (htask : ∀ n k, weight (Frame.runs n k) task = 0) : Ledger ((s.modify n t).spawn task) :=
  h.same ⟨rfl, rfl, rfl, rfl, rfl, rfl⟩ (fun j _ => count_modify (congrArg (count _) hhooks) j)
    (fun j l => running_spawn_same (htask j l))
    (modify_forall (R := fun _ a b => a.fired → b.fired) (fun _ _ => id) hfired.trans)

lemma Ledger.make (hs : Shape s) (x : Scope) (hhooks : x.hooks = []) : Ledger { s with
        scopes := update s.scopes s.count x
        count := s.count + 1
        tasks := s.tasks ++ [[.build s.count]] } := by
  have habs := hs.absent s.count le_rfl
  refine h.same ⟨rfl, rfl, rfl, rfl, rfl, rfl⟩ (fun j k => ?_) (fun j k => running_spawn_same rfl) fun j hj => ?_
  · by_cases hjc : j = s.count
    · rw [hjc, habs]
      show ((update s.scopes s.count x) s.count).hooks.count _ = 0
      rw [update_self, hhooks]
      rfl
    · exact congrArg (fun y : Scope => y.hooks.count _) (update_of_ne hjc ..)
  · by_cases hjc : j = s.count
    · rw [hjc, habs] at hj
      cases hj
    · exact (congrArg Scope.fired (update_of_ne hjc ..)).trans hj

end

lemma count_concat (l : List (Nat × Nat)) (p r : Nat × Nat) :
    (l ++ [p]).count r = l.count r + if p = r then 1 else 0 := by
  rw [count_append, count_singleton]
  congr 1
  by_cases hp : p = r <;> simp [hp]

section

variable (h : Ledger s)

include h

lemma Ledger.unique_concat (n : Nat) (p : Nat × Nat) :
    s.accepted.count p + s.refused.count p + (if (n, s.nextHook) = p then 1 else 0) ≤ 1 := by
  split
  · rename_i hp
    exact (congrArg (· + 1) (hp ▸ h.fresh n s.nextHook le_rfl)).le
  · exact h.unique p

lemma Ledger.fresh_concat (n j : Nat) (hk : s.nextHook + 1 ≤ k) :
    s.accepted.count (j, k) + s.refused.count (j, k) + (if (n, s.nextHook) = (j, k) then 1 else 0) = 0 := by
  rw [if_neg fun hp => by rw [Prod.mk.injEq] at hp; omega]
  exact h.fresh j k (Nat.le_of_succ_le hk)

lemma Ledger.refuse (n : Nat) :
    Ledger { s with nextHook := s.nextHook + 1, refused := s.refused ++ [(n, s.nextHook)] } :=
  { h with
    unique := fun p => by
      rw [count_concat, ← Nat.add_assoc]
      exact h.unique_concat n p
    fresh := fun j k hk => by
      rw [count_concat, ← Nat.add_assoc]
      exact h.fresh_concat n j hk }

lemma Ledger.accept (n : Nat) : Ledger { s.modify n fun x => { x with hooks := x.hooks ++ [.user s.nextHook] } with
        nextHook := s.nextHook + 1, accepted := s.accepted ++ [(n, s.nextHook)] } where
  balance j k := by
    have hbal := h.balance j k
    show ((s.modify n fun x => { x with hooks := x.hooks ++ [.user s.nextHook] }).scopes j).hooks.count (.user k) +
      s.running (Frame.runs j k) + s.ran.count (j, k) + s.erased.count (j, k) =
        (s.accepted ++ [(n, s.nextHook)]).count (j, k)
    rw [count_concat]
    by_cases hj : n = j
    · subst hj
      rw [modify_self, count_append, count_singleton]
      simp only [beq_iff_eq, Hook.user.injEq, Prod.mk.injEq, true_and]
      omega
    · rw [modify_ne (Ne.symm hj), if_neg fun hp => hj (Prod.mk.inj hp).1]
      exact hbal
  unique p := by
    rw [count_concat, Nat.add_right_comm]
    exact h.unique_concat n p
  fresh j k hk := by
    rw [count_concat, Nat.add_right_comm]
    exact h.fresh_concat n j hk
  fired p hp := modify_forall (s := s) (R := fun _ a b => a.fired → b.fired) (fun _ _ => id)
    (h := fun x => { x with hooks := x.hooks ++ [.user s.nextHook] }) id p.1 (h.fired p hp)
  early := h.early

lemma Ledger.erased_of_unfired (hk : Kept s) (hfired : (s.scopes n).fired = false)
    (haccepted : (n, k) ∈ s.accepted) (hhooks : .user k ∉ (s.scopes n).hooks) : (n, k) ∈ s.erased := by
  have hbal := h.balance n k
  have hruns : s.running (Frame.runs n k) = 0 := by
    refine weight_eq_zero fun task htask => weight_eq_zero fun x hx => ?_
    have hsound := hk.reach.frames task htask x hx
    cases x with
    | fire =>
      refine if_neg ?_
      rintro rfl
      rw [hsound.1] at hfired
      cases hfired
    | exchange | collect | build | unlink => rfl
  have hran : s.ran.count (n, k) = 0 := by
    refine count_eq_zero.mpr fun hmem => ?_
    have htrue := h.fired (n, k) hmem
    rw [hfired] at htrue
    cases htrue
  have hpos := count_pos_iff.mpr haccepted
  rw [count_eq_zero.mpr hhooks, hruns, hran] at hbal
  exact count_pos_iff.mp (by omega)

lemma Ledger.remove (hk : Kept s) (haccepted : (n, k) ∈ s.accepted) : Ledger
      { s.modify n fun x => { x with hooks := x.hooks.erase (.user k) } with
        erased := if .user k ∈ (s.scopes n).hooks then s.erased ++ [(n, k)] else s.erased
        early := if (s.scopes n).cancelled then s.early else s.early ++ [(n, k)] } where
  balance j l := by
    have hbal := h.balance j l
    show ((s.modify n fun x => { x with hooks := x.hooks.erase (.user k) }).scopes j).hooks.count (.user l) +
      s.running (Frame.runs j l) + s.ran.count (j, l) +
      (if .user k ∈ (s.scopes n).hooks then s.erased ++ [(n, k)] else s.erased).count (j, l) = s.accepted.count (j, l)
    by_cases hj : n = j
    · subst hj
      rw [modify_self, count_erase]
      simp only [beq_iff_eq, Hook.user.injEq]
      by_cases hmem : .user k ∈ (s.scopes n).hooks
      · have hpos := count_pos_iff.mpr hmem
        rw [if_pos hmem, count_concat]
        simp only [Prod.mk.injEq, true_and]
        by_cases hkl : k = l
        · subst hkl
          simp only [if_true]
          omega
        · simp only [if_neg hkl]
          omega
      · have hzero := count_eq_zero.mpr hmem
        rw [if_neg hmem]
        by_cases hkl : k = l
        · subst hkl
          rw [if_pos rfl]
          omega
        · rw [if_neg hkl]
          omega
    · rw [modify_ne (Ne.symm hj)]
      split
      · rw [count_concat, if_neg fun hp => hj (Prod.mk.inj hp).1]
        exact hbal
      · exact hbal
  unique := h.unique
  fresh := h.fresh
  fired p hp := modify_forall (s := s) (R := fun _ a b => a.fired → b.fired) (fun _ _ => id)
    (h := fun x => { x with hooks := x.hooks.erase (.user k) }) id p.1 (h.fired p hp)
  early p hp := by
    have hold : ∀ r ∈ s.erased, r ∈ (if .user k ∈ (s.scopes n).hooks then s.erased ++ [(n, k)] else s.erased) := by
      intro r hr
      split
      · exact mem_append_left _ hr
      · exact hr
    have hp : p ∈ (if (s.scopes n).cancelled then s.early else s.early ++ [(n, k)]) := hp
    split at hp
    · exact hold p (h.early p hp)
    · rename_i hopen
      rcases mem_append.mp hp with hp | hp
      · exact hold p (h.early p hp)
      · rw [mem_singleton.mp hp]
        by_cases hmem : .user k ∈ (s.scopes n).hooks
        · rw [if_pos hmem]
          exact mem_append_right _ mem_cons_self
        · refine hold _ (h.erased_of_unfired hk ?_ haccepted hmem)
          exact Bool.eq_false_iff.mpr fun hfired => hopen (hk.reach.fired n hfired).1

end

lemma ledger_step {a : Act} (hk : Kept s) (h : Ledger s) (hu : s.step a = some u) : Ledger u := by
  cases a with
  | make =>
    obtain ⟨-, rfl⟩ := of_guard hu
    exact h.make hk.shape _ rfl
  | cancel | expire =>
    obtain ⟨-, rfl⟩ := of_guard hu
    exact h.spawn rfl rfl fun _ _ => rfl
  | addHook n =>
    obtain ⟨-, hu⟩ := Option.ite_none_right_eq_some.mp hu
    split at hu <;> cases hu
    · exact h.refuse n
    · exact h.accept n
  | removeHook =>
    obtain ⟨hguard, rfl⟩ := of_guard hu
    exact h.remove hk hguard.2
  | doneChannel =>
    obtain ⟨-, hu⟩ := Option.ite_none_right_eq_some.mp hu
    split at hu <;> cases hu
    · exact h.same ⟨rfl, rfl, rfl, rfl, rfl, rfl⟩ (fun j k => count_modify rfl j) (fun _ _ => rfl)
        (modify_forall (R := fun _ a b => a.fired → b.fired) (fun _ _ => id) id)
    · exact h
  | destroy =>
    obtain ⟨-, rfl⟩ := of_guard hu
    exact h.spawn rfl rfl fun j k => by split <;> rfl
  | step i =>
    rw [step] at hu
    split at hu
    · rename_i f rest hi
      cases hu
      exact h.frameStep hk hi
    · cases hu
  | tick =>
    cases hu
    exact { h with }

/-! ### Calls of `cancel` -/

/-- A scope that somebody asked to cancel is cancelled, or a call is about to do it. -/
def Answered (s : State) : Prop :=
  ∀ n, (s.scopes n).asked = true → (s.scopes n).cancelled = true ∨ 0 < s.running (Frame.exchanges n)

/-- Nobody is asked, and no cancellation is taken back. -/
def Unasked (s u : State) : Prop :=
  ∀ k, (u.scopes k).asked = (s.scopes k).asked ∧ ((s.scopes k).cancelled = true → (u.scopes k).cancelled = true)

lemma Unasked.refl (s : State) : Unasked s s := fun _ => ⟨rfl, id⟩

lemma Unasked.trans {v : State} (h : Unasked s u) (h' : Unasked u v) : Unasked s v := fun k =>
  ⟨(h' k).1.trans (h k).1, (h' k).2 ∘ (h k).2⟩

lemma unasked_modify {h : Scope → Scope} (hasked : (h (s.scopes n)).asked = (s.scopes n).asked)
    (hcut : (s.scopes n).cancelled = true → (h (s.scopes n)).cancelled = true) : Unasked s (s.modify n h) :=
  modify_forall (R := fun _ a b => b.asked = a.asked ∧ (a.cancelled = true → b.cancelled = true)) (fun _ _ => ⟨rfl, id⟩)
    ⟨hasked, hcut⟩

lemma unasked_frameStep (s : State) (f : Frame) : Unasked s (s.frameStep f).1 := by
  have hone : ∀ {n : Nat} {h : Scope → Scope} {q : List Frame}, (h (s.scopes n)).asked = (s.scopes n).asked →
      ((s.scopes n).cancelled = true → (h (s.scopes n)).cancelled = true) →
      Unasked s (Prod.mk (s.modify n h) q).1 := unasked_modify
  cases f with
  | exchange n =>
    rw [frameStep]
    split
    · exact .refl s
    · exact hone rfl fun _ => rfl
  | collect =>
    rw [frameStep]
    exact hone rfl id
  | fire n cause todo close =>
    cases todo with
    | nil =>
      cases close with
      | true =>
        rw [frameStep, if_pos rfl]
        exact hone rfl id
      | false => exact .refl s
    | cons hook => cases hook <;> exact .refl s
  | build n =>
    rw [frameStep, State.build]
    split
    · split <;> exact hone rfl id
    · exact hone rfl id
    · rw [State.linkToParent]
      split
      · exact hone rfl id
      · split
        · exact hone rfl id
        · dsimp only
          exact .trans (unasked_modify rfl id) (unasked_modify rfl id)
    · exact hone rfl id
    · exact .refl s
  | unlink n =>
    rw [frameStep, State.unlink]
    split
    · exact .refl s
    · dsimp only
      exact .trans (unasked_modify rfl id) (unasked_modify rfl id)

lemma Answered.spawn (h : Answered s) (hscopes : Unasked s u) {l : List (List Frame)}
    (htasks : u.tasks = s.tasks ++ l) : Answered u := by
  intro k hk
  refine (h k ((hscopes k).1.symm.trans hk)).imp (hscopes k).2 fun hpos => ?_
  rw [State.running, htasks, weight_append]
  exact Nat.lt_of_lt_of_le hpos (Nat.le_add_right _ _)

lemma Answered.ask (h : Answered s) {b : Bool} (cause : Cause) :
    Answered ((s.modify n fun x => { x with asked := true, timer := b }).spawn [.exchange n cause]) := by
  intro k hk
  by_cases hkn : k = n
  · subst hkn
    right
    show 0 < weight _ (s.tasks ++ [_])
    rw [weight_concat]
    simp [weight, Frame.exchanges]
  · have hsame : (s.modify n fun x => { x with asked := true, timer := b }).scopes k = s.scopes k := modify_ne hkn _
    refine (h k (hsame ▸ hk)).imp (fun hcut => ?_) fun hpos => running_spawn _ hpos
    exact (congrArg Scope.cancelled hsame).trans hcut

lemma Answered.frame (h : Answered s) (hi : s.tasks[i]? = some (f :: rest)) :
    Answered { (s.frameStep f).1 with tasks := s.tasks.set i ((s.frameStep f).2 ++ rest) } := by
  intro k hk
  obtain ⟨hasked, hcut⟩ := unasked_frameStep s f k
  rcases h k (hasked.symm.trans hk) with hdone | hpos
  · exact .inl (hcut hdone)
  by_cases hf : f.exchanges k = 0
  · exact .inr (running_keep hi (hf ▸ Nat.zero_le _) hpos)
  · -- the call that was about to cancel it does so now
    left
    cases f with
    | exchange n cause =>
      obtain rfl : n = k := by
        by_contra hne
        exact hf (if_neg hne)
      show ((s.frameStep _).1.scopes n).cancelled = true
      rw [frameStep]
      split
      · assumption
      · dsimp only
        rw [modify_self]
    | collect | fire | build | unlink => exact absurd rfl hf

lemma answered_step {a : Act} (hk : Kept s) (h : Answered s) (hu : s.step a = some u) : Answered u := by
  cases a with
  | make parent own =>
    obtain ⟨-, rfl⟩ := of_guard hu
    refine h.spawn (fun k => ?_) rfl
    by_cases hnew : k = s.count
    · subst hnew
      rw [hk.shape.absent s.count le_rfl]
      refine ⟨?_, nofun⟩
      show (update s.scopes s.count _ s.count).asked = _
      rw [update_self]
      rfl
    · have hsame := update_of_ne hnew (Scope.create parent own (clamp own (s.deadlineOf parent))) s.scopes
      exact ⟨congrArg Scope.asked hsame, (congrArg Scope.cancelled hsame).trans⟩
  | cancel | expire =>
    obtain ⟨-, rfl⟩ := of_guard hu
    exact h.ask _
  | addHook n =>
    obtain ⟨-, hu⟩ := Option.ite_none_right_eq_some.mp hu
    split at hu <;> cases hu
    · exact h.spawn (.refl s) (append_nil _).symm
    · exact h.spawn (unasked_modify (h := fun x => { x with hooks := _ }) rfl id) (append_nil _).symm
  | removeHook =>
    obtain ⟨-, rfl⟩ := of_guard hu
    exact h.spawn (unasked_modify (h := fun x => { x with hooks := _ }) rfl id) (append_nil _).symm
  | doneChannel =>
    obtain ⟨-, hu⟩ := Option.ite_none_right_eq_some.mp hu
    split at hu <;> cases hu
    · exact h.spawn (unasked_modify rfl id) (append_nil _).symm
    · exact h
  | destroy =>
    obtain ⟨-, rfl⟩ := of_guard hu
    exact h.spawn (unasked_modify (h := fun x => { x with live := false }) rfl id) rfl
  | step i =>
    rw [step] at hu
    split at hu
    · cases hu
      exact h.frame ‹_›
    · cases hu
  | tick =>
    cases hu
    exact h

/-! ### The guarantee -/

lemma kept_of_reachable (hs : treeSystem.Reachable s) : Kept s ∧ Ledger s ∧ Answered s := by
  refine hs.invariant (P := fun s => Kept s ∧ Ledger s ∧ Answered s) ?_
    fun _ _ _ ⟨hk, hl, h⟩ _ hst => ⟨kept_step hk hst, ledger_step hk hl hst, answered_step hk h hst⟩
  rintro s ⟨now, rfl⟩
  exact ⟨kept_start now, ⟨fun _ _ => rfl, fun _ => Nat.zero_le _, fun _ _ _ => rfl, nofun, nofun⟩, nofun⟩

lemma Answered.cancelled (h : Answered s) (hquiet : s.Quiet) (n : Nat) (hn : (s.scopes n).asked) :
    (s.scopes n).cancelled = true := by
  refine (h n hn).resolve_right fun hpos => ?_
  rw [running_eq_zero hquiet fun _ => rfl] at hpos
  exact lt_irrefl 0 hpos

lemma Kept.ready_of_quiet (h : Kept s) (hquiet : s.Quiet) (hn : n < s.count) : (s.scopes n).stage = .ready := by
  by_contra hstage
  have hpos := h.shape.building n hn hstage
  rw [running_eq_zero hquiet fun _ => rfl] at hpos
  exact lt_irrefl 0 hpos

lemma Kept.fired_of_quiet (h : Kept s) (hquiet : s.Quiet) (hn : (s.scopes n).cancelled) :
    (s.scopes n).fired = true := by
  refine (h.reach.collecting n hn).resolve_right fun hpos => ?_
  rw [running_eq_zero hquiet fun _ => rfl] at hpos
  exact lt_irrefl 0 hpos

lemma Kept.reaches (h : Kept s) (hquiet : s.Quiet) {n a : Nat} (hwi : s.Within n a)
    (ha : (s.scopes a).cancelled) (hlive : (s.scopes n).live) : (s.scopes n).cancelled = true := by
  induction hwi using Relation.ReflTransGen.head_induction_on with
  | refl => exact ha
  | head hup hrest ih =>
    rename_i n m
    have hready := h.ready_of_quiet hquiet (h.shape.lt_of_live hlive)
    rcases h.reach.covered n m hlive hup (by rw [placed, hready]) with hcut | hpos | ⟨hlinked, hor⟩
    · exact hcut
    · rw [running_eq_zero hquiet fun _ => rfl] at hpos
      cases hpos
    · have hfired := h.fired_of_quiet hquiet (ih (h.reach.alive n m hup (.inr hlinked)))
      rcases hor with ⟨hunfired, -⟩ | hpos
      · rw [hfired] at hunfired
        cases hunfired
      · rw [running_eq_zero hquiet fun _ => rfl] at hpos
        cases hpos

lemma Kept.asked (h : Kept s) (n : Nat) (hn : (s.scopes n).cancelled) :
    ∃ a, s.Within n a ∧ (s.scopes a).asked = true := by
  induction n using Nat.strong_induction_on with
  | _ n ih =>
    rcases h.reach.caused n hn with hasked | ⟨m, hup, hm⟩
    · exact ⟨n, .refl, hasked⟩
    · obtain ⟨a, hwi, hasked⟩ := ih m (h.shape.ordered n m hup) hm
      exact ⟨a, .head hup hwi, hasked⟩

/-- The least of the deadlines in the chain of a scope, zero if there is none. -/
structure Least (s : State) (n : Nat) (d : Int) : Prop where
  lower : ∀ a, s.Within n a → (s.scopes a).own ≠ 0 → d ≠ 0 ∧ d ≤ (s.scopes a).own
  attained : d ≠ 0 → ∃ a, s.Within n a ∧ (s.scopes a).own = d

lemma clamp_zero (deadline : Int) : clamp deadline 0 = deadline := if_neg fun h => h.1 rfl

lemma clamp_le {d parent : Int} (hup : parent ≠ 0) : clamp d parent ≠ 0 ∧ clamp d parent ≤ parent := by
  rw [clamp]
  split
  · exact ⟨hup, le_rfl⟩
  · omega

lemma clamp_le_own {deadline parent : Int} (hdue : deadline ≠ 0) :
    clamp deadline parent ≠ 0 ∧ clamp deadline parent ≤ deadline := by
  rw [clamp]
  split
  · omega
  · exact ⟨hdue, le_rfl⟩

lemma clamp_cases (deadline parent : Int) : clamp deadline parent = deadline ∨ clamp deadline parent = parent := by
  rw [clamp]
  split
  · exact .inr rfl
  · exact .inl rfl

lemma Kept.least (h : Kept s) (n : Nat) (hn : (s.scopes n).settled) : Least s n (s.deadline n) := by
  induction n using Nat.strong_induction_on with
  | _ n ih =>
    have hclamp : s.deadline n = clamp (s.scopes n).own (s.deadlineOf (s.scopes n).parent) :=
      (target_of_settled hn).symm.trans (h.shape.clamped n)
    rcases hup : (s.scopes n).parent with _ | m
    · rw [hup, deadlineOf, clamp_zero] at hclamp
      rw [hclamp]
      refine ⟨fun a hwi hown => ?_, fun _ => ⟨n, .refl, rfl⟩⟩
      rcases Relation.ReflTransGen.cases_head hwi with rfl | ⟨b, hb, -⟩
      · exact ⟨hown, le_rfl⟩
      · rw [hup] at hb
        cases hb
    · have hleast := ih m (h.shape.ordered n m hup) (h.shape.parents n m hup)
      rw [hup] at hclamp
      have hclamp : s.deadline n = clamp (s.scopes n).own (s.deadline m) := hclamp
      rw [hclamp]
      refine ⟨fun a hwi hown => ?_, fun hne => ?_⟩
      · rcases Relation.ReflTransGen.cases_head hwi with rfl | ⟨b, hb, hrest⟩
        · exact clamp_le_own hown
        · rw [hup] at hb
          cases hb
          obtain ⟨hm, hle⟩ := hleast.lower a hrest hown
          exact ⟨(clamp_le hm).1, (clamp_le hm).2.trans hle⟩
      · rcases clamp_cases (s.scopes n).own (s.deadline m) with hown | hm
        · exact ⟨n, .refl, hown.symm⟩
        · rw [hm] at hne ⊢
          obtain ⟨a, hwi, ha⟩ := hleast.attained hne
          exact ⟨a, .head hup hwi, ha⟩

lemma Kept.closed (h : Kept s) (hquiet : s.Quiet) (hn : (s.scopes n).cancelled) : (s.scopes n).done ≠ .open := by
  intro hopen
  have hpos := h.reach.closing n (h.fired_of_quiet hquiet hn) hopen
  rw [running_eq_zero hquiet fun _ => rfl] at hpos
  exact lt_irrefl 0 hpos

lemma Ledger.ran_le (h : Ledger s) (p : Nat × Nat) : s.ran.count p + s.erased.count p ≤ s.accepted.count p := by
  obtain ⟨n, k⟩ := p
  have hbal := h.balance n k
  omega

lemma Ledger.run_once (h : Ledger s) (hk : Kept s) (hquiet : s.Quiet) {p : Nat × Nat} (hp : p ∈ s.accepted)
    (hcut : (s.scopes p.1).cancelled) (herased : p ∉ s.erased) : s.ran.count p = 1 := by
  obtain ⟨n, k⟩ := p
  have hbal := h.balance n k
  have hunique := h.unique (n, k)
  have hpos := count_pos_iff.mpr hp
  have hhooks := (hk.reach.fired n (hk.fired_of_quiet hquiet hcut)).2
  have hruns : s.running (Frame.runs n k) = 0 := running_eq_zero hquiet fun _ => rfl
  rw [hhooks, count_nil, hruns, count_eq_zero.mpr herased] at hbal
  omega

/-- What holds of the tree in every state. -/
structure TreeSafe (s : State) : Prop where
  /-- When no call is in progress, a scope that was cancelled explicitly or by its deadline is cancelled, with all its
  live descendants, and no other scope is. -/
  answered : s.Quiet → ∀ n, (s.scopes n).asked = true → (s.scopes n).cancelled = true
  reaches : s.Quiet → ∀ n a, s.Within n a → (s.scopes n).live = true → (s.scopes a).cancelled = true →
    (s.scopes n).cancelled = true
  caused : ∀ n, (s.scopes n).cancelled = true → ∃ a, s.Within n a ∧ (s.scopes a).asked = true
  /-- A refused hook never runs, an accepted one runs once when the scope is cancelled, unless it is removed. -/
  refused : ∀ p ∈ s.refused, p ∉ s.ran
  once : ∀ p, s.ran.count p ≤ 1
  run : s.Quiet → ∀ p ∈ s.accepted, (s.scopes p.1).cancelled = true → p ∉ s.erased → s.ran.count p = 1
  early : ∀ p ∈ s.early, p ∉ s.ran
  done : s.Quiet → ∀ n, (s.scopes n).cancelled = true → (s.scopes n).done ≠ .open
  deadline : ∀ n, (s.scopes n).stage = .ready → Least s n (s.deadline n)

/-- **In every run of the tree: a cancellation reaches every live descendant and has a cause, an accepted hook runs
once and a refused or removed one never, the done channel of a cancelled scope is closed, and the deadline of a scope
is the least of its chain.** -/
theorem tree_safe {s : State} (hs : treeSystem.Reachable s) : TreeSafe s := by
  obtain ⟨h, hl, ha⟩ := kept_of_reachable hs
  refine ⟨fun hquiet => ha.cancelled hquiet, fun hquiet n a hwi hlive ha => h.reaches hquiet hwi ha hlive, h.asked,
    fun p hp => ?_, fun p => ?_, fun hquiet p hp hcut herased => hl.run_once h hquiet hp hcut herased, fun p hp => ?_,
    fun hquiet n hn => h.closed hquiet hn, fun n hn => h.least n (by rw [settled, hn])⟩
  · have hunique := hl.unique p
    have hpos := List.count_pos_iff.mpr hp
    have hle := hl.ran_le p
    exact List.count_eq_zero.mp (by omega)
  · have hunique := hl.unique p
    have hle := hl.ran_le p
    omega
  · have hunique := hl.unique p
    have hpos := List.count_pos_iff.mpr (hl.early p hp)
    have hle := hl.ran_le p
    exact List.count_eq_zero.mp (by omega)

/-- The root is cancelled while one child is being linked and another one is made: both are cancelled, the hook of the
root has run once, a second one was refused, and its done channel was created closed. -/
theorem tree_safe_racing : ∃ s, treeSystem.Reachable s ∧ s.Quiet ∧
    ((s.scopes 1).cancelled = true ∧ (s.scopes 2).cancelled = true ∧ s.ran = [(0, 0)] ∧ s.refused = [(0, 1)] ∧
      (s.scopes 0).done = .closed ∧ s.deadline 2 = 7) ∧ TreeSafe s := by
  obtain ⟨s, hs, hquiet, hstate⟩ := treeSystem.reachable_of_run (.start 0)
    [.make none 0, .step 0, .step 0, .step 0, .addHook 0, .make (some 0) 5, .step 1, .step 1, .step 1, .cancel 0,
      .step 2, .step 2, .make (some 0) 7, .addHook 0, .step 1, .step 3, .step 3, .step 3, .step 2, .step 2, .step 2,
      .doneChannel 0, .step 3, .step 3, .step 3, .step 3, .step 2, .step 2, .step 2]
    (fun s => s.running Frame.busy = 0 ∧ ((s.scopes 1).cancelled = true ∧ (s.scopes 2).cancelled = true ∧
      s.ran = [(0, 0)] ∧ s.refused = [(0, 1)] ∧ (s.scopes 0).done = .closed ∧ s.deadline 2 = 7))
    ⟨0, rfl⟩ (by decide +kernel)
  exact ⟨s, hs, hquiet, hstate, tree_safe hs⟩

end Cio.CancelTree
