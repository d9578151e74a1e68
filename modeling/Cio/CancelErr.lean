import Cio.CancelTreeSafety

/-! `CancelToken::err` over the cancellation tree. The cause of a cancellation is not recorded: `err` compares the
deadline of the scope with the clock at each query. -/

namespace Cio.CancelTree

open CallPool Transition Function State List

variable {s u : State} {i n m k : Nat} {f : Frame} {rest q : List Frame}

inductive Err where
  | success | cancelled | timedOut
  deriving DecidableEq

def State.err (s : State) (n : Nat) : Err :=
  if (s.scopes n).cancelled then
    if (s.scopes n).deadlineNs ≠ 0 ∧ (s.scopes n).deadlineNs ≤ s.now then .timedOut else .cancelled
  else .success

def Scope.past (x : Scope) (now : Int) : Bool := x.deadlineNs != 0 && decide (x.deadlineNs ≤ now)

/-- A cancellation that was begun explicitly cancels no scope whose deadline is past, and the clock does not reach the
deadline of a scope that was so cancelled. -/
def State.timely (s : State) : Act → Bool
  | .step i =>
    match s.tasks[i]? with
    | some (.exchange n .explicit :: _) => (s.scopes n).cancelled || !(s.scopes n).past s.now
    | _ => true
  | .tick => (range s.count).all fun n => (s.scopes n).cause != some .explicit || !(s.scopes n).past (s.now + 1)
  | _ => true

def Timely (s : State) (a : Act) : Prop := s.timely a = true

instance (s : State) (a : Act) : Decidable (Timely s a) := inferInstanceAs (Decidable (_ = true))

/-- `err` tells the deadline from an explicit cancellation. -/
structure Truthful (s : State) (n : Nat) : Prop where
  timedOut : s.err n = .timedOut ↔ (s.scopes n).cause = some .deadline
  cancelled : s.err n = .cancelled ↔ (s.scopes n).cause = some .explicit

/-! ### What is kept -/

lemma Scope.past_iff {x : Scope} {now : Int} : x.past now ↔ x.deadlineNs ≠ 0 ∧ x.deadlineNs ≤ now := by
  rw [Scope.past, Bool.and_eq_true, bne_iff_ne, decide_eq_true_eq]

def State.Due (s : State) (n : Nat) : Prop :=
  (s.scopes n).settled = true ∧ (s.scopes n).deadlineNs ≠ 0 ∧ (s.scopes n).deadlineNs ≤ s.now

/-- The cancel call was begun for a deadline only if that of the scope has been reached. -/
def Frame.Due (s : State) : Frame → Prop
  | .exchange n cause | .collect n cause | .fire n cause _ _ => cause = .deadline → s.Due n
  | .build _ | .unlink _ => True

lemma Frame.Due.mono (hf : f.Due s) (hdue : ∀ n, s.Due n → u.Due n) : f.Due u := by
  cases f with
  | exchange n | collect n | fire n => exact fun hc => hdue n (hf hc)
  | build | unlink => trivial

/-- A cancelled scope has a cause, which is the deadline only if that is due. -/
structure Causes (s : State) : Prop where
  recorded : ∀ n, (s.scopes n).cancelled = (s.scopes n).cause.isSome
  due : ∀ n, (s.scopes n).cause = some .deadline → s.Due n
  undue : ∀ n, (s.scopes n).cause = some .explicit → (s.scopes n).settled = true ∧ ¬ (s.scopes n).past s.now
  frames : ∀ task ∈ s.tasks, ∀ x ∈ task, x.Due s

lemma Causes.truthful (h : Causes s) (n : Nat) : Truthful s n := by
  have hrec := h.recorded n
  rcases hcause : (s.scopes n).cause with _ | _ | _
  · rw [hcause] at hrec
    have herr : s.err n = .success := by rw [err, hrec]; rfl
    constructor <;> simp [herr, hcause]
  · rw [hcause] at hrec
    have herr : s.err n = .cancelled := by
      rw [err, if_pos (show _ = true from hrec), if_neg fun hdue => (h.undue n hcause).2 (Scope.past_iff.mpr hdue)]
    constructor <;> simp [herr, hcause]
  · rw [hcause] at hrec
    have hdue := h.due n hcause
    have herr : s.err n = .timedOut := by
      rw [err, if_pos (show _ = true from hrec), if_pos hdue.2]
    constructor <;> simp [herr, hcause]

lemma Due.child (hs : Shape s) (hup : (s.scopes n).parent = some m) (hsettled : (s.scopes n).settled)
    (h : s.Due m) : s.Due n := by
  have hclamp : (s.scopes n).deadlineNs = clamp (s.scopes n).own (s.scopes m).deadlineNs := by
    have htarget := (Scope.target_of_settled hsettled).symm.trans (hs.clamped n)
    rwa [hup] at htarget
  obtain ⟨hne, hle⟩ := clamp_le h.2.1
  rw [← hclamp] at hne hle
  exact ⟨hsettled, hne, hle.trans h.2.2⟩

/-! ### Steps that cancel nothing -/

structure Scope.Steady (a b : Scope) : Prop where
  settled : a.settled = true → b.settled = true
  deadline : a.settled = true → b.deadlineNs = a.deadlineNs
  cause : b.cause = a.cause
  cancelled : b.cancelled = a.cancelled

lemma Scope.Steady.refl (a : Scope) : a.Steady a := ⟨id, fun _ => rfl, rfl, rfl⟩

structure Steady (s u : State) : Prop where
  scopes : ∀ n, (s.scopes n).Steady (u.scopes n)
  now : u.now = s.now

lemma Steady.due (h : Steady s u) (hn : s.Due n) : u.Due n := by
  obtain ⟨hsettled, hne, hreached⟩ := hn
  have hdeadline := (h.scopes n).deadline hsettled
  exact ⟨(h.scopes n).settled hsettled, hdeadline ▸ hne, by rwa [hdeadline, h.now]⟩

lemma Steady.frame (h : Steady s u) (hf : f.Due s) : f.Due u := hf.mono fun _ => h.due

lemma Causes.steady (h : Causes s) (hu : Steady s u) (hframes : ∀ task ∈ u.tasks, ∀ x ∈ task, x.Due u) : Causes u where
  recorded n := by
    rw [(hu.scopes n).cancelled, (hu.scopes n).cause]
    exact h.recorded n
  due n hn := hu.due (h.due n ((hu.scopes n).cause ▸ hn))
  undue n hn := by
    obtain ⟨hsettled, hpast⟩ := h.undue n ((hu.scopes n).cause ▸ hn)
    refine ⟨(hu.scopes n).settled hsettled, ?_⟩
    rwa [Scope.past, (hu.scopes n).deadline hsettled, hu.now]
  frames := hframes

lemma steady_modify {t : Scope → Scope} (ht : (s.scopes n).Steady (t (s.scopes n))) : Steady s (s.modify n t) :=
  ⟨modify_forall (fun _ => .refl) ht, rfl⟩

lemma Steady.trans {v : State} (h : Steady s u) (h' : Steady u v) : Steady s v where
  scopes n := ⟨fun hn => (h'.scopes n).settled ((h.scopes n).settled hn),
    fun hn => ((h'.scopes n).deadline ((h.scopes n).settled hn)).trans ((h.scopes n).deadline hn),
    (h'.scopes n).cause.trans (h.scopes n).cause, (h'.scopes n).cancelled.trans (h.scopes n).cancelled⟩
  now := h'.now.trans h.now

lemma steady_stage {t : Scope → Scope} (ht : (s.scopes n).Steady (t (s.scopes n))) :
    Steady s ((s.modify n t, q) : State × List Frame).1 :=
  steady_modify ht

lemma steady_linkToParent (n : Nat) : Steady s (s.linkToParent n).1 := by
  rw [linkToParent]
  split
  · exact steady_stage ⟨fun _ => rfl, fun _ => rfl, rfl, rfl⟩
  · split
    · exact steady_stage ⟨fun _ => rfl, fun _ => rfl, rfl, rfl⟩
    · refine Steady.trans (steady_modify ?_) (steady_stage ?_)
      · exact ⟨id, fun _ => rfl, rfl, rfl⟩
      · exact ⟨fun _ => rfl, fun _ => rfl, rfl, rfl⟩

lemma steady_build (n : Nat) : Steady s (s.build n).1 := by
  rw [build]
  split
  · rename_i hstage
    have huns : (s.scopes n).settled ≠ true := by
      rw [Scope.settled, hstage]
      exact Bool.false_ne_true
    split
    · exact steady_stage ⟨fun _ => rfl, fun _ => rfl, rfl, rfl⟩
    · exact steady_stage ⟨fun _ => rfl, fun hsettled => absurd hsettled huns, rfl, rfl⟩
  · exact steady_stage ⟨fun _ => rfl, fun _ => rfl, rfl, rfl⟩
  · exact steady_linkToParent n
  · exact steady_stage ⟨fun _ => rfl, fun _ => rfl, rfl, rfl⟩
  · exact ⟨fun _ => .refl _, rfl⟩

lemma steady_unlink (n : Nat) : Steady s (s.unlink n) := by
  rw [unlink]
  split
  · exact ⟨fun _ => .refl _, rfl⟩
  · exact (steady_modify ⟨id, fun _ => rfl, rfl, rfl⟩).trans (steady_modify ⟨id, fun _ => rfl, rfl, rfl⟩)

lemma steady_frameStep (hf : ∀ n cause, f = .exchange n cause → (s.scopes n).cancelled) :
    Steady s (s.frameStep f).1 := by
  cases f with
  | exchange n cause =>
    rw [frameStep, if_pos (hf n cause rfl)]
    exact ⟨fun _ => .refl _, rfl⟩
  | collect => exact steady_stage ⟨id, fun _ => rfl, rfl, rfl⟩
  | build n => exact steady_build n
  | unlink n => exact steady_unlink n
  | fire n cause todo close =>
    rcases todo with _ | ⟨child | k, todo⟩
    · rw [frameStep]
      cases close with
      | false => exact ⟨fun _ => .refl _, rfl⟩
      | true => exact steady_modify (t := fun x => { x with done := .closed }) ⟨id, fun _ => rfl, rfl, rfl⟩
    · exact ⟨fun _ => .refl _, rfl⟩
    · exact ⟨fun _ => .refl _, rfl⟩

variable {a : Act}

lemma steady_act (hk : Kept s) (hu : s.step a = some u) (ha : ∀ i, a ≠ .step i) (n : Nat) :
    (s.scopes n).Steady (u.scopes n) := by
  have hmod : ∀ {m} {t : Scope → Scope}, (s.scopes m).Steady (t (s.scopes m)) →
      (s.scopes n).Steady ((s.modify m t).scopes n) := fun ht => (steady_modify ht).scopes n
  cases a with
  | make =>
    obtain ⟨-, rfl⟩ := of_guard hu
    show (s.scopes n).Steady (update s.scopes s.count _ n)
    by_cases hn : n = s.count
    · rw [hn, hk.shape.absent s.count le_rfl, update_self]
      exact ⟨nofun, nofun, rfl, rfl⟩
    · rw [update_of_ne hn]
      exact .refl _
  | cancel =>
    obtain ⟨-, rfl⟩ := of_guard hu
    exact hmod (t := fun x => { x with asked := true }) ⟨id, fun _ => rfl, rfl, rfl⟩
  | expire =>
    obtain ⟨-, rfl⟩ := of_guard hu
    exact hmod (t := fun x => { x with asked := true, timer := false }) ⟨id, fun _ => rfl, rfl, rfl⟩
  | addHook =>
    obtain ⟨-, hu⟩ := Option.ite_none_right_eq_some.mp hu
    split at hu <;> cases hu
    · exact .refl _
    · exact hmod (t := fun x => { x with hooks := x.hooks ++ [.user s.nextHook] }) ⟨id, fun _ => rfl, rfl, rfl⟩
  | removeHook m k =>
    obtain ⟨-, rfl⟩ := of_guard hu
    exact hmod (t := fun x => { x with hooks := x.hooks.erase (.user k) }) ⟨id, fun _ => rfl, rfl, rfl⟩
  | doneChannel =>
    obtain ⟨-, hu⟩ := Option.ite_none_right_eq_some.mp hu
    split at hu <;> cases hu
    · exact hmod ⟨id, fun _ => rfl, rfl, rfl⟩
    · exact .refl _
  | destroy =>
    obtain ⟨-, rfl⟩ := of_guard hu
    exact hmod (t := fun x => { x with live := false }) ⟨id, fun _ => rfl, rfl, rfl⟩
  | step i => exact absurd rfl (ha i)
  | tick =>
    cases hu
    exact .refl _

/-! ### Steps of a task -/

section

variable (h : Causes s) (hk : Kept s)
include h hk

lemma Causes.exchange {cause : Cause} (hi : s.tasks[i]? = some (.exchange n cause :: rest))
    (htime : Timely s (.step i)) (hopen : (s.scopes n).cancelled = false)
    (hu : Moves s u n { s.scopes n with cancelled := true, cause := some cause }
      (s.tasks.set i ([.collect n cause] ++ rest))) (hnow : u.now = s.now) : Causes u := by
  have hsettled : (s.scopes n).settled = true := (hk.reach.sound hi).2
  have hdue : cause = .deadline → s.Due n := h.frames _ (mem_of_getElem? hi) _ mem_cons_self
  have hdeadline : ∀ k, (s.scopes k).settled →
      (u.scopes k).settled ∧ (u.scopes k).deadlineNs = (s.scopes k).deadlineNs :=
    hu.forall (R := fun a b => a.settled → b.settled ∧ b.deadlineNs = a.deadlineNs)
      (fun _ hx => ⟨hx, rfl⟩) fun hx => ⟨hx, rfl⟩
  have hkeep : ∀ {k}, s.Due k → u.Due k := fun {k} hk => by
    obtain ⟨hset, hsame⟩ := hdeadline k hk.1
    exact ⟨hset, hsame ▸ hk.2.1, by rw [hsame, hnow]; exact hk.2.2⟩
  refine ⟨fun k => ?_, fun k hk => ?_, fun k hk => ?_, ?_⟩
  · by_cases hkn : k = n
    · rw [hkn, hu.self]
      rfl
    · rw [hu.other k hkn]
      exact h.recorded k
  · by_cases hkn : k = n
    · subst hkn
      rw [hu.self] at hk
      exact hkeep (hdue (Option.some.inj hk))
    · rw [hu.other k hkn] at hk
      exact hkeep (h.due k hk)
  · by_cases hkn : k = n
    · subst hkn
      rw [hu.self] at hk ⊢
      obtain rfl : cause = .explicit := Option.some.inj hk
      refine ⟨hsettled, ?_⟩
      have htime : (match s.tasks[i]? with
        | some (.exchange n .explicit :: _) => (s.scopes n).cancelled || !(s.scopes n).past s.now
        | _ => true) = true := htime
      rw [hi] at htime
      rw [hnow]
      simpa [hopen, Scope.past, or_iff_not_imp_left] using htime
    · rw [hu.other k hkn] at hk ⊢
      rw [hnow]
      exact h.undue k hk
  · rw [hu.tasks]
    have hold : ∀ task ∈ s.tasks, ∀ x ∈ task, x.Due u :=
      fun task htask x hx => (h.frames task htask x hx).mono fun _ => hkeep
    refine forall_set hold (fun x hx => ?_) i
    rcases mem_cons.mp hx with rfl | hrest
    · exact fun hc => hkeep (hdue hc)
    · exact hold _ (mem_of_getElem? hi) x (mem_cons_of_mem _ hrest)

lemma Causes.build : ∀ x ∈ (s.build n).2, x.Due s := by
  have hlink : ∀ m, (s.scopes n).parent = some m → (s.scopes n).stage = .link →
      (s.scopes m).cause.getD .explicit = .deadline → s.Due n := by
    intro m hup hstage hcause
    have hsettled : (s.scopes n).settled = true := by rw [Scope.settled, hstage]
    refine Due.child hk.shape hup hsettled (h.due m ?_)
    rcases hm : (s.scopes m).cause with _ | c
    · rw [hm] at hcause
      cases hcause
    · rw [hm] at hcause
      exact congrArg some hcause
  intro x hx
  rw [State.build] at hx
  split at hx
  · split at hx <;> (rw [mem_singleton.mp hx]; trivial)
  · rw [mem_singleton.mp hx]
    trivial
  · rename_i hstage
    rw [linkToParent] at hx
    split at hx
    · rw [mem_singleton.mp hx]
      trivial
    · rename_i m hup
      split at hx
      · rcases mem_cons.mp hx with rfl | hx
        · exact hlink m hup hstage
        · rw [mem_singleton.mp hx]
          trivial
      · rw [mem_singleton.mp hx]
        trivial
  · cases hx
  · cases hx

lemma Causes.passes (hi : s.tasks[i]? = some (f :: rest)) : ∀ x ∈ (s.frameStep f).2, x.Due s := by
  have hdue : f.Due s := h.frames _ (mem_of_getElem? hi) f mem_cons_self
  have hsound := hk.reach.sound hi
  intro x hx
  cases f with
  | exchange =>
    rw [frameStep] at hx
    split at hx
    · cases hx
    · rw [mem_singleton.mp hx]
      exact hdue
  | collect =>
    rw [mem_singleton.mp hx]
    exact hdue
  | build => exact h.build hk x hx
  | unlink => cases hx
  | fire n cause todo =>
    rcases todo with _ | ⟨child | k, todo⟩
    · cases hx
    · obtain ⟨hup, hsettled⟩ := hsound.2 (.link child) mem_cons_self
      rw [frameStep] at hx
      split at hx
      · rcases mem_cons.mp hx with rfl | hx
        · exact fun hc => Due.child hk.shape hup hsettled (hdue hc)
        · rw [mem_singleton.mp hx]
          exact hdue
      · rw [mem_singleton.mp hx]
        exact hdue
    · rw [mem_singleton.mp hx]
      exact hdue

lemma Causes.frameStep (hi : s.tasks[i]? = some (f :: rest)) (htime : Timely s (.step i)) :
    Causes { (s.frameStep f).1 with tasks := s.tasks.set i ((s.frameStep f).2 ++ rest) } := by
  by_cases hf : ∀ n cause, f = .exchange n cause → (s.scopes n).cancelled
  · have hv := steady_frameStep hf
    refine h.steady ⟨hv.scopes, hv.now⟩ ?_
    have hold : ∀ task ∈ s.tasks, ∀ x ∈ task, x.Due (s.frameStep f).1 :=
      fun task htask x hx => hv.frame (h.frames task htask x hx)
    refine forall_set hold (fun x hx => ?_) i
    rcases mem_append.mp hx with hnew | hrest
    · exact hv.frame (h.passes hk hi x hnew)
    · exact hold _ (mem_of_getElem? hi) x (mem_cons_of_mem _ hrest)
  · push Not at hf
    obtain ⟨n, cause, rfl, hopen⟩ := hf
    rw [frameStep, if_neg hopen]
    exact h.exchange hk hi htime (Bool.eq_false_iff.mpr hopen) (moves_modify _ _) rfl

lemma Causes.tick (htime : Timely s .tick) : Causes { s with now := s.now + 1 } := by
  have hdue : ∀ n, s.Due n → Due { s with now := s.now + 1 } n :=
    fun n hn => ⟨hn.1, hn.2.1, hn.2.2.trans (Int.le_add_one le_rfl)⟩
  refine ⟨h.recorded, fun n hn => hdue n (h.due n hn), fun n hn => ⟨(h.undue n hn).1, ?_⟩,
    fun task htask x hx => (h.frames task htask x hx).mono hdue⟩
  have hcount : n < s.count := by
    by_contra hle
    have hnone : (s.scopes n).cause = none := by rw [hk.shape.absent n (Nat.le_of_not_lt hle)]; rfl
    exact nomatch hnone.symm.trans hn
  have hpast := all_eq_true.mp htime n (mem_range.mpr hcount)
  rw [show (s.scopes n).cause = some .explicit from hn] at hpast
  simpa using hpast

end

/-! ### Every run -/

lemma causes_step (hk : Kept s) (h : Causes s) (htime : Timely s a) (hu : s.step a = some u) : Causes u := by
  have hact := steady_act hk hu
  have hsame : (∀ n, (s.scopes n).Steady (u.scopes n)) → u.now = s.now → u.tasks = s.tasks → Causes u := by
    intro hsc hnow htasks
    have hst : Steady s u := ⟨hsc, hnow⟩
    refine h.steady hst ?_
    rw [htasks]
    exact fun task htask x hx => hst.frame (h.frames task htask x hx)
  have hspawn : ∀ {task}, (∀ n, (s.scopes n).Steady (u.scopes n)) → u.now = s.now → u.tasks = s.tasks ++ [task] →
      (∀ x ∈ task, x.Due s) → Causes u := by
    intro task hsc hnow htasks htask
    have hst : Steady s u := ⟨hsc, hnow⟩
    refine h.steady hst ?_
    rw [htasks]
    exact forall_append (fun task htask x hx => hst.frame (h.frames task htask x hx)) fun x hx => hst.frame (htask x hx)
  cases a with
  | make =>
    obtain ⟨-, rfl⟩ := of_guard hu
    refine hspawn (hact fun _ hi => by cases hi) rfl rfl fun x hx => ?_
    rw [List.mem_singleton.mp hx]
    trivial
  | cancel =>
    obtain ⟨-, rfl⟩ := of_guard hu
    refine hspawn (hact fun _ hi => by cases hi) rfl rfl fun x hx => ?_
    rw [List.mem_singleton.mp hx]
    exact fun hc => by cases hc
  | expire n =>
    obtain ⟨⟨htimer, -, hreached⟩, rfl⟩ := of_guard hu
    obtain ⟨hsettled, hne⟩ := hk.shape.timed n (by rw [Scope.timed, htimer]; rfl)
    refine hspawn (hact fun _ hi => by cases hi) rfl rfl fun x hx => ?_
    rw [List.mem_singleton.mp hx]
    exact fun _ => ⟨hsettled, hne, hreached⟩
  | addHook | doneChannel =>
    obtain ⟨-, hu⟩ := Option.ite_none_right_eq_some.mp hu
    split at hu <;> (cases hu; exact hsame (hact fun _ hi => by cases hi) rfl rfl)
  | removeHook =>
    obtain ⟨-, rfl⟩ := of_guard hu
    exact hsame (hact fun _ hi => by cases hi) rfl rfl
  | destroy =>
    obtain ⟨-, rfl⟩ := of_guard hu
    refine hspawn (hact fun _ hi => by cases hi) rfl rfl fun x hx => ?_
    split at hx
    · rw [List.mem_singleton.mp hx]
      trivial
    · cases hx
  | step i =>
    rw [step] at hu
    split at hu
    · rename_i f rest hi
      cases hu
      exact h.frameStep hk hi htime
    · cases hu
  | tick =>
    cases hu
    exact h.tick hk htime

lemma causes_of_reachable (hs : treeSystem.ReachableVia Timely s) : Causes s := by
  have hboth : Kept s ∧ Causes s := by
    refine hs.invariant (P := fun s => Kept s ∧ Causes s) ?_ fun s a u h hc hst => ?_
    · rintro s ⟨now, rfl⟩
      exact ⟨kept_start now, fun _ => rfl, nofun, nofun, nofun⟩
    · exact ⟨kept_step h.1 hst, causes_step h.1 h.2 hc hst⟩
  exact hboth.2

lemma cause_step {c : Cause} (hk : Kept s) (h : Causes s) (hu : s.step a = some u)
    (hn : (s.scopes n).cause = some c) : (u.scopes n).cause = some c := by
  by_cases ha : ∀ i, a ≠ .step i
  · exact (steady_act hk hu ha n).cause.trans hn
  · push Not at ha
    obtain ⟨i, rfl⟩ := ha
    rw [step] at hu
    split at hu
    · rename_i f rest hi
      cases hu
      by_cases hf : ∀ m cause, f = .exchange m cause → (s.scopes m).cancelled
      · exact ((steady_frameStep hf).scopes n).cause.trans hn
      · push Not at hf
        obtain ⟨m, cause, rfl, hopen⟩ := hf
        -- a scope with a cause is cancelled already
        have hne : n ≠ m := by
          rintro rfl
          rw [h.recorded n, hn] at hopen
          exact hopen rfl
        rw [frameStep, if_neg hopen]
        show (update s.scopes m _ n).cause = some c
        rw [update_of_ne hne, hn]
    · cases hu

lemma cause_run {c : Cause} {schedule : List Act} (hs : treeSystem.ReachableVia Timely s)
    (hrun : treeSystem.runVia Timely s schedule = some u) (hn : (s.scopes n).cause = some c) :
    (u.scopes n).cause = some c := by
  induction schedule generalizing s with
  | nil =>
    cases hrun
    exact hn
  | cons a rest ih =>
    rw [System.runVia, Option.ite_none_right_eq_some] at hrun
    obtain ⟨t, ht, hrest⟩ := Option.bind_eq_some_iff.mp hrun.2
    exact ih (hs.next hrun.1 ht) hrest (cause_step (kept_of_reachable hs.reachable).1 (causes_of_reachable hs) ht hn)

/-- **The error is stable and says what the scope was cancelled for**, as long as no deadline passes over an explicit
cancellation. -/
theorem err_stable {s u : State} (hs : treeSystem.ReachableVia Timely s) {schedule : List Act}
    (hrun : treeSystem.runVia Timely s schedule = some u) (n : Nat) :
    Truthful s n ∧ (s.err n ≠ .success → u.err n = s.err n) := by
  have hpre := (causes_of_reachable hs).truthful n
  have hafter := (causes_of_reachable (hs.runVia hrun)).truthful n
  refine ⟨hpre, fun hne => ?_⟩
  rcases herr : s.err n with _ | _ | _
  · exact absurd herr hne
  · exact hafter.cancelled.mpr (cause_run hs hrun (hpre.cancelled.mp herr))
  · exact hafter.timedOut.mpr (cause_run hs hrun (hpre.timedOut.mp herr))

/-- The timer of a scope cancels it and its child at 5, after a scope with the deadline 9 was cancelled explicitly, and
the clock goes on. -/
theorem err_stable_expired : ∃ s u, treeSystem.ReachableVia Timely s ∧
    treeSystem.runVia Timely s [.tick, .tick] = some u ∧ (s.scopes 1).cause = some .deadline ∧ u.err 1 = .timedOut ∧
    (s.scopes 2).cause = some .explicit ∧
      u.err 2 = .cancelled := by
  obtain ⟨s, hs, hchild, hother, hsome⟩ := treeSystem.reachableVia_of_run Timely (.start 0)
    [.make none 5, .step 0, .step 0, .step 0, .step 0, .make (some 0) 0, .step 1, .step 1, .step 1, .step 1,
      .make none 9, .step 2, .step 2, .step 2, .step 2, .cancel 2, .step 3, .step 3, .step 3, .tick, .tick, .tick,
      .tick, .tick, .expire 0, .step 4, .step 4, .step 4, .step 4, .step 4, .step 4, .step 4]
    (fun s => s.err 1 = .timedOut ∧ s.err 2 = .cancelled ∧
      (treeSystem.runVia Timely s [.tick, .tick]).isSome = true)
    ⟨0, rfl⟩ (by decide +kernel)
  obtain ⟨u, hrun⟩ := Option.isSome_iff_exists.mp hsome
  obtain ⟨htruth, hstable⟩ := err_stable hs hrun 1
  obtain ⟨htruth', hstable'⟩ := err_stable hs hrun 2
  refine ⟨s, u, hs, hrun, htruth.timedOut.mp hchild, ?_, htruth'.cancelled.mp hother, ?_⟩
  · rw [hstable (hchild ▸ Err.noConfusion), hchild]
  · rw [hstable' (hother ▸ Err.noConfusion), hother]

/-- An explicit cancellation at 0 of a scope with the deadline 1 is reported as one, and at 1 as a time-out; one that
comes after the deadline but before the timer is reported as a time-out at once. -/
theorem err_unstable :
    (∃ s u, treeSystem.Reachable s ∧ treeSystem.run s [.tick] = some u ∧ s.err 0 = .cancelled ∧ u.err 0 = .timedOut) ∧
      ∃ s, treeSystem.Reachable s ∧ (s.scopes 0).cause = some .explicit ∧ s.err 0 = .timedOut := by
  constructor
  · obtain ⟨s, hs, hpre, hafter⟩ := treeSystem.reachable_of_run (.start 0)
      [.make none 1, .step 0, .step 0, .step 0, .step 0, .cancel 0, .step 1]
      (fun s => s.err 0 = .cancelled ∧ (treeSystem.run s [.tick]).map (·.err 0) = some .timedOut)
      ⟨0, rfl⟩ (by decide +kernel)
    obtain ⟨u, hrun, herr⟩ := Option.map_eq_some_iff.mp hafter
    exact ⟨s, u, hs, hrun, hpre, herr⟩
  · exact treeSystem.reachable_of_run (.start 0)
      [.make none 1, .step 0, .step 0, .step 0, .step 0, .tick, .cancel 0, .step 1]
      _ ⟨0, rfl⟩ (by decide +kernel)

end Cio.CancelTree
