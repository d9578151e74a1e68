import Cio.CancelTree

/-! What every step of the cancellation tree keeps: a scope that is cancelled has someone who carries the cancellation
on, to its hooks, to its done channel and to each of its children. -/

namespace Cio.CancelTree

open CallPool State List Function CancelTree.Frame

variable {s u : State} {i n m : Nat} {f : Frame} {rest q : List Frame} {g : Frame → Nat}

/-! ### Facts that no step takes back -/

structure Scope.Grows (a b : Scope) : Prop where
  parent : ∀ m, a.parent = some m → b.parent = some m
  cancelled : a.cancelled = true → b.cancelled = true
  fired : a.fired = true → b.fired = true
  asked : a.asked = true → b.asked = true
  settled : a.settled = true → b.settled = true

structure Grows (s u : State) : Prop where
  scopes : ∀ n, (s.scopes n).Grows (u.scopes n)
  count : s.count ≤ u.count
  dead : ∀ n, n < s.count → (s.scopes n).live = false → (u.scopes n).live = false

namespace State

/-- Somebody asked for the cancellation of the scope, or its parent is cancelled. -/
def Caused (s : State) (n : Nat) : Prop :=
  (s.scopes n).asked = true ∨ ∃ m, (s.scopes n).parent = some m ∧ (s.scopes m).cancelled = true

@[simp] lemma modify_self (h : Scope → Scope) : (s.modify n h).scopes n = h (s.scopes n) := update_self ..

lemma modify_ne {k : Nat} (hk : k ≠ n) (h : Scope → Scope) : (s.modify n h).scopes k = s.scopes k :=
  update_of_ne hk ..

lemma modify_forall {R : Nat → Scope → Scope → Prop} {h : Scope → Scope} (hrefl : ∀ k x, R k x x)
    (hn : R n (s.scopes n) (h (s.scopes n))) (k : Nat) : R k (s.scopes k) ((s.modify n h).scopes k) := by
  by_cases hk : k = n
  · rw [hk, modify_self]
    exact hn
  · rw [modify_ne hk]
    exact hrefl k _

end State

lemma Scope.Grows.refl (a : Scope) : a.Grows a := ⟨fun _ h => h, id, id, id, id⟩

lemma grows_modify {h : Scope → Scope} (hgrows : (s.scopes n).Grows (h (s.scopes n)))
    (hdead : (s.scopes n).live = false → (h (s.scopes n)).live = false) : Grows s (s.modify n h) where
  scopes := modify_forall (fun _ => .refl) hgrows
  count := le_rfl
  dead k _ := modify_forall (R := fun _ a b => a.live = false → b.live = false) (fun _ _ => id) hdead k

lemma Grows.caused (h : Grows s u) (hn : s.Caused n) : u.Caused n :=
  hn.imp (h.scopes n).asked fun ⟨m, hup, hm⟩ => ⟨m, (h.scopes n).parent m hup, (h.scopes m).cancelled hm⟩

/-! ### The invariant -/

def State.Links (s : State) (n : Nat) (hook : Hook) : Prop :=
  match hook with
  | .link c => (s.scopes c).parent = some n ∧ (s.scopes c).settled = true
  | .user _ => True

def Frame.Sound (s : State) : Frame → Prop
  | .exchange n _ => s.Caused n ∧ (s.scopes n).settled = true
  | .collect n _ => (s.scopes n).cancelled = true
  | .fire n _ todo _ => (s.scopes n).fired = true ∧ ∀ hook ∈ todo, s.Links n hook
  | .build n => n < s.count
  | .unlink n => n < s.count ∧ (s.scopes n).live = false

/-- The cancellation of `m`, if there is one, has reached its child `n`, is on its way, or will find the link. -/
def State.Covered (s : State) (n m : Nat) : Prop :=
  (s.scopes n).cancelled = true ∨ 0 < s.running (exchanges n) ∨
    (s.scopes n).linked = true ∧
      ((s.scopes m).fired = false ∧ .link n ∈ (s.scopes m).hooks ∨ 0 < s.running (delivers m n))

def Scope.target (x : Scope) : Int :=
  match x.stage with
  | .store deadline => deadline
  | _ => x.deadlineNs

def Scope.timed (x : Scope) : Bool := x.timer || x.stage == .arm

/-- The scopes, their deadlines and who builds them. -/
structure Shape (s : State) : Prop where
  absent : ∀ n, s.count ≤ n → s.scopes n = .absent
  ordered : ∀ n m, (s.scopes n).parent = some m → m < n
  clamped : ∀ n, (s.scopes n).target = clamp (s.scopes n).own (s.deadlineOf (s.scopes n).parent)
  unset : ∀ n, (s.scopes n).settled = false → (s.scopes n).deadlineNs = 0
  parents : ∀ n m, (s.scopes n).parent = some m → (s.scopes m).settled = true
  timed : ∀ n, (s.scopes n).timed = true → (s.scopes n).settled = true ∧ (s.scopes n).deadlineNs ≠ 0
  building : ∀ n, n < s.count → (s.scopes n).stage ≠ .ready → 0 < s.running (builds n)

/-- Every cancellation is carried on to its end. -/
structure Reach (s : State) : Prop where
  fired : ∀ n, (s.scopes n).fired = true → (s.scopes n).cancelled = true ∧ (s.scopes n).hooks = []
  collecting : ∀ n, (s.scopes n).cancelled = true →
    (s.scopes n).fired = true ∨ 0 < s.running (collects n)
  covered : ∀ n m, (s.scopes n).live = true → (s.scopes n).parent = some m → (s.scopes n).placed = true → s.Covered n m
  closing : ∀ n, (s.scopes n).fired = true → (s.scopes n).done = .open → 0 < s.running (closes n)
  hooks : ∀ n, ∀ hook ∈ (s.scopes n).hooks, s.Links n hook
  frames : ∀ task ∈ s.tasks, ∀ x ∈ task, x.Sound s
  caused : ∀ n, (s.scopes n).cancelled = true → s.Caused n
  alive : ∀ n m, (s.scopes n).parent = some m → (s.scopes n).placed = false ∨ (s.scopes n).linked = true →
    (s.scopes m).live = true

structure Kept (s : State) : Prop where
  shape : Shape s
  reach : Reach s

lemma Grows.links (h : Grows s u) {hook : Hook} (hlinks : s.Links n hook) : u.Links n hook := by
  cases hook with
  | link c => exact ⟨(h.scopes c).parent n hlinks.1, (h.scopes c).settled hlinks.2⟩
  | user => trivial

lemma Grows.sound (h : Grows s u) (hf : f.Sound s) : f.Sound u := by
  cases f with
  | exchange n => exact ⟨h.caused hf.1, (h.scopes n).settled hf.2⟩
  | collect n => exact (h.scopes n).cancelled hf
  | fire n => exact ⟨(h.scopes n).fired hf.1, fun hook hhook => h.links (hf.2 hook hhook)⟩
  | build => exact hf.trans_le h.count
  | unlink n => exact ⟨hf.1.trans_le h.count, h.dead n hf.1 hf.2⟩

lemma Grows.frames_set (h : Grows s u) (hs : ∀ task ∈ s.tasks, ∀ x ∈ task, x.Sound s)
    (hi : s.tasks[i]? = some (f :: rest)) (hnew : ∀ x ∈ q, x.Sound u) :
    ∀ task ∈ s.tasks.set i (q ++ rest), ∀ x ∈ task, x.Sound u := by
  have hold : ∀ task ∈ s.tasks, ∀ x ∈ task, x.Sound u := fun task htask x hx => h.sound (hs task htask x hx)
  refine forall_set hold (fun x hx => ?_) i
  rcases mem_append.mp hx with hnewx | hrest
  · exact hnew x hnewx
  · exact hold _ (mem_of_getElem? hi) x (mem_cons_of_mem _ hrest)

lemma Grows.frames_spawn (h : Grows s u) (hs : ∀ task ∈ s.tasks, ∀ x ∈ task, x.Sound s) {task : List Frame}
    (htask : ∀ x ∈ task, x.Sound u) : ∀ t ∈ s.tasks ++ [task], ∀ x ∈ t, x.Sound u := by
  have hold : ∀ task ∈ s.tasks, ∀ x ∈ task, x.Sound u := fun task htask x hx => h.sound (hs task htask x hx)
  exact forall_append hold htask

lemma Reach.sound (h : Reach s) (hi : s.tasks[i]? = some (f :: rest)) : f.Sound s :=
  h.frames _ (mem_of_getElem? hi) f mem_cons_self

lemma Shape.lt_count (h : Shape s) (hn : s.scopes n ≠ .absent) : n < s.count := by
  by_contra hge
  exact hn (h.absent n (Nat.le_of_not_lt hge))

lemma Shape.lt_of_live (h : Shape s) (hlive : (s.scopes n).live) : n < s.count :=
  h.lt_count fun habs => by rw [habs] at hlive; cases hlive

lemma Shape.lt_of_cancelled (h : Shape s) (hcut : (s.scopes n).cancelled) : n < s.count :=
  h.lt_count fun habs => by rw [habs] at hcut; cases hcut

lemma Shape.lt_of_caused (h : Shape s) (hcaused : s.Caused n) : n < s.count := by
  refine h.lt_count fun habs => ?_
  rcases hcaused with hasked | ⟨m, hup, -⟩
  · rw [habs] at hasked
    cases hasked
  · rw [habs] at hup
    cases hup

/-! ### The shape of the tree -/

/-- A step of `make_scope`, or one that is not about the deadline. -/
structure Scope.Keeps (a b : Scope) : Prop where
  parent : b.parent = a.parent
  own : b.own = a.own
  target : b.target = a.target
  deadline : a.settled = true → b.deadlineNs = a.deadlineNs
  settled : a.settled = true → b.settled = true
  unset : b.settled = false → b.deadlineNs = 0
  timed : b.timed = true → a.timed = true ∨ b.settled = true ∧ b.deadlineNs ≠ 0
  ready : b.stage ≠ .ready → a.stage ≠ .ready

variable {h' : Scope → Scope}

lemma Shape.modify (h : Shape s) (hn : n < s.count)
    (hkeeps : (s.scopes n).Keeps (h' (s.scopes n))) : Shape (s.modify n h') := by
  have hup : ∀ k, ((s.modify n h').scopes k).parent = (s.scopes k).parent :=
    modify_forall (R := fun _ a b => b.parent = a.parent) (fun _ _ => rfl) hkeeps.parent
  have hdue : ∀ k, (s.scopes k).settled → ((s.modify n h').scopes k).deadlineNs = (s.scopes k).deadlineNs :=
    modify_forall (R := fun _ a b => a.settled → b.deadlineNs = a.deadlineNs) (fun _ _ _ => rfl)
      hkeeps.deadline
  refine ⟨fun k hk => ?_, fun k m hm => h.ordered k m ((hup k).symm.trans hm), fun k => ?_, fun k => ?_, ?_,
    fun k hk => ?_, ?_⟩
  · rw [modify_ne (ne_of_gt (hn.trans_le hk))]
    exact h.absent k hk
  · have htarget := modify_forall (s := s) (R := fun _ a b => b.target = a.target ∧ b.own = a.own)
      (fun _ _ => ⟨rfl, rfl⟩) ⟨hkeeps.target, hkeeps.own⟩ k
    rw [htarget.1, htarget.2, hup, h.clamped k]
    rcases hm : (s.scopes k).parent with _ | m
    · rfl
    · exact congrArg (clamp _) (hdue m (h.parents k m hm)).symm
  · by_cases hk : k = n
    · rw [hk, modify_self]
      exact hkeeps.unset
    · rw [modify_ne hk]
      exact h.unset k
  · intro k m hm
    exact modify_forall (R := fun _ a b => a.settled → b.settled) (fun _ _ => id) hkeeps.settled m
      (h.parents k m ((hup k).symm.trans hm))
  · by_cases hkn : k = n
    · subst hkn
      rw [modify_self] at hk ⊢
      rcases hkeeps.timed hk with hold | hnew
      · obtain ⟨hset, hne⟩ := h.timed k hold
        rw [hkeeps.deadline hset]
        exact ⟨hkeeps.settled hset, hne⟩
      · exact hnew
    · rw [modify_ne hkn] at hk ⊢
      exact h.timed k hk
  · intro k hk hready
    refine h.building k hk ?_
    exact modify_forall (R := fun _ a b => b.stage ≠ .ready → a.stage ≠ .ready) (fun _ _ => id) hkeeps.ready k hready

variable {l : List (List Frame)}

lemma Shape.tasks (h : Shape s)
    (hl : ∀ k, (s.scopes k).stage ≠ .ready → 0 < s.running (builds k) → 0 < weight (weight (builds k)) l) :
    Shape { s with tasks := l } :=
  { h with building := fun k hk hready => hl k hready (h.building k hk hready) }

lemma Shape.spawn (h : Shape s) (task : List Frame) : Shape (s.spawn task) := by
  refine h.tasks fun k _ hpos => ?_
  rw [weight_concat]
  exact Nat.lt_of_lt_of_le hpos (Nat.le_add_right _ _)

lemma Shape.set (h : Shape s) (hi : s.tasks[i]? = some (f :: rest))
    (hf : ∀ k, (s.scopes k).stage ≠ .ready → f.builds k ≤ weight (builds k) q) :
    Shape { s with tasks := s.tasks.set i (q ++ rest) } :=
  h.tasks fun k hready hpos => running_keep hi (hf k hready) hpos

lemma Shape.touch (h : Shape s) (hn : n < s.count)
    (hkeeps : ((h' (s.scopes n)).timer → (s.scopes n).timer) ∧ (h' (s.scopes n)).parent = (s.scopes n).parent ∧
      (h' (s.scopes n)).own = (s.scopes n).own ∧ (h' (s.scopes n)).stage = (s.scopes n).stage ∧
      (h' (s.scopes n)).deadlineNs = (s.scopes n).deadlineNs) : Shape (s.modify n h') := by
  obtain ⟨htimer, hup, hown, hstage, hdue⟩ := hkeeps
  refine h.modify hn
    { parent := hup
      own := hown
      target := by rw [Scope.target, Scope.target, hstage, hdue]
      deadline := fun _ => hdue
      settled := by rw [Scope.settled, Scope.settled, hstage]; exact id
      unset := by rw [Scope.settled, hstage, hdue]; exact h.unset n
      timed := fun hb => ?_
      ready := by rw [hstage]; exact id }
  rw [Scope.timed, hstage] at hb
  exact .inl ((Bool.or_eq_true_iff.mp hb).elim (fun ht => by rw [Scope.timed, htimer ht]; rfl)
    fun harm => by rw [Scope.timed, harm, Bool.or_true])

/-! ### Who carries a cancellation on -/

lemma Reach.set (h : Reach s) (hi : s.tasks[i]? = some (f :: rest)) (hnew : ∀ x ∈ q, x.Sound s)
    (hexchanges : ∀ k, (s.scopes k).cancelled = false → f.exchanges k ≤ weight (exchanges k) q := by
      exact fun _ _ => Nat.zero_le _)
    (hdelivers : ∀ m k, (s.scopes k).live →
      f.delivers m k ≤ weight (delivers m k) q ∨ 0 < weight (exchanges k) q := by
        exact fun _ _ _ => .inl (Nat.zero_le _))
    (hend : ∀ k, (s.scopes k).done = .open → f.closes k ≤ weight (closes k) q := by exact fun _ _ => Nat.zero_le _)
    (hcollects : ∀ k, f.collects k ≤ weight (collects k) q := by exact fun _ => Nat.zero_le _) :
    Reach { s with tasks := s.tasks.set i (q ++ rest) } where
  fired := h.fired
  collecting k hk := (h.collecting k hk).imp_right (running_keep hi (hcollects k))
  covered k m hlive hup hat := by
    by_cases hcut : (s.scopes k).cancelled
    · exact .inl hcut
    · rcases (h.covered k m hlive hup hat).resolve_left hcut with hpos | ⟨hlinked, hhook | hpos⟩
      · exact .inr (.inl (running_keep hi (hexchanges k (Bool.eq_false_iff.mpr hcut)) hpos))
      · exact .inr (.inr ⟨hlinked, .inl hhook⟩)
      · rcases hdelivers m k hlive with hkeep | hgain
        · exact .inr (.inr ⟨hlinked, .inr (running_keep hi hkeep hpos)⟩)
        · exact .inr (.inl (running_gain hi hgain))
  closing k hk hopen := running_keep hi (hend k hopen) (h.closing k hk hopen)
  hooks := h.hooks
  frames := Grows.frames_set
    ⟨fun _ => .refl _, le_rfl, fun _ _ => id⟩ h.frames hi hnew
  caused := h.caused
  alive := h.alive

lemma running_spawn (task : List Frame) (hpos : 0 < s.running g) : 0 < (s.spawn task).running g := by
  show 0 < weight (weight g) (s.tasks ++ [task])
  rw [weight_concat]
  exact Nat.lt_of_lt_of_le hpos (Nat.le_add_right _ _)

lemma Reach.spawn (h : Reach s) {task : List Frame} (htask : ∀ x ∈ task, x.Sound s) : Reach (s.spawn task) where
  fired := h.fired
  collecting k hk := (h.collecting k hk).imp_right (running_spawn task)
  covered k m hlive hup hat := by
    rcases h.covered k m hlive hup hat with hcut | hpos | ⟨hlinked, hhook | hpos⟩
    · exact .inl hcut
    · exact .inr (.inl (running_spawn task hpos))
    · exact .inr (.inr ⟨hlinked, .inl hhook⟩)
    · exact .inr (.inr ⟨hlinked, .inr (running_spawn task hpos)⟩)
  closing k hk hopen := running_spawn task (h.closing k hk hopen)
  hooks := h.hooks
  frames := Grows.frames_spawn ⟨fun _ => .refl _, le_rfl, fun _ _ => id⟩ h.frames htask
  caused := h.caused
  alive := h.alive

/-- What the invariant says of a scope, apart from its hooks and its done channel. A scope may die, and the link of a
dead one may go. -/
structure Scope.Alike (a b : Scope) : Prop where
  parent : b.parent = a.parent
  cancelled : b.cancelled = a.cancelled
  fired : b.fired = a.fired
  placed : b.placed = a.placed
  asked : a.asked = true → b.asked = true
  settled : a.settled = true → b.settled = true
  live : b.live = true → a.live = true
  linked : b.live = true → a.linked = true → b.linked = true
  unlinked : b.linked = true → a.linked = true

lemma Scope.Alike.grows {a b : Scope} (h : a.Alike b) : a.Grows b where
  parent _ hm := h.parent.trans hm
  cancelled := h.cancelled.trans
  fired := h.fired.trans
  asked := h.asked
  settled := h.settled

lemma Scope.Alike.refl (a : Scope) : a.Alike a := ⟨rfl, rfl, rfl, rfl, id, id, id, fun _ => id, id⟩

/-- A step of one scope alone: it dies only if no child depends on it, hooks are added that link children, or removed
that link none that is live, and the done channel is not opened after the fact. -/
lemma Reach.modify (h : Reach s) (halike : (s.scopes n).Alike (h' (s.scopes n)))
    (hnew : ∀ hook ∈ (h' (s.scopes n)).hooks, hook ∈ (s.scopes n).hooks ∨ s.Links n hook)
    (hold : ∀ k, (s.scopes k).live → .link k ∈ (s.scopes n).hooks → .link k ∈ (h' (s.scopes n)).hooks)
    (hempty : (s.scopes n).fired → (h' (s.scopes n)).hooks = [])
    (hdone : (s.scopes n).fired → (h' (s.scopes n)).done = .open → (s.scopes n).done = .open)
    (halive : (h' (s.scopes n)).live = (s.scopes n).live ∨
      ∀ k, (s.scopes k).parent = some n → (s.scopes k).placed ∧ (s.scopes k).linked = false) :
    Reach (s.modify n h') := by
  have hsc : ∀ k, (s.scopes k).Alike ((s.modify n h').scopes k) := modify_forall (fun _ => .refl) halike
  have hgrows : Grows s (s.modify n h') :=
    grows_modify halike.grows fun hdead => Bool.eq_false_iff.mpr fun hlive => by
      rw [halike.live hlive] at hdead
      cases hdead
  refine ⟨fun k hk => ?_, fun k hk => ?_, fun k m hlive hup hat => ?_, fun k hk hopen => ?_, fun k hook hhook => ?_,
    fun task htask x hx => hgrows.sound (h.frames task htask x hx), fun k hk => ?_, fun k m hup hor => ?_⟩
  · rw [(hsc k).fired] at hk
    refine ⟨(hsc k).cancelled.trans (h.fired k hk).1, ?_⟩
    by_cases hkn : k = n
    · subst hkn
      rw [modify_self]
      exact hempty hk
    · rw [modify_ne hkn]
      exact (h.fired k hk).2
  · rw [(hsc k).cancelled] at hk
    exact (h.collecting k hk).imp_left (hsc k).fired.trans
  · have hlink := (hsc k).linked hlive
    replace hlive := (hsc k).live hlive
    rw [(hsc k).parent] at hup
    rw [(hsc k).placed] at hat
    rcases h.covered k m hlive hup hat with hcut | hpos | ⟨hlinked, ⟨hfired, hhook⟩ | hpos⟩
    · exact .inl ((hsc k).cancelled.trans hcut)
    · exact .inr (.inl hpos)
    · refine .inr (.inr ⟨hlink hlinked, .inl ⟨(hsc m).fired.trans hfired, ?_⟩⟩)
      by_cases hmn : m = n
      · subst hmn
        rw [modify_self]
        exact hold k hlive hhook
      · rw [modify_ne hmn]
        exact hhook
    · exact .inr (.inr ⟨hlink hlinked, .inr hpos⟩)
  · rw [(hsc k).fired] at hk
    refine h.closing k hk ?_
    by_cases hkn : k = n
    · subst hkn
      rw [modify_self] at hopen
      exact hdone hk hopen
    · rwa [modify_ne hkn] at hopen
  · refine hgrows.links ?_
    by_cases hkn : k = n
    · subst hkn
      rw [modify_self] at hhook
      exact (hnew hook hhook).elim (h.hooks k hook) id
    · rw [modify_ne hkn] at hhook
      exact h.hooks k hook hhook
  · rw [(hsc k).cancelled] at hk
    exact hgrows.caused (h.caused k hk)
  · rw [(hsc k).parent] at hup
    rw [(hsc k).placed] at hor
    replace hor := hor.imp_right (hsc k).unlinked
    by_cases hmn : m = n
    · subst hmn
      rw [modify_self]
      rcases halive with hsame | hnone
      · exact hsame.trans (h.alive k m hup hor)
      · rw [(hnone k hup).1, (hnone k hup).2] at hor
        exact absurd hor (by decide)
    · rw [modify_ne hmn]
      exact h.alive k m hup hor

lemma Reach.alike (h : Reach s) (halike : (s.scopes n).Alike (h' (s.scopes n)))
    (hhooks : (h' (s.scopes n)).hooks = (s.scopes n).hooks) (hdone : (h' (s.scopes n)).done = (s.scopes n).done)
    (halive : (h' (s.scopes n)).live = (s.scopes n).live ∨
      ∀ k, (s.scopes k).parent = some n → (s.scopes k).placed ∧ (s.scopes k).linked = false) :
    Reach (s.modify n h') :=
  h.modify halike (fun _ hhook => .inl (hhooks ▸ hhook)) (fun _ _ hhook => hhooks.symm ▸ hhook)
    (fun hfired => hhooks.trans (h.fired n hfired).2) (fun _ hopen => hdone ▸ hopen) halive

structure Moves (s u : State) (n : Nat) (x : Scope) (l : List (List Frame)) : Prop where
  self : u.scopes n = x
  other : ∀ k, k ≠ n → u.scopes k = s.scopes k
  count : u.count = s.count
  tasks : u.tasks = l

lemma Moves.forall {x : Scope} (hu : Moves s u n x l) {R : Scope → Scope → Prop}
    (hrefl : ∀ x, R x x) (hn : R (s.scopes n) x) (k : Nat) : R (s.scopes k) (u.scopes k) := by
  by_cases hk : k = n
  · rw [hk, hu.self]
    exact hn
  · rw [hu.other k hk]
    exact hrefl _

lemma Moves.grows {x : Scope} (hu : Moves s u n x l) (hx : (s.scopes n).Grows x)
    (hdead : (s.scopes n).live = false → x.live = false) : Grows s u where
  scopes := hu.forall .refl hx
  count := hu.count.ge
  dead k _ := hu.forall (R := fun a b => a.live = false → b.live = false) (fun _ => id) hdead k

lemma Moves.keep {x : Scope} (hu : Moves s u n x (s.tasks.set i (q ++ rest))) (hi : s.tasks[i]? = some (f :: rest))
    (hg : g f = 0) (hpos : 0 < s.running g) : 0 < u.running g := by
  rw [running, hu.tasks]
  exact running_keep hi (hg ▸ Nat.zero_le _) hpos

/-- The parts of a scope that `cancel` does not write. -/
structure Scope.SameLinks (a b : Scope) : Prop where
  parent : b.parent = a.parent
  linked : b.linked = a.linked
  live : b.live = a.live
  placed : b.placed = a.placed
  done : b.done = a.done

lemma Scope.SameLinks.refl (a : Scope) : a.SameLinks a := ⟨rfl, rfl, rfl, rfl, rfl⟩

lemma Reach.alive_same (h : Reach s) (hsame : ∀ k, (s.scopes k).SameLinks (u.scopes k)) (k m : Nat)
    (hup : (u.scopes k).parent = some m) (hor : (u.scopes k).placed = false ∨ (u.scopes k).linked) :
    (u.scopes m).live = true := by
  rw [(hsame k).parent] at hup
  rw [(hsame k).placed, (hsame k).linked] at hor
  exact (hsame m).live.trans (h.alive k m hup hor)

lemma Reach.exchange (h : Reach s) {cause : Cause} (hi : s.tasks[i]? = some (.exchange n cause :: rest))
    (hopen : (s.scopes n).cancelled = false)
    (hu : Moves s u n { s.scopes n with cancelled := true, cause := some cause }
      (s.tasks.set i ([.collect n cause] ++ rest))) : Reach u := by
  have hgrows : Grows s u := hu.grows ⟨fun _ hm => hm, fun _ => rfl, id, id, id⟩ id
  have hsame := hu.forall Scope.SameLinks.refl ⟨rfl, rfl, rfl, rfl, rfl⟩
  have hfired : ∀ k, (u.scopes k).fired = (s.scopes k).fired :=
    hu.forall (R := fun a b => b.fired = a.fired) (fun _ => rfl) rfl
  have hhooks : ∀ k, (u.scopes k).hooks = (s.scopes k).hooks :=
    hu.forall (R := fun a b => b.hooks = a.hooks) (fun _ => rfl) rfl
  refine ⟨fun k hk => ?_, fun k hk => ?_, fun k m hlive hup hat => ?_, fun k hk hdone => ?_, fun k hook hhook => ?_,
    ?_, fun k hk => ?_, h.alive_same hsame⟩
  · rw [hfired] at hk
    rw [hhooks]
    exact ⟨(hgrows.scopes k).cancelled (h.fired k hk).1, (h.fired k hk).2⟩
  · by_cases hkn : k = n
    · subst hkn
      refine .inr ?_
      rw [running, hu.tasks]
      exact running_gain hi (by simp [weight, collects])
    · rw [hu.other k hkn] at hk
      rw [hfired]
      exact (h.collecting k hk).imp_right (hu.keep hi rfl)
  · by_cases hkn : k = n
    · subst hkn
      refine .inl ?_
      rw [hu.self]
    · rw [(hsame k).live] at hlive
      rw [(hsame k).parent] at hup
      rw [(hsame k).placed] at hat
      rw [Covered, hfired, hhooks, (hsame k).linked]
      refine (h.covered k m hlive hup hat).imp (hgrows.scopes k).cancelled (Or.imp (hu.keep hi ?_) ?_)
      · exact if_neg (Ne.symm hkn)
      · exact And.imp_right (Or.imp_right (hu.keep hi rfl))
  · rw [hfired] at hk
    rw [(hsame k).done] at hdone
    exact hu.keep hi rfl (h.closing k hk hdone)
  · rw [hhooks] at hhook
    exact hgrows.links (h.hooks k hook hhook)
  · rw [hu.tasks]
    refine hgrows.frames_set h.frames hi fun x hx => ?_
    rw [mem_singleton.mp hx]
    show (u.scopes n).cancelled
    rw [hu.self]
  · by_cases hkn : k = n
    · subst hkn
      exact hgrows.caused (h.sound hi).1
    · rw [hu.other k hkn] at hk
      exact hgrows.caused (h.caused k hk)

lemma Reach.collect (h : Reach s) {cause : Cause} (hi : s.tasks[i]? = some (.collect n cause :: rest))
    (hu : Moves s u n { s.scopes n with fired := true, hooks := [] }
      (s.tasks.set i ([.fire n cause (s.scopes n).hooks ((s.scopes n).done != .absent)] ++ rest))) : Reach u := by
  have hgrows : Grows s u := hu.grows ⟨fun _ hm => hm, id, fun _ => rfl, id, id⟩ id
  have hsame := hu.forall Scope.SameLinks.refl ⟨rfl, rfl, rfl, rfl, rfl⟩
  have hcut : ∀ k, (u.scopes k).cancelled = (s.scopes k).cancelled :=
    hu.forall (R := fun a b => b.cancelled = a.cancelled) (fun _ => rfl) rfl
  have hgain : ∀ {g : Frame → Nat}, 0 < g (.fire n cause (s.scopes n).hooks ((s.scopes n).done != .absent)) →
      0 < u.running g := by
    intro g hg
    rw [running, hu.tasks]
    exact running_gain hi (by rw [weight, weight]; exact hg)
  refine ⟨fun k hk => ?_, fun k hk => ?_, fun k m hlive hup hat => ?_, fun k hk hdone => ?_, fun k hook hhook => ?_,
    ?_, fun k hk => ?_, h.alive_same hsame⟩
  · by_cases hkn : k = n
    · subst hkn
      rw [hu.self]
      exact ⟨h.sound hi, rfl⟩
    · rw [hu.other k hkn] at hk ⊢
      exact h.fired k hk
  · by_cases hkn : k = n
    · subst hkn
      rw [hu.self]
      exact .inl rfl
    · rw [hu.other k hkn] at hk ⊢
      exact (h.collecting k hk).imp_right (hu.keep hi (if_neg (Ne.symm hkn)))
  · rw [(hsame k).live] at hlive
    rw [(hsame k).parent] at hup
    rw [(hsame k).placed] at hat
    rw [Covered, hcut, (hsame k).linked]
    refine (h.covered k m hlive hup hat).imp_right (Or.imp (hu.keep hi rfl) (And.imp_right ?_))
    rintro (⟨hfired, hhook⟩ | hpos)
    · by_cases hmn : m = n
      · subst hmn
        exact .inr (hgain (by simp [delivers, hhook]))
      · rw [hu.other m hmn]
        exact .inl ⟨hfired, hhook⟩
    · exact .inr (hu.keep hi rfl hpos)
  · rw [(hsame k).done] at hdone
    by_cases hkn : k = n
    · subst hkn
      exact hgain (by simp [closes, hdone])
    · rw [hu.other k hkn] at hk
      exact hu.keep hi rfl (h.closing k hk hdone)
  · by_cases hkn : k = n
    · subst hkn
      rw [hu.self] at hhook
      cases hhook
    · rw [hu.other k hkn] at hhook
      exact hgrows.links (h.hooks k hook hhook)
  · rw [hu.tasks]
    refine hgrows.frames_set h.frames hi fun x hx => ?_
    rw [mem_singleton.mp hx]
    refine ⟨?_, fun hook hhook => hgrows.links (h.hooks n hook hhook)⟩
    rw [hu.self]
  · rw [hcut] at hk
    exact hgrows.caused (h.caused k hk)

end Cio.CancelTree
