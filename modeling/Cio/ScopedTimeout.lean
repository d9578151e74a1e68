import Mathlib.Data.List.Perm.Basic
import Cio.TransitionSystem

/-! `Timeout`, a deadline for the lifetime of a scope. Each object saves the deadlines it finds and puts them back when
it ends, so scopes compose when the last one that was opened on a direction ends first. `release` and the assignment
of a moved object end them in any order. -/

namespace Cio.ScopedTimeout

open Transition List

inductive Dir where
  | read
  | write
  deriving DecidableEq

/-- `Timeout`. A deadline is in nanoseconds and zero is none; `socket_` is whether the pointer is set. `request` is
the deadline it was constructed with and `born` its place in the order of constructions. -/
structure Timeout where
  socket_ : Bool
  savedRead : Int
  savedWrite : Int
  read_ : Bool
  write_ : Bool
  request : Int
  born : Nat

namespace Timeout

def saved (t : Timeout) : Dir → Int
  | .read => t.savedRead
  | .write => t.savedWrite

def sets (t : Timeout) : Dir → Bool
  | .read => t.read_
  | .write => t.write_

def moved (t : Timeout) : Timeout := { t with socket_ := false }

end Timeout

def tightest (saved requested : Int) : Int := if saved = 0 then requested else min saved requested

/-- The socket with the deadlines of its directions, those it had at first, and the `Timeout` objects on it.
`directional` is `HasDirectionalDeadlines`: a listener has the combined setter only, which sets the read direction. -/
structure State where
  directional : Bool
  deadline : Dir → Int
  first : Dir → Int
  objects : List Timeout
  constructed : Nat

/-- The fields the constructor leaves: a direction it does not set has nothing saved. -/
def State.opened (s : State) (deadline : Int) (read write : Bool) : Timeout :=
  if s.directional then
    { socket_ := true, savedRead := if read then s.deadline .read else 0,
      savedWrite := if write then s.deadline .write else 0, read_ := read, write_ := write, request := deadline,
      born := s.constructed }
  else
    { socket_ := true, savedRead := s.deadline .read, savedWrite := 0, read_ := true, write_ := false,
      request := deadline, born := s.constructed }

def State.construct (s : State) (deadline : Int) (read write : Bool) : State :=
  let t := s.opened deadline read write
  { s with
    deadline := fun d => if t.sets d then tightest (t.saved d) deadline else s.deadline d
    objects := s.objects ++ [t]
    constructed := s.constructed + 1 }

/-- `restore`: setting a deadline of zero is clearing it. -/
def restore (t : Timeout) (deadline : Dir → Int) : Dir → Int :=
  fun d => if t.socket_ = true ∧ t.sets d = true then t.saved d else deadline d

inductive Act where
  | construct (deadline : Int) (read write : Bool)
  | moveConstruct (other : Nat)
  | moveAssign (self other : Nat)
  | release (self : Nat)
  | destroy (self : Nat)

def State.step (s : State) : Act → Option State
  | .construct deadline read write => if deadline = 0 then none else some (s.construct deadline read write)
  | .moveConstruct other =>
    s.objects[other]?.map fun t => { s with objects := s.objects.set other t.moved ++ [t] }
  | .moveAssign self other =>
    s.objects[self]?.bind fun t => s.objects[other]?.map fun t' =>
      if self = other then s
      else
        { s with
          deadline := restore t s.deadline
          objects := (s.objects.set self t').set other t'.moved }
  | .release self =>
    s.objects[self]?.map fun t =>
      { s with deadline := restore t s.deadline, objects := s.objects.set self t.moved }
  | .destroy self =>
    s.objects[self]?.map fun t => { s with deadline := restore t s.deadline, objects := s.objects.eraseIdx self }

def timeoutSystem : System State Act where
  init s := s.deadline = s.first ∧ s.objects = [] ∧ s.constructed = 0
  step := State.step

/-- Each direction's deadline is within the first one and within the requests of the active objects that set it; and
without an active object it is the first one. -/
structure Composed (s : State) : Prop where
  first : ∀ d, s.first d ≠ 0 → s.deadline d ≠ 0 ∧ s.deadline d ≤ s.first d
  requests : ∀ t ∈ s.objects, t.socket_ = true → ∀ d, t.sets d = true → s.deadline d ≠ 0 ∧ s.deadline d ≤ t.request
  restored : (∀ t ∈ s.objects, t.socket_ = false) → s.deadline = s.first

/-- No active object that was constructed later sets a direction of `t`. -/
def Timeout.Innermost (t : Timeout) (objects : List Timeout) : Prop :=
  ∀ other ∈ objects, other.socket_ = true → t.born < other.born →
    ¬ (t.read_ = true ∧ other.read_ = true) ∧ ¬ (t.write_ = true ∧ other.write_ = true)

instance (t : Timeout) (objects : List Timeout) : Decidable (t.Innermost objects) :=
  inferInstanceAs (Decidable (∀ other ∈ objects, _))

def Act.ends : Act → Option Nat
  | .construct .. | .moveConstruct _ => none
  | .moveAssign self other => if self = other then none else some self
  | .release self | .destroy self => some self

/-- The step ends no scope, or the innermost one. -/
def EndsInnermost (s : State) (a : Act) : Prop :=
  ∀ t ∈ a.ends.bind fun self => s.objects[self]?, t.socket_ = true → t.Innermost s.objects

instance (s : State) (a : Act) : Decidable (EndsInnermost s a) := inferInstanceAs (Decidable (∀ t ∈ _, _))

/-! ### Scopes inside one another -/

/-- The scopes on a direction, the innermost first: each has saved what those around it make of the first deadline. -/
def Nested (d : Dir) (first : Int) : List Timeout → Int → Prop
  | [], deadline => deadline = first
  | t :: outer, deadline => deadline = tightest (t.saved d) t.request ∧ Nested d first outer (t.saved d)

lemma tightest_ne_zero {saved requested : Int} (h : requested ≠ 0) : tightest saved requested ≠ 0 := by
  rw [tightest]
  split <;> omega

lemma tightest_le (saved requested : Int) : tightest saved requested ≤ requested := by
  rw [tightest]
  split
  · exact le_refl _
  · exact min_le_right _ _

lemma tightest_le_saved {saved requested : Int} (h : saved ≠ 0) : tightest saved requested ≤ saved := by
  rw [tightest, if_neg h]
  exact min_le_left _ _

lemma Nested.le_first {d : Dir} {first : Int} {scopes : List Timeout} {deadline : Int}
    (h : Nested d first scopes deadline) (hreq : ∀ t ∈ scopes, t.request ≠ 0) (hfirst : first ≠ 0) :
    deadline ≠ 0 ∧ deadline ≤ first := by
  induction scopes generalizing deadline with
  | nil =>
    cases h
    exact ⟨hfirst, le_refl _⟩
  | cons t outer ih =>
    obtain ⟨rfl, houter⟩ := h
    obtain ⟨hsaved, hle⟩ := ih houter fun t' ht' => hreq t' (mem_cons_of_mem _ ht')
    exact ⟨tightest_ne_zero (hreq t mem_cons_self), (tightest_le_saved hsaved).trans hle⟩

lemma Nested.le_request {d : Dir} {first : Int} {scopes : List Timeout} {deadline : Int}
    (h : Nested d first scopes deadline) (hreq : ∀ t ∈ scopes, t.request ≠ 0) {t : Timeout} (ht : t ∈ scopes) :
    deadline ≠ 0 ∧ deadline ≤ t.request := by
  induction scopes generalizing deadline with
  | nil => cases ht
  | cons inner outer ih =>
    obtain ⟨rfl, houter⟩ := h
    refine ⟨tightest_ne_zero (hreq inner mem_cons_self), ?_⟩
    rcases mem_cons.mp ht with rfl | hmem
    · exact tightest_le _ _
    · obtain ⟨hsaved, hle⟩ := ih houter (fun t' ht' => hreq t' (mem_cons_of_mem _ ht')) hmem
      exact (tightest_le_saved hsaved).trans hle

/-- The active objects in the order of their constructions are nested on every direction. -/
structure Stacked (first : Dir → Int) (constructed : Nat) (deadline : Dir → Int) (objects stack : List Timeout) :
    Prop where
  active : stack.Perm (objects.filter fun t => t.socket_)
  sorted : stack.Pairwise fun inner outer => outer.born < inner.born
  born : ∀ t ∈ stack, t.born < constructed
  requests : ∀ t ∈ stack, t.request ≠ 0
  nested : ∀ d, Nested d (first d) (stack.filter fun t => t.sets d) (deadline d)

section

variable {first deadline : Dir → Int} {constructed : Nat} {objects others stack rest : List Timeout} {t : Timeout}

lemma Stacked.perm (h : Stacked first constructed deadline objects stack) (hperm : objects.Perm others) :
    Stacked first constructed deadline others stack :=
  { h with active := h.active.trans (hperm.filter _) }

lemma stacked_cons_inert (hinert : t.socket_ = false) :
    Stacked first constructed deadline (t :: rest) stack ↔ Stacked first constructed deadline rest stack := by
  have hfilter : (t :: rest).filter (fun t => t.socket_) = rest.filter fun t => t.socket_ :=
    filter_cons_of_neg (hinert ▸ Bool.false_ne_true)
  constructor
  · intro h
    exact { h with active := hfilter ▸ h.active }
  · intro h
    exact { h with active := hfilter.symm ▸ h.active }

lemma Stacked.cons (h : Stacked first constructed deadline objects stack) (hact : t.socket_)
    (hborn : t.born = constructed) (hrequest : t.request ≠ 0) (hsaved : ∀ d, t.sets d → t.saved d = deadline d) :
    Stacked first (constructed + 1) (fun d => if t.sets d then tightest (t.saved d) t.request else deadline d)
      (objects ++ [t]) (t :: stack) where
  active := by
    rw [filter_append, filter_cons_of_pos hact]
    exact (h.active.cons t).trans (perm_append_singleton t _).symm
  sorted := pairwise_cons.mpr ⟨fun outer houter => hborn ▸ h.born outer houter, h.sorted⟩
  born := by
    intro x hx
    rcases mem_cons.mp hx with rfl | hmem
    · rw [hborn]
      exact Nat.lt_succ_self _
    · exact Nat.lt_succ_of_lt (h.born x hmem)
  requests := by
    intro x hx
    rcases mem_cons.mp hx with rfl | hmem
    · exact hrequest
    · exact h.requests x hmem
  nested := by
    intro d
    rw [filter_cons]
    by_cases hsets : t.sets d
    · rw [if_pos hsets, if_pos hsets]
      refine ⟨rfl, ?_⟩
      rw [hsaved d hsets]
      exact h.nested d
    · rw [if_neg hsets, if_neg hsets]
      exact h.nested d

lemma Stacked.restore (h : Stacked first constructed deadline (t :: rest) stack) (hact : t.socket_)
    (hinner : t.Innermost rest) :
    ∃ others, Stacked first constructed (ScopedTimeout.restore t deadline) rest others := by
  have hperm := h.active
  rw [filter_cons_of_pos hact] at hperm
  obtain ⟨inner, outer, rfl⟩ := append_of_mem (hperm.mem_iff.mpr mem_cons_self)
  have hoth : (inner ++ outer).Perm (rest.filter fun t => t.socket_) := (perm_middle.symm.trans hperm).cons_inv
  have hsub : (inner ++ outer).Sublist (inner ++ t :: outer) :=
    Sublist.append_left (sublist_cons_self t outer) inner
  refine ⟨inner ++ outer, hoth, h.sorted.sublist hsub, fun x hx => h.born x (hsub.subset hx),
    fun x hx => h.requests x (hsub.subset hx), fun d => ?_⟩
  have hnest := h.nested d
  rw [filter_append] at hnest ⊢
  rw [filter_cons] at hnest
  by_cases hsets : t.sets d
  · -- those inside `t` were constructed later, so they do not set this direction
    have hnone : inner.filter (fun t => t.sets d) = [] := by
      rw [filter_eq_nil_iff]
      intro x hx hxsets
      have hborn : t.born < x.born := (pairwise_append.mp h.sorted).2.2 x hx t mem_cons_self
      have hmem := mem_filter.mp (hoth.mem_iff.mp (mem_append_left _ hx))
      obtain ⟨hread, hwrite⟩ := hinner x hmem.1 hmem.2 hborn
      cases d with
      | read => exact hread ⟨hsets, hxsets⟩
      | write => exact hwrite ⟨hsets, hxsets⟩
    rw [hnone, nil_append, if_pos hsets] at hnest
    rw [hnone, nil_append]
    have hrestored : ScopedTimeout.restore t deadline d = t.saved d := if_pos ⟨hact, hsets⟩
    rw [hrestored]
    exact hnest.2
  · rw [if_neg hsets] at hnest
    have hsame : ScopedTimeout.restore t deadline d = deadline d := if_neg fun hboth => hsets hboth.2
    rw [hsame]
    exact hnest

lemma perm_cons_eraseIdx (ht : objects[i]? = some t) : objects.Perm (t :: objects.eraseIdx i) := by
  obtain ⟨hi, rfl⟩ := List.getElem?_eq_some_iff.mp ht
  exact (getElem_cons_eraseIdx_perm hi).symm

lemma set_perm {x : Timeout} (hx : objects[i]? = some x) : (t :: objects.eraseIdx i).Perm (objects.set i t) :=
  (set_perm_cons_eraseIdx (List.getElem?_eq_some_iff.mp hx).1 t).symm

lemma Stacked.leave (h : Stacked first constructed deadline objects stack) (ht : objects[i]? = some t)
    (hinner : t.socket_ → t.Innermost objects) :
    ∃ others, Stacked first constructed (ScopedTimeout.restore t deadline) (objects.eraseIdx i) others := by
  have hperm := perm_cons_eraseIdx ht
  have hcons := h.perm hperm
  cases hact : t.socket_ with
  | true =>
    refine hcons.restore hact fun other hother => ?_
    exact hinner hact other (hperm.mem_iff.mpr (mem_cons_of_mem _ hother))
  | false =>
    have hsame : ScopedTimeout.restore t deadline = deadline := by
      funext d
      exact if_neg fun hboth => Bool.false_ne_true (hact ▸ hboth.1)
    rw [hsame]
    exact ⟨stack, (stacked_cons_inert hact).mp hcons⟩

lemma Stacked.move (h : Stacked first constructed deadline objects stack) {i j : Nat} {inert : Timeout}
    (hi : objects[i]? = some inert) (hinert : inert.socket_ = false) (hj : objects[j]? = some t) (hne : i ≠ j) :
    Stacked first constructed deadline ((objects.set i t).set j t.moved) stack := by
  have hjset : (objects.set i t)[j]? = some t := by rw [getElem?_set_ne hne, hj]
  -- `t` twice and the objects are the new objects and the inactive one that was overwritten
  have hpre : (t :: objects).Perm (inert :: objects.set i t) :=
    ((perm_cons_eraseIdx hi).cons t).trans ((Perm.swap inert t _).trans ((set_perm hi).cons inert))
  have hobjects : objects.Perm (inert :: (objects.set i t).eraseIdx j) :=
    (hpre.trans (((perm_cons_eraseIdx hjset).cons inert).trans (Perm.swap t inert _))).cons_inv
  have hrest := (stacked_cons_inert hinert).mp (h.perm hobjects)
  exact ((stacked_cons_inert rfl).mpr hrest).perm (set_perm hjset)

end

/-! ### Runs that end the innermost scope -/

def Kept (s : State) : Prop := ∃ stack, Stacked s.first s.constructed s.deadline s.objects stack

lemma opened_saved (s : State) (deadline : Int) (read write : Bool) (d : Dir)
    (hsets : (s.opened deadline read write).sets d) : (s.opened deadline read write).saved d = s.deadline d := by
  rw [State.opened] at hsets ⊢
  split at hsets <;> rename_i hdirectional
  · rw [if_pos hdirectional]
    cases d with
    | read | write => exact if_pos hsets
  · rw [if_neg hdirectional]
    cases d with
    | read => rfl
    | write => cases hsets

variable {i : Nat} {s : State}

lemma kept_construct (h : Kept s) {deadline : Int} (hdue : deadline ≠ 0) (read write : Bool) :
    Kept (s.construct deadline read write) := by
  obtain ⟨stack, hstack⟩ := h
  have hopen : ∀ t, t = s.opened deadline read write →
      t.socket_ ∧ t.born = s.constructed ∧ t.request = deadline := by
    rintro t rfl
    rw [State.opened]
    split <;> exact ⟨rfl, rfl, rfl⟩
  obtain ⟨hact, hborn, hrequest⟩ := hopen _ rfl
  have hcons := hstack.cons hact hborn (hrequest.trans_ne hdue) (opened_saved s deadline read write)
  rw [hrequest] at hcons
  exact ⟨_, hcons⟩

lemma kept_moveAssign (h : Kept s) {j : Nat} {t t' : Timeout} (ht : s.objects[i]? = some t)
    (ht' : s.objects[j]? = some t') (hne : i ≠ j) (hinner : t.socket_ → t.Innermost s.objects) :
    Kept { s with deadline := restore t s.deadline, objects := (s.objects.set i t').set j t'.moved } := by
  obtain ⟨stack, hstack⟩ := h
  obtain ⟨others, hleft⟩ := hstack.leave ht hinner
  -- the old scope is over before the fields of the other object are taken
  have hrel := ((stacked_cons_inert (t := t.moved) rfl).mpr hleft).perm (set_perm ht)
  have hself : (s.objects.set i t.moved)[i]? = some t.moved :=
    getElem?_set_self (List.getElem?_eq_some_iff.mp ht).1
  have hother : (s.objects.set i t.moved)[j]? = some t' := by rw [getElem?_set_ne hne, ht']
  have hmoved := hrel.move hself rfl hother hne
  rw [set_set] at hmoved
  exact ⟨others, hmoved⟩

lemma kept_step {u : State} {a : Act} (h : Kept s) (hends : EndsInnermost s a) (hs : s.step a = some u) : Kept u := by
  cases a with
  | construct deadline read write =>
    obtain ⟨hguard, rfl⟩ := of_unless hs
    exact kept_construct h hguard read write
  | moveConstruct =>
    obtain ⟨t, ht, rfl⟩ := Option.map_eq_some_iff.mp hs
    obtain ⟨stack, hstack⟩ := h
    have hrest := (stacked_cons_inert (t := t.moved) rfl).mpr (hstack.perm (perm_cons_eraseIdx ht))
    refine ⟨stack, hrest.perm ((Perm.swap t t.moved _).trans ?_)⟩
    exact ((set_perm ht).cons t).trans (perm_append_singleton t _).symm
  | moveAssign self other =>
    obtain ⟨t, ht, hrest⟩ := Option.bind_eq_some_iff.mp hs
    obtain ⟨t', ht', rfl⟩ := Option.map_eq_some_iff.mp hrest
    split
    · exact h
    · rename_i hne
      refine kept_moveAssign h ht ht' hne (hends t ?_)
      rw [Act.ends, if_neg hne]
      exact ht
  | release =>
    obtain ⟨t, ht, rfl⟩ := Option.map_eq_some_iff.mp hs
    obtain ⟨stack, hstack⟩ := h
    obtain ⟨others, hleft⟩ := hstack.leave ht (hends t ht)
    exact ⟨others, ((stacked_cons_inert rfl).mpr hleft).perm (set_perm ht)⟩
  | destroy =>
    obtain ⟨t, ht, rfl⟩ := Option.map_eq_some_iff.mp hs
    obtain ⟨stack, hstack⟩ := h
    exact hstack.leave ht (hends t ht)

lemma Kept.composed (h : Kept s) : Composed s := by
  obtain ⟨stack, hstack⟩ := h
  have hreq : ∀ d, ∀ t ∈ stack.filter (fun t => t.sets d), t.request ≠ 0 :=
    fun d t ht => hstack.requests t (mem_filter.mp ht).1
  refine ⟨fun d => (hstack.nested d).le_first (hreq d), fun t ht hact d hsets => ?_, fun hnone => ?_⟩
  · have hmem : t ∈ stack := hstack.active.mem_iff.mpr (mem_filter.mpr ⟨ht, hact⟩)
    exact (hstack.nested d).le_request (hreq d) (mem_filter.mpr ⟨hmem, hsets⟩)
  · have hempty : s.objects.filter (fun t => t.socket_) = [] := by
      rw [filter_eq_nil_iff]
      intro t ht hact
      rw [hnone t ht] at hact
      cases hact
    have hperm := hstack.active
    rw [hempty] at hperm
    obtain rfl := hperm.eq_nil
    funext d
    exact hstack.nested d

/-- **As long as every scope that ends is the innermost one on the directions it sets, the deadlines respect the first
ones and all active requests, and the first ones are back when no scope is active.** -/
theorem timeouts_compose {s : State} (hs : timeoutSystem.ReachableVia EndsInnermost s) : Composed s := by
  refine Kept.composed (hs.invariant ?_ fun s a u h hends hstep => kept_step h hends hstep)
  rintro s ⟨hdue, hobjects, -⟩
  refine ⟨[], ?_, List.Pairwise.nil, nofun, nofun, fun d => ?_⟩
  · rw [hobjects]
    exact List.Perm.refl _
  · rw [hdue]
    rfl

/-- A scope of 30 inside one of 50, around which the socket has a deadline of 40 on its write direction. -/
def budget : State where
  directional := true
  deadline d := if d = .read then 0 else 40
  first d := if d = .read then 0 else 40
  objects := []
  constructed := 0

theorem timeouts_compose_nested : ∃ s, timeoutSystem.ReachableVia EndsInnermost s ∧ s.objects.length = 2 ∧
    s.deadline .read = 30 ∧ s.deadline .write = 40 ∧ Composed s := by
  obtain ⟨s, hs, hlen, hread, hwrite⟩ := timeoutSystem.reachableVia_of_run EndsInnermost budget
    [.construct 50 true true, .construct 30 true false, .moveConstruct 1, .destroy 1]
    (fun s => s.objects.length = 2 ∧ s.deadline .read = 30 ∧ s.deadline .write = 40) ⟨rfl, rfl, rfl⟩
    (by decide +kernel)
  exact ⟨s, hs, hlen, hread, hwrite, timeouts_compose hs⟩

/-- Assigning a new `Timeout` to one that is still active leaves the socket without the new deadline, and restores the
old request when the last scope ends. -/
theorem assigned_timeout_lost :
    (∃ s, timeoutSystem.Reachable s ∧ (∃ t ∈ s.objects, t.socket_ = true ∧ t.sets .read = true ∧ t.request = 30) ∧
      s.deadline .read = 0) ∧
    ∃ s, timeoutSystem.Reachable s ∧ (∀ t ∈ s.objects, t.socket_ = false) ∧ s.first .read = 0 ∧
      s.deadline .read = 50 := by
  refine ⟨?_, ?_⟩
  · exact timeoutSystem.reachable_of_run budget [.construct 50 true true, .construct 30 true true, .moveAssign 0 1]
      _ ⟨rfl, rfl, rfl⟩ (by decide +kernel)
  · exact timeoutSystem.reachable_of_run budget
      [.construct 50 true true, .construct 30 true true, .moveAssign 0 1, .destroy 1, .destroy 0]
      _
      ⟨rfl, rfl, rfl⟩ (by decide +kernel)

end Cio.ScopedTimeout
