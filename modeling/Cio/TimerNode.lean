import Cio.CallPool
import Cio.TransitionSystem

/-! One `Timer` node of the timer service over any number of rounds: `arm`, `disarm` from any thread, `run_expired` of
the shard it is linked in, and `drain_all`. Every access to the state word is a step, and so is a critical section of
a shard lock that makes one such access; only `drain_all` writes to the node after it has stored the word. -/

namespace Cio.TimerNode

open CallPool Transition List

inductive TimerState where
  | idle | armed | firing | fired | cancelled

/-- The states in which `disarm` returns false at once. -/
def TimerState.terminal : TimerState → Bool
  | .armed | .firing => false
  | .idle | .fired | .cancelled => true

/-- An `arm` in progress: the shard is written and the state is not yet, or the node is not yet linked. -/
inductive Arm where
  | idle
  | publish (shard : Nat)
  | link (shard : Nat)
  deriving DecidableEq

/-- A `disarm`: the load of the state at its entry, or in the loop while the node is firing, and then the section under
the lock of the shard that it has read. -/
inductive Disarm where
  | load
  | readShard
  | remove (shard : Nat)
  | returned
  deriving DecidableEq

/-- `run_expired_shard` with the node in its batch or its `on_fire` running, and `drain_all` between its stores of the
state and of `heap_index`. -/
inductive Service where
  | fire
  | onFire
  | drainIndex (shard : Nat)
  | done
  deriving DecidableEq

/-- How an arm ends: the callback ran (or a plain waiter was taken), a disarm returned true, `drain_all` cancelled it,
or `arm` itself failed to link the node. -/
inductive End where
  | fired | disarmed | drained | failed
  deriving DecidableEq

/-- The node: `linked` lists the shards whose heaps point to it, `inHeap` is `heap_index != kNotInHeap`, and `callback`
whether it has an `on_fire`; then the calls on it. The rest is history: the arms so far, how the current one ended
(every time it did) and how often each earlier one, whether a disarm has returned in the current one, whether a thread
touched the node after that, and whether a disarm returned false while the callback was running. -/
structure State where
  state : TimerState := .idle
  shard : Nat := 0
  linked : List Nat := []
  inHeap : Bool := false
  callback : Bool := false
  arm : Arm := .idle
  disarms : List Disarm := []
  service : List Service := []
  arms : Nat := 0
  ends : List End := []
  past : List Nat := []
  returned : Bool := false
  touched : Bool := false
  late : Bool := false

inductive Act where
  | arm (shard : Nat) (callback : Bool)
  | armStep
  | armFails
  | disarm
  | disarmStep (i : Nat)
  | expire (shard : Nat)
  | drain (shard : Nat)
  | serviceStep (i : Nat)

namespace State

def touch (s : State) : State := { s with touched := s.touched || s.returned }

/-- No `drain_all` is inside the lock of the shard. -/
def unlocked (s : State) (shard : Nat) : Bool := s.service.all fun pc => pc != .drainIndex shard

def setDisarm (s : State) (i : Nat) (pc : Disarm) : State := { s with disarms := s.disarms.set i pc }

def setService (s : State) (i : Nat) (pc : Service) : State := { s with service := s.service.set i pc }

def armStep (s : State) : Option State :=
  match s.arm with
  | .idle => none
  | .publish shard =>
    some
      { s with
        arm := .link shard
        state := .armed
        arms := s.arms + 1
        ends := []
        past := if s.arms = 0 then s.past else s.past ++ [s.ends.length]
        returned := false }
  | .link shard =>
    if s.unlocked shard then some { s.touch with arm := .idle, linked := shard :: s.linked, inHeap := true } else none

/-- Where `disarm` goes on after it has loaded the state. -/
def afterLoad (s : State) (i : Nat) : State :=
  match s.state with
  | .armed => s.setDisarm i .readShard
  | .firing => s.setDisarm i .load
  | .idle | .fired | .cancelled =>
    { s.setDisarm i .returned with returned := true, late := s.late || s.service.contains .onFire }

def disarmStep (s : State) (i : Nat) : Disarm → Option State
  | .load => some (s.touch.afterLoad i)
  | .readShard => some (s.touch.setDisarm i (.remove s.shard))
  | .remove shard =>
    if s.unlocked shard then
      if s.inHeap then
        some
          { s.touch.setDisarm i .returned with
            linked := s.linked.erase shard
            inHeap := false
            state := .cancelled
            ends := .disarmed :: s.ends
            returned := true }
      else some (s.touch.afterLoad i)
    else none
  | .returned => none

def serviceStep (s : State) (i : Nat) : Service → Option State
  | .fire => some (s.touch.setService i .onFire)
  | .onFire =>
    some { s.touch.setService i .done with state := .fired, ends := .fired :: s.ends }
  | .drainIndex shard => some { s.touch.setService i .done with linked := s.linked.erase shard, inHeap := false }
  | .done => none

/-- A node is armed when it is neither armed nor firing and no `arm` is in progress. -/
def step (s : State) : Act → Option State
  | .arm shard callback =>
    if s.state.terminal = true ∧ s.arm = .idle then some { s with shard, callback, arm := .publish shard } else none
  | .armStep => s.armStep
  | .armFails =>
    match s.arm with
    | .link shard =>
      if s.unlocked shard then
        some { s.touch with arm := .idle, state := .idle, ends := .failed :: s.ends }
      else none
    | _ => none
  | .disarm => some { s with disarms := s.disarms ++ [.load] }
  | .disarmStep i => s.disarms[i]?.bind (s.disarmStep i)
  | .expire shard =>
    if shard ∈ s.linked ∧ s.unlocked shard = true then
      if s.callback then
        some
          { s.touch with
            linked := s.linked.erase shard, inHeap := false, state := .firing, service := s.service ++ [.fire] }
      else
        some
          { s.touch with
            linked := s.linked.erase shard, inHeap := false, state := .fired, ends := .fired :: s.ends }
    else none
  | .drain shard =>
    if shard ∈ s.linked ∧ s.unlocked shard = true then
      some
        { s.touch with
          state := .cancelled, ends := .drained :: s.ends, service := s.service ++ [.drainIndex shard] }
    else none
  | .serviceStep i => s.service[i]?.bind (s.serviceStep i)

end State

def nodeSystem : System State Act where
  init s := s = {}
  step := State.step

def Disarm.active : Disarm → Nat
  | .returned => 0
  | _ => 1

def Service.firing : Service → Nat
  | .fire | .onFire => 1
  | _ => 0

def Service.draining : Service → Nat
  | .drainIndex _ => 1
  | _ => 0

/-- Every earlier arm ended in one way; the current one in at most one, and in one when the state is terminal again; no
disarm returned false while the callback was running, and every thread leaves the node alone once a disarm has
returned. -/
structure NodeSafe (s : State) : Prop where
  past : ∀ n ∈ s.past, n = 1
  once : s.ends.length ≤ 1
  ended : s.state.terminal = true → s.arms ≠ 0 → s.ends.length = 1
  disarmed : .disarmed ∈ s.ends → .fired ∉ s.ends ∧ weight Service.firing s.service = 0
  waited : s.late = false
  untouched : s.touched = false

/-- `drain_all` is not between its two stores when the node is armed or a disarm loads its state, no disarm of the
node is in progress when it is armed, and a disarm is the only one of its arm. -/
def State.orderly (s : State) : Act → Bool
  | .arm .. => weight Disarm.active s.disarms == 0 && weight Service.draining s.service == 0
  | .disarm => weight Disarm.active s.disarms == 0 && !s.returned
  | .disarmStep i => s.disarms[i]? != some .load || weight Service.draining s.service == 0
  | _ => true

def Orderly (s : State) (a : Act) : Prop := s.orderly a = true

instance (s : State) (a : Act) : Decidable (Orderly s a) := inferInstanceAs (Decidable (_ = true))

/-! ### The phases of an arm -/

/-- Over (or never begun), between the store of the state and the link, in a heap, popped, or between the two stores of
`drain_all`. -/
inductive Phase where
  | ended | linking | linked | firing | draining
  deriving DecidableEq

namespace Phase

def state : Phase → TimerState → Prop
  | .ended, t => t.terminal = true
  | .linking, t | .linked, t => t = .armed
  | .firing, t => t = .firing
  | .draining, t => t = .cancelled

def inHeap : Phase → Bool
  | .linked | .draining => true
  | _ => false

def arm (p : Phase) (shard : Nat) : Arm → Prop
  | .idle => p ≠ .linking
  | .publish k => p = .ended ∧ k = shard
  | .link k => p = .linking ∧ k = shard

def count (p q : Phase) : Nat := if p = q then 1 else 0

end Phase

/-- The node in phase `p` of its arm. -/
structure Kept (s : State) (p : Phase) : Prop where
  state : p.state s.state
  linked : s.linked = if p.inHeap then [s.shard] else []
  inHeap : s.inHeap = p.inHeap
  arm : p.arm s.shard s.arm
  firing : weight Service.firing s.service = p.count .firing
  draining : weight Service.draining s.service = p.count .draining
  drains : ∀ k, .drainIndex k ∈ s.service → k = s.shard
  removes : ∀ k, .remove k ∈ s.disarms → k = s.shard
  alone : weight Disarm.active s.disarms + s.returned.toNat ≤ 1
  once : s.ends.length = if p = .ended then (if s.arms = 0 then 0 else 1) else if p = .draining then 1 else 0
  begun : p ≠ .ended → s.arms ≠ 0
  disarmed : .disarmed ∈ s.ends → p = .ended
  returned : p ≠ .ended → s.returned = false
  past : ∀ n ∈ s.past, n = 1
  waited : s.late = false
  untouched : s.touched = false

variable {s u : State} {p q : Phase} {i shard : Nat}

lemma phase_of_mem {f : Service → Nat} {pc : Service} (hf : weight f s.service = p.count q) (hpc : pc ∈ s.service)
    (hpos : 0 < f pc) : p = q := by
  have hle := hpos.trans_le (le_weight f hpc)
  rw [hf, Phase.count] at hle
  split at hle
  · assumption
  · cases hle

lemma removes_set (h : ∀ k, .remove k ∈ s.disarms → k = s.shard) (pc : Disarm)
    (hpc : ∀ k, pc = .remove k → k = s.shard) (i : Nat) : ∀ k, .remove k ∈ s.disarms.set i pc → k = s.shard :=
  fun k hk => (mem_or_eq_of_mem_set hk).elim (h k) fun heq => hpc k heq.symm

lemma Kept.beginArm (h : Kept s .ended) (hdis : weight Disarm.active s.disarms = 0) (shard : Nat) (callback : Bool) :
    Kept { s with shard, callback, arm := .publish shard } .ended :=
  { h with
    linked := h.linked
    arm := ⟨rfl, rfl⟩
    drains := fun _ hk => nomatch h.draining ▸ le_weight Service.draining hk
    removes := fun _ hk => nomatch hdis ▸ le_weight Disarm.active hk }

section

variable (h : Kept s p)

include h

lemma Kept.once_le : s.ends.length ≤ 1 := by
  rw [h.once]
  split
  all_goals split <;> decide

lemma Kept.safe : NodeSafe s where
  past := h.past
  once := h.once_le
  ended hterm harms := by
    have hstate := h.state
    rw [h.once]
    cases p with
    | ended => rw [if_pos rfl, if_neg harms]
    | draining => rfl
    | linking | linked | firing =>
      rw [show s.state = _ from hstate] at hterm
      cases hterm
  disarmed hmem := by
    obtain rfl := h.disarmed hmem
    refine ⟨fun hfired => ?_, h.firing⟩
    obtain ⟨e, hends⟩ := length_eq_one_iff.mp (h.once_le.antisymm (length_pos_of_mem hmem))
    rw [hends, mem_singleton] at hmem hfired
    exact End.noConfusion (hmem.trans hfired.symm)
  waited := h.waited
  untouched := h.untouched

lemma Kept.not_draining (hopen : s.unlocked s.shard) : p ≠ .draining := by
  rintro rfl
  have hsum : 0 < weight Service.draining s.service := h.draining.symm ▸ Nat.one_pos
  obtain ⟨pc, hpc, hpos⟩ := exists_of_weight_pos hsum
  cases pc with
  | drainIndex shard =>
    have hne := all_eq_true.mp hopen _ hpc
    rw [h.drains shard hpc] at hne
    simp at hne
  | _ => cases hpos

lemma Kept.linked_of_mem (hmem : shard ∈ s.linked) (hopen : s.unlocked shard) :
    p = .linked ∧ shard = s.shard := by
  rw [h.linked] at hmem
  cases p with
  | ended | linking | firing => cases hmem
  | linked => exact ⟨rfl, mem_singleton.mp hmem⟩
  | draining =>
    have hshard := mem_singleton.mp hmem
    exact absurd rfl (h.not_draining (hshard ▸ hopen))

lemma Kept.erase : s.linked.erase s.shard = [] := by
  rw [h.linked]
  split <;> simp

lemma Kept.touch (hret : s.returned = false) : Kept s.touch p := by
  refine { h with untouched := ?_ }
  show (s.touched || s.returned) = false
  rw [h.untouched, hret]
  rfl

/-- The arm comes to its end, with none of the service's threads at the node. -/
lemma Kept.over (hp : p ≠ .ended) {t : TimerState} {e : List End} {l : List Nat} {b : Bool} {a : Arm}
    {w : List Service} (hstate : t.terminal = true) (honce : e.length = 1) (hlinked : l = []) (hinHeap : b = false)
    (harm : Phase.ended.arm s.shard a) (hfiring : weight Service.firing w = 0)
    (hdraining : weight Service.draining w = 0) :
    Kept { s.touch with state := t, ends := e, linked := l, inHeap := b, arm := a, service := w } .ended :=
  { h.touch (h.returned hp) with
    state := hstate
    linked := hlinked
    inHeap := hinHeap
    arm := harm
    firing := hfiring
    draining := hdraining
    drains := fun _ hk => nomatch hdraining ▸ le_weight Service.draining hk
    once := honce.trans (if_neg (h.begun hp)).symm
    begun := (absurd rfl ·)
    disarmed := fun _ => rfl
    returned := (absurd rfl ·) }

lemma Kept.arm_idle (hp : p ≠ .linking) (hended : p ≠ .ended) (hq : q ≠ .linking) :
    q.arm s.shard s.arm := by
  have harm := h.arm
  cases hpc : s.arm with rw [hpc] at harm
  | idle => exact hq
  | publish => exact absurd harm.1 hended
  | link => exact absurd harm.1 hp

/-! ### Steps of an arm -/

lemma Kept.ended_of_arm (hterm : s.state.terminal = true)
    (hdraining : weight Service.draining s.service = 0) : p = .ended := by
  have hstate := h.state
  cases p with
  | ended => rfl
  | linking | linked | firing =>
    rw [show s.state = _ from hstate] at hterm
    cases hterm
  | draining =>
    rw [h.draining] at hdraining
    cases hdraining

lemma Kept.armStep (hu : s.armStep = some u) : ∃ q, Kept u q := by
  have harm := h.arm
  cases hpc : s.arm with simp only [State.armStep, hpc] at hu harm
  | idle => cases hu
  | publish shard =>
    obtain ⟨rfl, rfl⟩ := harm
    cases hu
    refine ⟨.linking, { h with
      state := rfl, linked := h.linked, inHeap := h.inHeap, arm := ⟨rfl, rfl⟩, firing := h.firing
      draining := h.draining, alone := (Nat.le_add_right _ _).trans h.alone, once := rfl
      begun := fun _ => Nat.succ_ne_zero _, disarmed := nofun, returned := fun _ => rfl, past := fun n hn => ?_ }⟩
    have hn : n ∈ if s.arms = 0 then s.past else s.past ++ [s.ends.length] := hn
    split at hn
    · exact h.past n hn
    · rename_i harms
      refine (mem_append.mp hn).elim (h.past n) fun hnew => ?_
      rw [mem_singleton.mp hnew, h.once, if_pos rfl, if_neg harms]
  | link shard =>
    obtain ⟨rfl, rfl⟩ := harm
    obtain ⟨-, rfl⟩ := of_guard hu
    have hlinked : s.linked = [] := h.linked
    refine ⟨.linked, { h.touch (h.returned Phase.noConfusion) with
      state := h.state, linked := congrArg _ hlinked, inHeap := rfl, arm := Phase.noConfusion, firing := h.firing
      draining := h.draining, once := h.once, begun := fun _ => h.begun Phase.noConfusion
      disarmed := (nomatch h.disarmed ·), returned := fun _ => h.returned Phase.noConfusion }⟩

lemma Kept.armFails (hu : s.step .armFails = some u) : ∃ q, Kept u q := by
  have harm := h.arm
  rw [State.step] at hu
  split at hu
  · rename_i shard hpc
    rw [hpc] at harm
    obtain ⟨rfl, rfl⟩ := harm
    obtain ⟨-, rfl⟩ := of_guard hu
    exact ⟨.ended, h.over Phase.noConfusion rfl (congrArg (· + 1) h.once) h.linked h.inHeap Phase.noConfusion h.firing
      h.draining⟩
  · cases hu

/-! ### Steps of a disarm -/

lemma Kept.not_returned {pc : Disarm} (hi : s.disarms[i]? = some pc) (hact : pc.active = 1) :
    s.returned = false := by
  have hle := le_weight Disarm.active (mem_of_getElem? hi)
  have halone := h.alone
  rw [Bool.eq_false_iff]
  intro hret
  rw [hret, Bool.toNat_true] at halone
  omega

lemma Kept.setDisarm {pc : Disarm} (hi : s.disarms[i]? = some pc) (hact : pc.active = 1)
    (pc' : Disarm) (hpc : ∀ k, pc' = .remove k → k = s.shard) : Kept (s.setDisarm i pc') p := by
  refine { h with removes := removes_set h.removes pc' hpc i, alone := ?_ }
  have hset := weight_set Disarm.active hi pc'
  have hle : pc'.active ≤ 1 := by cases pc' <;> first | exact le_rfl | exact Nat.zero_le 1
  have halone := h.alone
  show weight Disarm.active (s.disarms.set i pc') + s.returned.toNat ≤ 1
  omega

/-- The disarm returns: it was the only one, so none is in progress. -/
lemma Kept.alone_returned {pc : Disarm} (hi : s.disarms[i]? = some pc) (hact : pc.active = 1) :
    weight Disarm.active (s.disarms.set i .returned) + 1 ≤ 1 := by
  have hset : weight Disarm.active (s.disarms.set i .returned) + pc.active = weight Disarm.active s.disarms + 0 :=
    weight_set Disarm.active hi .returned
  have halone := h.alone
  omega

lemma Kept.afterLoad (hp : p ≠ .draining) {pc : Disarm} (hi : s.disarms[i]? = some pc)
    (hact : pc.active = 1) : Kept (s.afterLoad i) p := by
  have hstate := h.state
  rw [State.afterLoad]
  split
  · exact h.setDisarm hi hact .readShard nofun
  · exact h.setDisarm hi hact .load nofun
  all_goals
    rename_i hterm
    rw [hterm] at hstate
    cases p with
    | ended =>
      refine { h.setDisarm hi hact .returned nofun with
        alone := h.alone_returned hi hact, returned := (absurd rfl ·), waited := ?_ }
      -- no thread is in the callback
      have hnone : s.service.contains .onFire = false := by
        rw [Bool.eq_false_iff]
        intro hcontains
        exact nomatch h.firing ▸ le_weight Service.firing (contains_iff_mem.mp hcontains)
      show (s.late || s.service.contains .onFire) = false
      rw [h.waited, hnone]
      rfl
    | linking | linked | firing => cases hstate
    | draining => exact absurd rfl hp

lemma Kept.disarmStep {pc : Disarm} (hi : s.disarms[i]? = some pc)
    (hload : pc = .load → weight Service.draining s.service = 0) (hu : s.disarmStep i pc = some u) : ∃ q, Kept u q := by
  cases pc with
  | load =>
    cases hu
    refine ⟨p, (h.touch (h.not_returned hi rfl)).afterLoad ?_ hi rfl⟩
    rintro rfl
    exact nomatch h.draining.symm.trans (hload rfl)
  | readShard =>
    cases hu
    refine ⟨p, (h.touch (h.not_returned hi rfl)).setDisarm hi rfl _ fun k hk => ?_⟩
    cases hk
    rfl
  | remove shard =>
    obtain rfl := h.removes _ (mem_of_getElem? hi)
    obtain ⟨hopen, hu⟩ := Option.ite_none_right_eq_some.mp hu
    have hdraining := h.not_draining hopen
    split at hu <;> cases hu
    · rename_i hin
      obtain rfl : p = .linked := by
        rw [h.inHeap] at hin
        cases p with
        | linked => rfl
        | draining => exact absurd rfl hdraining
        | ended | linking | firing => cases hin
      have hover := h.over (t := .cancelled) (e := .disarmed :: s.ends) Phase.noConfusion rfl
        (congrArg (· + 1) h.once) h.erase rfl (h.arm_idle Phase.noConfusion Phase.noConfusion Phase.noConfusion)
        h.firing h.draining
      exact ⟨.ended, { hover with
        removes := removes_set h.removes .returned nofun i
        alone := h.alone_returned hi rfl
        returned := (absurd rfl ·) }⟩
    · exact ⟨p, (h.touch (h.not_returned hi rfl)).afterLoad hdraining hi rfl⟩
  | returned => cases hu

/-! ### Steps of the service -/

lemma Kept.drains_append (pc : Service) (hpc : ∀ k, pc = .drainIndex k → k = s.shard) :
    ∀ k, .drainIndex k ∈ s.service ++ [pc] → k = s.shard :=
  fun k hk => (mem_append.mp hk).elim (h.drains k) fun hnew => hpc k (mem_singleton.mp hnew).symm

/-- A thread of the service takes the node out of the heap, or is about to. -/
lemma Kept.taken (hp : p = .linked) (hq : q = .firing ∨ q = .draining) {t : TimerState} {e : List End} {l : List Nat}
    {b : Bool} {w : List Service} (hstate : q.state t) (honce : e.length = if q = .draining then 1 else 0)
    (hdisarmed : .disarmed ∉ e) (hlinked : l = if q.inHeap then [s.shard] else []) (hinHeap : b = q.inHeap)
    (hfiring : weight Service.firing w = q.count .firing) (hdraining : weight Service.draining w = q.count .draining)
    (hdrains : ∀ k, .drainIndex k ∈ w → k = s.shard) :
    Kept { s.touch with state := t, ends := e, linked := l, inHeap := b, service := w } q := by
  subst hp
  have hended : q ≠ .ended := by rcases hq with rfl | rfl <;> exact Phase.noConfusion
  have hret := h.returned Phase.noConfusion
  exact { h.touch hret with
    state := hstate
    linked := hlinked
    inHeap := hinHeap
    arm := h.arm_idle Phase.noConfusion Phase.noConfusion (by rcases hq with rfl | rfl <;> exact Phase.noConfusion)
    firing := hfiring
    draining := hdraining
    drains := hdrains
    once := honce.trans (if_neg hended).symm
    begun := fun _ => h.begun Phase.noConfusion
    disarmed := (absurd · hdisarmed)
    returned := fun _ => hret }

lemma Kept.expire (hu : s.step (.expire shard) = some u) : ∃ q, Kept u q := by
  obtain ⟨⟨hmem, hopen⟩, hu⟩ := Option.ite_none_right_eq_some.mp hu
  obtain ⟨rfl, rfl⟩ := h.linked_of_mem hmem hopen
  split at hu <;> cases hu
  · exact ⟨.firing, h.taken rfl (.inl rfl) rfl h.once (nomatch h.disarmed ·) h.erase rfl
      ((weight_concat ..).trans (congrArg (· + 1) h.firing)) ((weight_concat ..).trans h.draining)
      (h.drains_append .fire nofun)⟩
  · exact ⟨.ended, h.over Phase.noConfusion rfl (congrArg (· + 1) h.once) h.erase rfl
      (h.arm_idle Phase.noConfusion Phase.noConfusion Phase.noConfusion) h.firing h.draining⟩

lemma Kept.drain (hu : s.step (.drain shard) = some u) : ∃ q, Kept u q := by
  obtain ⟨⟨hmem, hopen⟩, rfl⟩ := of_guard hu
  obtain ⟨rfl, rfl⟩ := h.linked_of_mem hmem hopen
  refine ⟨.draining, h.taken rfl (.inr rfl) rfl (congrArg (· + 1) h.once) (fun hdis => ?_) h.linked h.inHeap
    ((weight_concat ..).trans h.firing) ((weight_concat ..).trans (congrArg (· + 1) h.draining))
    (h.drains_append _ fun k hk => ?_)⟩
  · exact (mem_cons.mp hdis).elim nofun (nomatch h.disarmed ·)
  · cases hk
    rfl

lemma Kept.serviceStep {pc : Service} (hi : s.service[i]? = some pc) (hu : s.serviceStep i pc = some u) :
    ∃ q, Kept u q := by
  have hmem := mem_of_getElem? hi
  cases pc with
  | fire =>
    cases hu
    obtain rfl := phase_of_mem h.firing hmem Nat.one_pos
    have htouch := h.touch (h.returned Phase.noConfusion)
    exact ⟨.firing, { htouch with
      firing := weight_of_set hi rfl h.firing rfl
      draining := weight_of_set hi rfl h.draining rfl
      drains := fun k hk => (mem_or_eq_of_mem_set hk).elim (h.drains k) nofun }⟩
  | onFire =>
    cases hu
    obtain rfl := phase_of_mem h.firing hmem Nat.one_pos
    exact ⟨.ended, h.over Phase.noConfusion rfl (congrArg (· + 1) h.once) h.linked h.inHeap
      (h.arm_idle Phase.noConfusion Phase.noConfusion Phase.noConfusion) (weight_of_set hi rfl h.firing rfl)
      (weight_of_set hi rfl h.draining rfl)⟩
  | drainIndex shard =>
    cases hu
    obtain rfl := phase_of_mem h.draining hmem Nat.one_pos
    obtain rfl := h.drains _ hmem
    have hstate : s.state = .cancelled := h.state
    exact ⟨.ended, h.over Phase.noConfusion (hstate ▸ rfl) h.once h.erase rfl
      (h.arm_idle Phase.noConfusion Phase.noConfusion Phase.noConfusion) (weight_of_set hi rfl h.firing rfl)
      (weight_of_set hi rfl h.draining rfl)⟩
  | done => cases hu

end

/-! ### Every orderly run -/

lemma kept_step {a : Act} (h : Kept s p) (hord : Orderly s a) (hu : s.step a = some u) : ∃ q, Kept u q := by
  cases a with
  | arm shard callback =>
    obtain ⟨⟨hterm, -⟩, rfl⟩ := of_guard hu
    obtain ⟨hdis, hdraining⟩ := Bool.and_eq_true_iff.mp hord
    obtain rfl := h.ended_of_arm hterm (beq_iff_eq.mp hdraining)
    exact ⟨.ended, h.beginArm (beq_iff_eq.mp hdis) shard callback⟩
  | armStep => exact h.armStep hu
  | armFails => exact h.armFails hu
  | disarm =>
    cases hu
    obtain ⟨hnone, hret⟩ := Bool.and_eq_true_iff.mp hord
    have hfirst : s.returned = false := by simpa using hret
    refine ⟨p, { h with removes := fun k hk => (mem_append.mp hk).elim (h.removes k) (by simp), alone := ?_ }⟩
    rw [weight_concat, beq_iff_eq.mp hnone, hfirst]
    rfl
  | disarmStep i =>
    obtain ⟨pc, hi, hu⟩ := Option.bind_eq_some_iff.mp hu
    refine h.disarmStep hi (fun hload => ?_) hu
    subst hload
    have hord : (s.disarms[i]? != some .load || weight Service.draining s.service == 0) = true := hord
    rw [hi] at hord
    simpa using hord
  | expire => exact h.expire hu
  | drain => exact h.drain hu
  | serviceStep i =>
    obtain ⟨pc, hi, hu⟩ := Option.bind_eq_some_iff.mp hu
    exact h.serviceStep hi hu

lemma kept_fresh : Kept {} .ended where
  state := rfl
  linked := rfl
  inHeap := rfl
  arm := Phase.noConfusion
  firing := rfl
  draining := rfl
  drains := nofun
  removes := nofun
  alone := Nat.zero_le 1
  once := rfl
  begun := (absurd rfl ·)
  disarmed := nofun
  returned := (absurd rfl ·)
  past := nofun
  waited := rfl
  untouched := rfl

/-- **Every arm of the node ends in exactly one way, a disarm that returns false has waited for the callback, and no
thread touches the node when a disarm has returned, as long as `drain_all` is not overtaken between its two stores, the
node is not armed beside a disarm and no arm has two of them.** -/
theorem node_safe {s : State} (hs : nodeSystem.ReachableVia Orderly s) : NodeSafe s := by
  have hkept := hs.invariant (P := fun s => ∃ p, Kept s p) (fun s (hinit : s = {}) => ⟨.ended, hinit ▸ kept_fresh⟩)
    fun s a u ⟨p, h⟩ hord hstep => kept_step h hord hstep
  obtain ⟨p, h⟩ := hkept
  exact h.safe

/-- Three rounds: the callback runs and a disarm that waited for it returns false, a disarm beside the link returns
true, and `drain_all` cancels the third. -/
theorem node_safe_threeRounds : ∃ s, nodeSystem.ReachableVia Orderly s ∧ s.past = [1, 1] ∧ s.ends = [.drained] ∧
    NodeSafe s := by
  obtain ⟨s, hs, hpast, hdrained⟩ := nodeSystem.reachableVia_of_run Orderly {}
    [.arm 1 true, .armStep, .armStep, .expire 1, .disarm, .disarmStep 0, .serviceStep 0, .serviceStep 0, .disarmStep 0,
      .arm 2 true, .armStep, .disarm, .disarmStep 1, .disarmStep 1, .armStep, .disarmStep 1,
      .arm 0 false, .armStep, .armStep, .drain 0, .serviceStep 1]
    (fun s => s.past = [1, 1] ∧ s.ends = [.drained]) rfl (by decide +kernel)
  exact ⟨s, hs, hpast, hdrained, node_safe hs⟩

/-- A disarm that sees `drain_all`'s `kCancelled` returns while `drain_all` has still to write `heap_index`; of two
disarms of one arm one touches the node after the other has returned; and a disarm that has read the shard of an
earlier arm returns true for a node that stays in the heap of another shard, so its callback runs. -/
theorem node_unsafe : (∃ s, nodeSystem.Reachable s ∧ s.returned = true ∧ s.touched = true ∧ s.ends = [.drained]) ∧
      (∃ s, nodeSystem.Reachable s ∧ s.returned = true ∧ s.touched = true ∧ s.ends = [.disarmed]) ∧
      ∃ s, nodeSystem.Reachable s ∧ s.ends = [.fired, .disarmed] := by
  refine ⟨?_, ?_, ?_⟩
  · exact nodeSystem.reachable_of_run {}
      [.arm 0 true, .armStep, .armStep, .drain 0, .disarm, .disarmStep 0, .serviceStep 0] _ rfl (by decide +kernel)
  · exact nodeSystem.reachable_of_run {}
      [.arm 0 true, .armStep, .armStep, .disarm, .disarmStep 0, .disarm, .disarmStep 1, .disarmStep 1, .disarmStep 1,
        .disarmStep 0] _ rfl (by decide +kernel)
  · exact nodeSystem.reachable_of_run {}
      [.arm 0 true, .armStep, .armStep, .disarm, .disarmStep 0, .disarmStep 0, .disarm, .disarmStep 1, .disarmStep 1,
        .disarmStep 1, .arm 1 true, .armStep, .armStep, .disarmStep 0, .expire 1, .serviceStep 0, .serviceStep 0]
      _ rfl (by decide +kernel)

end Cio.TimerNode
