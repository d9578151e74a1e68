import Cio.TransitionSystem
import Cio.WrapCounter

/-! `LocalRunQueue`, the single-producer multi-consumer ring of a worker, at the granularity of its
atomic accesses. The owner pushes, pops and takes half on overflow, any number of thieves grab; every
load of `head_` or `tail_`, every slot access and every compare-exchange is one step, and the
counters wrap at 32 bits.
The ghost fields count the advances of `head_` and the stores to each slot, and record what was
pushed and what successful compare-exchanges handed out. -/

namespace Cio.Queue

open Transition WrapCounter Function List Option

def localQueueCapacity : UInt32 := 256

def localQueueMask : UInt32 := localQueueCapacity - 1

/-- A reservation in the making: the loaded head (and how often `head_` had been advanced then), the
number of items, and the slots read so far with the number of stores they had seen. -/
structure Attempt (α : Type) where
  h : UInt32
  epoch : Nat
  n : UInt32
  out : List (Option α × Nat) := []

/-- The owner, between two accesses to the ring. -/
inductive OwnerPc (α : Type) where
  | idle
  | pushLoadTail (item : α) (spawnMode : Option UInt8)
  | pushLoadHead (item : α) (spawnMode : Option UInt8) (t : UInt32)
  | pushStore (item : α) (spawnMode : Option UInt8) (t : UInt32)
  | pushPublish (item : α) (spawnMode : Option UInt8) (t : UInt32)
  | popLoadHead
  | popLoadTail (h : UInt32) (epoch : Nat)
  | popTake (a : Attempt α)
  | halfLoadTail
  | halfLoadHead (t : UInt32)
  | halfTake (a : Attempt α)

inductive ThiefPc (α : Type) where
  | idle
  | loadHead (max : UInt32)
  | loadTail (max : UInt32) (h : UInt32) (epoch : Nat)
  | take (max : UInt32) (a : Attempt α)

structure QueueState (α : Type) where
  head : UInt32 := 0
  tail : UInt32 := 0
  buf : Nat → Option α := fun _ => none
  owner : OwnerPc α := .idle
  thief : Nat → ThiefPc α := fun _ => .idle
  pushReturned : List (Bool × Option UInt8) := []
  headCount : Nat := 0
  writes : Nat → Nat := fun _ => 0
  pushed : List α := []
  taken : List (Option α) := []
  overwritten : Bool := false

inductive QueueAct (α : Type) where
  | push (item : α) (spawnMode : Option UInt8)
  | pop
  | popHalf
  | owner
  | grab (k : Nat) (max : UInt32)
  | thief (k : Nat)

namespace QueueState

variable {α : Type}

def slot (h : UInt32) (i : Nat) : Nat := ((h + word i) &&& localQueueMask).toNat

/-- The low bits of the spawn mode that `push` writes for its caller. -/
def setSpawnMode (bits mode : UInt8) : UInt8 := (mode &&& ~~~3) ||| bits

/-- Some slot that `a` read has been stored to since. -/
def stale (s : QueueState α) (a : Attempt α) : Bool :=
  (range a.n.toNat).any fun i =>
    (a.out[i]?).map Prod.snd != some (s.writes (slot a.h i))

/-- One access of a reservation: the next slot read, or the compare-exchange. `none` means that the
exchange failed. -/
def read (s : QueueState α) (a : Attempt α) : Attempt α :=
  let i := slot a.h a.out.length
  { a with out := a.out ++ [(s.buf i, s.writes i)] }

def exchange (s : QueueState α) (a : Attempt α) : Option (QueueState α) :=
  if s.head = a.h then
    some { s with
      head := a.h + a.n
      headCount := s.headCount + a.n.toNat
      taken := s.taken ++ a.out.map Prod.fst
      overwritten := s.overwritten || s.stale a }
  else none

/-- `push`, `pop` and `pop_half`, one access at a time. -/
def ownerStep (s : QueueState α) : Option (QueueState α) :=
  match s.owner with
  | .idle => none
  | .pushLoadTail item mode => some { s with owner := .pushLoadHead item mode s.tail }
  | .pushLoadHead item mode t =>
    if localQueueCapacity ≤ t - s.head then
      some { s with
        owner := .idle
        pushReturned := s.pushReturned ++ [(false, mode.map (setSpawnMode 1))] }
    else
      some { s with
        owner := .pushStore item (mode.map (setSpawnMode (if t = s.head then 2 else 1))) t }
  | .pushStore item mode t =>
    some { s with
      buf := update s.buf (slot t 0) (some item)
      writes := update s.writes (slot t 0) (s.writes (slot t 0) + 1)
      owner := .pushPublish item mode t }
  | .pushPublish item mode t =>
    some { s with
      tail := t + 1
      pushed := s.pushed ++ [item]
      owner := .idle
      pushReturned := s.pushReturned ++ [(true, mode)] }
  | .popLoadHead => some { s with owner := .popLoadTail s.head s.headCount }
  | .popLoadTail h epoch =>
    if s.tail = h then some { s with owner := .idle }
    else some { s with owner := .popTake { h := h, epoch := epoch, n := 1 } }
  | .popTake a =>
    if a.out.length < a.n.toNat then some { s with owner := .popTake (s.read a) }
    else
      match s.exchange a with
      | some s' => some { s' with owner := .idle }
      | none => some { s with owner := .popLoadHead }
  | .halfLoadTail => some { s with owner := .halfLoadHead s.tail }
  | .halfLoadHead t =>
    let n := (t - s.head) / 2
    if n = 0 then some { s with owner := .idle }
    else some { s with owner := .halfTake { h := s.head, epoch := s.headCount, n := n } }
  | .halfTake a =>
    if a.out.length < a.n.toNat then some { s with owner := .halfTake (s.read a) }
    else
      match s.exchange a with
      | some s' => some { s' with owner := .idle }
      | none => some { s with owner := .idle }

def setThief (s : QueueState α) (k : Nat) (pc : ThiefPc α) : QueueState α :=
  { s with thief := update s.thief k pc }

def thiefStep (s : QueueState α) (k : Nat) : Option (QueueState α) :=
  match s.thief k with
  | .idle => none
  | .loadHead max => some (s.setThief k (.loadTail max s.head s.headCount))
  | .loadTail max h epoch =>
    let half := (s.tail - h) - (s.tail - h) / 2
    if half = 0 then some (s.setThief k .idle)
    else if localQueueCapacity / 2 < half then some (s.setThief k (.loadHead max))
    else
      some (s.setThief k
        (.take max { h := h, epoch := epoch, n := if max < half then max else half }))
  | .take max a =>
    if a.out.length < a.n.toNat then some (s.setThief k (.take max (s.read a)))
    else
      match s.exchange a with
      | some s' => some (s'.setThief k .idle)
      | none => some (s.setThief k (.loadHead max))

def contents (s : QueueState α) : List (Option α) :=
  (range (s.tail - s.head).toNat).map fun i => s.buf (slot s.head i)

end QueueState

def queueStep {α : Type} (s : QueueState α) : QueueAct α → Option (QueueState α)
  | .push item mode =>
    match s.owner with
    | .idle => some { s with owner := .pushLoadTail item mode }
    | _ => none
  | .pop =>
    match s.owner with
    | .idle => some { s with owner := .popLoadHead }
    | _ => none
  | .popHalf =>
    match s.owner with
    | .idle => some { s with owner := .halfLoadTail }
    | _ => none
  | .owner => s.ownerStep
  | .grab k max =>
    match s.thief k with
    | .idle => some (s.setThief k (.loadHead max))
    | _ => none
  | .thief k => s.thiefStep k

def queueSystem (α : Type) : System (QueueState α) (QueueAct α) where
  init s := s = {}
  step := queueStep

/-- A reservation with all its slots read, whose compare-exchange is the next access. -/
def Attempt.complete? {α : Type} (a : Attempt α) : Option (Attempt α) :=
  if a.out.length < a.n.toNat then none else some a

/-- The reservation that a step of the owner or of a thief tries to commit. -/
def QueueState.exchanging? {α : Type} (s : QueueState α) : QueueAct α → Option (Attempt α)
  | .owner =>
    match s.owner with
    | .popTake a => a.complete?
    | .halfTake a => a.complete?
    | _ => none
  | .thief k =>
    match s.thief k with
    | .take _ a => a.complete?
    | _ => none
  | _ => none

/-- Fewer than `2 ^ 32` head advances lie between the load of `head_` and the exchange. -/
def FewAdvances {α : Type} (s : QueueState α) (act : QueueAct α) : Prop :=
  ∀ a ∈ s.exchanging? act, s.headCount - a.epoch < 2 ^ 32

instance {α : Type} (s : QueueState α) (act : QueueAct α) : Decidable (FewAdvances s act) :=
  inferInstanceAs (Decidable (∀ a ∈ s.exchanging? act, _))

/-- Nothing is lost, doubled or reordered, the ring never holds more than its capacity, and no slot
was overwritten between its read and the exchange that handed it out. -/
structure QueueFaithful {α : Type} (s : QueueState α) : Prop where
  items : s.taken ++ s.contents = s.pushed.map some
  size : s.tail - s.head ≤ localQueueCapacity
  fresh : s.overwritten = false

/-- What a reservation has read is what was pushed, as long as `head_` has not moved; `head` counts
the advances so far. -/
structure AttemptOk {α : Type} (head : Nat) (pushed : List α) (writes : Nat → Nat) (a : Attempt α) : Prop where
  h_eq : a.h = word a.epoch
  epoch_le : a.epoch ≤ head
  length_le : a.out.length ≤ a.n.toNat
  fits : head = a.epoch → a.epoch + a.n.toNat ≤ pushed.length
  out : head = a.epoch → ∀ i, i < a.out.length →
    a.out[i]? = some (pushed[a.epoch + i]?, writes ((a.epoch + i) % 256))

def OwnerOk {α : Type} (s : QueueState α) : OwnerPc α → Prop
  | .idle | .pushLoadTail _ _ | .popLoadHead | .halfLoadTail => True
  | .pushLoadHead _ _ t | .halfLoadHead t => t = word s.pushed.length
  | .pushStore _ _ t => t = word s.pushed.length ∧ s.pushed.length < s.headCount + 256
  | .pushPublish item _ t =>
    t = word s.pushed.length ∧ s.pushed.length < s.headCount + 256 ∧
      s.buf (s.pushed.length % 256) = some item
  | .popLoadTail h epoch => h = word epoch ∧ epoch ≤ s.headCount
  | .popTake a | .halfTake a => AttemptOk s.headCount s.pushed s.writes a

def ThiefOk {α : Type} (s : QueueState α) : ThiefPc α → Prop
  | .idle | .loadHead _ => True
  | .loadTail _ h epoch => h = word epoch ∧ epoch ≤ s.headCount
  | .take _ a => AttemptOk s.headCount s.pushed s.writes a

/-- The words are the counts, and the ring holds what lies between. -/
structure QueueInv {α : Type} (s : QueueState α) : Prop where
  head : s.head = word s.headCount
  tail : s.tail = word s.pushed.length
  head_le : s.headCount ≤ s.pushed.length
  tail_le : s.pushed.length ≤ s.headCount + 256
  taken : s.taken = (s.pushed.take s.headCount).map some
  slots : ∀ i, s.headCount ≤ i → i < s.pushed.length → s.buf (i % 256) = s.pushed[i]?
  fresh : s.overwritten = false
  owner : OwnerOk s s.owner
  thief : ∀ k, ThiefOk s (s.thief k)

lemma slot_word (m i : Nat) : QueueState.slot (word m) i = (m + i) % 256 := by
  rw [QueueState.slot, word_add]
  exact toNat_word_and_mask (m + i) (by decide : 8 ≤ 32)

namespace QueueInv

variable {α : Type} {s : QueueState α}

lemma toNat_sub (h : QueueInv s) : (s.tail - s.head).toNat = s.pushed.length - s.headCount := by
  have htail := h.tail_le
  rw [h.tail, h.head]
  exact toNat_word_sub h.head_le (by omega)

lemma faithful (h : QueueInv s) : QueueFaithful s := by
  refine ⟨?_, ?_, h.fresh⟩
  · have hcontents : s.contents = (s.pushed.drop s.headCount).map some := by
      apply ext_getElem?
      intro i
      rw [QueueState.contents, h.toNat_sub, h.head, getElem?_map, getElem?_map, getElem?_drop]
      by_cases hi : i < s.pushed.length - s.headCount
      · have hslot := h.slots (s.headCount + i) (by omega) (by omega)
        rw [getElem?_range hi, map_some, slot_word, hslot, getElem?_eq_getElem (by omega)]
        rfl
      · rw [getElem?_eq_none (by simpa using hi), getElem?_eq_none (by omega)]
        rfl
    rw [h.taken, hcontents, ← map_append, take_append_drop]
  · have htail := h.tail_le
    rw [UInt32.le_iff_toNat_le, h.toNat_sub]
    show s.pushed.length - s.headCount ≤ 256
    omega

end QueueInv

namespace AttemptOk

variable {α : Type} {head : Nat} {pushed : List α} {writes : Nat → Nat} {a : Attempt α}

lemma advance (h : AttemptOk head pushed writes a) (n : Nat) : AttemptOk (head + n) pushed writes a := by
  have hle := h.epoch_le
  exact ⟨h.h_eq, by omega, h.length_le, fun heq => h.fits (by omega), fun heq => h.out (by omega)⟩

lemma store (h : AttemptOk head pushed writes a) (hroom : pushed.length < head + 256) (v : Nat) :
    AttemptOk head pushed (update writes (pushed.length % 256) v) a := by
  refine ⟨h.h_eq, h.epoch_le, h.length_le, h.fits, fun heq i hi => ?_⟩
  have hfits := h.fits heq
  have hlen := h.length_le
  have hother : (a.epoch + i) % 256 ≠ pushed.length % 256 := (mod_ne_of_near (by omega) (by omega)).symm
  rw [update_of_ne hother]
  exact h.out heq i hi

lemma publish (h : AttemptOk head pushed writes a) (item : α) : AttemptOk head (pushed ++ [item]) writes a := by
  refine ⟨h.h_eq, h.epoch_le, h.length_le, fun heq => ?_, fun heq i hi => ?_⟩
  · have hfits := h.fits heq
    rw [length_append]
    omega
  · have hfits := h.fits heq
    have hlen := h.length_le
    rw [getElem?_append_left (by omega)]
    exact h.out heq i hi

end AttemptOk

namespace QueueInv

variable {α : Type} {s : QueueState α}

lemma of_pcs (h : QueueInv s) (owner : OwnerPc α) (thief : Nat → ThiefPc α)
    (howner : OwnerOk s owner) (hthief : ∀ k, ThiefOk s (thief k)) (pushReturned : List (Bool × Option UInt8)) :
    QueueInv { s with owner := owner, thief := thief, pushReturned := pushReturned } :=
  ⟨h.head, h.tail, h.head_le, h.tail_le, h.taken, h.slots, h.fresh, by cases owner <;> exact howner, fun k => by
      have hk := hthief k
      dsimp only
      cases hpc : thief k <;> rw [hpc] at hk <;> exact hk⟩

lemma of_owner (h : QueueInv s) (owner : OwnerPc α) (howner : OwnerOk s owner) : QueueInv { s with owner := owner } :=
  h.of_pcs owner s.thief howner h.thief s.pushReturned

lemma of_thief (h : QueueInv s) (k : Nat) (pc : ThiefPc α) (hpc : ThiefOk s pc) : QueueInv (s.setThief k pc) := by
  refine h.of_pcs s.owner _ h.owner (fun k' => ?_) s.pushReturned
  by_cases hsame : k' = k
  · subst hsame
    rw [update_self]
    exact hpc
  · rw [update_of_ne hsame]
    exact h.thief k'

lemma read (h : QueueInv s) (ha : AttemptOk s.headCount s.pushed s.writes a) (hmore : a.out.length < a.n.toNat) :
    AttemptOk s.headCount s.pushed s.writes (s.read a) := by
  refine ⟨ha.h_eq, ha.epoch_le, ?_, ha.fits, fun heq i hi => ?_⟩
  · rw [QueueState.read, length_append]
    exact hmore
  · have hepoch : s.headCount = a.epoch := heq
    have hfits := ha.fits hepoch
    simp only [QueueState.read, length_append, length_singleton] at hi ⊢
    by_cases hlast : i < a.out.length
    · rw [getElem?_append_left hlast]
      exact ha.out heq i hlast
    · obtain rfl : i = a.out.length := by omega
      rw [getElem?_concat_length, ha.h_eq, slot_word, h.slots _ (by omega) (by omega)]

lemma not_stale (ha : AttemptOk s.headCount s.pushed s.writes a)
    (heq : s.headCount = a.epoch) (hfull : a.out.length = a.n.toNat) : s.stale a = false := by
  rw [QueueState.stale, List.any_eq_false]
  intro i hi
  have hread := ha.out heq i (hfull ▸ mem_range.mp hi)
  rw [hread, ha.h_eq, slot_word]
  simp

lemma out_eq (ha : AttemptOk s.headCount s.pushed s.writes a)
    (heq : s.headCount = a.epoch) (hfull : a.out.length = a.n.toNat) :
    a.out.map Prod.fst = ((s.pushed.drop s.headCount).take a.n.toNat).map some := by
  have hfits := ha.fits heq
  apply ext_getElem?
  intro i
  rw [getElem?_map, getElem?_map, heq]
  by_cases hi : i < a.out.length
  · rw [ha.out heq i hi, getElem?_take_of_lt (by omega), getElem?_drop, map_some, getElem?_eq_getElem (by omega)]
    rfl
  · rw [getElem?_eq_none (by omega), getElem?_eq_none (by rw [length_take]; omega)]
    rfl

lemma owner_advance (n : Nat) {pc : OwnerPc α} (h : OwnerOk s pc) {t : QueueState α}
    (hhead : t.headCount = s.headCount + n) (hpush : t.pushed = s.pushed)
    (hwrites : t.writes = s.writes) (hbuf : t.buf = s.buf) : OwnerOk t pc := by
  cases pc with
  | idle | pushLoadTail | popLoadHead | halfLoadTail => trivial
  | pushLoadHead | halfLoadHead =>
    rw [OwnerOk, hpush]
    exact h
  | pushStore =>
    rw [OwnerOk, hpush, hhead]
    exact ⟨h.1, by have hroom := h.2; omega⟩
  | pushPublish =>
    rw [OwnerOk, hpush, hhead, hbuf]
    exact ⟨h.1, by have hroom := h.2.1; omega, h.2.2⟩
  | popLoadTail =>
    rw [OwnerOk, hhead]
    exact ⟨h.1, by have hle := h.2; omega⟩
  | popTake | halfTake =>
    rw [OwnerOk, hpush, hhead, hwrites]
    exact AttemptOk.advance h n

lemma thief_advance (n : Nat) {pc : ThiefPc α} (h : ThiefOk s pc) {t : QueueState α}
    (hhead : t.headCount = s.headCount + n) (hpush : t.pushed = s.pushed)
    (hwrites : t.writes = s.writes) : ThiefOk t pc := by
  cases pc with
  | idle | loadHead => trivial
  | loadTail =>
    rw [ThiefOk, hhead]
    exact ⟨h.1, by have hle := h.2; omega⟩
  | take =>
    rw [ThiefOk, hpush, hhead, hwrites]
    exact AttemptOk.advance h n

/-- A successful exchange hands out the next items. The wrapped comparison is exact because fewer
than `2 ^ 32` advances lie in between. -/
lemma exchange (h : QueueInv s) {t : QueueState α}
    (ha : AttemptOk s.headCount s.pushed s.writes a) (hfull : ¬ a.out.length < a.n.toNat)
    (hnear : s.headCount - a.epoch < 2 ^ 32) (hex : s.exchange a = some t) : QueueInv t := by
  obtain ⟨hcas, rfl⟩ := of_guard hex
  have hepoch : s.headCount = a.epoch := by
    apply eq_of_word_eq ha.epoch_le hnear
    rw [← h.head, hcas, ha.h_eq]
  have hlen : a.out.length = a.n.toNat := by
    have hle := ha.length_le
    omega
  have hfits := ha.fits hepoch
  refine ⟨?_, h.tail, by dsimp only; omega, ?_, ?_, ?_, ?_, owner_advance a.n.toNat h.owner rfl rfl rfl rfl,
    fun k => thief_advance a.n.toNat (h.thief k) rfl rfl rfl⟩
  · rw [ha.h_eq, hepoch, ← word_add, word_toNat]
  · have htail := h.tail_le
    dsimp only
    omega
  · rw [h.taken, out_eq ha hepoch hlen, ← map_append, take_add]
  · intro i hi hlt
    dsimp only at hi
    exact h.slots i (by omega) hlt
  · rw [h.fresh, not_stale ha hepoch hlen]
    rfl

lemma store (h : QueueInv s) {item : α} {mode : Option UInt8} {w : UInt32} (hpc : OwnerOk s (.pushStore item mode w)) :
    QueueInv { s with
      buf := update s.buf (QueueState.slot w 0) (some item)
      writes := update s.writes (QueueState.slot w 0)
        (s.writes (QueueState.slot w 0) + 1)
      owner := .pushPublish item mode w } := by
  obtain ⟨rfl, hroom⟩ := hpc
  rw [slot_word, add_zero]
  refine ⟨h.head, h.tail, h.head_le, h.tail_le, h.taken, fun i hi hlt => ?_, h.fresh,
    ⟨rfl, hroom, update_self ..⟩, fun k => ?_⟩
  · dsimp only at hi hlt ⊢
    have hother : i % 256 ≠ s.pushed.length % 256 := (mod_ne_of_near hlt (by omega)).symm
    rw [update_of_ne hother]
    exact h.slots i hi hlt
  · have hk := h.thief k
    cases hthief : s.thief k with
    | idle | loadHead => trivial
    | loadTail =>
      rw [hthief] at hk
      exact hk
    | take =>
      rw [hthief] at hk
      exact AttemptOk.store hk hroom _

lemma publish (h : QueueInv s) {item : α} {mode : Option UInt8} {w : UInt32}
    (hpc : OwnerOk s (.pushPublish item mode w)) (pushReturned : List (Bool × Option UInt8)) :
    QueueInv { s with
      tail := w + 1
      pushed := s.pushed ++ [item]
      owner := .idle
      pushReturned := pushReturned } := by
  obtain ⟨rfl, hroom, hslot⟩ := hpc
  have hle := h.head_le
  refine ⟨h.head, ?_, ?_, ?_, ?_, fun i hi hlt => ?_, h.fresh, trivial, fun k => ?_⟩
  · rw [length_append, ← word_add]
    rfl
  · dsimp only
    rw [length_append]
    omega
  · dsimp only
    rw [length_append, length_singleton]
    omega
  · rw [h.taken, take_append_of_le_length hle]
  · rw [length_append, length_singleton] at hlt
    by_cases hlast : i < s.pushed.length
    · rw [getElem?_append_left hlast]
      exact h.slots i hi hlast
    · obtain rfl : i = s.pushed.length := by omega
      rw [getElem?_concat_length]
      exact hslot
  · have hk := h.thief k
    cases hthief : s.thief k with
    | idle | loadHead => trivial
    | loadTail =>
      rw [hthief] at hk
      exact hk
    | take =>
      rw [hthief] at hk
      exact AttemptOk.publish hk item

end QueueInv

lemma attemptOk_new {head epoch : Nat} {pushed : List α} {writes : Nat → Nat}
    {n : UInt32} (hle : epoch ≤ head) (hfits : head = epoch → epoch + n.toNat ≤ pushed.length) :
    AttemptOk head pushed writes { h := word epoch, epoch := epoch, n := n } :=
  ⟨rfl, hle, Nat.zero_le _, hfits, fun _ _ hi => absurd hi (Nat.not_lt_zero _)⟩

variable {t : QueueState α}

lemma ownerStep_inv (h : QueueInv s) (hfew : FewAdvances s .owner) (hs : s.ownerStep = some t) : QueueInv t := by
  have howner := h.owner
  have htry := hfew
  simp only [FewAdvances, QueueState.exchanging?] at htry
  unfold QueueState.ownerStep at hs
  cases hpc : s.owner <;> rw [hpc] at howner htry hs <;> dsimp only at htry hs
  case idle => cases hs
  case pushLoadTail | halfLoadTail =>
    cases hs
    exact h.of_owner _ h.tail
  case pushLoadHead item mode w =>
    split at hs <;> cases hs
    · exact h.of_pcs .idle s.thief trivial h.thief _
    · rename_i hroom
      obtain rfl : w = s.tail := howner.trans h.tail.symm
      refine h.of_owner _ ⟨h.tail, ?_⟩
      rw [UInt32.not_le, UInt32.lt_iff_toNat_lt, h.toNat_sub] at hroom
      have hlt : s.pushed.length - s.headCount < 256 := hroom
      omega
  case pushStore item mode w =>
    cases hs
    exact h.store howner
  case pushPublish item mode w =>
    cases hs
    exact h.publish howner _
  case popLoadHead =>
    cases hs
    exact h.of_owner _ ⟨h.head, le_rfl⟩
  case popLoadTail w epoch =>
    obtain ⟨rfl, hle⟩ := howner
    split at hs <;> cases hs
    · exact h.of_owner _ trivial
    · rename_i hne
      refine h.of_owner _ (attemptOk_new hle fun heq => ?_)
      have hhead := h.head_le
      have hlast : s.pushed.length ≠ epoch := fun hlast => hne (hlast ▸ h.tail)
      show epoch + 1 ≤ s.pushed.length
      omega
  case popTake a | halfTake a =>
    split at hs
    · rename_i hmore
      cases hs
      exact h.of_owner _ (h.read howner hmore)
    · rename_i hfull
      split at hs
      · rename_i s' hex
        cases hs
        exact (h.exchange howner hfull (htry a (if_neg hfull)) hex).of_owner _ trivial
      · cases hs
        exact h.of_owner _ trivial
  case halfLoadHead w =>
    obtain rfl : w = s.tail := howner.trans h.tail.symm
    split at hs <;> cases hs
    · exact h.of_owner _ trivial
    · refine h.of_owner _ ⟨h.head, le_rfl, Nat.zero_le _, fun _ => ?_, fun _ _ hi => ?_⟩
      · have hle := h.head_le
        rw [UInt32.toNat_div, h.toNat_sub]
        show s.headCount + (s.pushed.length - s.headCount) / 2 ≤ s.pushed.length
        omega
      · cases hi

lemma toNat_half_le (x max : UInt32) : (if max < x - x / 2 then max else x - x / 2).toNat ≤ x.toNat := by
  have hhalf : x / 2 ≤ x := by
    rw [UInt32.le_iff_toNat_le, UInt32.toNat_div]
    exact Nat.div_le_self _ _
  have hsub : (x - x / 2).toNat ≤ x.toNat := by
    rw [UInt32.toNat_sub_of_le _ _ hhalf]
    exact Nat.sub_le _ _
  split
  · rename_i hlt
    rw [UInt32.lt_iff_toNat_lt] at hlt
    omega
  · exact hsub

lemma thiefStep_inv {k : Nat} (h : QueueInv s)
    (hfew : FewAdvances s (.thief k)) (hs : s.thiefStep k = some t) : QueueInv t := by
  have hthief := h.thief k
  have htry := hfew
  simp only [FewAdvances, QueueState.exchanging?] at htry
  unfold QueueState.thiefStep at hs
  cases hpc : s.thief k <;> rw [hpc] at hthief htry hs <;> dsimp only at htry hs
  case idle => cases hs
  case loadHead max =>
    cases hs
    exact h.of_thief k _ ⟨h.head, le_rfl⟩
  case loadTail max w epoch =>
    obtain ⟨rfl, hle⟩ := hthief
    split at hs
    · cases hs
      exact h.of_thief k _ trivial
    · split at hs <;> cases hs
      · exact h.of_thief k _ trivial
      · refine h.of_thief k _ (attemptOk_new hle fun heq => ?_)
        have hhalf := toNat_half_le (s.tail - word epoch) max
        have hsub := h.toNat_sub
        rw [h.head, heq] at hsub
        have hhead := h.head_le
        omega
  case take max a =>
    split at hs
    · rename_i hmore
      cases hs
      exact h.of_thief k _ (h.read hthief hmore)
    · rename_i hfull
      split at hs
      · rename_i s' hex
        cases hs
        exact (h.exchange hthief hfull (htry a (if_neg hfull)) hex).of_thief k _ trivial
      · cases hs
        exact h.of_thief k _ trivial

lemma queueStep_inv {act : QueueAct α} (h : QueueInv s)
    (hfew : FewAdvances s act) (hs : queueStep s act = some t) : QueueInv t := by
  cases act with
  | push | pop | popHalf =>
    simp only [queueStep] at hs
    split at hs <;> cases hs
    exact h.of_owner _ trivial
  | owner => exact ownerStep_inv h hfew hs
  | grab k =>
    simp only [queueStep] at hs
    split at hs <;> cases hs
    exact h.of_thief k _ trivial
  | thief => exact thiefStep_inv h hfew hs

/-- **The local run queue is exact.** In every interleaving in which fewer than `2 ^ 32` head advances
lie between a load of `head_` and its exchange, what was handed out followed by what the ring holds
is what was pushed, the ring never holds more than its capacity, and no slot was overwritten between
its read and the exchange that handed it out. -/
theorem local_queue_faithful (α : Type) (s : QueueState α)
    (hs : (queueSystem α).ReachableVia FewAdvances s) : QueueFaithful s := by
  refine QueueInv.faithful (hs.invariant (fun s hinit => ?_) fun s act t h hfew hstep => queueStep_inv h hfew hstep)
  obtain rfl : s = {} := hinit
  exact ⟨rfl, rfl, le_rfl, Nat.zero_le _, rfl, fun i _ hi => absurd hi (Nat.not_lt_zero _), rfl, trivial,
    fun _ => trivial⟩

theorem local_queue_faithful_grab_then_pop : ∃ s : QueueState Nat, (queueSystem Nat).ReachableVia FewAdvances s ∧
      s.pushed = [7, 8, 9] ∧ s.taken = [some 7, some 8, some 9] ∧ QueueFaithful s := by
  obtain ⟨s, hs, hpush, htaken⟩ := (queueSystem Nat).reachableVia_of_run FewAdvances {}
    [.push 7 none, .owner, .owner, .owner, .owner, .push 8 none, .owner, .owner, .owner, .owner,
      .push 9 (some 4), .grab 0 4, .thief 0, .owner, .owner, .owner, .owner, .thief 0, .thief 0,
      .thief 0, .thief 0, .pop, .owner, .owner, .owner, .owner]
    (fun s => s.pushed = [7, 8, 9] ∧ s.taken = [some 7, some 8, some 9]) rfl (by decide)
  exact ⟨s, hs, hpush, htaken, local_queue_faithful Nat s hs⟩

end Cio.Queue
