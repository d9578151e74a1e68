import Cio.CallPool
import Cio.TransitionSystem
import Cio.WrapCounter

/-! `GlobalRunQueue` with any number of calls in progress. The locked section of a push and its `fetch_add` are two
steps. A pop loads the size, and its locked section subtracts what it takes. -/

namespace Cio.GlobalQueue

open Transition CallPool WrapCounter List

/-- The next step of a call; a pop without `max` and `share` is `pop`. -/
inductive Call (α : Type) where
  | insert (items : List α)
  | add (items : List α)
  | load (batch : Option (UInt32 × UInt32))
  | take (batch : Option (UInt32 × UInt32))
  | returned (items : List α)
  deriving DecidableEq

inductive Act (α : Type) where
  | push (item : α)
  | pushBatch (items : List α)
  | pop (batch : Option (UInt32 × UInt32))
  | call (i : Nat)

/-- With the items that were inserted, and those that have left, in this order. -/
structure State (α : Type) where
  queue : List α := []
  size : UInt32 := 0
  calls : List (Call α) := []
  inserted : List α := []
  left : List α := []

variable {α : Type}

namespace Call

/-- What was inserted and is not yet added to the size. -/
def owed : Call α → Nat
  | add items => items.length
  | _ => 0

def pushing : Call α → Bool
  | insert _ | add _ => true
  | _ => false

/-- What the call has handed out. -/
def batch : Call α → List α
  | returned items => items
  | _ => []

end Call

/-- How many of the items `pop`, and `pop_batch` with its `max` and `share`, take. -/
def taken (length : Nat) : Option (UInt32 × UInt32) → Nat
  | none => min length 1
  | some (max, share) =>
    let available := word length
    let n := available / (if share ≠ 0 then share else 1) + 1
    let n := if n > available then available else n
    (if n > max then max else n).toNat

namespace State

variable (s : State α)

def start (c : Call α) : State α := { s with calls := s.calls ++ [c] }

def callStep : Call α → Option (State α × Call α)
  | .insert items => some ({ s with queue := s.queue ++ items, inserted := s.inserted ++ items }, .add items)
  | .add items => some ({ s with size := s.size + word items.length }, .returned [])
  | .load batch => some (s, if s.size = 0 then .returned [] else .take batch)
  | .take batch =>
    let n := taken s.queue.length batch
    some ({ s with queue := s.queue.drop n, left := s.left ++ s.queue.take n, size := s.size - word n },
      .returned (s.queue.take n))
  | .returned _ => none

def step : Act α → Option (State α)
  | .push item => some (s.start (.insert [item]))
  -- the count is a `std::uint32_t`
  | .pushBatch items =>
    if items.length < 2 ^ 32 then some (s.start (if items.isEmpty then .returned [] else .insert items)) else none
  | .pop batch => some (s.start (.load batch))
  | .call i => s.calls[i]?.bind fun c => (s.callStep c).map fun r => { r.1 with calls := s.calls.set i r.2 }

end State

def globalQueue (α : Type) : System (State α) (Act α) where
  init s := s = {}
  step := State.step

/-! ### The books -/

/-- Items leave in order; the size lacks what pushes have yet to add. -/
structure Kept (s : State α) : Prop where
  order : s.left ++ s.queue = s.inserted
  count : s.size + word (weight Call.owed s.calls) = word s.queue.length
  handed (p : α → Bool) : weight (fun c => c.batch.countP p) s.calls = s.left.countP p

variable {s u : State α} {i : Nat} {c d : Call α}

lemma taken_le (length : Nat) (batch : Option (UInt32 × UInt32)) : taken length batch ≤ length := by
  match batch with
  | none => exact Nat.min_le_left ..
  | some (max, share) =>
    have hle : (word length).toNat ≤ length := UInt32.toNat_ofNat' ▸ Nat.mod_le ..
    dsimp only [taken]
    refine le_trans (UInt32.le_iff_toNat_le.mp ?_) hle
    split_ifs with hmax hall
    all_goals simp only [UInt32.le_iff_toNat_le, gt_iff_lt, UInt32.lt_iff_toNat_lt] at *
    all_goals omega

lemma Kept.start (h : Kept s) (hc : c.owed = 0) (hbatch : c.batch = []) : Kept (s.start c) where
  order := h.order
  count := by
    rw [State.start, weight_concat, hc]
    exact h.count
  handed p := by
    rw [State.start, weight_concat, hbatch]
    exact h.handed p

lemma Kept.callStep (h : Kept s) (hi : s.calls[i]? = some c) (hs : s.callStep c = some (u, d)) :
    Kept { u with calls := s.calls.set i d } := by
  have hset := weight_set Call.owed hi d
  have hcount := h.count
  have hhanded (p : α → Bool) := (weight_set (fun c => c.batch.countP p) hi d).trans (congrArg (· + _) (h.handed p))
  cases c with
  | insert items =>
    cases hs
    refine ⟨by rw [← h.order, append_assoc], ?_, hhanded⟩
    have hadd : weight Call.owed (s.calls.set i (.add items)) = weight Call.owed s.calls + items.length := hset
    rw [hadd, length_append, ← word_add, ← word_add, ← hcount, UInt32.add_assoc]
  | add items =>
    cases hs
    refine ⟨h.order, ?_, hhanded⟩
    have hadd : weight Call.owed (s.calls.set i (.returned [])) + items.length = weight Call.owed s.calls := hset
    rw [← hadd, ← word_add, UInt32.add_comm (word _), ← UInt32.add_assoc] at hcount
    exact hcount
  | load batch =>
    cases hs
    rw [show Call.batch (if s.size = 0 then .returned [] else .take batch) = [] by split <;> rfl] at hhanded
    refine ⟨h.order, ?_, hhanded⟩
    rw [show Call.owed (if s.size = 0 then .returned [] else .take batch) = 0 by split <;> rfl] at hset
    rwa [← show weight Call.owed _ = weight Call.owed s.calls from hset] at hcount
  | take batch =>
    cases hs
    refine ⟨by rw [append_assoc, take_append_drop, h.order], ?_, fun p => countP_append ▸ hhanded p⟩
    have hsame : weight Call.owed (s.calls.set i (.returned _)) = weight Call.owed s.calls := hset
    refine sub_add_of_add_eq ?_
    rw [hsame, hcount, length_drop, word_add, Nat.sub_add_cancel (taken_le ..)]
  | returned => cases hs

lemma kept_of_reachable (hs : (globalQueue α).Reachable s) : Kept s := by
  refine hs.invariant (fun s hinit => hinit ▸ ⟨rfl, rfl, fun _ => rfl⟩) fun s a t h _ hst => ?_
  cases a with
  | push item =>
    cases hst
    exact h.start rfl rfl
  | pushBatch items =>
    obtain ⟨-, rfl⟩ := of_guard hst
    exact h.start (by split <;> rfl) (by split <;> rfl)
  | pop batch =>
    cases hst
    exact h.start rfl rfl
  | call i =>
    obtain ⟨c, hi, hst⟩ := Option.bind_eq_some_iff.mp hst
    obtain ⟨⟨u, d⟩, hu, rfl⟩ := Option.map_eq_some_iff.mp hst
    exact h.callStep hi hu

/-- **Items leave in the order in which they were inserted, those that have left are the ones the calls returned, and
the size is the length up to what pushes have yet to add**; with no push in progress and fewer than `2 ^ 32` items a
step of a `pop` returns null iff the queue is empty. -/
theorem queue_accounted (s : State α) (hs : (globalQueue α).Reachable s) :
    s.left ++ s.queue = s.inserted ∧ (∀ p, weight (fun c => c.batch.countP p) s.calls = s.left.countP p) ∧
      s.size + word (weight Call.owed s.calls) = word s.queue.length ∧
      (s.queue.length < 2 ^ 32 → (∀ c ∈ s.calls, c.pushing = false) → s.size.toNat = s.queue.length ∧
        ∀ c ∈ [Call.load none, .take none],
          ∃ u d, s.callStep c = some (u, d) ∧ (d = .returned [] ↔ s.queue = [])) := by
  have h := kept_of_reachable hs
  refine ⟨h.order, h.handed, h.count, fun hfits hquiet => ?_⟩
  have hzero : weight Call.owed s.calls = 0 := weight_eq_zero fun c hc => by
    have hpush := hquiet c hc
    cases c <;> first | rfl | cases hpush
  have hsize : s.size = word s.queue.length := by simpa [hzero] using h.count
  have hlen : s.size.toNat = s.queue.length := by rw [hsize, UInt32.toNat_ofNat', Nat.mod_eq_of_lt hfits]
  refine ⟨hlen, fun c hc => ?_⟩
  obtain rfl | hc := mem_cons.mp hc
  · refine ⟨_, _, rfl, ?_⟩
    by_cases h0 : s.size = 0
    · rw [if_pos h0]
      exact iff_of_true rfl (length_eq_zero_iff.mp (hlen ▸ h0 ▸ rfl))
    · rw [if_neg h0]
      exact iff_of_false nofun fun hq => h0 (by rw [hsize, hq]; rfl)
  · obtain rfl := mem_singleton.mp hc
    refine ⟨_, _, rfl, ?_⟩
    cases s.queue with
    | nil => exact iff_of_true rfl rfl
    | cons => exact iff_of_false (by simp [taken]) nofun

theorem queue_accounted_popping : ∃ s : State Nat, (globalQueue Nat).Reachable s ∧
    s.calls = [.returned [], .load none] ∧ s.size.toNat = 1 := by
  obtain ⟨s, hs, hcalls, hlen⟩ := (globalQueue Nat).reachable_of_run {} [.push 7, .call 0, .call 0, .pop none]
    (fun s => s.calls = [.returned [], .load none] ∧ s.queue.length = 1) rfl (by decide)
  have hquiet : ∀ c ∈ s.calls, c.pushing = false := by rw [hcalls]; decide
  exact ⟨s, hs, hcalls, ((queue_accounted s hs).2.2.2 (by omega) hquiet).1.trans hlen⟩

/-! ### A queue of `2 ^ 32` items -/

lemma reachable_push (hs : (globalQueue α).Reachable s) {items : List α} (hne : items ≠ [])
    (hfits : items.length < 2 ^ 32) : (globalQueue α).Reachable
      { s with
        queue := s.queue ++ items
        size := s.size + word items.length
        calls := s.calls ++ [.returned []]
        inserted := s.inserted ++ items } := by
  refine System.Reachable.run hs
    (?_ : (globalQueue α).run s [.pushBatch items, .call s.calls.length, .call s.calls.length] = _)
  rw [System.run_cons (show (globalQueue α).step s (.pushBatch items) = _ from if_pos hfits)]
  simp [System.run, globalQueue, State.step, State.start, State.callStep, hne]

/-- **The size of a queue of `2 ^ 32` items is zero again**, and a `pop` returns null. -/
theorem pop_misses_wrapped : ∃ s : State Unit, (globalQueue Unit).Reachable s ∧ (∀ c ∈ s.calls, c.pushing = false) ∧
    s.queue ≠ [] ∧ s.callStep (.load none) = some (s, .returned []) := by
  have hlen : (replicate (2 ^ 31) ()).length = 2 ^ 31 := length_replicate
  have hne : replicate (2 ^ 31) () ≠ [] := fun hnil => by rw [hnil] at hlen; cases hlen
  have hfits : (replicate (2 ^ 31) ()).length < 2 ^ 32 := by rw [hlen]; decide
  refine ⟨_, reachable_push (reachable_push (.start rfl) hne hfits) hne hfits, by decide, ?_, ?_⟩
  · exact append_ne_nil_of_right_ne_nil _ hne
  · rw [State.callStep, if_pos]
    rw [hlen]
    rfl

end Cio.GlobalQueue
