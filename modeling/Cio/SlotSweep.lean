import Cio.SlotLock

/-! What `detach` has swept. It publishes `closing` under the lifecycle lock before it unblocks the two
directions, and after that no task is admitted to a slot; so a slot it has emptied stays without a
waiter. -/

namespace Cio.Reactor.Slot

open Transition CallPool State List

/-- The call is a `detach` that has published `closing`. -/
def Call.closes : Call → Prop
  | .teardown _ => True
  | .unblock caller _ _ _ | .unlock caller | .returned caller => caller = .detach
  | .enter _ | .disarm _ _ | .store _ _ | .commit _ _ _ => False

def UnblockPc.took : UnblockPc → Prop
  | .write _ | .dispatch _ => True
  | .load | .cas _ => False

/-- The directions whose slot a `detach` has already emptied. -/
def Call.swept (d : Dir) : Call → Prop
  | .unblock caller dir rest pc => caller = .detach ∧ d ∉ rest ∧ (d = dir → pc.took)
  | .unlock caller | .returned caller => caller = .detach
  | .enter _ | .disarm _ _ | .store _ _ | .commit _ _ _ | .teardown _ => False

variable {s t : State} {i : Nat} {caller : Caller} {c : Call} {rest : List Dir} {dir : Dir}

lemma closes_of_swept {d : Dir} (h : c.swept d) : c.closes := by
  cases c with
  | unblock => exact h.1
  | unlock | returned => exact h
  | enter | disarm | store | commit
  | teardown => exact h.elim

/-- A closing `detach` shows, and the slots it has swept stay without a waiter. -/
structure Swept (s : State) : Prop where
  closing : ∀ c ∈ s.calls, c.closes → s.desc.closing = true
  empty : ∀ c ∈ s.calls, ∀ d, c.swept d → ∀ a, s.desc.slot d ≠ .waiter a

namespace Swept

lemma of_same (h : Swept s) (hcalls : t.calls = s.calls) (hend : t.desc.closing = s.desc.closing)
    (hslot : ∀ d a, t.desc.slot d = .waiter a → s.desc.slot d = .waiter a) : Swept t := by
  refine ⟨fun c hc hcloses => ?_, fun c hc d hd a ha => ?_⟩
  · rw [hend]
    exact h.closing c (hcalls ▸ hc) hcloses
  · exact h.empty c (hcalls ▸ hc) d hd a (hslot d a ha)

end Swept

/-- What the move of a call from `c` to `c'` means for the sweep: `closing` is only set, no waiter is
published, and a direction that counts as swept afterwards did so before or has just been emptied. -/
structure Sweeps (s t : State) (i : Nat) (c c' : Call) : Prop where
  calls : t.calls = s.calls.set i c'
  closing : s.desc.closing = true → t.desc.closing = true
  slot : ∀ d a, t.desc.slot d = .waiter a → s.desc.slot d = .waiter a
  closes : c'.closes → c.closes ∨ t.desc.closing = true
  swept : ∀ d, c'.swept d → c.swept d ∨ ∀ a, t.desc.slot d ≠ .waiter a

lemma Sweeps.swept_of {c' : Call} (hmove : Sweeps s t i c c') (h : Swept s) (hc : s.calls[i]? = some c) : Swept t := by
  have hmem := mem_of_getElem? hc
  refine ⟨?_, ?_⟩ <;> rw [hmove.calls]
  · refine forall_set (fun x hx hcloses => hmove.closing (h.closing x hx hcloses)) (fun hcloses => ?_) i
    rcases hmove.closes hcloses with hold | hset
    · exact hmove.closing (h.closing c hmem hold)
    · exact hset
  · refine forall_set (fun x hx d hd a ha => h.empty x hx d hd a (hmove.slot d a ha)) (fun d hd a ha => ?_) i
    rcases hmove.swept d hd with hold | hempty
    · exact h.empty c hmem d hold a (hmove.slot d a ha)
    · exact hempty a ha

lemma Sweeps.of_quiet {c' : Call} (hcalls : t.calls = s.calls.set i c')
    (hend : t.desc.closing = s.desc.closing) (hslot : t.desc.slot = s.desc.slot)
    (hcloses : c'.closes → c.closes) (hswept : ∀ d, ¬ c'.swept d) : Sweeps s t i c c' :=
  ⟨hcalls, hend.trans, fun _ _ ha => hslot ▸ ha, fun h => .inl (hcloses h), fun d hd => absurd hd (hswept d)⟩

attribute [local simp] Call.closes Call.swept Caller.after countEdge leaveSlot consume
  setAwaiter

lemma swept_after {d : Dir} (h : (caller.after rest).swept d) : caller = .detach ∧ d ∉ rest := by
  cases rest with
  | nil =>
    refine ⟨?_, not_mem_nil⟩
    cases hlocks : caller.locks <;> simpa [hlocks] using h
  | cons =>
    obtain ⟨hcall, hrest, htook⟩ := h
    refine ⟨hcall, ?_⟩
    rw [mem_cons, not_or]
    exact ⟨htook, hrest⟩

lemma closes_after (h : (caller.after rest).closes) : caller = .detach := by
  cases rest with
  | nil => cases hlocks : caller.locks <;> simpa [hlocks] using h
  | cons => exact h

lemma Sweeps.of_other (rest : List Dir)
    (hcall : caller ≠ .detach) (hcalls : t.calls = s.calls) (hend : t.desc.closing = s.desc.closing)
    (hslot : t.desc.slot = s.desc.slot) : Sweeps s (t.afterUnblock i caller rest) i c (caller.after rest) :=
  .of_quiet (by rw [afterUnblock_calls, hcalls])
    ((afterUnblock_closing t i caller rest).trans hend)
    ((afterUnblock_aside t i caller rest).slot.trans hslot)
    (fun h => absurd (closes_after h) hcall) fun d hd => hcall (swept_after hd).1

lemma Sweeps.of_endCall {s : State} (hcall : caller ≠ .detach) :
    Sweeps s (s.endCall i caller) i c (.returned caller) := by
  refine .of_quiet (endCall_calls s i caller) (endCall_closing s i caller)
    (endCall_aside s i caller).slot (fun h => absurd h hcall) fun d hd => hcall hd

lemma enterStep_sweeps (hs : s.enterStep i caller = some t) : ∃ c', Sweeps s t i (.enter caller) c' := by
  unfold enterStep at hs
  split at hs
  · split at hs <;> cases hs
    · exact ⟨_, .of_endCall (by simp)⟩
    · exact ⟨_, .of_other _ (by simp) rfl rfl rfl⟩
  · rename_i dir seq
    split_ifs at hs <;> cases hs
    · exact ⟨_, .of_other [dir] (by simp) (by rfl) (by rfl) (by rfl)⟩
    · exact ⟨_, .of_endCall (by simp)⟩
  · split_ifs at hs <;> cases hs
    · exact ⟨_, .of_other [.read, .write] (by simp) (by rfl) (by rfl) (by rfl)⟩
    · exact ⟨_, .of_endCall (by simp)⟩
  · split_ifs at hs <;> cases hs
    · exact ⟨_, .of_endCall (by simp)⟩
    · exact ⟨_, .of_quiet rfl rfl rfl (by simp) (by simp)⟩
  · split_ifs at hs
    cases hs
    exact ⟨_, rfl, fun _ => rfl, fun d a ha => ha, fun _ => .inr rfl, by simp⟩

lemma Sweeps.of_unblock {pc : UnblockPc} (hcalls : t.calls = s.calls) (hend : t.desc.closing = s.desc.closing)
    (hslot : ∀ d a, t.desc.slot d = .waiter a → s.desc.slot d = .waiter a)
    (hempty : pc.took ∨ ∀ a, t.desc.slot dir ≠ .waiter a) :
    Sweeps s (t.afterUnblock i caller rest) i (.unblock caller dir rest pc) (caller.after rest) := by
  have haside := afterUnblock_aside t i caller rest
  refine ⟨by rw [afterUnblock_calls, hcalls], fun h => ?_, fun d a ha => hslot d a (haside.slot ▸ ha),
    fun h => .inl (closes_after h), fun d hd => ?_⟩
  · exact (afterUnblock_closing t i caller rest).trans (hend.trans h)
  · obtain ⟨hcall, hrest⟩ := swept_after hd
    rw [haside.slot]
    by_cases hdir : d = dir
    · subst hdir
      exact hempty.imp (fun htook => ⟨hcall, hrest, fun _ => htook⟩) id
    · exact .inl ⟨hcall, hrest, fun h => absurd h hdir⟩

lemma unblockStep_sweeps {s : State} (pc : UnblockPc) (spurious : Bool) :
    ∃ c', Sweeps s (s.unblockStep i caller dir rest spurious pc) i (.unblock caller dir rest pc) c' := by
  cases pc with
  | load =>
    rw [unblockStep]
    split
    · rename_i hslot
      exact ⟨_, .of_unblock rfl rfl (fun d a ha => ha) (.inr (by simp [hslot]))⟩
    · exact ⟨_, rfl, id, fun d a ha => ha, .inl, fun d hd => .inl hd⟩
    · exact ⟨_, rfl, id, fun d a ha => ha, .inl, fun d hd => .inl hd⟩
  | cas old =>
    have hset : ∀ word, (∀ b, word ≠ .waiter b) → ∀ d a,
        (s.setSlot dir word).desc.slot d = .waiter a → s.desc.slot d = .waiter a := by
      intro word hword d a ha
      by_cases hd : d = dir
      · subst hd
        rw [State.setSlot_slot, Function.update_self] at ha
        exact absurd ha (hword a)
      · rwa [State.setSlot_slot, Function.update_of_ne hd] at ha
    have hready : ∃ c', Sweeps s (((s.setSlot dir .ready).countEdge caller dir).afterUnblock i caller rest)
        i (.unblock caller dir rest (.cas old)) c' :=
      ⟨_, .of_unblock rfl rfl (hset .ready (by simp)) (.inr (by simp))⟩
    unfold unblockStep
    dsimp only
    split
    · split
      · refine ⟨_, rfl, id, hset .idle (by simp), .inl, fun d hd => ?_⟩
        by_cases hdir : d = dir
        · subst hdir
          right
          simp [State.take, State.setCall, State.log]
        · exact .inl ⟨hd.1, hd.2.1, fun h => absurd h hdir⟩
      · exact hready
      · exact hready
    · exact ⟨_, rfl, id, fun d a ha => ha, .inl, fun d hd => .inl hd⟩
  | write => exact ⟨_, rfl, id, fun d b hb => hb, .inl, fun d hd => .inl hd⟩
  | dispatch => exact ⟨_, .of_unblock rfl rfl (fun d b hb => hb) (.inl trivial)⟩

lemma callStep_sweeps {spurious : Bool} (hs : s.callStep i spurious c = some t) : ∃ c', Sweeps s t i c c' := by
  cases c with
  | enter => exact enterStep_sweeps hs
  | disarm =>
    obtain ⟨-, rfl⟩ := of_unless hs
    exact ⟨_, .of_quiet rfl rfl rfl (by simp) (by simp)⟩
  | store =>
    rw [callStep, storeStep] at hs
    split_ifs at hs <;> cases hs
    · exact ⟨_, .of_endCall (by simp)⟩
    · exact ⟨_, .of_quiet rfl rfl rfl (by simp) (by simp)⟩
    · exact ⟨_, .of_quiet rfl rfl rfl (by simp) (by simp)⟩
  | commit dir =>
    cases hs
    unfold commitStep
    dsimp only
    split
    · exact ⟨_, .of_other [dir] (by simp) (by rfl) (by rfl) (by rfl)⟩
    · exact ⟨_, .of_quiet rfl rfl rfl (by simp) (by simp)⟩
  | teardown dir =>
    simp only [callStep, teardownStep, Option.ite_none_left_eq_some] at hs
    obtain ⟨_, hs⟩ := hs
    cases dir with
    | read =>
      cases hs
      exact ⟨_, .of_quiet rfl rfl rfl id (by simp)⟩
    | write =>
      cases hs
      refine ⟨_, .of_quiet rfl (afterUnblock_closing _ i .detach [.read, .write])
        (beginUnblock_aside _ i .detach .read [.write]).slot (fun _ => trivial) fun d hd => ?_⟩
      obtain ⟨_, hrest, htook⟩ := hd
      cases d with
      | read => exact htook rfl
      | write => exact hrest mem_cons_self
  | unblock caller dir rest pc =>
    cases hs
    exact unblockStep_sweeps pc spurious
  | unlock caller =>
    cases hs
    refine ⟨_, endCall_calls _ i caller, fun h => ?_, fun d a ha => ?_, .inl, fun d hd => .inl hd⟩
    · rwa [endCall_closing]
    · rwa [(endCall_aside _ i caller).slot] at ha
  | returned => cases hs

lemma Swept.of_start (h : Swept s) (hcalls : t.calls = s.calls) (hend : t.desc.closing = s.desc.closing)
    (hslot : t.desc.slot = s.desc.slot) (caller : Caller) : Swept (t.start caller) := by
  refine ⟨?_, ?_⟩ <;> rw [start, hcalls]
  · exact forall_append (fun c hc hcloses => hend.trans (h.closing c hc hcloses)) False.elim
  · exact forall_append (fun c hc d hd a ha => h.empty c hc d hd a (hslot ▸ ha)) fun d => False.elim

lemma awaiterStep_swept {spurious : Bool} (hlock : Locked s) (h : Swept s)
    (hs : s.awaiterStep dir spurious = some t) : Swept t := by
  unfold awaiterStep at hs
  split at hs
  · cases hs
  · obtain ⟨-, rfl⟩ := of_guard hs
    exact h.of_same rfl rfl fun d a ha => ha
  · split at hs <;> cases hs <;> exact h.of_same rfl rfl fun d a ha => ha
  · split at hs <;> cases hs <;> exact h.of_same rfl rfl fun d a ha => ha
  · split at hs <;> cases hs
    · refine h.of_same rfl rfl fun d b hb => ?_
      by_cases hd : d = dir
      · subst hd
        simp at hb
      · simpa [hd] using hb
    · exact h.of_same rfl rfl fun d a ha => ha
  · rename_i a hpc
    split at hs <;> cases hs
    · -- The task is admitted, so no `detach` has published `closing` and none has swept a slot.
      have hopen := hlock.admitted dir (hpc ▸ rfl)
      refine ⟨h.closing, fun c hc d hd => ?_⟩
      rw [h.closing c hc (closes_of_swept hd)] at hopen
      cases hopen
    · exact h.of_same rfl rfl fun d a ha => ha
  · cases hs
    exact h.of_same rfl rfl fun d a ha => ha
  · cases hs
  · split at hs <;> cases hs <;> exact h.of_same rfl rfl fun d a ha => ha
  · split at hs <;> cases hs
    · exact h.of_same rfl rfl fun d a ha => ha
    · unfold finish
      split <;> exact h.of_same rfl rfl fun d a ha => ha

lemma slotStep_swept {act : Act} (hlock : Locked s) (h : Swept s) (hs : slotStep s act = some t) : Swept t := by
  cases act with
  | await dir a | unlockParked | tick =>
    obtain ⟨-, rfl⟩ := of_guard hs
    exact h.of_same rfl rfl fun d a ha => ha
  | awaiter => exact awaiterStep_swept hlock h hs
  | edge | detach =>
    cases hs
    exact h.of_start rfl rfl rfl _
  | fire =>
    rw [slotStep] at hs
    split at hs
    · obtain ⟨-, rfl⟩ := of_guard hs
      exact h.of_start (by rfl) (by rfl) (by rfl) _
    · cases hs
    · cases hs
  | cancelHook =>
    obtain ⟨-, rfl⟩ := of_guard hs
    exact h.of_start rfl rfl rfl _
  | setDeadline =>
    obtain ⟨-, rfl⟩ := of_unless hs
    exact h.of_start (by rfl) (by rfl) (by rfl) _
  | call i spurious =>
    rw [slotStep] at hs
    split at hs
    · rename_i c hc
      obtain ⟨c', hmove⟩ := callStep_sweeps hs
      exact hmove.swept_of h hc
    · cases hs
  | cancel | bindFlag | stop =>
    cases hs
    exact h.of_same rfl rfl fun d a ha => ha

end Cio.Reactor.Slot
