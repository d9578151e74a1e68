import Cio.SlotModel

/-! What one step does to the slots. A call that has taken a waiter out of a slot has it in its grip until
it dispatches the coroutine; every step either leaves slots, tasks and grips alone or has one of the
effects below. -/

namespace Cio.Reactor.Slot

open Transition Function State List Option

/-- A waiter taken out of a slot, with the result for it and whether that was written. -/
structure Grip where
  addr : Addr
  written : Bool
  err : Option Error

/-- The waiter of a direction that the call has taken and not yet dispatched. -/
def Call.grip (d : Dir) : Call → Option Grip
  | .unblock caller dir _ (.write a) => if dir = d then some ⟨a, false, caller.err⟩ else none
  | .unblock caller dir _ (.dispatch a) => if dir = d then some ⟨a, true, caller.err⟩ else none
  | _ => none

def Caller.after (caller : Caller) : List Dir → Call
  | [] => if caller.locks then .unlock caller else .returned caller
  | dir :: rest => .unblock caller dir rest .load

lemma grip_after (caller : Caller) (rest : List Dir) (d : Dir) : (caller.after rest).grip d = none := by
  cases rest with
  | nil => cases hlocks : caller.locks <;> simp only [Caller.after, hlocks] <;> rfl
  | cons => rfl

namespace State

variable {s t : State}

def grip (s : State) (j : Nat) (d : Dir) : Option Grip := s.calls[j]?.bind (Call.grip d)

lemma grip_of_getElem (hc : s.calls[i]? = some c) (d : Dir) : s.grip i d = c.grip d := by
  rw [grip, hc, bind_some]

lemma grip_setCall (hc : s.calls[i]? = some c) (c' : Call) (j : Nat) (d : Dir) :
    (s.setCall i c').grip j d = if j = i then c'.grip d else s.grip j d := by
  have hi := (List.getElem?_eq_some_iff.mp hc).1
  by_cases hj : j = i
  · subst hj
    rw [if_pos rfl, grip, setCall, getElem?_set_self hi, bind_some]
  · rw [if_neg hj, grip, setCall, getElem?_set_ne (Ne.symm hj), grip]

lemma grip_setCall_of_none {c c' : Call} (hc : s.calls[i]? = some c) (hpre : ∀ d, c.grip d = none)
    (hafter : ∀ d, c'.grip d = none) (j : Nat) (d : Dir) : (s.setCall i c').grip j d = s.grip j d := by
  rw [grip_setCall hc]
  split
  · rename_i hj
    rw [hj, grip_of_getElem hc, hpre, hafter]
  · rfl

lemma grip_start (s : State) (caller : Caller) (j : Nat) (d : Dir) : (s.start caller).grip j d = s.grip j d := by
  rw [grip, grip, start]
  by_cases hj : j < s.calls.length
  · rw [getElem?_append_left hj]
  · rw [getElem?_append_right (not_lt.mp hj), getElem?_eq_none (not_lt.mp hj)]
    cases hdiff : j - s.calls.length with
    | zero => rfl
    | succ => rfl

/-- Slots, tasks and their histories are as before, and a closing descriptor stays so. -/
structure Aside (s t : State) : Prop where
  slot : t.desc.slot = s.desc.slot := by rfl
  awaiter : t.awaiter = s.awaiter := by rfl
  mem : t.mem = s.mem := by rfl
  lives : t.lives = s.lives := by rfl
  edges : t.edges = s.edges := by rfl
  left : t.left = s.left := by rfl
  successes : t.successes = s.successes := by rfl
  closing : s.desc.closing = true → t.desc.closing = true := by exact id

lemma Aside.trans {u : State} (h : Aside s t) (h' : Aside t u) : Aside s u :=
  ⟨h'.slot.trans h.slot, h'.awaiter.trans h.awaiter, h'.mem.trans h.mem, h'.lives.trans h.lives,
    h'.edges.trans h.edges, h'.left.trans h.left, h'.successes.trans h.successes, h'.closing ∘ h.closing⟩

section

variable (s : State) (i : Nat) (caller : Caller)

lemma beginUnblock_aside (dir : Dir) (rest : List Dir) : Aside s (s.beginUnblock i caller dir rest) := by
  refine { slot := ?_, closing := fun hend => ?_ }
  · rw [beginUnblock]
    split <;> rfl
  · rw [beginUnblock]
    split <;> exact hend

lemma afterUnblock_aside (rest : List Dir) : Aside s (s.afterUnblock i caller rest) := by
  cases rest with
  | nil => exact {}
  | cons dir rest => exact beginUnblock_aside s i caller dir rest

lemma afterUnblock_lock (rest : List Dir) : (s.afterUnblock i caller rest).lock = s.lock := by
  cases rest <;> rfl

lemma afterUnblock_closing (rest : List Dir) : (s.afterUnblock i caller rest).desc.closing = s.desc.closing := by
  cases rest with
  | nil => rfl
  | cons =>
    rw [afterUnblock, beginUnblock]
    split <;> rfl

lemma afterUnblock_calls (rest : List Dir) :
    (s.afterUnblock i caller rest).calls = s.calls.set i (caller.after rest) := by
  cases rest with
  | nil => rfl
  | cons => rfl

lemma endCall_lock : (s.endCall i caller).lock = s.lock := by
  unfold endCall
  split <;> rfl

lemma endCall_closing : (s.endCall i caller).desc.closing = s.desc.closing := by
  unfold endCall
  split <;> rfl

lemma endCall_aside : Aside s (s.endCall i caller) := by
  unfold endCall
  split <;> exact {}

lemma endCall_calls : (s.endCall i caller).calls = s.calls.set i (.returned caller) := by
  unfold endCall
  split <;> rfl

end

lemma grip_afterUnblock (hc : s.calls[i]? = some c) (hfree : ∀ d, c.grip d = none) (hcalls : t.calls = s.calls)
    (caller : Caller) (rest : List Dir) (j : Nat) (d : Dir) : (t.afterUnblock i caller rest).grip j d = s.grip j d := by
  rw [← grip_setCall_of_none hc hfree (grip_after caller rest) j d, grip, afterUnblock_calls, grip, setCall, hcalls]

end State

/-- The task has left the slot with a result that is a success so far. -/
def State.settled (s : State) (d : Dir) : Prop :=
  match s.awaiter d with
  | .leave _ none => True
  | .resume a => (s.mem a).err = none
  | .recheck _ _ => True
  | _ => False

inductive Effect (s : State) : Act → State → Prop where
  | quiet {act : Act} {t : State} (haside : State.Aside s t) (hgrip : ∀ j d, t.grip j d = s.grip j d) :
      Effect s act t
  | await (dir : Dir) (a : Addr) (hidle : s.awaiter dir = .idle) (hunused : s.unused a = true) :
      Effect s (.await dir a)
        ({ s with mem := update s.mem a { handle := dir } }.setAwaiter dir (.enter a))
  | move {act : Act} (dir : Dir) (a : Addr) (pc : AwaitPc) (lock : Option Party)
      (hbefore : (s.awaiter dir).addr = some a) (hparked : s.awaiter dir ≠ .parked a)
      (hafter : pc.addr = some a) (hparked' : pc ≠ .parked a)
      (hsettled : ({ s with lock }.setAwaiter dir pc).settled dir → s.settled dir) :
      Effect s act ({ s with lock }.setAwaiter dir pc)
  | leave {act : Act} (dir : Dir) (a : Addr) (err : Option Error) (hpc : s.awaiter dir = .leave a err) :
      Effect s act ({ s.setErr a err with lock := none }.setAwaiter dir (.resume a))
  | publish {act : Act} (dir : Dir) (a : Addr) (hpc : s.awaiter dir = .publish a)
      (hslot : s.desc.slot dir = .idle) : Effect s act (s.publish dir a)
  | consume {act : Act} (dir : Dir) (a : Addr) (hpc : s.awaiter dir = .consume a)
      (hslot : s.desc.slot dir = .ready) : Effect s act (s.consume dir a)
  | finish {act : Act} (dir : Dir) (err : Option Error) (a : Addr)
      (hpc : s.awaiter dir = .resume a ∨ ∃ stage, s.awaiter dir = .recheck a stage)
      (hsettled : err = none → s.settled dir) : Effect s act (s.finish dir err)
  | record (i : Nat) (spurious : Bool) (c : Call) (caller : Caller) (dir : Dir) (rest : List Dir)
      (hc : s.calls[i]? = some c) (hfree : ∀ d, c.grip d = none)
      (hslot : s.desc.slot dir = .ready ∨
        s.desc.slot dir = .idle ∧ c = .unblock caller dir rest (.cas .idle)) :
      Effect s (.call i spurious)
        (((s.setSlot dir .ready).countEdge caller dir).afterUnblock i caller rest)
  | take {act : Act} (i : Nat) (c : Call) (caller : Caller) (dir : Dir) (rest : List Dir) (a : Addr)
      (hc : s.calls[i]? = some c) (hfree : ∀ d, c.grip d = none) (hslot : s.desc.slot dir = .waiter a) :
      Effect s act (s.take i caller dir rest a)
  | write {act : Act} (i : Nat) (caller : Caller) (dir : Dir) (rest : List Dir) (a : Addr)
      (hc : s.calls[i]? = some (.unblock caller dir rest (.write a))) :
      Effect s act (((s.setErr a caller.err).log (s.mem a).handle .written).setCall i
        (.unblock caller dir rest (.dispatch a)))
  | dispatch {act : Act} (i : Nat) (caller : Caller) (dir : Dir) (rest : List Dir) (a : Addr)
      (hc : s.calls[i]? = some (.unblock caller dir rest (.dispatch a))) :
      Effect s act ((s.dispatch a).afterUnblock i caller rest)

variable {i : Nat} {act : Act} {c : Call} {dir : Dir} {spurious : Bool}

lemma Effect.of_pc {s : State} {a : Addr} {pc pc' : AwaitPc} (lock : Option Party) (hpc : s.awaiter dir = pc)
    (hpre : pc.addr = some a) (hpark : pc ≠ .parked a) (hafter : pc'.addr = some a) (hparked' : pc' ≠ .parked a)
    (hsettled : ({ s with lock }.setAwaiter dir pc').settled dir → s.settled dir) :
    Effect s act ({ s with lock }.setAwaiter dir pc') :=
  .move dir a pc' lock (hpc ▸ hpre) (hpc ▸ hpark) hafter hparked' hsettled

lemma settled_setAwaiter {s : State} {pc : AwaitPc} : (s.setAwaiter dir pc).settled dir ↔
      match pc with
      | .leave _ none => True
      | .resume a => (s.mem a).err = none
      | .recheck _ _ => True
      | _ => False := by
  rw [settled, setAwaiter]
  simp only [update_self]

attribute [local simp] settled_setAwaiter

lemma awaiterStep_effect (h : s.awaiterStep dir spurious = some t) : Effect s act t := by
  unfold awaiterStep at h
  split at h
  · cases h
  · rename_i a hpc
    obtain ⟨-, rfl⟩ := of_guard h
    exact .of_pc _ hpc rfl (by simp) rfl (by simp) (by simp)
  · rename_i a stage hpc
    split at h <;> cases h <;>
      exact .of_pc s.lock hpc rfl (by simp) rfl (by simp) (by simp)
  · rename_i a hpc
    split at h <;> cases h <;>
      exact .of_pc s.lock hpc rfl (by simp) rfl (by simp) (by simp)
  · rename_i a hpc
    split at h <;> cases h
    · rename_i hslot
      exact .consume dir a hpc hslot.1
    · exact .of_pc s.lock hpc rfl (by simp) rfl (by simp) (by simp)
  · rename_i a hpc
    split at h <;> cases h
    · rename_i hslot
      exact .publish dir a hpc hslot.1
    · exact .of_pc s.lock hpc rfl (by simp) rfl (by simp) (by simp)
  · rename_i a err hpc
    cases h
    exact .leave dir a err hpc
  · cases h
  · rename_i a hpc
    split at h <;> cases h
    · exact .finish dir _ a (.inl hpc) (by simp)
    · rename_i herr
      refine .of_pc s.lock hpc rfl (by simp) rfl (by simp) fun _ => ?_
      rw [settled, hpc]
      exact herr
  · rename_i a stage hpc
    have hsettled : s.settled dir := by
      rw [settled, hpc]
      trivial
    split at h <;> cases h
    · exact .of_pc s.lock hpc rfl (by simp) rfl (by simp) fun _ => hsettled
    · exact .finish dir _ a (.inr ⟨stage, hpc⟩) fun _ => hsettled

lemma Effect.of_calls {s t : State} {c' : Call} (hc : s.calls[i]? = some c) (haside : Aside s t := by exact {})
    (hcalls : t.calls = s.calls.set i c' := by rfl) (hpre : ∀ d, c.grip d = none := by exact fun _ => rfl)
    (hafter : ∀ d, c'.grip d = none := by exact fun _ => rfl) : Effect s act t := by
  refine .quiet haside fun j d => ?_
  rw [← grip_setCall_of_none hc hpre hafter j d, grip, hcalls, grip, setCall]

lemma Effect.of_endCall {s t : State} {caller : Caller} (hc : s.calls[i]? = some c)
    (hfree : ∀ d, c.grip d = none := by exact fun _ => rfl) (hsame : Aside s t := by exact {})
    (hcalls : t.calls = s.calls := by rfl) : Effect s act (t.endCall i caller) := by
  have hset : (t.endCall i caller).calls = s.calls.set i (.returned caller) := by
    rw [endCall_calls, hcalls]
  exact .of_calls hc (hsame.trans (endCall_aside t i caller)) hset hfree

lemma Effect.of_afterUnblock {s t : State} {caller : Caller} {rest : List Dir} (hc : s.calls[i]? = some c)
    (hfree : ∀ d, c.grip d = none := by exact fun _ => rfl) (hsame : Aside s t := by exact {})
    (hcalls : t.calls = s.calls := by rfl) : Effect s act (t.afterUnblock i caller rest) :=
  .quiet (hsame.trans (afterUnblock_aside t i caller rest))
    (grip_afterUnblock hc hfree hcalls caller rest)

lemma Effect.of_beginUnblock {s t : State} {caller : Caller} {rest : List Dir} (hc : s.calls[i]? = some c)
    (hfree : ∀ d, c.grip d = none := by exact fun _ => rfl) (hsame : Aside s t := by exact {})
    (hcalls : t.calls = s.calls := by rfl) : Effect s act (t.beginUnblock i caller dir rest) :=
  show Effect s act (t.afterUnblock i caller (dir :: rest)) from .of_afterUnblock hc hfree hsame hcalls

lemma enterStep_effect {caller : Caller}
    (hc : s.calls[i]? = some (.enter caller)) (h : s.enterStep i caller = some t) : Effect s act t := by
  unfold enterStep at h
  split at h
  · split at h <;> cases h
    · exact .of_endCall hc
    · exact .of_afterUnblock hc
  · split_ifs at h <;> cases h
    · exact .of_beginUnblock hc
    · exact .of_endCall hc
  · split_ifs at h <;> cases h
    · exact .of_beginUnblock hc
    · exact .of_endCall hc
  · split_ifs at h <;> cases h
    · exact .of_endCall hc
    · exact .of_calls hc
  · split_ifs at h
    cases h
    exact .of_calls hc { closing := fun _ => rfl }

lemma unblockStep_effect {s : State} {caller : Caller} {rest : List Dir}
    {pc : UnblockPc} (hc : s.calls[i]? = some (.unblock caller dir rest pc)) :
    Effect s (.call i spurious) (s.unblockStep i caller dir rest spurious pc) := by
  cases pc with
  | load =>
    rw [unblockStep]
    split
    · rename_i hslot
      have hset : s.setSlot dir .ready = s := by
        rw [setSlot, ← hslot, update_eq_self]
      have heff := Effect.record i spurious _ caller dir rest hc (fun d => rfl) (.inl hslot)
      rwa [hset] at heff
    all_goals exact .of_calls hc
  | cas old =>
    unfold unblockStep
    dsimp only
    split
    · rename_i hslot
      split
      · exact .take i _ caller dir rest _ hc (fun d => rfl) hslot.1
      · exact .record i spurious _ caller dir rest hc (fun d => rfl) (.inr ⟨hslot.1, rfl⟩)
      · exact .record i spurious _ caller dir rest hc (fun d => rfl) (.inl hslot.1)
    · exact .of_calls hc
  | write a => exact .write i caller dir rest a hc
  | dispatch a => exact .dispatch i caller dir rest a hc

lemma callStep_effect (hc : s.calls[i]? = some c)
    (h : s.callStep i spurious c = some t) : Effect s (.call i spurious) t := by
  cases c with
  | enter => exact enterStep_effect hc h
  | disarm =>
    obtain ⟨-, rfl⟩ := of_unless h
    exact .of_calls hc
  | store =>
    rw [callStep, storeStep] at h
    split_ifs at h <;> cases h
    · exact .of_endCall hc
    · exact .of_calls hc
    · exact .of_calls hc
  | commit =>
    cases h
    unfold commitStep
    split
    · exact .of_beginUnblock hc
    · exact .of_calls hc
  | teardown dir =>
    simp only [callStep, teardownStep, ite_none_left_eq_some] at h
    obtain ⟨_, h⟩ := h
    cases dir with
    | read =>
      cases h
      exact .of_calls hc
    | write =>
      cases h
      exact .of_beginUnblock hc
  | unblock =>
    cases h
    exact unblockStep_effect hc
  | unlock =>
    cases h
    exact .of_endCall hc
  | returned => cases h

lemma Effect.of_start {s t : State} {caller : Caller} (hsame : Aside s t := by exact {})
    (hcalls : t.calls = s.calls := by rfl) : Effect s act (t.start caller) := by
  refine .quiet (hsame.trans {}) fun j d => ?_
  rw [grip_start, grip, hcalls, grip]

/-- **What a step does**, for every label. -/
lemma slotStep_effect (h : slotStep s act = some t) : Effect s act t := by
  cases act with
  | await dir a =>
    obtain ⟨⟨hidle, hun⟩, rfl⟩ := of_guard h
    exact .await dir a hidle hun
  | awaiter => exact awaiterStep_effect h
  | unlockParked | tick =>
    obtain ⟨-, rfl⟩ := of_guard h
    exact .quiet {} fun j d => rfl
  | edge | detach =>
    cases h
    exact .of_start
  | fire =>
    rw [slotStep] at h
    split at h
    · obtain ⟨-, rfl⟩ := of_guard h
      exact .of_start
    · cases h
    · cases h
  | cancelHook =>
    obtain ⟨-, rfl⟩ := of_guard h
    exact .of_start
  | setDeadline =>
    obtain ⟨-, rfl⟩ := of_unless h
    exact .of_start
  | call i spurious =>
    rw [slotStep] at h
    split at h
    · rename_i c hc
      exact callStep_effect hc h
    · cases h
  | cancel | bindFlag | stop =>
    cases h
    exact .quiet {} fun j d => rfl

end Cio.Reactor.Slot
