import Cio.CallPool
import Cio.SlotSteps
import Cio.SpinLock

/-! The lifecycle lock. Whoever checks the descriptor's state before it touches a slot holds the lock, so a
task that found the descriptor open publishes its wait before `closing` can be set. -/

namespace Cio.Reactor.Slot

open SpinLock Transition CallPool Function State List

/-- The task is inside `await_suspend`'s critical section. -/
def AwaitPc.critical : AwaitPc → Bool
  | check _ _ | load _ | consume _ | publish _ | leave _ _ => true
  | idle | enter _ | parked _ | resume _ | recheck _ _ => false

/-- The task has found the descriptor open and is about to use the slot. -/
def AwaitPc.admitted : AwaitPc → Bool
  | load _ | consume _ | publish _ => true
  | idle | enter _ | check _ _ | leave _ _ | parked _ | resume _ | recheck _ _ => false

variable {i : Nat} {dir : Dir} {c' c : Call} {pc : AwaitPc} {caller : Caller}

lemma AwaitPc.critical_of_admitted (h : pc.admitted) : pc.critical = true := by
  cases pc <;> simp_all [AwaitPc.admitted, AwaitPc.critical]

def Call.locked : Call → Bool
  | .commit _ _ _ | .unlock _ => true
  | .unblock caller _ _ _ => caller.locks
  | .enter _ | .disarm _ _ | .store _ _ | .teardown _ | .returned _ => false

lemma locked_after (caller : Caller) (rest : List Dir) : (caller.after rest).locked = caller.locks := by
  cases rest with
  | nil => cases hlocks : caller.locks <;> simp [Caller.after, Call.locked, hlocks]
  | cons => rfl

def Inside (awaiter : Dir → AwaitPc) (calls : List Call) : Party → Prop
  | .awaiter d => (awaiter d).critical = true
  | .suspender => False
  | .call i => ∃ c, calls[i]? = some c ∧ c.locked = true

variable {awaiter : Dir → AwaitPc} {calls : List Call} {p : Party}

lemma Inside.of_update (h : Inside (update awaiter dir pc) calls p) :
    p = .awaiter dir ∧ pc.critical ∨ p ≠ .awaiter dir ∧ Inside awaiter calls p := by
  cases p with
  | awaiter d =>
    by_cases hd : d = dir
    · subst hd
      rw [Inside, update_self] at h
      exact .inl ⟨rfl, h⟩
    · rw [Inside, update_of_ne hd] at h
      exact .inr ⟨by simpa using hd, h⟩
  | suspender => exact h.elim
  | call => exact .inr ⟨by simp, h⟩

lemma Inside.of_set (h : Inside awaiter (calls.set i c') p) :
    p = .call i ∧ c'.locked ∨ p ≠ .call i ∧ Inside awaiter calls p := by
  cases p with
  | awaiter => exact .inr ⟨by simp, h⟩
  | suspender => exact h.elim
  | call j =>
    obtain ⟨c, hc, hlocked⟩ := h
    by_cases hj : i = j
    · subst hj
      rw [getElem?_set_self' ] at hc
      obtain ⟨_, _, rfl⟩ := Option.map_eq_some_iff.mp hc
      exact .inl ⟨rfl, hlocked⟩
    · rw [getElem?_set_ne hj] at hc
      exact .inr ⟨by simpa using Ne.symm hj, c, hc, hlocked⟩

lemma Inside.of_append (hc' : c'.locked = false) (h : Inside awaiter (calls ++ [c']) p) : Inside awaiter calls p := by
  cases p with
  | awaiter => exact h
  | suspender => exact h
  | call j =>
    obtain ⟨c, hc, hlocked⟩ := h
    obtain hold | ⟨-, rfl⟩ := lookup_concat hc
    · exact ⟨c, hold, hlocked⟩
    · rw [hc'] at hlocked
      cases hlocked

/-- The lock is held by whoever is inside, and an admitted task keeps the descriptor open. -/
structure Locked (s : State) : Prop where
  guards : Guards s.lock (Inside s.awaiter s.calls)
  admitted : ∀ d, (s.awaiter d).admitted = true → s.desc.closing = false

namespace Locked

variable {s t : State}

section

variable (h : Locked s)
include h

lemma not_admitted (hfree : s.lock = none) (d : Dir) : (s.awaiter d).admitted = false := by
  rw [← Bool.not_eq_true]
  intro hadm
  have hgrd := h.guards
  rw [hfree] at hgrd
  exact hgrd.not_inside (.awaiter d) (AwaitPc.critical_of_admitted hadm)

lemma of_task (haw : t.awaiter = update s.awaiter dir pc)
    (hgrd : Guards t.lock (Inside (update s.awaiter dir pc) s.calls))
    (hadm : pc.admitted → s.desc.closing = false := by rintro ⟨⟩) (hcalls : t.calls = s.calls := by rfl)
    (hclosing : t.desc.closing = s.desc.closing := by rfl) : Locked t := by
  refine ⟨by rwa [haw, hcalls], fun d hd => ?_⟩
  rw [hclosing]
  rw [haw] at hd
  by_cases hdir : d = dir
  · subst hdir
    rw [update_self] at hd
    exact hadm hd
  · rw [update_of_ne hdir] at hd
    exact h.admitted d hd

lemma task_keep (hpc : pc.critical → (s.awaiter dir).critical = true := by rintro ⟨⟩) :
    Guards s.lock (Inside (update s.awaiter dir pc) s.calls) := by
  refine h.guards.keep fun p hp => ?_
  rcases hp.of_update with ⟨rfl, hcritical⟩ | ⟨_, hold⟩
  · exact hpc hcritical
  · exact hold

lemma task_acquire (hfree : s.lock = none) (dir : Dir) (pc : AwaitPc) :
    Guards (some (.awaiter dir)) (Inside (update s.awaiter dir pc) s.calls) := by
  have hgrd := h.guards
  rw [hfree] at hgrd
  refine hgrd.acquire fun q hq => ?_
  rcases hq.of_update with ⟨rfl, _⟩ | ⟨_, hold⟩
  · exact .inr rfl
  · exact .inl hold

lemma task_release {lock : Option Party}
    (hcritical : (s.awaiter dir).critical) (hpc : pc.critical = false := by rfl) :
    Guards lock (Inside (update s.awaiter dir pc) s.calls) := by
  refine h.guards.release (p := .awaiter dir) hcritical fun q hq => ?_
  rcases hq.of_update with ⟨_, hin⟩ | ⟨hne, hold⟩
  · rw [hpc] at hin
    cases hin
  · exact ⟨hold, hne⟩

lemma of_call (hcalls : t.calls = s.calls.set i c')
    (hgrd : Guards t.lock (Inside s.awaiter (s.calls.set i c'))) (haw : t.awaiter = s.awaiter := by rfl)
    (hclosing : t.desc.closing = s.desc.closing := by rfl) : Locked t :=
  ⟨by rwa [haw, hcalls], fun d hd => hclosing.trans (h.admitted d (haw ▸ hd))⟩

lemma call_keep (hc : s.calls[i]? = some c)
    (hlocked : c'.locked → c.locked = true := by first | exact id | rintro ⟨⟩ | exact fun _ => rfl) :
    Guards s.lock (Inside s.awaiter (s.calls.set i c')) := by
  refine h.guards.keep fun p hp => ?_
  rcases hp.of_set with ⟨rfl, hin⟩ | ⟨_, hold⟩
  · exact ⟨c, hc, hlocked hin⟩
  · exact hold

lemma call_acquire (hfree : s.lock = none) (i : Nat) (c' : Call) :
    Guards (some (.call i)) (Inside s.awaiter (s.calls.set i c')) := by
  have hgrd := h.guards
  rw [hfree] at hgrd
  refine hgrd.acquire fun q hq => ?_
  rcases hq.of_set with ⟨rfl, _⟩ | ⟨_, hold⟩
  · exact .inr rfl
  · exact .inl hold

lemma call_release {lock : Option Party} (hc : s.calls[i]? = some c) (hlocked : c.locked) (hrel : c'.locked = false) :
    Guards lock (Inside s.awaiter (s.calls.set i c')) := by
  refine h.guards.release (p := .call i) ⟨c, hc, hlocked⟩ fun q hq => ?_
  rcases hq.of_set with ⟨_, hin⟩ | ⟨hne, hold⟩
  · rw [hrel] at hin
    cases hin
  · exact ⟨hold, hne⟩

end

end Locked

lemma checkStep_open {d : IoDesc Addr Nat} {env : Env Nat} {generation : UInt32}
    {stage : CheckStage} (h : checkStep d env dir generation stage = .inl none) : d.closing = false := by
  rw [← Bool.not_eq_true]
  intro hclosing
  cases stage with
  | incarnation | again => simp [checkStep, hclosing] at h
  | token =>
    rw [checkStep] at h
    split at h <;> cases h
  | deadline => cases h

lemma awaiterStep_locked {spurious : Bool} (h : Locked s) (hs : s.awaiterStep dir spurious = some t) : Locked t := by
  unfold awaiterStep at hs
  split at hs
  · cases hs
  · rename_i a hpc
    obtain ⟨hguard, rfl⟩ := of_guard hs
    exact h.of_task rfl (h.task_acquire hguard dir _)
  · rename_i a stage hpc
    split at hs <;> cases hs
    · exact h.of_task rfl (h.task_keep fun _ => by rw [hpc]; rfl)
    · rename_i hopen
      exact h.of_task rfl (h.task_keep fun _ => by rw [hpc]; rfl) fun _ => checkStep_open hopen
    · exact h.of_task rfl (h.task_keep fun _ => by rw [hpc]; rfl)
  · rename_i a hpc
    have hopen := h.admitted dir (hpc ▸ rfl)
    split at hs <;> cases hs <;>
      exact h.of_task rfl (h.task_keep fun _ => by rw [hpc]; rfl) fun _ => hopen
  · rename_i a hpc
    have hopen := h.admitted dir (hpc ▸ rfl)
    split at hs <;> cases hs <;>
      exact h.of_task rfl (h.task_keep fun _ => by rw [hpc]; rfl) fun _ => hopen
  · rename_i a hpc
    have hopen := h.admitted dir (hpc ▸ rfl)
    split at hs <;> cases hs
    · exact h.of_task rfl (h.task_release (hpc ▸ rfl))
    · exact h.of_task rfl (h.task_keep fun _ => by rw [hpc]; rfl) fun _ => hopen
  · rename_i a err hpc
    cases hs
    exact h.of_task rfl (h.task_release (hpc ▸ rfl))
  · cases hs
  · rename_i a hpc
    split at hs <;> cases hs
    all_goals exact h.of_task rfl h.task_keep
  · split at hs <;> cases hs
    · exact h.of_task rfl h.task_keep
    · unfold finish
      split <;>
        exact h.of_task rfl h.task_keep

lemma Locked.of_afterUnblock {s t : State} (h : Locked s) (rest : List Dir)
    (hgrd : Guards t.lock (Inside s.awaiter (s.calls.set i (caller.after rest))))
    (haw : t.awaiter = s.awaiter := by rfl) (hcalls : t.calls = s.calls := by rfl)
    (hclosing : t.desc.closing = s.desc.closing := by rfl) : Locked (t.afterUnblock i caller rest) := by
  have hset : (t.afterUnblock i caller rest).calls = s.calls.set i (caller.after rest) := by
    rw [afterUnblock_calls, hcalls]
  refine h.of_call hset ?_ ((afterUnblock_aside t i caller rest).awaiter.trans haw)
    ((afterUnblock_closing t i caller rest).trans hclosing)
  rwa [afterUnblock_lock]

lemma Locked.of_endCall {s t : State} (h : Locked s)
    (hgrd : Guards t.lock (Inside s.awaiter (s.calls.set i (.returned caller))))
    (haw : t.awaiter = s.awaiter := by rfl) (hcalls : t.calls = s.calls := by rfl)
    (hclosing : t.desc.closing = s.desc.closing := by rfl) : Locked (t.endCall i caller) := by
  have hset : (t.endCall i caller).calls = s.calls.set i (.returned caller) := by
    rw [endCall_calls, hcalls]
  refine h.of_call hset ?_ ((endCall_aside t i caller).awaiter.trans haw) ((endCall_closing t i caller).trans hclosing)
  rwa [endCall_lock]

lemma enterStep_locked (h : Locked s)
    (hc : s.calls[i]? = some (.enter caller)) (hs : s.enterStep i caller = some t) : Locked t := by
  have hend : Locked (s.endCall i caller) := h.of_endCall (h.call_keep hc)
  unfold enterStep at hs
  split at hs
  · split at hs <;> cases hs
    · exact hend
    · refine h.of_afterUnblock _ (h.call_keep hc fun hlocked => ?_)
      rw [locked_after] at hlocked
      cases hlocked
  · rename_i dir seq
    split_ifs at hs with hfree hmatch <;> cases hs
    · exact h.of_afterUnblock [dir] (h.call_acquire (not_not.mp hfree) i _)
    · exact hend
  · split_ifs at hs with hfree hopen <;> cases hs
    · exact h.of_afterUnblock [.read, .write] (h.call_acquire (not_not.mp hfree) i _)
    · exact hend
  · split_ifs at hs with hfree hshut <;> cases hs
    · exact hend
    · exact h.of_call rfl (h.call_keep hc)
  · split_ifs at hs with hfree
    cases hs
    refine ⟨h.call_keep hc (by simp [Call.locked]), fun d hd => ?_⟩
    have hnot := h.not_admitted (not_not.mp hfree) d
    exact nomatch hnot.symm.trans hd

lemma unblockStep_locked {s : State} {rest : List Dir}
    {pc : UnblockPc} (h : Locked s) (hc : s.calls[i]? = some (.unblock caller dir rest pc))
    (spurious : Bool) : Locked (s.unblockStep i caller dir rest spurious pc) := by
  have hafter : Guards s.lock (Inside s.awaiter (s.calls.set i (caller.after rest))) :=
    h.call_keep hc fun hin => (locked_after caller rest).symm.trans hin
  cases pc with
  | load =>
    rw [unblockStep]
    split
    · exact h.of_afterUnblock rest hafter
    · exact h.of_call rfl (h.call_keep hc)
    · exact h.of_call rfl (h.call_keep hc)
  | cas =>
    unfold unblockStep
    dsimp only
    split
    · split
      · exact h.of_call rfl (h.call_keep hc)
      · exact h.of_afterUnblock rest hafter
      · exact h.of_afterUnblock rest hafter
    · exact h.of_call rfl (h.call_keep hc)
  | write => exact h.of_call rfl (h.call_keep hc)
  | dispatch a =>
    -- The woken task is outside the critical section, so waking it first changes nothing.
    have hwoken : Locked (s.dispatch a) := h.of_task rfl h.task_keep
    exact hwoken.of_afterUnblock rest (hwoken.call_keep hc fun hin => (locked_after caller rest).symm.trans hin)

lemma callStep_locked {spurious : Bool} (h : Locked s)
    (hc : s.calls[i]? = some c) (hs : s.callStep i spurious c = some t) : Locked t := by
  cases c with
  | enter => exact enterStep_locked h hc hs
  | disarm =>
    obtain ⟨-, rfl⟩ := of_unless hs
    exact h.of_call rfl (h.call_keep hc)
  | store =>
    rw [callStep, storeStep] at hs
    split_ifs at hs with hfree hshut hzero <;> cases hs
    · exact h.of_endCall (h.call_keep hc)
    · exact h.of_call rfl (h.call_acquire (not_not.mp hfree) i _)
    · exact h.of_call rfl (h.call_acquire (not_not.mp hfree) i _)
  | commit dir =>
    cases hs
    unfold commitStep
    dsimp only
    split
    · exact h.of_afterUnblock [dir] (h.call_keep hc)
    · exact h.of_call rfl (h.call_keep hc)
  | teardown dir =>
    simp only [callStep, teardownStep, Option.ite_none_left_eq_some] at hs
    obtain ⟨_, hs⟩ := hs
    cases dir with
    | read =>
      cases hs
      exact h.of_call rfl (h.call_keep hc)
    | write =>
      cases hs
      refine h.of_afterUnblock [.read, .write] (h.call_keep hc fun hlocked => ?_)
      cases hlocked
  | unblock =>
    cases hs
    exact unblockStep_locked h hc spurious
  | unlock =>
    cases hs
    exact h.of_endCall (h.call_release hc rfl rfl)
  | returned => cases hs

lemma Locked.of_start {s t : State} {caller : Caller} (h : Locked s) (hlock : t.lock = s.lock := by rfl)
    (haw : t.awaiter = s.awaiter := by rfl) (hcalls : t.calls = s.calls := by rfl)
    (hclosing : t.desc.closing = s.desc.closing := by rfl) : Locked (t.start caller) := by
  refine ⟨?_, fun d hd => hclosing.trans (h.admitted d (haw ▸ hd))⟩
  rw [start, hlock, haw, hcalls]
  exact h.guards.keep fun p hp => hp.of_append rfl

lemma slotStep_locked {act : Act} (h : Locked s) (hs : slotStep s act = some t) : Locked t := by
  cases act with
  | await =>
    obtain ⟨-, rfl⟩ := of_guard hs
    exact h.of_task rfl h.task_keep
  | awaiter => exact awaiterStep_locked h hs
  | unlockParked =>
    obtain ⟨hlock, rfl⟩ := of_guard hs
    refine ⟨fun p hp => ?_, h.admitted⟩
    have hparty := (h.guards p hp).symm.trans hlock
    cases hparty
    exact hp.elim
  | edge | detach =>
    cases hs
    exact h.of_start
  | fire =>
    rw [slotStep] at hs
    split at hs
    · obtain ⟨-, rfl⟩ := of_guard hs
      exact h.of_start
    · cases hs
    · cases hs
  | cancelHook =>
    obtain ⟨-, rfl⟩ := of_guard hs
    exact h.of_start
  | setDeadline =>
    obtain ⟨-, rfl⟩ := of_unless hs
    exact h.of_start
  | call i spurious =>
    rw [slotStep] at hs
    split at hs
    · rename_i c hc
      exact callStep_locked h hc hs
    · cases hs
  | tick =>
    obtain ⟨-, rfl⟩ := of_guard hs
    exact ⟨h.guards, h.admitted⟩
  | cancel | bindFlag | stop =>
    cases hs
    exact ⟨h.guards, h.admitted⟩

end Cio.Reactor.Slot
