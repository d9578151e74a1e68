import Cio.ProcessWaitShape

/-! A clean wait tells the truth: unless it starts with a slot that lies about the child, or a late hook runs
into it, it returns the exit status, and it is not parked once the exit was dispatched. -/

namespace Cio.Process

open Transition WaitState Option Function Except System
open Cio.Reactor

/-- The slot and the edges tell the truth about the child: a recorded edge means that it has
exited, and an exit is recorded or on its way. -/
def ExitRecorded (s : WaitState) : Prop :=
  (s.slot = .ready → s.child ≠ .running) ∧
    (s.child ≠ .running → s.slot = .ready ∨ s.edge = true ∨ 0 < s.dispatching)

/-- A clean wait starts with a truthful slot, and no hook that passed its `active_` check before
the token was cleared runs `cancel_waiters` into it. -/
def WaitUndisturbed (s : WaitState) : WaitAct → Prop
  | .call => s.unconstrained = true → s.status = none → ExitRecorded s
  | .hookRun _ =>
    s.clean = true → s.waiter ≠ .parked ∧ (s.waiter = .suspendCheck → s.child ≠ .running)
  | _ => True

instance (s : WaitState) : Decidable (ExitRecorded s) := inferInstanceAs (Decidable (_ ∧ _))

instance (s : WaitState) (a : WaitAct) : Decidable (WaitUndisturbed s a) :=
  match a with
  | .call => inferInstanceAs (Decidable (_ → _ → ExitRecorded s))
  | .hookRun _ => inferInstanceAs (Decidable (_ → _ ∧ _))
  | .exit _ | .harvest | .dispatch | .tick _ | .setDeadline _ | .storeDeadline | .expire
  | .onDeadline | .setCancel _ | .publishFlag | .addHook | .cancel _ | .takeHooks _
  | .hookCheck _ | .wait => .isTrue trivial

/-- Every clean wait that returned gave the exit status of the child, which has exited. -/
def ReturnedStatus (s : WaitState) : Prop :=
  ∀ result, (true, result) ∈ s.returned → ∃ info status,
    s.child.exitInfo = some info ∧ info.decode = .ok status ∧ result = .ok status

/-- Moreover no clean wait is parked after the exit edge was harvested and dispatched. -/
structure WaitTruthful (s : WaitState) : Prop where
  returned : ReturnedStatus s
  not_stuck : ¬ (s.clean = true ∧ s.waiter = .parked ∧ s.child ≠ .running ∧ s.edge = false ∧
    s.dispatching = 0)

def CleanPhase (s : WaitState) : Prop :=
  match s.waiter with
  | .idle => True
  | .suspendCheck | .suspendSlot => ExitRecorded s
  | .parked => s.child ≠ .running → s.edge = true ∨ 0 < s.dispatching
  | .resume err => err = none ∧ s.child ≠ .running
  | .waitid => s.child ≠ .running

variable {s t : WaitState} {a : WaitAct} {i : Nat}

/-- A background step during a clean wait that leaves it clean, hooks apart, touches neither the
slot nor the task: a timer would need a stored deadline, an immediate hook a bound token. -/
lemma background_clean (hdesc : DescShape s) (hclean : s.clean → s.unconstrained) (ha : a.background)
    (hhook : ∀ i, a ≠ .hookRun i) (hstep : waitStep s a = some t) (ht : t.clean) :
    s.clean ∧ t.slot = s.slot ∧ t.waiter = s.waiter ∧ t.unconstrained = true := by
  cases a with
  | exit | harvest | dispatch | call | wait => simp [WaitAct.background] at ha
  | hookRun i => exact absurd rfl (hhook i)
  | tick | cancel | takeHooks | setDeadline =>
    obtain ⟨-, rfl⟩ := of_guard hstep
    exact ⟨ht, rfl, rfl, hclean ht⟩
  | storeDeadline =>
    obtain ⟨deadlineNs, rfl⟩ := storeDeadline_cases hstep
    simp only [Bool.and_eq_true, beq_iff_eq] at ht
    obtain ⟨hs, rfl⟩ := ht
    obtain ⟨hslot, hzero⟩ := IoDesc.storeDeadline_clear hdesc.closing hdesc.stopping .read
    have hkept : (s.desc.storeDeadline s.env .read s.desc.generation 0).1.slot .read = s.slot :=
      congrFun hslot .read
    refine ⟨hs, hkept, if_neg fun htaken => htaken.2 (hkept.trans htaken.1), ?_⟩
    have hflag := (s.desc.storeDeadline_frame s.env .read s.desc.generation 0).2.2
    have hfree := hclean hs
    simp only [unconstrained, Bool.and_eq_true, beq_iff_eq] at hfree ⊢
    exact ⟨hzero, hflag ▸ hfree.2⟩
  | expire =>
    obtain ⟨_, seq, rfl⟩ := expire_cases hstep
    exact ⟨ht, rfl, rfl, hclean ht⟩
  | onDeadline =>
    obtain ⟨seq, hfire, rfl⟩ := onDeadline_cases hstep
    have hfree : s.unconstrained = true := hclean ht
    have hst := hdesc.timer (by simp [hfire])
    simp [unconstrained, hst] at hfree
  | setCancel =>
    obtain ⟨active, hooks, binding, rfl⟩ := setCancel_cases hstep
    exact ⟨ht, rfl, rfl, hclean ht⟩
  | publishFlag =>
    obtain ⟨token, rfl⟩ := publishFlag_cases hstep
    simp only [Bool.and_eq_true, isNone_iff_eq_none] at ht
    obtain ⟨hs, rfl⟩ := ht
    have hfree := hclean hs
    refine ⟨hs, rfl, rfl, ?_⟩
    simp only [unconstrained, Bool.and_eq_true] at hfree ⊢
    exact ⟨hfree.1, rfl⟩
  | addHook =>
    obtain ⟨token, hbind, rfl⟩ := addHook_cases hstep
    have hs : s.clean = true := by
      unfold addHook at ht
      split at ht <;> exact ht
    have hfree := hclean hs
    have hflag := hdesc.bind token hbind
    simp [unconstrained, hflag] at hfree
  | hookCheck =>
    obtain ⟨firing, rfl⟩ := hookCheck_cases hstep
    exact ⟨ht, rfl, rfl, hclean ht⟩

attribute [local simp] unblocked finish slot ChildState.exitInfo

lemma hookRun_unconstrained (hdesc : DescShape s)
    (hs : waitStep s (.hookRun i) = some t) : t.unconstrained = s.unconstrained := by
  obtain ⟨_, rfl⟩ := hookRun_cases hs
  simp [unconstrained, IoDesc.cancelWaiters, hdesc.closing]

lemma wait_clean (hclean : s.clean → s.unconstrained) (hst : s.wait = some t) : t.clean → t.unconstrained = true := by
  have hframe : (t.clean → s.clean) ∧ t.unconstrained = s.unconstrained := by
    unfold wait at hst
    split at hst
    · cases hst
    · cases hst
    · split at hst <;> cases hst <;> exact ⟨id, rfl⟩
    · unfold IoDesc.suspendSlot at hst
      cases hslot : s.desc.slot .read <;> rw [hslot] at hst <;> cases hst <;> exact ⟨id, rfl⟩
    · cases hst
      exact ⟨fun hs => absurd hs Bool.false_ne_true, rfl⟩
    · split at hst <;> cases hst
      · exact ⟨fun hs => absurd hs Bool.false_ne_true, rfl⟩
      · exact ⟨id, rfl⟩
    · split at hst
      · cases hst
        exact ⟨fun hs => absurd hs Bool.false_ne_true, rfl⟩
      · split at hst <;> cases hst <;> exact ⟨fun hs => absurd hs Bool.false_ne_true, rfl⟩
  intro ht
  rw [hframe.2]
  exact hclean (hframe.1 ht)

lemma waitStep_clean (hdesc : DescShape s) (hclean : s.clean → s.unconstrained) (hs : waitStep s a = some t)
    (ht : t.clean) : t.unconstrained = true := by
  cases a with
  | exit | harvest =>
    obtain ⟨-, rfl⟩ := of_guard hs
    exact hclean ht
  | dispatch =>
    obtain ⟨-, rfl⟩ := of_guard hs
    have hfree := hclean ht
    simpa [unconstrained] using hfree
  | hookRun =>
    rw [hookRun_unconstrained hdesc hs]
    obtain ⟨_, rfl⟩ := hookRun_cases hs
    exact hclean ht
  | call =>
    obtain ⟨-, rfl⟩ := of_guard hs
    unfold call at ht ⊢
    dsimp only at ht ⊢
    split at ht
    · cases ht
    · split at ht
      · cases ht
      · rename_i hnone hfd
        simp only [hnone, hfd, if_false]
        exact ht
  | wait => exact wait_clean hclean hs ht
  | tick | setDeadline | storeDeadline | expire | onDeadline | setCancel
  | publishFlag | addHook | cancel | takeHooks | hookCheck =>
    exact (background_clean hdesc hclean rfl (by simp) hs ht).2.2.2

lemma CleanPhase.of_same (h : CleanPhase s) (hw : t.waiter = s.waiter) (hslot : t.slot = s.slot)
    (hchild : t.child = s.child) (hedge : t.edge = s.edge) (hdsp : t.dispatching = s.dispatching) : CleanPhase t := by
  unfold CleanPhase ExitRecorded at h ⊢
  rw [hw, hslot, hchild, hedge, hdsp]
  exact h

lemma ReturnedStatus.of_same (h : ReturnedStatus s) (hret : t.returned = s.returned)
    (hchild : t.child.exitInfo = s.child.exitInfo) : ReturnedStatus t := by
  unfold ReturnedStatus
  rw [hret, hchild]
  exact h

lemma ReturnedStatus.finish (h : ReturnedStatus s) {result : Except Error Status}
    (hresult : s.clean → ∃ info status, s.child.exitInfo = some info ∧ info.decode = .ok status ∧ result = .ok status) :
    ReturnedStatus (s.finish result) := by
  intro result' hmem
  simp only [WaitState.finish, List.mem_append, List.mem_singleton, Prod.mk.injEq] at hmem
  rcases hmem with hold | ⟨hclean, rfl⟩
  · exact h result' hold
  · exact hresult hclean.symm

lemma ioError_of_unconstrained (hdesc : DescShape s) (hfree : s.unconstrained) :
    s.desc.ioError s.env .read s.desc.generation = none := by
  simp only [unconstrained, Bool.and_eq_true, beq_iff_eq, isNone_iff_eq_none] at hfree
  simp [IoDesc.ioError, IoDesc.cancelled, IoDesc.timedOut, hdesc.closing, hdesc.stopping, hfree.2, hfree.1]

lemma wait_phase (hdesc : DescShape s) (hexit : ExitShape s) (hclean : s.clean → s.unconstrained)
    (hphase : s.clean → CleanPhase s) (hret : ReturnedStatus s)
    (hst : s.wait = some t) : (t.clean → CleanPhase t) ∧ ReturnedStatus t := by
  unfold wait at hst
  split at hst
  · cases hst
  · cases hst
  · rename_i hpc
    split at hst <;> cases hst
    · rename_i err herr
      refine ⟨fun hs => ?_, hret⟩
      rw [ioError_of_unconstrained hdesc (hclean hs)] at herr
      cases herr
    · refine ⟨fun hs => ?_, hret⟩
      have hready := hphase hs
      rw [CleanPhase, hpc] at hready
      exact hready
  · rename_i hpc
    have hnot : s.slot ≠ .waiter () := fun hslot => by simpa [hpc] using hdesc.parked.mp hslot
    unfold IoDesc.suspendSlot at hst
    cases hslot : s.desc.slot .read with
    | idle =>
      rw [hslot] at hst
      cases hst
      refine ⟨fun hs hgone => ?_, hret⟩
      have hready := hphase hs
      rw [CleanPhase, hpc] at hready
      exact (hready.2 hgone).resolve_left (by simp [hslot])
    | ready =>
      rw [hslot] at hst
      cases hst
      refine ⟨fun hs => ?_, hret⟩
      have hready := hphase hs
      rw [CleanPhase, hpc] at hready
      exact ⟨rfl, hready.1 hslot⟩
    | waiter => exact absurd hslot hnot
  · rename_i err hpc
    cases hst
    refine ⟨fun hs => absurd hs Bool.false_ne_true, hret.finish fun hs => ?_⟩
    have hres := hphase hs
    rw [CleanPhase, hpc] at hres
    simp at hres
  · rename_i hpc
    split at hst <;> cases hst
    · rename_i err herr
      refine ⟨fun hs => absurd hs Bool.false_ne_true, hret.finish fun hs => ?_⟩
      rw [ioError_of_unconstrained hdesc (hclean hs)] at herr
      cases herr
    · refine ⟨fun hs => ?_, hret⟩
      have hres := hphase hs
      rw [CleanPhase, hpc] at hres
      exact hres.2
  · rename_i hpc
    have hnone := hexit.pending (by simp [hpc])
    cases hchild : s.child with
    | running =>
      simp only [hchild, ChildState.waitid] at hst
      cases hst
      have hsame : ReturnedStatus { s with child := .running } := hret.of_same rfl (by simp [hchild])
      refine ⟨fun hs => absurd hs Bool.false_ne_true, hsame.finish fun hs => ?_⟩
      have hreap := hphase hs
      rw [CleanPhase, hpc] at hreap
      exact absurd hchild hreap
    | exited info =>
      obtain ⟨status, hdec⟩ := hexit.decodes info (by simp [hchild])
      simp only [hchild, ChildState.waitid, hdec] at hst
      cases hst
      have hsame : ReturnedStatus { s with child := .reaped info, status := some status } :=
        hret.of_same rfl (by simp [hchild])
      exact ⟨fun hs => absurd hs Bool.false_ne_true, hsame.finish fun _ => ⟨info, status, rfl, hdec, rfl⟩⟩
    | reaped info =>
      obtain ⟨status, hstat, _⟩ := hexit.reaped info hchild
      simp [hnone] at hstat

lemma unblocked_waiter_of_free (d : IoDesc Unit Nat) (err : Option Error)
    (hslot : s.slot ≠ .waiter ()) : (s.unblocked d err).waiter = s.waiter :=
  if_neg fun htaken => hslot htaken.1

lemma unblocked_waiter_of_taken {d : IoDesc Unit Nat} (err : Option Error) (hslot : s.slot = .waiter ())
    (hd : d.slot .read = s.slot.unblock) : (s.unblocked d err).waiter = .resume err := by
  refine if_pos ⟨hslot, ?_⟩
  rw [hd, hslot]
  simp [SlotWord.unblock]

lemma unblocked_phase {d : IoDesc Unit Nat} {err : Option Error} (hpark : s.slot = .waiter () ↔ s.waiter = .parked)
    (hd : d.slot .read = s.slot.unblock) (hgone : s.child ≠ .running) (herr : s.waiter = .parked → err = none)
    (hresume : ∀ e, s.waiter = .resume e → e = none) : CleanPhase (s.unblocked d err) := by
  by_cases hslot : s.slot = .waiter ()
  · rw [CleanPhase, unblocked_waiter_of_taken err hslot hd]
    exact ⟨herr (hpark.mp hslot), hgone⟩
  · have hready : (s.unblocked d err).slot = .ready := by
      refine hd.trans ?_
      cases hold : s.slot with
      | idle | ready => rfl
      | waiter => exact absurd hold hslot
    rw [CleanPhase, unblocked_waiter_of_free d err hslot]
    cases hpc : s.waiter with
    | idle => trivial
    | suspendCheck | suspendSlot => exact ⟨fun _ => hgone, fun _ => .inl hready⟩
    | parked => exact absurd (hpark.mpr hpc) hslot
    | resume e => exact ⟨hresume e hpc, hgone⟩
    | waitid => exact hgone

lemma CleanPhase.resume_none (h : CleanPhase s) {err : Option Error} (hpc : s.waiter = .resume err) : err = none := by
  rw [CleanPhase, hpc] at h
  exact h.1

lemma hookRun_phase (hdesc : DescShape s) (hphase : CleanPhase s)
    (hpark : s.waiter ≠ .parked) (hcheck : s.waiter = .suspendCheck → s.child ≠ .running)
    (hs : waitStep s (.hookRun i) = some t) : CleanPhase t := by
  obtain ⟨hopen, rfl⟩ := hookRun_cases hs
  have hslot : s.slot ≠ .waiter () := fun hslot => hpark (hdesc.parked.mp hslot)
  by_cases hidle : s.waiter = .idle
  · rw [CleanPhase, unblocked_waiter_of_free _ _ (by exact hslot)]
    simp only [hidle]
  · have hgone : s.child ≠ .running := by
      unfold CleanPhase at hphase
      cases hpc : s.waiter with
      | idle => exact absurd hpc hidle
      | suspendCheck => exact hcheck hpc
      | suspendSlot => exact absurd hpc hopen
      | parked => exact absurd hpc hpark
      | resume =>
        rw [hpc] at hphase
        exact hphase.2
      | waitid =>
        rw [hpc] at hphase
        exact hphase
    exact unblocked_phase hdesc.parked
      (IoDesc.cancelWaiters_slot hdesc.closing .read) hgone (fun h => absurd h hpark)
      fun _ hpc => hphase.resume_none hpc

lemma waitStep_phase (hdesc : DescShape s) (hexit : ExitShape s) (hclean : s.clean → s.unconstrained)
    (hphase : s.clean → CleanPhase s) (hret : ReturnedStatus s) (hstill : WaitUndisturbed s a)
    (hst : waitStep s a = some t) : (t.clean → CleanPhase t) ∧ ReturnedStatus t := by
  cases a with
  | exit =>
    obtain ⟨⟨hrunning, _⟩, rfl⟩ := of_guard hst
    refine ⟨fun hs => ?_, fun result hmem => ?_⟩
    · have hpre := hphase hs
      unfold CleanPhase at hpre ⊢
      cases hpc : s.waiter <;> simp_all [ExitRecorded]
    · obtain ⟨info', _, hinfo, _⟩ := hret result hmem
      simp [hrunning] at hinfo
  | harvest =>
    obtain ⟨-, rfl⟩ := of_guard hst
    refine ⟨fun hs => ?_, hret⟩
    have hpre := hphase hs
    unfold CleanPhase at hpre ⊢
    cases hpc : s.waiter <;> simp_all [ExitRecorded, slot]
  | dispatch =>
    obtain ⟨hact, rfl⟩ := of_guard hst
    refine ⟨fun hs => ?_, hret⟩
    exact unblocked_phase hdesc.parked
      (by simp) (hexit.edge (.inr hact)) (fun _ => rfl)
      fun e he => (hphase hs).resume_none he
  | hookRun i =>
    have hframe := waitStep_background rfl hst
    refine ⟨fun ht => ?_, hret.of_same hframe.returned (by rw [hframe.child])⟩
    have hs : s.clean = true := by
      obtain ⟨_, rfl⟩ := hookRun_cases hst
      exact ht
    obtain ⟨hpark, hcheck⟩ := hstill hs
    exact hookRun_phase hdesc (hphase hs) hpark hcheck hst
  | call =>
    obtain ⟨-, rfl⟩ := of_guard hst
    unfold call
    dsimp only
    split
    · rename_i status hstat
      obtain ⟨info, hchild, hdec⟩ := hexit.status status hstat
      have hstart : ReturnedStatus { s with clean := s.unconstrained } := hret
      refine ⟨fun hs => absurd hs Bool.false_ne_true, hstart.finish fun _ => ⟨info, status, ?_, hdec, rfl⟩⟩
      simp [hchild]
    · rename_i hnone
      rw [if_neg (not_lt.mpr hdesc.fd_nonneg)]
      exact ⟨fun hfree => hstill hfree hnone, hret⟩
  | wait => exact wait_phase hdesc hexit hclean hphase hret hst
  | tick | setDeadline | storeDeadline | expire | onDeadline | setCancel
  | publishFlag | addHook | cancel | takeHooks | hookCheck =>
    have hframe := waitStep_background rfl hst
    refine ⟨fun ht => ?_, hret.of_same hframe.returned (by rw [hframe.child])⟩
    obtain ⟨hs, hslot, hw, _⟩ := background_clean hdesc hclean rfl (by simp) hst ht
    exact (hphase hs).of_same hw hslot hframe.child hframe.edge hframe.dispatching

lemma init_shape (hinit : waitSystem.init s) : DescShape s ∧ ExitShape s ∧ s.clean = false ∧ s.returned = [] := by
  obtain ⟨d, fd, now, hflag, hfd, rfl⟩ := hinit
  refine ⟨⟨hfd, rfl, rfl, ?_, by simp, by simp, by simp⟩, ⟨?_, by simp, by simp, by simp, by simp⟩, rfl, rfl⟩
  · simp [IoDesc.attachFields]
  · simp

lemma waitSystem_shape {C : WaitState → WaitAct → Prop} (hs : waitSystem.ReachableVia C s) :
    DescShape s ∧ ExitShape s ∧ (s.clean → s.unconstrained) := by
  refine hs.invariant
    (P := fun s => DescShape s ∧ ExitShape s ∧ (s.clean → s.unconstrained))
    (fun s hinit => ?_) fun s a t h _ hst => ?_
  · obtain ⟨hdesc, hexit, hclean, _⟩ := init_shape hinit
    exact ⟨hdesc, hexit, by simp [hclean]⟩
  · exact ⟨waitStep_desc h.1 hst, waitStep_exit h.1 h.2.1 hst, waitStep_clean h.1 h.2.2 hst⟩

lemma waitSystem_phase (hs : waitSystem.ReachableVia WaitUndisturbed s) :
    (s.clean → CleanPhase s) ∧ ReturnedStatus s := by
  induction hs with
  | start hinit =>
    obtain ⟨_, _, hclean, hret⟩ := init_shape hinit
    exact ⟨by simp [hclean], by simp [ReturnedStatus, hret]⟩
  | next hs hstill hst ih =>
    obtain ⟨hdesc, hexit, hclean⟩ := waitSystem_shape hs
    exact waitStep_phase hdesc hexit hclean ih.1 ih.2 hstill hst

lemma WaitTruthful.of_phase (hphase : s.clean → CleanPhase s) (hret : ReturnedStatus s) : WaitTruthful s := by
  refine ⟨hret, ?_⟩
  rintro ⟨hclean, hpc, hgone, hedge, hdsp⟩
  have hpark := hphase hclean
  rw [CleanPhase, hpc] at hpark
  rcases hpark hgone with hpend | hact
  · simp [hedge] at hpend
  · omega

lemma not_returnedStatus_of_error (err : Error) (h : (true, error err) ∈ s.returned) : ¬ ReturnedStatus s := by
  intro hret
  obtain ⟨_, _, _, _, hresult⟩ := hret _ h
  cases hresult

lemma wait_fails_on_stale_edge (hdesc : DescShape s) (hpc : s.waiter = .suspendCheck) (hclean : s.clean)
    (hfree : s.unconstrained) (hslot : s.slot = .ready) (hrunning : s.child = .running) :
    ∃ t, waitSystem.run s [.wait, .wait, .wait, .wait] = some t ∧ ¬ WaitTruthful t := by
  have hcheck := ioError_of_unconstrained hdesc hfree
  rw [slot] at hslot
  have hresume : ({ s.desc with slot := update s.desc.slot .read .idle } :
      IoDesc Unit Nat).ioError s.env .read s.desc.generation = none := hcheck
  refine ⟨_, by
    simp only [run, waitSystem, waitStep, wait, hpc, hcheck, IoDesc.suspendSlot, hslot,
      hresume, hrunning, ChildState.waitid, bind_some]
    rfl, fun htrue => not_returnedStatus_of_error .eagain ?_ htrue.returned⟩
  simp [hclean]

lemma stuck_after_consumed_edge (hdesc : DescShape s) (hpc : s.waiter = .suspendCheck) (hclean : s.clean)
    (hfree : s.unconstrained) (hslot : s.slot = .idle) (hgone : s.child ≠ .running) (hedge : s.edge = false)
    (hdsp : s.dispatching = 0) : ∃ t, waitSystem.run s [.wait, .wait] = some t ∧ ¬ WaitTruthful t := by
  have hcheck := ioError_of_unconstrained hdesc hfree
  rw [slot] at hslot
  refine ⟨{ s with
    desc := { s.desc with slot := update s.desc.slot .read (.waiter ()) }
    waiter := .parked }, ?_, fun htrue => htrue.not_stuck
      ⟨hclean, rfl, hgone, hedge, hdsp⟩⟩
  simp only [run, waitSystem, waitStep, wait, hpc, hcheck, IoDesc.suspendSlot, hslot, bind_some]

lemma call_disturbed (hdesc : DescShape s) (hpc : s.waiter = .idle) (h : ¬ WaitUndisturbed s .call) :
    ∃ schedule t, waitSystem.run s (.call :: schedule) = some t ∧ ¬ WaitTruthful t := by
  simp only [WaitUndisturbed, not_forall] at h
  obtain ⟨hfree, hnone, hrecorded⟩ := h
  have hcall : waitStep s .call = some { s with clean := true, waiter := .suspendCheck } := by
    simp [waitStep, hpc, call, hnone, hfree, hdesc.fd_nonneg]
  have hstart : DescShape { s with clean := true, waiter := .suspendCheck } := waitStep_desc hdesc hcall
  have hslot : s.slot ≠ .waiter () := fun hslot => by simpa [hpc] using hdesc.parked.mp hslot
  by_cases hstale : s.slot = .ready ∧ s.child = .running
  · obtain ⟨t, hrun, hbad⟩ := wait_fails_on_stale_edge hstart rfl rfl hfree hstale.1 hstale.2
    exact ⟨_, t, (run_cons hcall _).trans hrun, hbad⟩
  · have hlost : s.child ≠ .running ∧ s.slot = .idle ∧ s.edge = false ∧ s.dispatching = 0 := by
      cases hword : s.slot <;> simp_all [ExitRecorded]
    obtain ⟨t, hrun, hbad⟩ := stuck_after_consumed_edge hstart rfl rfl hfree hlost.2.1 hlost.1 hlost.2.2.1 hlost.2.2.2
    exact ⟨_, t, (run_cons hcall _).trans hrun, hbad⟩

lemma run_wait_error {err : Error} (hpc : s.waiter = .resume (some err)) :
    waitSystem.run s [.wait] = some (s.finish (.error err)) := by
  simp only [run, waitSystem, waitStep, wait, hpc, bind_some]

lemma hookRun_disturbed (hdesc : DescShape s) (hclean : s.clean → s.unconstrained)
    (hst : waitStep s (.hookRun i) = some t) (h : ¬ WaitUndisturbed s (.hookRun i)) :
    ∃ schedule u, waitSystem.run s (.hookRun i :: schedule) = some u ∧ ¬ WaitTruthful u := by
  simp only [WaitUndisturbed, not_forall] at h
  obtain ⟨hs, hdist⟩ := h
  have hfree := (hookRun_unconstrained hdesc hst).trans (hclean hs)
  have hshape := waitStep_desc hdesc hst
  have hrun := System.run_cons (M := waitSystem) (s := s) (t := t) (a := .hookRun i) hst
  obtain ⟨_, rfl⟩ := hookRun_cases hst
  have hunblock := IoDesc.cancelWaiters_slot hdesc.closing .read
  by_cases hpark : s.waiter = .parked
  · have hw := unblocked_waiter_of_taken (some (.errc .cancelled)) (hdesc.parked.mpr hpark) hunblock
    refine ⟨[.wait], _, (hrun _).trans (run_wait_error hw), fun htrue =>
      not_returnedStatus_of_error (.errc .cancelled) ?_ htrue.returned⟩
    simp [hs]
  · have hslot : s.slot ≠ .waiter () := fun hslot => hpark (hdesc.parked.mp hslot)
    simp only [hpark, ne_eq, not_false_eq_true, true_and, Classical.not_imp, not_not] at hdist
    obtain ⟨hcheck, hrunning⟩ := hdist
    have hw := unblocked_waiter_of_free (s.desc.cancelWaiters s.desc.generation) (some (.errc .cancelled)) hslot
    have hready : (s.desc.cancelWaiters s.desc.generation).slot .read = .ready := by
      rw [hunblock]
      cases hword : s.desc.slot .read with
      | idle | ready => rfl
      | waiter => exact absurd hword hslot
    obtain ⟨u, hu, hbad⟩ := wait_fails_on_stale_edge hshape (hw.trans hcheck) hs hfree hready hrunning
    exact ⟨_, u, (hrun _).trans hu, hbad⟩

/-- **Clean waits, exactly.** In every interleaving whose clean waits are undisturbed each of them
returns the child's exit status after the exit and none stays parked once the exit was dispatched;
and every enabled step that disturbs one leads to a wrong result or a stuck wait. -/
theorem clean_wait_truthful_of_undisturbed (s : WaitState) :
    (waitSystem.ReachableVia WaitUndisturbed s → WaitTruthful s) ∧
    ∀ a t, waitSystem.Reachable s → waitStep s a = some t → ¬ WaitUndisturbed s a →
      ∃ schedule u, waitSystem.run s (a :: schedule) = some u ∧ ¬ WaitTruthful u := by
  constructor
  · intro hs
    obtain ⟨hphase, hret⟩ := waitSystem_phase hs
    exact .of_phase hphase hret
  · intro a t hs hstep hdist
    obtain ⟨hdesc, _, hclean⟩ := waitSystem_shape hs
    cases a with
    | call =>
      have hpc : s.waiter = .idle := by
        simp only [waitStep, ite_none_right_eq_some] at hstep
        exact hstep.1
      exact call_disturbed hdesc hpc hdist
    | hookRun => exact hookRun_disturbed hdesc hclean hstep hdist
    | _ => exact absurd trivial hdist

def startedChild : WaitState :=
  { desc := ({} : IoDesc Unit Nat).attachFields 3
    env := { now := 10, stopping := false, fired := fun _ => false } }

lemma startedChild_init : waitSystem.init startedChild := ⟨{}, 3, 10, rfl, by decide, rfl⟩

/-- A wait parks, the child exits with 0 and the edge wakes it. In another run a past deadline is set
and cleared, and the call that follows goes wrong. -/
theorem clean_wait_truthful_exit_zero : (∃ s, waitSystem.ReachableVia WaitUndisturbed s ∧
      s.returned = [(true, .ok { exitCode := some 0 })] ∧ WaitTruthful s) ∧
    ∃ s schedule t, waitSystem.Reachable s ∧ waitSystem.run s (.call :: schedule) = some t ∧
      ¬ WaitTruthful t := by
  constructor
  · obtain ⟨s, hs, hp⟩ := waitSystem.reachableVia_of_run WaitUndisturbed startedChild
      [.call, .wait, .wait, .exit ⟨.exited, 0⟩, .harvest, .dispatch, .wait, .wait]
      (fun s => s.returned = [(true, .ok { exitCode := some 0 })]) startedChild_init (by decide)
    exact ⟨s, hs, hp, (clean_wait_truthful_of_undisturbed s).1 hs⟩
  · obtain ⟨s, hs, henabled, hdist⟩ := waitSystem.reachable_of_run startedChild
      [.setDeadline 5, .storeDeadline, .setDeadline 0, .storeDeadline]
      (fun s => (waitStep s .call).isSome = true ∧ ¬ WaitUndisturbed s .call)
      startedChild_init (by decide)
    obtain ⟨t, hstep⟩ := Option.isSome_iff_exists.mp henabled
    obtain ⟨schedule, u, hrun, hbad⟩ := (clean_wait_truthful_of_undisturbed s).2 .call t hs hstep hdist
    exact ⟨s, schedule, u, hs, hrun, hbad⟩

/-- A deadline in the past is set while nobody waits and cleared again. The edge it recorded is
consumed by the next wait, which reports `EAGAIN` while the child is running. -/
theorem clean_wait_fails_after_cleared_deadline : ¬ ∀ s, waitSystem.Reachable s → WaitTruthful s := by
  intro hall
  obtain ⟨s, hs, hp⟩ := waitSystem.reachable_of_run startedChild
    [.setDeadline 5, .storeDeadline, .setDeadline 0, .storeDeadline, .call, .wait, .wait, .wait, .wait]
    (fun s => (true, error Error.eagain) ∈ s.returned) startedChild_init (by decide)
  exact not_returnedStatus_of_error .eagain (hp) (hall s hs).returned

end Cio.Process
