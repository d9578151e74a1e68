import Cio.ProcessWaitModel

/-! What the steps around `Child::wait` can do. The descriptor and the task agree in every state, an exit is
reaped once and its status kept, and the steps of deadlines, tokens and hooks leave the child alone and move
the task only by taking it out of the slot. -/

namespace Cio.Process

open Transition WaitState
open Cio.Reactor

/-- The descriptor stays attached, the awaiter is in the slot exactly while the task is parked, a
linked or firing timer belongs to a stored deadline, and a token about to get its hook is bound. -/
structure DescShape (s : WaitState) : Prop where
  fd_nonneg : 0 ≤ s.desc.fd
  closing : s.desc.closing = false
  stopping : s.env.stopping = false
  parked : s.slot = .waiter () ↔ s.waiter = .parked
  timer : s.timer ≠ .idle → s.desc.absoluteDeadlineNs .read ≠ 0
  update : s.deadlineUpdate ≠ none → s.timer = .idle
  bind : ∀ token, s.bindUpdate = .hook token → s.desc.cancelFlag = some token

/-- The child is reaped by a `wait` that stores its status, and every edge is the exit's. -/
structure ExitShape (s : WaitState) : Prop where
  decodes : ∀ info, s.child.exitInfo = some info → ∃ status, info.decode = .ok status
  reaped : ∀ info, s.child = .reaped info → ∃ status, s.status = some status ∧ info.decode = .ok status
  status : ∀ status, s.status = some status → ∃ info, s.child = .reaped info ∧ info.decode = .ok status
  pending : s.waiter ≠ .idle → s.status = none
  edge : s.edge = true ∨ 0 < s.dispatching → s.child ≠ .running

variable {s t : WaitState}

/-! ### What the steps of deadlines and tokens do -/

lemma storeDeadline_cases (hs : waitStep s .storeDeadline = some t) : ∃ deadlineNs,
    t = { s.unblocked (s.desc.storeDeadline s.env .read s.desc.generation deadlineNs).1
        (some (.errc .timedOut)) with
      timer := ((s.desc.storeDeadline s.env .read s.desc.generation deadlineNs).2.map fun seq =>
        .armed seq deadlineNs).getD .idle
      deadlineUpdate := none
      clean := s.clean && deadlineNs == 0 } := by
  simp only [waitStep] at hs
  split at hs
  · cases hs
  · rename_i deadlineNs _
    obtain ⟨-, rfl⟩ := of_guard hs
    exact ⟨deadlineNs, rfl⟩

lemma expire_cases (hs : waitStep s .expire = some t) :
    s.timer ≠ .idle ∧ ∃ seq, t = { s with timer := .firing seq } := by
  simp only [waitStep] at hs
  split at hs
  · rename_i seq deadlineNs harmed
    obtain ⟨-, rfl⟩ := of_guard hs
    exact ⟨by simp [harmed], seq, rfl⟩
  · cases hs

lemma onDeadline_cases (hs : waitStep s .onDeadline = some t) : ∃ seq, s.timer = .firing seq ∧
    t = { s.unblocked (s.desc.onDeadline .read seq) (some (.errc .timedOut)) with timer := .idle } := by
  simp only [waitStep] at hs
  split at hs
  · rename_i seq hfire
    obtain ⟨-, rfl⟩ := of_guard hs
    exact ⟨seq, hfire, rfl⟩
  · cases hs

lemma setCancel_cases {token : Option Nat} (hs : waitStep s (.setCancel token) = some t) :
    ∃ active hooks binding, t = { s with
      active := active, hooks := hooks, binding := binding, bindUpdate := .publish token } := by
  obtain ⟨-, rfl⟩ := of_guard hs
  unfold detachHook
  split
  all_goals exact ⟨_, _, _, rfl⟩

lemma publishFlag_cases (hs : waitStep s .publishFlag = some t) : ∃ token, t = { s with
    desc := { s.desc with cancelFlag := token }
    bindUpdate := (token.map .hook).getD .idle
    clean := s.clean && token.isNone } := by
  simp only [waitStep] at hs
  split at hs
  · cases hs
    exact ⟨_, rfl⟩
  · cases hs

lemma addHook_cases (hs : waitStep s .addHook = some t) : ∃ token, s.bindUpdate = .hook token ∧
    t = { s.addHook token with bindUpdate := .idle } := by
  simp only [waitStep] at hs
  split at hs
  · rename_i token hbind
    obtain ⟨-, rfl⟩ := of_guard hs
    exact ⟨token, hbind, rfl⟩
  · cases hs

lemma hookCheck_cases {i : Nat} (hs : waitStep s (.hookCheck i) = some t) :
    ∃ firing, t = { s with firing := firing } := by
  simp only [waitStep] at hs
  split at hs
  · split at hs
    all_goals
      cases hs
      exact ⟨_, rfl⟩
  · cases hs

lemma hookRun_cases {i : Nat} (hs : waitStep s (.hookRun i) = some t) :
    s.waiter ≠ .suspendSlot ∧ t = { s with firing := s.firing.eraseIdx i }.unblocked
      (s.desc.cancelWaiters s.desc.generation) (some (.errc .cancelled)) := by
  simp only [waitStep] at hs
  split at hs
  · obtain ⟨hopen, rfl⟩ := of_guard hs
    exact ⟨by simpa [unlocked] using hopen, rfl⟩
  · cases hs

/-! ### The descriptor and the task -/

lemma unblocked_parked {s : WaitState} {d : IoDesc Unit Nat} (err : Option Error)
    (hpark : s.slot = .waiter () ↔ s.waiter = .parked) (hslot : d.slot .read = s.slot ∨ d.slot .read = s.slot.unblock) :
    (s.unblocked d err).slot = .waiter () ↔ (s.unblocked d err).waiter = .parked := by
  have hnew : (s.unblocked d err).slot = d.slot .read := rfl
  rw [hnew]
  unfold unblocked
  cases hold : s.slot with
  | idle | ready | waiter =>
    rw [hold] at hpark hslot
    rcases hslot with hslot | hslot <;> simp [hslot, SlotWord.unblock, ← hpark]

lemma wait_desc (h : DescShape s) (hs : s.wait = some t) : DescShape t := by
  obtain ⟨hfd, hend, hstop, hpark, htimer, hupd, hbind⟩ := h
  unfold wait at hs
  split at hs
  · cases hs
  · cases hs
  · split at hs <;> cases hs <;> exact ⟨hfd, hend, hstop, by simp_all [slot], htimer, hupd, hbind⟩
  · rename_i hpc
    rw [hpc] at hpark
    unfold IoDesc.suspendSlot at hs
    cases hslot : s.desc.slot .read <;> rw [hslot] at hs <;> cases hs <;>
      exact ⟨hfd, hend, hstop, by simp_all [slot], htimer, hupd, hbind⟩
  · cases hs
    exact ⟨hfd, hend, hstop, by simp_all [slot, finish], htimer, hupd, hbind⟩
  · split at hs <;> cases hs
    · exact ⟨hfd, hend, hstop, by simp_all [slot, finish], htimer, hupd, hbind⟩
    · exact ⟨hfd, hend, hstop, by simp_all [slot, IoDesc.noteReadable], htimer, hupd, hbind⟩
  · split at hs
    · cases hs
      exact ⟨hfd, hend, hstop, by simp_all [slot, finish], htimer, hupd, hbind⟩
    · split at hs <;> cases hs <;>
      exact ⟨hfd, hend, hstop, by simp_all [slot, finish], htimer, hupd, hbind⟩

attribute [local simp] unblocked slot finish ChildState.exitInfo

lemma unblocked_desc {s : WaitState} {d : IoDesc Unit Nat} {err : Option Error} (h : DescShape s)
    (hslot : d.slot .read = s.slot ∨ d.slot .read = s.slot.unblock) (hfd : d.fd = s.desc.fd)
    (hend : d.closing = s.desc.closing) (hdue : d.absoluteDeadlineNs = s.desc.absoluteDeadlineNs)
    (hflag : d.cancelFlag = s.desc.cancelFlag) : DescShape (s.unblocked d err) where
  fd_nonneg := by simpa [hfd] using h.fd_nonneg
  closing := by simpa [hend] using h.closing
  stopping := h.stopping
  parked := unblocked_parked err h.parked hslot
  timer := by simpa [hdue] using h.timer
  update := h.update
  bind := by simpa [hflag] using h.bind

lemma cancelWaiters_desc {s : WaitState} (h : DescShape s) (err : Option Error) :
    DescShape (s.unblocked (s.desc.cancelWaiters s.desc.generation) err) := by
  refine unblocked_desc h (.inr (IoDesc.cancelWaiters_slot h.closing .read)) ?_ ?_ ?_ (by simp) <;>
    simp [IoDesc.cancelWaiters, h.closing]

variable {a : WaitAct}

lemma waitStep_desc (h : DescShape s) (hs : waitStep s a = some t) : DescShape t := by
  cases a with
  | exit | harvest | tick | cancel | takeHooks =>
    obtain ⟨-, rfl⟩ := of_guard hs
    exact { h with }
  | dispatch =>
    obtain ⟨-, rfl⟩ := of_guard hs
    have hless : DescShape { s with dispatching := s.dispatching - 1 } := { h with }
    exact unblocked_desc hless (.inr (by simp)) (by simp) (by simp) (by simp) (by simp)
  | setDeadline =>
    obtain ⟨-, rfl⟩ := of_guard hs
    exact ⟨h.fd_nonneg, h.closing, h.stopping, h.parked, (absurd rfl ·), fun _ => rfl, h.bind⟩
  | storeDeadline =>
    obtain ⟨deadlineNs, rfl⟩ := storeDeadline_cases hs
    have hpark := unblocked_parked (some (.errc .timedOut)) h.parked
      (s.desc.storeDeadline_slot s.env .read s.desc.generation deadlineNs)
    obtain ⟨hfd, hend, hflag⟩ := s.desc.storeDeadline_frame s.env .read s.desc.generation deadlineNs
    refine ⟨hfd ▸ h.fd_nonneg, hend ▸ h.closing, h.stopping, hpark, ?_,
      fun hne => absurd rfl hne, fun token hhook => hflag ▸ h.bind token hhook⟩
    intro htimer
    apply IoDesc.storeDeadline_armed
    intro hnone
    simp [hnone] at htimer
  | expire =>
    obtain ⟨harmed, seq, rfl⟩ := expire_cases hs
    exact ⟨h.fd_nonneg, h.closing, h.stopping, h.parked, fun _ => h.timer harmed,
      fun hne => absurd (h.update hne) harmed, h.bind⟩
  | onDeadline =>
    obtain ⟨seq, _, rfl⟩ := onDeadline_cases hs
    have hshape : DescShape (s.unblocked (s.desc.onDeadline .read seq) (some (.errc .timedOut))) := by
      refine unblocked_desc h (s.desc.onDeadline_slot .read seq) ?_ ?_ ?_ ?_ <;>
        unfold IoDesc.onDeadline <;> split <;> simp
    exact ⟨hshape.fd_nonneg, hshape.closing, hshape.stopping, hshape.parked,
      fun hne => absurd rfl hne, fun _ => rfl, hshape.bind⟩
  | setCancel =>
    obtain ⟨active, hooks, binding, rfl⟩ := setCancel_cases hs
    exact ⟨h.fd_nonneg, h.closing, h.stopping, h.parked, h.timer, h.update, by simp⟩
  | publishFlag =>
    obtain ⟨token, rfl⟩ := publishFlag_cases hs
    refine ⟨h.fd_nonneg, h.closing, h.stopping, h.parked, h.timer, h.update, ?_⟩
    cases token <;> simp
  | addHook =>
    obtain ⟨token, _, rfl⟩ := addHook_cases hs
    unfold addHook
    split
    · have hshape := cancelWaiters_desc h (some (.errc .cancelled))
      exact ⟨hshape.fd_nonneg, hshape.closing, hshape.stopping, hshape.parked, hshape.timer, hshape.update, by simp⟩
    · exact ⟨h.fd_nonneg, h.closing, h.stopping, h.parked, h.timer, h.update, by simp⟩
  | hookCheck =>
    obtain ⟨firing, rfl⟩ := hookCheck_cases hs
    exact { h with }
  | hookRun i =>
    obtain ⟨_, rfl⟩ := hookRun_cases hs
    have hless : DescShape { s with firing := s.firing.eraseIdx i } := { h with }
    exact cancelWaiters_desc hless _
  | call =>
    obtain ⟨hidle, rfl⟩ := of_guard hs
    have hpark : s.slot ≠ .waiter () := fun hslot => by simpa [hidle] using h.parked.mp hslot
    unfold call
    dsimp only
    split
    · exact ⟨h.fd_nonneg, h.closing, h.stopping, by simpa using hpark, h.timer, h.update, h.bind⟩
    · split <;> exact ⟨h.fd_nonneg, h.closing, h.stopping, by simpa using hpark, h.timer, h.update, h.bind⟩
  | wait => exact wait_desc h hs

/-! ### The child -/

def WaitAct.background : WaitAct → Bool
  | exit _ | harvest | dispatch | call | wait => false
  | _ => true

/-- What a background step leaves alone; it moves the task only by taking it out of the slot. -/
structure Background (s t : WaitState) : Prop where
  child : t.child = s.child
  status : t.status = s.status
  edge : t.edge = s.edge
  dispatching : t.dispatching = s.dispatching
  returned : t.returned = s.returned
  waiter : t.waiter = s.waiter ∨ s.slot = .waiter () ∧ ∃ err, t.waiter = .resume err

lemma unblocked_background (s : WaitState) (d : IoDesc Unit Nat) (err : Option Error) :
    Background s (s.unblocked d err) := by
  refine ⟨rfl, rfl, rfl, rfl, rfl, ?_⟩
  by_cases htaken : s.slot = .waiter () ∧ d.slot .read ≠ .waiter ()
  · exact .inr ⟨htaken.1, err, if_pos htaken⟩
  · exact .inl (if_neg htaken)

lemma waitStep_background (ha : a.background) (hs : waitStep s a = some t) : Background s t := by
  cases a with
  | exit | harvest | dispatch | call | wait => simp [WaitAct.background] at ha
  | tick | cancel | takeHooks | setDeadline =>
    obtain ⟨-, rfl⟩ := of_guard hs
    exact ⟨rfl, rfl, rfl, rfl, rfl, .inl rfl⟩
  | storeDeadline =>
    obtain ⟨deadlineNs, rfl⟩ := storeDeadline_cases hs
    exact ⟨rfl, rfl, rfl, rfl, rfl, (unblocked_background s _ _).waiter⟩
  | expire =>
    obtain ⟨_, seq, rfl⟩ := expire_cases hs
    exact ⟨rfl, rfl, rfl, rfl, rfl, .inl rfl⟩
  | onDeadline =>
    obtain ⟨seq, _, rfl⟩ := onDeadline_cases hs
    exact ⟨rfl, rfl, rfl, rfl, rfl, (unblocked_background s _ _).waiter⟩
  | setCancel =>
    obtain ⟨active, hooks, binding, rfl⟩ := setCancel_cases hs
    exact ⟨rfl, rfl, rfl, rfl, rfl, .inl rfl⟩
  | publishFlag =>
    obtain ⟨token, rfl⟩ := publishFlag_cases hs
    exact ⟨rfl, rfl, rfl, rfl, rfl, .inl rfl⟩
  | addHook =>
    obtain ⟨token, _, rfl⟩ := addHook_cases hs
    unfold addHook
    split
    · exact ⟨rfl, rfl, rfl, rfl, rfl, (unblocked_background s _ _).waiter⟩
    · exact ⟨rfl, rfl, rfl, rfl, rfl, .inl rfl⟩
  | hookCheck =>
    obtain ⟨firing, rfl⟩ := hookCheck_cases hs
    exact ⟨rfl, rfl, rfl, rfl, rfl, .inl rfl⟩
  | hookRun i =>
    obtain ⟨_, rfl⟩ := hookRun_cases hs
    exact ⟨rfl, rfl, rfl, rfl, rfl, (unblocked_background { s with firing := s.firing.eraseIdx i } _ _).waiter⟩

lemma Background.exit (h : Background s t) (hdesc : DescShape s) (hexit : ExitShape s) : ExitShape t := by
  have hpend : t.waiter ≠ .idle → s.waiter ≠ .idle := by
    rcases h.waiter with hsame | ⟨hslot, _⟩
    · rw [hsame]
      exact id
    · rw [hdesc.parked.mp hslot]
      simp
  refine ⟨?_, ?_, ?_, fun ht => h.status ▸ hexit.pending (hpend ht), ?_⟩
  · rw [h.child]
    exact hexit.decodes
  · rw [h.child, h.status]
    exact hexit.reaped
  · rw [h.child, h.status]
    exact hexit.status
  · rw [h.child, h.edge, h.dispatching]
    exact hexit.edge

lemma wait_exit (h : ExitShape s) (hs : s.wait = some t) : ExitShape t := by
  unfold wait at hs
  split at hs
  · cases hs
  · cases hs
  · rename_i hpc
    have hnone := h.pending (by simp [hpc])
    split at hs <;> cases hs <;> exact ⟨h.decodes, h.reaped, h.status, fun _ => hnone, h.edge⟩
  · rename_i hpc
    have hnone := h.pending (by simp [hpc])
    split at hs <;> cases hs <;> exact ⟨h.decodes, h.reaped, h.status, fun _ => hnone, h.edge⟩
  · cases hs
    exact ⟨h.decodes, h.reaped, h.status, (absurd rfl ·), h.edge⟩
  · rename_i hpc
    have hnone := h.pending (by simp [hpc])
    split at hs <;> cases hs <;> exact ⟨h.decodes, h.reaped, h.status, fun _ => hnone, h.edge⟩
  · rename_i hpc
    have hnone := h.pending (by simp [hpc])
    cases hchild : s.child with
    | running =>
      simp only [hchild, ChildState.waitid] at hs
      cases hs
      exact ⟨by simp, by simp, fun status hstat => absurd (hnone.symm.trans hstat) (by simp),
        fun hne => absurd rfl hne, fun hedge => absurd hchild (h.edge hedge)⟩
    | exited info =>
      obtain ⟨status, hdec⟩ := h.decodes info (by simp [hchild])
      simp only [hchild, ChildState.waitid, hdec] at hs
      cases hs
      refine ⟨?_, ?_, ?_, (absurd rfl ·), fun _ => by simp⟩ <;>
        simp [hdec]
    | reaped info =>
      obtain ⟨status, hstat, _⟩ := h.reaped info hchild
      simp [hnone] at hstat

lemma waitStep_exit (hdesc : DescShape s) (h : ExitShape s) (hs : waitStep s a = some t) : ExitShape t := by
  by_cases ha : a.background
  · exact (waitStep_background ha hs).exit hdesc h
  cases a <;> simp only [WaitAct.background, not_true_eq_false] at ha
  case exit info =>
    obtain ⟨⟨hrun, hcode⟩, rfl⟩ := of_guard hs
    have hnone : ∀ status, s.status ≠ some status := by
      intro status hstat
      obtain ⟨info', hreaped, _⟩ := h.status status hstat
      simp [hrun] at hreaped
    refine ⟨?_, by simp, fun status hstat => absurd hstat (hnone status), h.pending, by simp⟩
    rintro info' ⟨⟩
    obtain ⟨code, value⟩ := info
    cases code <;> simp_all [SigInfo.decode]
  case harvest =>
    obtain ⟨hedge, rfl⟩ := of_guard hs
    exact ⟨h.decodes, h.reaped, h.status, h.pending, fun _ => h.edge (.inl hedge)⟩
  case dispatch =>
    obtain ⟨hact, rfl⟩ := of_guard hs
    refine ⟨h.decodes, h.reaped, h.status, fun hne => h.pending fun hidle => hne ?_, fun _ => h.edge (.inr hact)⟩
    have hslot : s.slot ≠ .waiter () := fun hslot => by simpa [hidle] using hdesc.parked.mp hslot
    exact (if_neg fun htaken => hslot htaken.1).trans hidle
  case call =>
    obtain ⟨-, rfl⟩ := of_guard hs
    unfold call
    dsimp only
    split
    · exact ⟨h.decodes, h.reaped, h.status, (absurd rfl ·), h.edge⟩
    · split
      · exact ⟨h.decodes, h.reaped, h.status, (absurd rfl ·), h.edge⟩
      · exact ⟨h.decodes, h.reaped, h.status, fun _ => ‹_›, h.edge⟩
  case wait => exact wait_exit h hs

end Cio.Process
