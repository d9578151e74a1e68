import Cio.FrameRoutines
import Mathlib.Algebra.Order.BigOperators.Group.Finset
import Mathlib.Data.Fintype.BigOperators

/-! Frames are conserved. Every operation moves the frames it says it moves, so the frames in all
queues, slots and local variables together are those submitted and not yet resumed; and since a
finished routine holds only the frame it selected, nothing is lost between two routines. -/

namespace Cio.Frames

open ThreadProgram Function State Multiset

variable {φ : Type} {W F : Nat}

/-! ### Every routine ends with the frame it selected -/

/-- The specification of a thread's program: it ends holding what it returns. -/
def Selects (me : Option (Fin W)) (item : Option φ) (own : Own φ W) : Prop :=
  own.worker = me ∧ own.held = frames item

lemma Moves.selects {me : Option (Fin W)} {a : Multiset φ} {m : Routine φ W (Option φ)} (hm : Moves me a m frames)
    {own : Own φ W} (hwk : own.worker = me) (hheld : own.held = a) : wp discipline m (Selects me) own := by
  refine wp_mono (hm own.runnext own 0 hwk rfl (hheld.trans (zero_add a).symm)) fun item own' hpost => ?_
  exact ⟨hpost.1, hpost.2.trans (zero_add _)⟩

lemma Moves.thenNone {me : Option (Fin W)} {α : Type} {a : Multiset φ} {m : Routine φ W α}
    (hm : Moves me a m fun _ => 0) : Moves me a (m >>= fun _ => Prog.ret none) frames :=
  hm.bind fun _ => .pure rfl

lemma Job.onWorker_moves (w : Fin W) (job : Job φ) :
    Moves (some w) (job.submits : Multiset φ) (job.onWorker w) frames := by
  cases job with
  | push item publish => exact (push_moves w item publish).thenNone
  | pushNext item => exact (pushNext_moves w item).thenNone
  | stageFairnessItem item => exact (stageFairnessItem_moves w item).thenNone
  | drainInbox => exact drainInbox_moves w
  | takeLocal => exact takeLocal_moves w
  | serviceFairness => exact serviceFairness_moves w
  | serviceGlobalFairness => exact serviceGlobalFairness_moves w
  | nextLocal => exact nextLocal_moves w
  | stealFromPeers => exact stealFromPeers_moves w
  | consumeSearcherCredit => exact consumeSearcherCredit_moves w
  | findWork => exact findWork_moves w
  | poll => exact (poll_moves w).thenNone
  | serviceTimers => exact (serviceTimers_moves w).thenNone
  | enqueueRemote target frame wake => exact (enqueueRemote_moves w target frame wake).thenNone
  | scheduleCompletionFallback frame preferred =>
    exact (scheduleCompletionFallback_moves w frame preferred).thenNone
  | scheduleIoCompletion frame preferred => exact (scheduleIoCompletion_moves w frame preferred).thenNone
  | scheduleCompletionWake frame preferred => exact (scheduleCompletionWake_moves w frame preferred).thenNone
  | scheduleFrame frame => exact (scheduleFrame_moves w frame).thenNone
  | scheduleToFrame frame target => exact (scheduleToFrame_moves w frame target).thenNone
  | scheduleNextFrame frame => exact (scheduleNextFrame_moves w frame).thenNone
  | rescheduleSelf frame => exact (rescheduleSelf_moves w frame).thenNone
  | rescheduleSelfForCooperativeIo frame debtGlobal debtInbox debtLocal =>
    exact (rescheduleSelfForCooperativeIo_moves w frame debtGlobal debtInbox debtLocal).thenNone
  | scheduleBatch batch => exact (scheduleBatch_moves w batch).thenNone
  | scheduleBatchTo batch target => exact (scheduleBatchTo_moves w batch target).thenNone

variable {one : Fin W} {job : Job φ}

lemma Job.onForeign_moves {m : Routine φ W Unit}
    (h : job.onForeign one = some m) : Moves none (job.submits : Multiset φ) m fun _ => 0 := by
  cases job <;> simp only [Job.onForeign, Option.some.injEq, reduceCtorEq] at h <;> subst h
  case enqueueRemote target frame wake => exact enqueueRemote_moves one target frame wake
  case scheduleCompletionFallback frame preferred =>
    exact scheduleCompletionFallback_moves one frame preferred
  case scheduleIoCompletion frame preferred => exact scheduleIoCompletion_moves one frame preferred
  case scheduleCompletionWake frame preferred =>
    exact scheduleCompletionWake_moves one frame preferred
  case scheduleFrame frame => exact scheduleFrame_moves one frame
  case scheduleToFrame frame target => exact scheduleToFrame_moves one frame target
  case scheduleNextFrame frame => exact scheduleNextFrame_moves one frame
  case rescheduleSelf frame => exact rescheduleSelf_moves one frame
  case rescheduleSelfForCooperativeIo frame debtGlobal debtInbox debtLocal =>
    exact rescheduleSelfForCooperativeIo_moves one frame debtGlobal debtInbox debtLocal
  case scheduleBatch batch => exact scheduleBatch_moves one batch
  case scheduleBatchTo batch target => exact scheduleBatchTo_moves one batch target

variable {t : Fin W ⊕ Fin F}

lemma Job.run_moves {m : Routine φ W (Option φ)} (h : job.run one t = some m) :
    Moves t.getLeft? (job.submits : Multiset φ) m frames := by
  cases t with
  | inl w =>
    cases h
    exact job.onWorker_moves w
  | inr =>
    obtain ⟨body, hbody, rfl⟩ := Option.map_eq_some_iff.mp h
    exact (Job.onForeign_moves hbody).thenNone

/-! ### Every operation moves what it says -/

def Queues.contents (q : Queues φ W) : Multiset φ :=
  ∑ w, (q.ring w : Multiset φ) + ∑ w, (q.inbox w : Multiset φ) + (q.global : Multiset φ)

lemma sum_update_add {ι : Type} [Fintype ι] [DecidableEq ι] {β : Type} (f : β → Multiset φ) (g : ι → β) (i : ι)
    (x : β) : ∑ j, f (update g i x j) + f (g i) = ∑ j, f (g j) + f x := by
  rw [← Finset.add_sum_erase Finset.univ (fun j => f (g j)) (Finset.mem_univ i),
    ← Finset.add_sum_erase Finset.univ (fun j => f (update g i x j)) (Finset.mem_univ i),
    update_self]
  have hrest : ∑ j ∈ Finset.univ.erase i, f (update g i x j) = ∑ j ∈ Finset.univ.erase i, f (g j) := by
    refine Finset.sum_congr rfl fun j hj => ?_
    rw [update_of_ne (Finset.ne_of_mem_erase hj)]
  rw [hrest]
  abel

def Own.contents (own : Own φ W) : Multiset φ := frames own.runnext + own.held

namespace Queues

lemma contents_ring (q : Queues φ W) (w : Fin W) (ring : List φ) :
    contents { q with ring := update q.ring w ring } + (q.ring w : Multiset φ) =
      q.contents + (ring : Multiset φ) := by
  have hsum := sum_update_add (fun l : List φ => (l : Multiset φ)) q.ring w ring
  simp only [contents]
  rw [add_right_comm, add_right_comm _ _ (q.ring w : Multiset φ), hsum]
  abel

lemma contents_inbox (q : Queues φ W) (w : Fin W) (inbox : List φ) :
    contents { q with inbox := update q.inbox w inbox } + (q.inbox w : Multiset φ) =
      q.contents + (inbox : Multiset φ) := by
  have hsum := sum_update_add (fun l : List φ => (l : Multiset φ)) q.inbox w inbox
  simp only [contents]
  rw [add_right_comm, add_assoc _ _ (q.inbox w : Multiset φ), hsum]
  abel

lemma contents_global (q : Queues φ W) (global : List φ) :
    contents { q with global := global } + (q.global : Multiset φ) =
      q.contents + (global : Multiset φ) := by
  simp only [contents]
  abel

end Queues

lemma head_add_tail (l : List φ) : frames l.head? + (l.tail : Multiset φ) = (l : Multiset φ) := by
  cases l with
  | nil => rfl
  | cons x rest => exact singleton_add x (rest : Multiset φ)

lemma take_add_drop (l : List φ) (n : Nat) :
    ((l.take n : List φ) : Multiset φ) + ((l.drop n : List φ) : Multiset φ) = (l : Multiset φ) := by
  rw [coe_add, List.take_append_drop]

variable {contents contents' out : Multiset φ} {old left new : List φ}

lemma contents_split (h : contents' + (old : Multiset φ) = contents + (left : Multiset φ))
    (hsplit : out + (left : Multiset φ) = (old : Multiset φ)) : contents' + out = contents := by
  rw [← hsplit, ← add_assoc] at h
  exact add_right_cancel h

lemma contents_grow (h : contents' + (old : Multiset φ) = contents + ((old ++ new : List φ) : Multiset φ)) :
    contents' = contents + (new : Multiset φ) := by
  rw [← coe_add, ← add_assoc, add_right_comm] at h
  exact add_right_cancel h

variable {q q' : Queues φ W} {i : Choice φ} {c : Cmd φ W} {a : Answer φ W c}

attribute [local simp] frames takes gives runnextAfter kept

lemma Queues.apply_flow [DecidableEq φ] {own : Own φ W} (h : q.apply own c i = some (q', a)) :
    q'.contents + gives own c a + frames (runnextAfter own c) + q.live =
      q.contents + takes c + frames own.runnext + q'.live := by
  cases c with simp only [apply] at h
  | ringPush =>
    split at h <;> cases h
    · simp [contents_grow (q.contents_ring ..)]
    · simp
  | ringPop w =>
    cases h
    have hring := contents_split (q.contents_ring w _) (head_add_tail (q.ring w))
    simp only [gives, takes, runnextAfter, add_zero, hring]
  | ringGrab w max =>
    split at h
    · cases h
    · cases h
      have hring := contents_split (q.contents_ring w _) (take_add_drop (q.ring w) (min (grabCount (q.ring w)) max))
      simp only [gives, takes, runnextAfter, add_zero, hring]
  | ringPopHalf w =>
    cases h
    have hring := contents_split (q.contents_ring w _)
      (take_add_drop (q.ring w) (if i.empty then 0 else (q.ring w).length / 2))
    simp only [gives, takes, runnextAfter, add_zero, hring]
  | inboxTryPush =>
    split at h <;> cases h
    · simp [contents_grow (q.contents_inbox ..)]
    · simp
  | inboxPop w =>
    split at h <;> cases h
    · simp
    · have hinbox := contents_split (q.contents_inbox w _) (head_add_tail (q.inbox w))
      simp only [gives, takes, runnextAfter, add_zero, hinbox]
  | globalPush | globalPushBatch =>
    cases h
    simp [contents_grow (q.contents_global ..)]
  | globalPop =>
    split at h <;> cases h
    · simp
    · have hglob := contents_split (q.contents_global _) (head_add_tail q.global)
      simp only [gives, takes, runnextAfter, add_zero, hglob]
  | globalPopBatch max share =>
    cases h
    have hglob := contents_split (q.contents_global _)
      (take_add_drop q.global (if i.empty then 0 else batchCount q.global max share))
    simp only [gives, takes, runnextAfter, add_zero, hglob]
  | runnextLoad | observe =>
    cases h
    simp
  | runnextStore =>
    cases h
    simp only [gives, takes, runnextAfter]
    rw [add_right_comm q.contents]
  | arrive =>
    split at h
    · cases h
      simp
    · split at h
      · cases h
      · rename_i frame _ _
        cases h
        simp only [gives, takes, runnextAfter, add_zero, ← singleton_add]
        rw [show frames (some frame) = ({frame} : Multiset φ) from rfl]
        show q.contents + {frame} + frames own.runnext + q.live = _
        abel

section Run

variable [DecidableEq φ]

variable {own own' : Own φ W}

lemma exec_cases (h : exec q own c i = some (q', a, own')) : q.apply own c i = some (q', a) ∧ own' = { own with
      runnext := runnextAfter own c
      held := own.held - takes c + gives own c a } := by
  obtain ⟨⟨r, b⟩, happly, heq⟩ := Option.map_eq_some_iff.mp h
  cases heq
  exact ⟨happly, rfl⟩

lemma apply_loads {own : Own φ W} (h : q.apply own c i = some (q', a)) : Loads own c a := by
  cases c with
  | runnextLoad =>
    cases h
    exact rfl
  | _ => trivial

lemma exec_next (q : Queues φ W) (own : Own φ W) (c : Cmd φ W) (i : Choice φ) (q' : Queues φ W)
    (a : Answer φ W c) (own' : Own φ W) (hmay : discipline.may own c)
    (h : exec q own c i = some (q', a, own')) : discipline.next own c a own' := by
  obtain ⟨happly, rfl⟩ := exec_cases h
  refine ⟨rfl, rfl, ?_, apply_loads happly⟩
  rw [add_right_comm, Multiset.sub_add_cancel hmay.1]

lemma exec_flow (hmay : discipline.may own c) (h : exec q own c i = some (q', a, own')) :
    q'.contents + own'.contents + q.live = q.contents + own.contents + q'.live := by
  obtain ⟨happly, rfl⟩ := exec_cases h
  have hflow := Queues.apply_flow happly
  have hheld := Multiset.sub_add_cancel hmay.1
  generalize own.held - takes c = left at hheld ⊢
  calc q'.contents + (frames (runnextAfter own c) + (left + gives own c a)) + q.live
      = (q'.contents + gives own c a + frames (runnextAfter own c) + q.live) + left := by abel
    _ = (q.contents + takes c + frames own.runnext + q'.live) + left := by rw [hflow]
    _ = q.contents + (frames own.runnext + (left + takes c)) + q'.live := by abel
    _ = q.contents + (frames own.runnext + own.held) + q'.live := by rw [hheld]

lemma exec_live_nodup (hlive : q.live.Nodup) (h : exec q own c i = some (q', a, own')) : q'.live.Nodup := by
  obtain ⟨happly, -⟩ := exec_cases h
  cases c with
  | arrive =>
    simp only [Queues.apply] at happly
    split at happly
    · cases happly
      exact hlive
    · split at happly
      · cases happly
      · rename_i hnew
        cases happly
        exact nodup_cons.mpr ⟨hnew, hlive⟩
  | ringPush | inboxTryPush | inboxPop | globalPop | ringGrab =>
    simp only [Queues.apply] at happly
    split at happly <;> cases happly <;> exact hlive
  | _ =>
    cases happly
    exact hlive

/-- Every live frame is in one place. -/
structure Conserved (s : State φ W F) : Prop where
  worker : ∀ t, (s.thread t).own.worker = t.getLeft?
  foreign : ∀ i, (s.thread (.inr i)).own.runnext = none
  program : ∀ t, wp discipline (s.thread t).prog (Selects t.getLeft?) (s.thread t).own
  total : s.queues.contents + ∑ t, (s.thread t).own.contents = s.queues.live
  nodup : s.queues.live.Nodup

namespace Conserved

variable {s : State φ W F}

omit [DecidableEq φ] in
/-- One thread changes, the queues with it. -/
lemma update (h : Conserved s) {q : Queues φ W} {th : Thread (Cmd φ W) (Answer φ W) (Own φ W) (Option φ)}
    (hwk : th.own.worker = t.getLeft?) (hfor : t.getLeft? = none → th.own.runnext = none)
    (hprogram : wp discipline th.prog (Selects t.getLeft?) th.own) (hnodup : q.live.Nodup)
    (hflow : q.contents + th.own.contents + s.queues.live = s.queues.contents + (s.thread t).own.contents + q.live) :
    Conserved ({ s with queues := q }.setThread t th) := by
  refine ⟨fun u => ?_, fun i => ?_, fun u => ?_, ?_, hnodup⟩
  · by_cases hu : u = t
    · rw [hu, setThread_self]
      exact hwk
    · rw [setThread_of_ne _ hu]
      exact h.worker u
  · by_cases hu : Sum.inr i = t
    · rw [hu, setThread_self]
      exact hfor (hu ▸ rfl)
    · rw [setThread_of_ne _ hu]
      exact h.foreign i
  · by_cases hu : u = t
    · rw [hu, setThread_self]
      exact hprogram
    · rw [setThread_of_ne _ hu]
      exact h.program u
  · have hsum := sum_update_add (fun r : Thread (Cmd φ W) (Answer φ W) (Own φ W) (Option φ) =>
      r.own.contents) s.thread t th
    refine add_right_cancel (b := (s.thread t).own.contents + s.queues.live) ?_
    calc q.contents + ∑ u, (Function.update s.thread t th u).own.contents +
          ((s.thread t).own.contents + s.queues.live)
        = q.contents + (∑ u, (Function.update s.thread t th u).own.contents +
            (s.thread t).own.contents) + s.queues.live := by abel
      _ = (q.contents + th.own.contents + s.queues.live) + ∑ u, (s.thread u).own.contents := by
          rw [hsum]
          abel
      _ = (s.queues.contents + ∑ u, (s.thread u).own.contents) + (s.thread t).own.contents + q.live := by
          rw [hflow]
          abel
      _ = q.live + ((s.thread t).own.contents + s.queues.live) := by
          rw [h.total]
          abel

omit [DecidableEq φ] in
lemma held_eq_zero (h : Conserved s) (hprog : (s.thread t).prog = .ret none) : (s.thread t).own.held = 0 := by
  have hidle := h.program t
  rw [hprog] at hidle
  exact hidle.2

variable {s' : State φ W F}

lemma step (h : Conserved s) (hs : s.step t i = some s') : Conserved s' := by
  obtain ⟨⟨q, th⟩, hadv, rfl⟩ := Option.map_eq_some_iff.mp hs
  obtain ⟨c, a, hmay, hexec, hnext, hprogram⟩ := advance_wp exec_next (h.program t) hadv
  refine h.update (hnext.1.trans (h.worker t)) (fun hfor => ?_) hprogram
    (exec_live_nodup h.nodup hexec) (exec_flow hmay hexec)
  cases t with
  | inl => cases hfor
  | inr j =>
    rw [hnext.2.1]
    cases c with
    | runnextStore w =>
      have howner : (s.thread (.inr j)).own.worker = some w := hmay.2
      rw [h.worker] at howner
      cases howner
    | _ => exact h.foreign j

lemma call (h : Conserved s) (hcall : s.call one t job = some s') : Conserved s' := by
  unfold State.call at hcall
  split at hcall
  · rename_i m hprog hrun
    split at hcall
    · rename_i hfresh
      cases hcall
      refine h.update (h.worker t) (fun hfor => ?_) ((Job.run_moves hrun).selects (h.worker t) rfl) ?_ ?_
      · cases t with
        | inl => cases hfor
        | inr i => exact h.foreign i
      · rw [nodup_add]
        refine ⟨h.nodup, coe_nodup.mpr hfresh.1, ?_⟩
        exact disjoint_left.mpr fun {frame} hlive hnew =>
          hfresh.2 frame (mem_coe.mp hnew) hlive
      · show s.queues.contents + (frames (s.thread t).own.runnext + (job.submits : Multiset φ)) +
          s.queues.live = s.queues.contents + (frames (s.thread t).own.runnext +
            (s.thread t).own.held) + (s.queues.live + (job.submits : Multiset φ))
        rw [h.held_eq_zero hprog]
        abel
    · cases hcall
  · cases hcall

lemma resume (h : Conserved s) (hres : s.resume t = some s') : Conserved s' := by
  unfold State.resume at hres
  split at hres
  · rename_i frame hprog
    cases hres
    have hsel := h.program t
    rw [hprog] at hsel
    have hheld : (s.thread t).own.held = {frame} := hsel.2
    have hmem : frame ∈ s.queues.live := by
      rw [← h.total, ← Finset.add_sum_erase Finset.univ _ (Finset.mem_univ t)]
      refine mem_add.mpr (.inr (mem_add.mpr (.inl (mem_add.mpr (.inr ?_)))))
      rw [hheld]
      exact mem_singleton_self frame
    refine h.update (h.worker t) (fun hfor => ?_) ⟨h.worker t, ?_⟩ (h.nodup.erase frame) ?_
    · cases t with
      | inl => cases hfor
      | inr i => exact h.foreign i
    · rw [hheld]
      exact erase_singleton frame
    · show s.queues.contents + (frames (s.thread t).own.runnext +
          (s.thread t).own.held.erase frame) + s.queues.live =
        s.queues.contents + (frames (s.thread t).own.runnext + (s.thread t).own.held) +
          s.queues.live.erase frame
      rw [hheld, erase_singleton]
      nth_rewrite 1 [← cons_erase hmem]
      rw [← singleton_add]
      abel
  · cases hres

omit [DecidableEq φ] in
lemma initial : Conserved (State.initial : State φ W F) := by
  refine ⟨fun _ => rfl, fun _ => rfl, fun t => ⟨rfl, rfl⟩, ?_, Multiset.nodup_zero⟩
  simp [State.initial, Queues.contents, Own.contents]

end Conserved

lemma frameSystem_conserved {s : State φ W F} (hs : (frameSystem φ F one).Reachable s) : Conserved s := by
  refine hs.invariant ?_ ?_
  · rintro _ rfl
    exact .initial
  · intro s a t h _ hst
    cases a with
    | call => exact h.call hst
    | step => exact h.step hst
    | resume => exact h.resume hst

/-! ### Exactly one place -/

/-- The places in a row: the slots, the rings, the inboxes, the global queue, the threads. -/
def Place.equiv (W F : Nat) : Place W F ≃ Fin W ⊕ Fin W ⊕ Fin W ⊕ Unit ⊕ (Fin W ⊕ Fin F) where
  toFun
    | .runnext w => .inl w
    | .ring w => .inr (.inl w)
    | .inbox w => .inr (.inr (.inl w))
    | .global => .inr (.inr (.inr (.inl ())))
    | .locals t => .inr (.inr (.inr (.inr t)))
  invFun
    | .inl w => .runnext w
    | .inr (.inl w) => .ring w
    | .inr (.inr (.inl w)) => .inbox w
    | .inr (.inr (.inr (.inl ()))) => .global
    | .inr (.inr (.inr (.inr t))) => .locals t
  left_inv p := by cases p <;> rfl
  right_inv p := by
    rcases p with w | w | w | u | t <;> rfl

instance : Fintype (Place W F) := Fintype.ofEquiv _ (Place.equiv W F).symm

omit [DecidableEq φ] in
lemma sum_at (s : State φ W F) (hfor : ∀ i, (s.thread (.inr i)).own.runnext = none) :
    ∑ p, s.at p = s.queues.contents + ∑ t, (s.thread t).own.contents := by
  have hslots : ∑ t, frames (s.thread t).own.runnext = ∑ w, frames (s.thread (.inl w)).own.runnext := by
    rw [Fintype.sum_sum_type, add_eq_left]
    refine Finset.sum_eq_zero fun i _ => ?_
    rw [hfor i]
    rfl
  rw [← (Place.equiv W F).symm.sum_comp, Fintype.sum_sum_type, Fintype.sum_sum_type,
    Fintype.sum_sum_type, Fintype.sum_sum_type]
  simp only [Own.contents, Finset.sum_add_distrib, hslots, Queues.contents]
  show ∑ w, frames (s.thread (.inl w)).own.runnext + (∑ w, (s.queues.ring w : Multiset φ) +
    (∑ w, (s.queues.inbox w : Multiset φ) + (∑ _u : Unit, (s.queues.global : Multiset φ) +
      ∑ t, (s.thread t).own.held))) = _
  rw [Fintype.sum_unique fun _u : Unit => (s.queues.global : Multiset φ)]
  abel

lemma existsUnique_of_sum_eq_one {ι : Type} [Fintype ι] [DecidableEq ι] {f : ι → ℕ}
    (h : ∑ i, f i = 1) : ∃! i, 0 < f i := by
  obtain ⟨i, hi⟩ : ∃ i, 0 < f i := by
    by_contra hnone
    have hzero : ∑ i, f i = 0 := Finset.sum_eq_zero fun i _ => by
      by_contra hi
      exact hnone ⟨i, pos_of_ne_zero hi⟩
    omega
  refine ⟨i, hi, fun j hj => ?_⟩
  by_contra hne
  have hsplit := Finset.add_sum_erase Finset.univ f (Finset.mem_univ i)
  have hrest : f j ≤ ∑ k ∈ Finset.univ.erase i, f k :=
    Finset.single_le_sum (fun _ _ => Nat.zero_le _) (Finset.mem_erase.mpr ⟨hne, Finset.mem_univ j⟩)
  have hj : 0 < f j := hj
  omega

/-- **Conservation of coroutine frames.** In every interleaving of the routines by any number of
workers and foreign threads, every frame that was submitted and not yet resumed is in exactly one
place, once; and no place holds any other frame. -/
theorem frames_conserved {one : Fin W} {s : State φ W F} (hs : (frameSystem φ F one).Reachable s) :
    (∀ frame ∈ s.queues.live, ∃! p, frame ∈ s.at p) ∧
      (∀ frame p, (s.at p).count frame ≤ 1) ∧ ∀ frame p, frame ∈ s.at p → frame ∈ s.queues.live := by
  have hinv := frameSystem_conserved hs
  have hall : ∑ p, s.at p = s.queues.live := (sum_at s hinv.foreign).trans hinv.total
  have hle : ∀ p, s.at p ≤ s.queues.live := fun p => by
    rw [← hall]
    exact Finset.single_le_sum (fun _ _ => Multiset.zero_le _) (Finset.mem_univ p)
  refine ⟨fun frame hlive => ?_, fun frame p => ?_, fun frame p hp => mem_of_le (hle p) hp⟩
  · have hcount : ∑ p, (s.at p).count frame = 1 := by
      rw [← count_sum', hall]
      exact count_eq_one_of_mem hinv.nodup hlive
    simp only [← count_pos]
    exact existsUnique_of_sum_eq_one hcount
  · exact (count_le_of_le frame (hle p)).trans (Multiset.nodup_iff_count_le_one.mp hinv.nodup frame)

end Run

/-- A foreign thread submits frame 7; worker 0 hands itself frame 8 and then 9, which displaces 8.
Before 8 is pushed again it is in the worker's local variables and nowhere else. -/
theorem frames_conserved_displaced : ∃ s : State Nat 2 1, (frameSystem Nat 1 (0 : Fin 2)).Reachable s ∧
      s.queues.live = {7, 8, 9} ∧ s.at (.locals (.inl 0)) = {8} ∧ s.at (.runnext 0) = {9} ∧
      ∃! p, 8 ∈ s.at p := by
  obtain ⟨s, hs, hlive, hlocals, hnext⟩ := (frameSystem Nat 1 (0 : Fin 2)).reachable_of_run initial
    [.call (.inr 0) (.scheduleFrame 7), .step (.inr 0) {}, .step (.inr 0) {}, .step (.inr 0) {},
     .call (.inl 0) (.pushNext 8), .step (.inl 0) {}, .step (.inl 0) {},
     .call (.inl 0) (.pushNext 9), .step (.inl 0) {}, .step (.inl 0) {}]
    (fun s => s.queues.live = {7, 8, 9} ∧ s.at (.locals (.inl 0)) = {8} ∧
      s.at (.runnext 0) = {9}) rfl (by decide +kernel)
  refine ⟨s, hs, hlive, hlocals, hnext, (frames_conserved hs).1 8 ?_⟩
  rw [hlive]
  decide

end Cio.Frames
