import Cio.FrameSystem
import Mathlib.Tactic.Abel

/-! What each routine does with frames, as a rule of its own: `Moves me a m out` says that `m`, run
by `me` with the frames `a` among others in its local variables, hands over only frames it holds and
ends with `out` in place of `a`. `MovesAt` also knows what is in the thread's `runnext` slot, as a
routine does between its load and its store. -/

namespace Cio.Frames

open ThreadProgram Multiset

variable {φ : Type} {W : Nat} {α β : Type} {me : Option (Fin W)}

def MovesAt (v : Option φ) (me : Option (Fin W)) (a : Multiset φ) (m : Routine φ W α) (out : α → Multiset φ) : Prop :=
  ∀ own rest, own.worker = me → own.runnext = v → own.held = rest + a →
    wp discipline m (fun x own' => own'.worker = me ∧ own'.held = rest + out x) own

def Moves (me : Option (Fin W)) (a : Multiset φ) (m : Routine φ W α) (out : α → Multiset φ) : Prop :=
  ∀ v, MovesAt v me a m out

/-! ### Rules -/

variable {a : Multiset φ}

lemma Moves.pure {x : α} {out : α → Multiset φ} (h : a = out x) : Moves me a (pure x) out := by
  obtain rfl := h
  exact fun _ _ _ hwk _ hheld => wp_pure ⟨hwk, hheld⟩

variable {out : β → Multiset φ} {m : Routine φ W α} {f : α → Routine φ W β}

lemma Moves.bind {mid : α → Multiset φ} (hm : Moves me a m mid)
    (hf : ∀ x, Moves me (mid x) (f x) out) : Moves me a (m >>= f) out := by
  intro v own rest hwk hnext hheld
  refine wp_seq (hm v own rest hwk hnext hheld) fun x own' hmid => ?_
  exact hf x own'.runnext own' rest hmid.1 rfl hmid.2

lemma Moves.frame {out : α → Multiset φ} (r : Multiset φ)
    (hm : Moves me a m out) : Moves me (r + a) m fun x => r + out x := by
  intro v own rest hwk hnext hheld
  rw [← add_assoc] at hheld
  refine wp_mono (hm v own (rest + r) hwk hnext hheld) fun x own' hpost => ?_
  rw [← add_assoc]
  exact hpost

lemma Moves.seq {a b r : Multiset φ} {mid : α → Multiset φ} (hm : Moves me a m mid) (hin : b = r + a)
    (hf : ∀ x, Moves me (r + mid x) (f x) out) : Moves me b (m >>= f) out := by
  obtain rfl := hin
  exact (hm.frame r).bind hf

lemma moves_request {c : Cmd φ W} {out : Answer φ W c → Multiset φ}
    (howned : ∀ own : Own φ W, own.worker = me → Owned own c)
    (hgives : ∀ own a, gives own c a = out a) : Moves me (takes c) (request c) out := by
  intro v own rest hwk _ hheld
  have hmay : takes c ≤ own.held := by
    rw [hheld]
    exact le_add_left _ _
  refine wp_request ⟨hmay, howned own hwk⟩ fun a own' hnext => ?_
  obtain ⟨hsame, -, hflow, -⟩ := hnext
  refine ⟨hsame.trans hwk, ?_⟩
  rw [hheld, hgives, add_right_comm] at hflow
  exact add_right_cancel hflow

variable {w : Fin W}

/-- A load of the slot, with what follows knowing its contents. -/
lemma moves_load {f : Option φ → Routine φ W β} (hf : ∀ v, MovesAt v (some w) a (f v) out) :
    Moves (some w) a (runnextLoad w >>= f) out := by
  intro v own rest hwk hnext hheld
  refine wp_bind (wp_request ⟨zero_le _, hwk⟩ fun x own' hload => ?_)
  obtain ⟨hsame, hslot, hflow, hx⟩ := hload
  have hvalue : x = v := hx.trans hnext
  rw [hvalue]
  refine hf v own' rest (hsame.trans hwk) (hslot.trans hnext) ?_
  rw [← hheld]
  exact add_right_cancel hflow

lemma movesAt_store {v : Option φ} (item : Option φ)
    {f : Unit → Routine φ W β} (hf : Moves (some w) (a + frames v) (f ()) out) :
    MovesAt v (some w) (a + frames item) (runnextStore w item >>= f) out := by
  intro own rest hwk hnext hheld
  have hmay : frames item ≤ own.held := by
    rw [hheld, ← add_assoc]
    exact le_add_left _ _
  refine wp_bind (wp_request ⟨hmay, hwk⟩ fun x own' hstore => ?_)
  obtain ⟨hsame, hslot, hflow, -⟩ := hstore
  refine hf item own' rest (hsame.trans hwk) hslot ?_
  have hkept : own'.held + frames item = rest + (a + frames v) + frames item := by
    rw [show own'.held + frames item = own.held + frames own.runnext from hflow, hheld, hnext]
    abel
  exact add_right_cancel hkept

lemma moves_doIf {p : Prop} [Decidable p] {m : Routine φ W Unit}
    (hm : Moves me a m fun _ => a) : Moves me a (doIf p m) fun _ => a := by
  unfold doIf
  split
  · exact hm
  · exact .pure rfl

lemma moves_doSome {item : Option φ} {m : φ → Routine φ W Unit}
    (hm : ∀ x, Moves me {x} (m x) fun _ => 0) : Moves me (frames item) (doSome item m) fun _ => 0 := by
  cases item with
  | none => exact .pure rfl
  | some x => exact hm x

lemma moves_orNone {p : Prop} [Decidable p] {m : Routine φ W (Option φ)}
    (hm : Moves me 0 m frames) : Moves me 0 (orNone p m) frames := by
  unfold orNone
  split
  · exact hm
  · exact .pure rfl

lemma Moves.skip (hm : Moves me 0 m fun _ => 0) (hf : ∀ x, Moves me a (f x) out) : Moves me a (m >>= f) out := by
  refine hm.seq (add_zero a).symm fun x => ?_
  rw [add_zero]
  exact hf x

/-! ### Queue operations -/

lemma observe_moves : Moves me (0 : Multiset φ) (observe (W := W)) fun _ => 0 :=
  moves_request (c := Cmd.observe) (fun _ _ => trivial) fun _ _ => rfl

lemma arrive_moves : Moves me (0 : Multiset φ) (arrive (W := W)) frames :=
  moves_request (c := Cmd.arrive) (fun _ _ => trivial) fun _ _ => rfl

lemma ringPush_moves (w : Fin W) (item : φ) : Moves (some w) {item} (ringPush w item) fun stored => kept item stored :=
  moves_request (c := Cmd.ringPush w item) (fun _ h => h) fun _ _ => rfl

lemma ringPop_moves (w : Fin W) : Moves (some w) (0 : Multiset φ) (ringPop w) frames :=
  moves_request (c := Cmd.ringPop w) (fun _ h => h) fun _ _ => rfl

lemma ringPopHalf_moves (w : Fin W) :
    Moves (some w) (0 : Multiset φ) (ringPopHalf w) fun batch => (batch : Multiset φ) :=
  moves_request (c := Cmd.ringPopHalf w) (fun _ h => h) fun _ _ => rfl

lemma ringGrab_moves (w : Fin W) (max : Nat) :
    Moves me (0 : Multiset φ) (ringGrab w max) fun batch => (batch : Multiset φ) :=
  moves_request (c := Cmd.ringGrab w max) (fun _ _ => trivial) fun _ _ => rfl

lemma inboxTryPush_moves (w : Fin W) (frame : φ) :
    Moves me {frame} (inboxTryPush w frame) fun stored => kept frame stored :=
  moves_request (c := Cmd.inboxTryPush w frame) (fun _ _ => trivial) fun _ _ => rfl

lemma inboxPop_moves (w : Fin W) : Moves (some w) (0 : Multiset φ) (inboxPop w) frames :=
  moves_request (c := Cmd.inboxPop w) (fun _ h => h) fun _ _ => rfl

lemma globalPush_moves (item : φ) : Moves me {item} (globalPush (W := W) item) fun _ => 0 :=
  moves_request (c := Cmd.globalPush item) (fun _ _ => trivial) fun _ _ => rfl

lemma globalPushBatch_moves (items : List φ) :
    Moves me (items : Multiset φ) (globalPushBatch (W := W) items) fun _ => 0 :=
  moves_request (c := Cmd.globalPushBatch items) (fun _ _ => trivial) fun _ _ => rfl

lemma globalPop_moves : Moves me (0 : Multiset φ) (globalPop (W := W)) frames :=
  moves_request (c := Cmd.globalPop) (fun _ _ => trivial) fun _ _ => rfl

lemma globalPopBatch_moves (max share : Nat) :
    Moves me (0 : Multiset φ) (globalPopBatch (W := W) max share) fun batch => (batch : Multiset φ) :=
  moves_request (c := Cmd.globalPopBatch max share) (fun _ _ => trivial) fun _ _ => rfl

/-! ### Publication and wake-ups touch no frame -/

lemma observed_moves {g : Nat → α} : Moves me (0 : Multiset φ) (observe (W := W) >>= fun x => pure (g x)) fun _ => 0 :=
  observe_moves.skip fun _ => .pure rfl

variable (one : Fin W)

lemma validOrChosen_moves (target : Nat) : Moves me (0 : Multiset φ) (validOrChosen one target) fun _ => 0 := by
  unfold validOrChosen
  split
  · exact .pure rfl
  · exact observe_moves.skip fun _ => .pure rfl

/-! ### The routines of a worker -/

lemma pushOverflow_moves (w : Fin W) (item : φ) : Moves (some w) {item} (pushOverflow w item) fun _ => 0 := by
  refine (ringPopHalf_moves w).seq (add_zero _).symm fun batch => ?_
  have hbatch : ({item} : Multiset φ) + (batch : Multiset φ) = ((batch ++ [item] : List φ)) := by
    rw [add_comm, ← coe_add, coe_singleton]
  rw [hbatch]
  refine (globalPushBatch_moves _).bind fun _ => ?_
  refine observed_moves.skip fun more => ?_
  refine (moves_doIf observed_moves).skip fun _ => ?_
  exact observed_moves.skip fun _ => .pure rfl

lemma push_moves (w : Fin W) (item : φ) (publish : Bool) : Moves (some w) {item} (push w item publish) fun _ => 0 := by
  refine (ringPush_moves w item).bind fun stored => ?_
  cases stored with
  | true => exact (moves_doIf observed_moves).skip fun _ => .pure rfl
  | false => exact (pushOverflow_moves w item).bind fun _ => .pure rfl

lemma pushNext_moves (w : Fin W) (item : φ) : Moves (some w) {item} (pushNext w item) fun _ => 0 := by
  refine moves_load fun previous => ?_
  rw [← zero_add ({item} : Multiset φ)]
  refine movesAt_store (some item) ?_
  rw [zero_add]
  exact moves_doSome fun frame => (push_moves w frame false).bind fun _ => .pure rfl

lemma pushAll_moves (w : Fin W) (items : List φ) (retained : Nat) :
    Moves (some w) (items : Multiset φ) (pushAll w items retained) fun _ => 0 := by
  induction items generalizing retained with
  | nil => exact .pure rfl
  | cons item rest ih =>
    refine (push_moves w item false).seq (r := (rest : Multiset φ)) ?_ fun stored => ?_
    · rw [← cons_coe, ← singleton_add, add_comm]
    · rw [add_zero]
      exact ih _

lemma drainRest_moves (w : Fin W) (left promoted : Nat) :
    Moves (some w) (0 : Multiset φ) (drainRest w left promoted) fun _ => 0 := by
  induction left generalizing promoted with
  | zero => exact .pure rfl
  | succ left ih =>
    refine (inboxPop_moves w).bind fun item => ?_
    cases item with
    | none => exact .pure rfl
    | some frame => exact (push_moves w frame false).bind fun stored => ih _

lemma drainInbox_moves (w : Fin W) : Moves (some w) (0 : Multiset φ) (drainInbox w) frames := by
  refine (inboxPop_moves w).bind fun item => ?_
  cases item with
  | none => exact .pure rfl
  | some =>
    refine (drainRest_moves w _ 0).skip fun promoted => ?_
    exact (moves_doIf observed_moves).skip fun _ => .pure rfl

variable (frame : φ)

lemma popAndRepair_moves (w : Fin W) : Moves (some w) (0 : Multiset φ) (do
      let item ← ringPop w
      doSome item fun _ => do
        let _ ← repairStealable
      return item) frames := by
  refine (ringPop_moves w).bind fun item => ?_
  have hrepair : Moves (some w) (0 : Multiset φ) (doSome item fun _ => do
      let _ ← repairStealable) fun _ => 0 := by
    cases item with
    | none => exact .pure rfl
    | some => exact observed_moves.skip fun _ => .pure rfl
  exact hrepair.skip fun _ => .pure rfl

lemma takeLocal_moves (w : Fin W) : Moves (some w) (0 : Multiset φ) (takeLocal w) frames := by
  refine moves_load fun next => ?_
  cases next with
  | some =>
    refine movesAt_store (a := 0) none ?_
    rw [zero_add]
    exact .pure rfl
  | none => exact popAndRepair_moves w none

lemma stageFairnessItem_moves (w : Fin W) (item : φ) : Moves (some w) {item} (stageFairnessItem w item) fun _ => 0 := by
  refine moves_load fun displaced => ?_
  rw [← zero_add ({item} : Multiset φ)]
  refine movesAt_store (some item) ?_
  rw [zero_add]
  cases displaced with
  | some frame => exact (push_moves w frame true).bind fun _ => .pure rfl
  | none => exact observed_moves.skip fun more => moves_doIf observed_moves

/-! ### Submissions -/

lemma scheduleCompletionFallback_moves (preferred : Nat) :
    Moves me {frame} (scheduleCompletionFallback one frame preferred) fun _ => 0 := by
  refine (validOrChosen_moves one preferred).skip fun _ => ?_
  refine (globalPush_moves frame).bind fun _ => ?_
  exact observed_moves.skip fun _ => .pure rfl

lemma enqueueRemote_moves (target : Nat) (frame : φ) (wake : Bool) :
    Moves me {frame} (enqueueRemote one target frame wake) fun _ => 0 := by
  refine (validOrChosen_moves one target).skip fun v => ?_
  refine (inboxTryPush_moves v frame).bind fun stored => ?_
  cases stored with
  | true => exact moves_doIf observed_moves
  | false =>
    refine (globalPush_moves frame).bind fun _ => ?_
    exact observed_moves.skip fun _ => .pure rfl

lemma scheduleIoCompletion_moves (preferred : Nat) :
    Moves me {frame} (scheduleIoCompletion one me frame preferred) fun _ => 0 := by
  cases me with
  | none => exact scheduleCompletionFallback_moves one frame preferred
  | some w =>
    refine moves_load fun next => ?_
    cases next with
    | none =>
      have hst : Moves (some w) ((0 : Multiset φ) + frames none) (pure ()) fun _ => 0 := .pure rfl
      rw [← zero_add ({frame} : Multiset φ)]
      exact movesAt_store (some frame) hst
    | some other =>
      have hpush : Moves (some w) {frame} (do let _ ← push w frame false; pure ()) fun _ => (0 : Multiset φ) :=
        (push_moves w frame false).bind fun _ => .pure rfl
      exact hpush (some other)

lemma scheduleCompletionWake_moves (preferred : Nat) :
    Moves me {frame} (scheduleCompletionWake one me frame preferred) fun _ => 0 := by
  cases me with
  | none => exact scheduleCompletionFallback_moves one frame preferred
  | some w =>
    unfold scheduleCompletionWake
    dsimp only
    split
    · exact (push_moves w frame true).bind fun _ => .pure rfl
    · exact scheduleCompletionFallback_moves one frame preferred

lemma scheduleFrame_moves : Moves me {frame} (scheduleFrame one me frame) fun _ => 0 := by
  cases me with
  | none => exact scheduleCompletionFallback_moves one frame W
  | some w => exact (push_moves w frame true).bind fun _ => .pure rfl

lemma scheduleToFrame_moves (target : Nat) : Moves me {frame} (scheduleToFrame one me frame target) fun _ => 0 := by
  unfold scheduleToFrame
  split
  · exact scheduleFrame_moves one frame
  · cases me with
    | none => exact enqueueRemote_moves one target frame true
    | some w =>
      dsimp only
      split
      · exact (push_moves w frame true).bind fun _ => .pure rfl
      · exact enqueueRemote_moves one target frame true

lemma scheduleNextFrame_moves : Moves me {frame} (scheduleNextFrame one me frame) fun _ => 0 := by
  cases me with
  | none => exact scheduleCompletionFallback_moves one frame W
  | some w => exact pushNext_moves w frame

lemma rescheduleSelf_moves : Moves me {frame} (rescheduleSelf one me frame) fun _ => 0 := by
  cases me with
  | none => exact scheduleFrame_moves one frame
  | some w => exact (push_moves w frame false).bind fun _ => .pure rfl

lemma stageFrom_moves {source : Routine φ W (Option φ)} (hsrc : Moves (some w) 0 source frames) :
    Moves (some w) 0 (stageFrom w source) fun _ => 0 := by
  refine hsrc.bind fun item => ?_
  cases item with
  | none => exact .pure rfl
  | some item => exact (stageFairnessItem_moves w item).bind fun _ => .pure rfl

lemma rescheduleSelfForCooperativeIo_moves (debtGlobal debtInbox debtLocal : Bool) :
    Moves me {frame} (rescheduleSelfForCooperativeIo one me frame debtGlobal debtInbox debtLocal)
      fun _ => 0 := by
  cases me with
  | none => exact scheduleFrame_moves one frame
  | some w =>
    refine (stageFrom_moves (moves_orNone globalPop_moves)).skip fun stagedGlobal => ?_
    refine (stageFrom_moves (moves_orNone (drainInbox_moves w))).skip fun stagedInbox => ?_
    refine observe_moves.skip fun idle => ?_
    exact (push_moves w frame _).bind fun _ => .pure rfl

lemma placeBatch_movesAt (w : Fin W) (v : Option φ) (head : φ) (rest : List φ) :
    MovesAt v (some w) ((head :: rest : List φ) : Multiset φ) (placeBatch w v head rest)
      fun _ => 0 := by
  cases v with
  | none =>
    rw [← cons_coe, ← singleton_add, add_comm]
    refine movesAt_store (some head) ?_
    rw [show frames (none : Option φ) = 0 from rfl, add_zero]
    exact pushAll_moves w rest 0
  | some other => exact pushAll_moves w (head :: rest) 0 (some other)

lemma scheduleBatchTo_moves (batch : List φ) (target : Nat) :
    Moves me (batch : Multiset φ) (scheduleBatchTo one me batch target) fun _ => 0 := by
  cases batch with
  | nil => exact .pure rfl
  | cons head rest =>
    refine (validOrChosen_moves one target).skip fun target => ?_
    split
    · rename_i hme
      subst hme
      refine moves_load fun occupied => ?_
      refine fun own r hwk hnext hheld => ?_
      refine wp_seq (placeBatch_movesAt target occupied head rest own r hwk hnext hheld) fun retained own' hpost => ?_
      exact moves_doIf observed_moves own'.runnext own' r hpost.1 rfl hpost.2
    · refine (globalPushBatch_moves _).bind fun _ => ?_
      refine observed_moves.skip fun woken => ?_
      exact moves_doIf (observe_moves.skip fun _ => .pure rfl)

lemma scheduleBatch_moves (batch : List φ) : Moves me (batch : Multiset φ) (scheduleBatch one me batch) fun _ => 0 := by
  cases batch with
  | nil => exact .pure rfl
  | cons =>
    cases me with
    | none => exact scheduleBatchTo_moves one _ W
    | some w =>
      refine (pushAll_moves w _ 0).bind fun retained => ?_
      exact moves_doIf observed_moves

/-! ### Poll, timers and the selection of the next coroutine -/

section

variable (w : Fin W)

lemma pollEvents_moves (events : Nat) : Moves (some w) (0 : Multiset φ) (pollEvents w events) fun _ => 0 := by
  induction events with
  | zero => exact .pure rfl
  | succ events ih =>
    refine arrive_moves.bind fun waiter => ?_
    refine observe_moves.skip fun preferred => ?_
    refine (moves_doSome fun frame => ?_).bind fun _ => ih
    exact scheduleIoCompletion_moves w frame preferred

lemma poll_moves : Moves (some w) (0 : Multiset φ) (poll w) fun _ => 0 := by
  refine observe_moves.skip fun events => ?_
  refine (pollEvents_moves w events).skip fun _ => ?_
  exact observed_moves.skip fun more => moves_doIf observed_moves

lemma fireTimers_moves (timers : Nat) (resumable : List φ) :
    Moves (some w) (resumable : Multiset φ) (fireTimers w timers resumable)
      fun batch => (batch : Multiset φ) := by
  induction timers generalizing resumable with
  | zero => exact .pure rfl
  | succ timers ih =>
    refine arrive_moves.seq (add_zero _).symm fun waiter => ?_
    refine observe_moves.skip fun preferred => ?_
    have hwake : Moves (some w) (frames waiter) (doSome waiter fun frame =>
        scheduleCompletionWake w (some w) frame preferred) fun _ => 0 :=
      moves_doSome fun frame => scheduleCompletionWake_moves w frame preferred
    refine hwake.seq rfl fun _ => ?_
    refine arrive_moves.seq rfl fun resume => ?_
    rw [show (resumable : Multiset φ) + frames resume = ((resumable ++ resume.toList : List φ)) from
      coe_add _ _]
    exact ih _

lemma runExpired_moves (batches : Nat) (fired : Bool) :
    Moves (some w) (0 : Multiset φ) (runExpired w batches fired) fun _ => 0 := by
  induction batches generalizing fired with
  | zero => exact .pure rfl
  | succ batches ih =>
    refine observe_moves.skip fun expired => ?_
    split
    · exact .pure rfl
    · refine (fireTimers_moves w _ []).bind fun resumable => ?_
      refine observe_moves.skip fun target => ?_
      refine (scheduleBatchTo_moves w resumable target).bind fun _ => ?_
      split
      · exact .pure rfl
      · exact ih true

lemma serviceTimers_moves : Moves (some w) (0 : Multiset φ) (serviceTimers w) fun _ => 0 := by
  refine observe_moves.skip fun due => ?_
  refine observe_moves.skip fun batches => ?_
  split
  · exact .pure rfl
  · exact runExpired_moves w batches false

lemma runnextLoad_moves : Moves (some w) (0 : Multiset φ) (runnextLoad w) fun _ => 0 := by
  intro v own rest hwk hnext hheld
  refine wp_request ⟨zero_le _, hwk⟩ fun x own' hload => ?_
  obtain ⟨hsame, -, hflow, -⟩ := hload
  exact ⟨hsame.trans hwk, by rw [← hheld]; exact add_right_cancel hflow⟩

lemma serviceFairness_moves : Moves (some w) (0 : Multiset φ) (serviceFairness w) frames := by
  refine (drainInbox_moves w).bind fun inboxItem => ?_
  refine (moves_doSome (stageFairnessItem_moves w)).bind fun _ => ?_
  refine (runnextLoad_moves w).skip fun next => ?_
  refine observed_moves.skip fun more => ?_
  refine observe_moves.skip fun registered => ?_
  refine (moves_doIf (poll_moves w)).skip fun _ => ?_
  refine (serviceTimers_moves w).skip fun _ => ?_
  refine (runnextLoad_moves w).skip fun next => ?_
  exact (moves_doIf observed_moves).skip fun _ => takeLocal_moves w

lemma fairnessSource_moves (cursor : Nat) : Moves (some w) (0 : Multiset φ) (fairnessSource w cursor) frames := by
  unfold fairnessSource
  split
  · exact globalPop_moves
  · exact popAndRepair_moves w

lemma globalFairnessFrom_moves (cursor sources : Nat) :
    Moves (some w) (0 : Multiset φ) (globalFairnessFrom w cursor sources) frames := by
  induction sources generalizing cursor with
  | zero => exact .pure rfl
  | succ sources ih =>
    refine (fairnessSource_moves w cursor).bind fun item => ?_
    cases item with
    | none => exact ih (cursor + 1)
    | some item => exact (stageFairnessItem_moves w item).bind fun _ => takeLocal_moves w

lemma serviceGlobalFairness_moves : Moves (some w) (0 : Multiset φ) (serviceGlobalFairness w) frames :=
  observe_moves.skip fun cursor => globalFairnessFrom_moves w cursor 2

lemma nextLocal_moves : Moves (some w) (0 : Multiset φ) (nextLocal w) frames := by
  refine observe_moves.skip fun tick => ?_
  refine (moves_orNone (serviceFairness_moves w)).bind fun served => ?_
  cases served with
  | some => exact .pure rfl
  | none =>
    refine (moves_orNone (serviceGlobalFairness_moves w)).bind fun served => ?_
    cases served with
    | some => exact .pure rfl
    | none => exact takeLocal_moves w

lemma findOther_moves : Moves (some w) (0 : Multiset φ) (findOther w) fun _ => 0 :=
  observe_moves.skip fun _ => observe_moves.skip fun _ => .pure rfl

lemma stealFrom_moves (attempts : Nat) : Moves (some w) (0 : Multiset φ) (stealFrom w attempts) frames := by
  induction attempts with
  | zero => exact .pure rfl
  | succ attempts ih =>
    refine (findOther_moves w).bind fun candidate => ?_
    cases candidate with
    | none => exact .pure rfl
    | some victim =>
      refine (ringGrab_moves victim _).bind fun batch => ?_
      refine observed_moves.skip fun stillStealable => ?_
      cases batch with
      | nil => exact ih
      | cons first rest =>
        refine (pushAll_moves w rest 0).seq (r := {first}) ?_ fun retained => ?_
        · rw [← cons_coe, ← singleton_add]
        · refine (moves_doIf observed_moves).skip fun _ => ?_
          exact (moves_doIf observed_moves).skip fun _ => .pure (add_zero _)

lemma stealFromPeers_moves : Moves (some w) (0 : Multiset φ) (stealFromPeers w) frames := by
  refine observe_moves.skip fun start => ?_
  split
  · exact .pure rfl
  · exact stealFrom_moves w W

lemma consumeSearcherCredit_moves : Moves (some w) (0 : Multiset φ) (consumeSearcherCredit w) frames := by
  refine observe_moves.skip fun credit => ?_
  refine (moves_orNone (stealFromPeers_moves w)).bind fun item => ?_
  cases item with
  | some => exact .pure rfl
  | none =>
    refine observed_moves.skip fun more => ?_
    exact (moves_doIf observed_moves).skip fun _ => .pure rfl

lemma takeLocalOrInbox_moves : Moves (some w) (0 : Multiset φ) (takeLocalOrInbox w) frames := by
  refine (takeLocal_moves w).bind fun item => ?_
  cases item with
  | some => exact .pure rfl
  | none => exact drainInbox_moves w

lemma findWork_moves : Moves (some w) (0 : Multiset φ) (findWork w) frames := by
  refine (drainInbox_moves w).bind fun item => ?_
  cases item with
  | some => exact .pure rfl
  | none =>
    refine (globalPopBatch_moves _ _).bind fun batch => ?_
    cases batch with
    | cons first rest =>
      refine (pushAll_moves w rest 0).seq (r := {first}) ?_ fun retained => ?_
      · rw [← cons_coe, ← singleton_add]
      · exact (moves_doIf observed_moves).skip fun _ => .pure (add_zero _)
    | nil =>
      refine observe_moves.skip fun ready => ?_
      refine (moves_doIf (poll_moves w)).skip fun _ => ?_
      refine (moves_orNone (takeLocalOrInbox_moves w)).bind fun item => ?_
      cases item with
      | some => exact .pure rfl
      | none =>
        refine (serviceTimers_moves w).skip fun fired => ?_
        refine (moves_orNone (takeLocalOrInbox_moves w)).bind fun item => ?_
        cases item with
        | some => exact .pure rfl
        | none => exact stealFromPeers_moves w

end

end Cio.Frames
