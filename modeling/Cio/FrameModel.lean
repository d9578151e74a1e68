import Cio.ThreadProgram
import Cio.TransitionSystem
import Mathlib.Algebra.BigOperators.Group.Finset.Basic

/-! How the scheduler moves coroutine frames: the routines of `Worker` and `Scheduler` that displace,
spill, batch and hand over frames, over the queues of `queue.hpp` with each queue operation one
atomic step. Threads are the workers and any number of foreign threads; each runs one routine at a
time. Shared words that hold no frame (bitmaps, epochs, the clock, timer deadlines, cursors) are
answered by the environment, so every branch that depends on them is taken in some run. -/

namespace Cio.Frames

open ThreadProgram

def kLocalQueueCapacity : Nat := 256
def kRemoteInboxCapacity : Nat := 256
def kInboxDrainBatch : Nat := 32
def kLocalServiceInterval : Nat := 32
def kGlobalQueueInterval : Nat := 61
def kTimerBatch : Nat := 64

/-- One queue operation. `observe` reads or writes a shared word that holds no frame; `arrive` is
the reactor or a timer making a suspended coroutine runnable on the calling thread. -/
inductive Cmd (φ : Type) (W : Nat) where
  | ringPush (w : Fin W) (item : φ)
  | ringPop (w : Fin W)
  | ringGrab (w : Fin W) (max : Nat)
  | ringPopHalf (w : Fin W)
  | inboxTryPush (w : Fin W) (frame : φ)
  | inboxPop (w : Fin W)
  | globalPush (item : φ)
  | globalPushBatch (items : List φ)
  | globalPop
  | globalPopBatch (max share : Nat)
  | runnextLoad (w : Fin W)
  | runnextStore (w : Fin W) (item : Option φ)
  | observe
  | arrive

def Answer (φ : Type) (W : Nat) : Cmd φ W → Type
  | .ringPush _ _ => Bool
  | .ringPop _ => Option φ
  | .ringGrab _ _ => List φ
  | .ringPopHalf _ => List φ
  | .inboxTryPush _ _ => Bool
  | .inboxPop _ => Option φ
  | .globalPush _ => Unit
  | .globalPushBatch _ => Unit
  | .globalPop => Option φ
  | .globalPopBatch _ _ => List φ
  | .runnextLoad _ => Option φ
  | .runnextStore _ _ => Unit
  | .observe => Nat
  | .arrive => Option φ

abbrev Routine (φ : Type) (W : Nat) (α : Type) : Type := Prog (Cmd φ W) (Answer φ W) α

section Routines

variable {φ : Type} {W : Nat}

def ringPush (w : Fin W) (item : φ) : Routine φ W Bool := request (Cmd.ringPush w item)
def ringPop (w : Fin W) : Routine φ W (Option φ) := request (Cmd.ringPop w)
def ringGrab (w : Fin W) (max : Nat) : Routine φ W (List φ) := request (Cmd.ringGrab w max)
def ringPopHalf (w : Fin W) : Routine φ W (List φ) := request (Cmd.ringPopHalf w)
def inboxTryPush (w : Fin W) (frame : φ) : Routine φ W Bool := request (Cmd.inboxTryPush w frame)
def inboxPop (w : Fin W) : Routine φ W (Option φ) := request (Cmd.inboxPop w)
def globalPush (item : φ) : Routine φ W Unit := request (Cmd.globalPush item)
def globalPushBatch (items : List φ) : Routine φ W Unit := request (Cmd.globalPushBatch items)
def globalPop : Routine φ W (Option φ) := request Cmd.globalPop
def globalPopBatch (max share : Nat) : Routine φ W (List φ) := request (Cmd.globalPopBatch max share)
def runnextLoad (w : Fin W) : Routine φ W (Option φ) := request (Cmd.runnextLoad w)
def runnextStore (w : Fin W) (item : Option φ) : Routine φ W Unit := request (Cmd.runnextStore w item)
def observe : Routine φ W Nat := request Cmd.observe
def arrive : Routine φ W (Option φ) := request Cmd.arrive

def doIf (p : Prop) [Decidable p] (m : Routine φ W Unit) : Routine φ W Unit :=
  if p then m else pure ()

def doSome {β : Type} (item : Option β) (m : β → Routine φ W Unit) : Routine φ W Unit :=
  match item with
  | some item => m item
  | none => pure ()

def orNone (p : Prop) [Decidable p] (m : Routine φ W (Option φ)) : Routine φ W (Option φ) :=
  if p then m else pure none

/-! Publication, repair and wake-ups touch bitmaps, epochs and event descriptors only. -/

def publishStealable : Routine φ W Unit := do
  let _ ← observe

def repairStealable : Routine φ W Bool := do
  return (← observe) ≠ 0

def wakeOneIdle : Routine φ W Bool := do
  return (← observe) ≠ 0

def wakeOneSearcher : Routine φ W Unit := do
  let _ ← observe

def wakeWorker : Routine φ W Unit := do
  let _ ← observe

/-- `queue_.maybe_nonempty()` and the other tests of a queue that take nothing out. -/
def maybeNonempty : Routine φ W Bool := do
  return (← observe) ≠ 0

/-- `choose_worker`; there is at least one worker to choose. -/
def chooseWorker (one : Fin W) : Routine φ W (Fin W) := do
  let v ← observe
  return if h : v < W then ⟨v, h⟩ else one

/-- A worker id that came from outside, replaced by a chosen one when it is not valid. -/
def validOrChosen (one : Fin W) (target : Nat) : Routine φ W (Fin W) :=
  if h : target < W then return ⟨target, h⟩ else chooseWorker one

def pushOverflow (me : Fin W) (item : φ) : Routine φ W Unit := do
  let batch ← ringPopHalf me
  globalPushBatch (batch ++ [item])
  let more ← maybeNonempty
  doIf more publishStealable
  let _ ← wakeOneIdle

/-- `Worker::push`: whether the item stayed in the ring. -/
def push (me : Fin W) (item : φ) (publish : Bool) : Routine φ W Bool := do
  let stored ← ringPush me item
  if stored then
    doIf publish publishStealable
    return true
  else
    pushOverflow me item
    return false

def pushNext (me : Fin W) (item : φ) : Routine φ W Unit := do
  let previous ← runnextLoad me
  runnextStore me (some item)
  doSome previous fun frame => do
    let _ ← push me frame false

def pushAll (me : Fin W) : List φ → Nat → Routine φ W Nat
  | [], retained => return retained
  | item :: rest, retained => do
      let stored ← push me item false
      pushAll me rest (if stored then retained + 1 else retained)

/-- The promotion loop of `drain_inbox`, with what is left of its batch. -/
def drainRest (me : Fin W) : Nat → Nat → Routine φ W Nat
  | 0, promoted => return promoted
  | left + 1, promoted => do
      match ← inboxPop me with
      | none => return promoted
      | some frame =>
        let stored ← push me frame false
        drainRest me left (if stored then promoted + 1 else promoted)

def drainInbox (me : Fin W) : Routine φ W (Option φ) := do
  match ← inboxPop me with
  | none => return none
  | some first =>
    let promoted ← drainRest me (kInboxDrainBatch - 1) 0
    doIf (0 < promoted) publishStealable
    return some first

def takeLocal (me : Fin W) : Routine φ W (Option φ) := do
  match ← runnextLoad me with
  | some item =>
    runnextStore me none
    return some item
  | none =>
    let item ← ringPop me
    doSome item fun _ => do
      let _ ← repairStealable
    return item

def stageFairnessItem (me : Fin W) (item : φ) : Routine φ W Unit := do
  let displaced ← runnextLoad me
  runnextStore me (some item)
  match displaced with
  | some frame =>
    let _ ← push me frame true
  | none =>
    let more ← maybeNonempty
    doIf more publishStealable

def scheduleCompletionFallback (one : Fin W) (frame : φ) (preferred : Nat) : Routine φ W Unit := do
  let _ ← validOrChosen one preferred
  globalPush frame
  let _ ← wakeOneIdle

def enqueueRemote (one : Fin W) (target : Nat) (frame : φ) (wake : Bool) : Routine φ W Unit := do
  let target ← validOrChosen one target
  let stored ← inboxTryPush target frame
  if stored then doIf wake wakeWorker
  else
    globalPush frame
    let _ ← wakeOneIdle

/-- `Scheduler::schedule_io_completion`, and `dispatch_io` with the same body. `me` is the calling
thread's worker of this scheduler. -/
def scheduleIoCompletion (one : Fin W) (me : Option (Fin W)) (frame : φ) (preferred : Nat) : Routine φ W Unit := do
  match me with
  | some me =>
    match ← runnextLoad me with
    | none => runnextStore me (some frame)
    | some _ => let _ ← push me frame false
  | none => scheduleCompletionFallback one frame preferred

/-- `Scheduler::schedule_completion_wake`, and `dispatch_completion` with the same body. -/
def scheduleCompletionWake (one : Fin W) (me : Option (Fin W)) (frame : φ) (preferred : Nat) : Routine φ W Unit := do
  match me with
  | some me =>
    if W ≤ preferred ∨ me = preferred then
      let _ ← push me frame true
    else scheduleCompletionFallback one frame preferred
  | none => scheduleCompletionFallback one frame preferred

/-- The local branch of `schedule_batch_to`: the first frame takes `runnext` when that is free. -/
def placeBatch (me : Fin W) (occupied : Option φ) (head : φ) (rest : List φ) : Routine φ W Nat := do
  match occupied with
  | none =>
    runnextStore me (some head)
    pushAll me rest 0
  | some _ => pushAll me (head :: rest) 0

def scheduleBatchTo (one : Fin W) (me : Option (Fin W)) (frames : List φ) (target : Nat) : Routine φ W Unit := do
  match frames with
  | [] => return ()
  | head :: rest =>
    let target ← validOrChosen one target
    if me = some target then
      let occupied ← runnextLoad target
      let retained ← placeBatch target occupied head rest
      doIf (0 < retained) publishStealable
    else
      globalPushBatch (head :: rest)
      let woken ← wakeOneIdle
      doIf woken do
        let _ ← observe

def scheduleBatch (one : Fin W) (me : Option (Fin W)) (frames : List φ) : Routine φ W Unit := do
  match frames with
  | [] => return ()
  | head :: rest =>
    match me with
    | some me =>
      let retained ← pushAll me (head :: rest) 0
      doIf (0 < retained) publishStealable
    | none => scheduleBatchTo one none (head :: rest) W

/-- The events of one `Reactor::poll`, each of which may make a parked coroutine runnable. -/
def pollEvents (me : Fin W) : Nat → Routine φ W Unit
  | 0 => return ()
  | events + 1 => do
      let waiter ← arrive
      let preferred ← observe
      doSome waiter fun frame => scheduleIoCompletion me (some me) frame preferred
      pollEvents me events

/-- `Reactor::poll(0)` by the worker that owns the shard, with `finish_io_batch`. -/
def poll (me : Fin W) : Routine φ W Unit := do
  let events ← observe
  pollEvents me events
  let more ← maybeNonempty
  doIf more publishStealable

/-- The firing loop of `run_expired_shard` over one batch: a callback may complete a parked
coroutine itself, and the timer's own waiter joins the batch. -/
def fireTimers (me : Fin W) : Nat → List φ → Routine φ W (List φ)
  | 0, resumable => return resumable
  | timers + 1, resumable => do
      let waiter ← arrive
      let preferred ← observe
      doSome waiter fun frame => scheduleCompletionWake me (some me) frame preferred
      let resume ← arrive
      fireTimers me timers (resumable ++ resume.toList)

/-- `TimerService::run_expired` for a number of batches; whether anything fired. -/
def runExpired (me : Fin W) : Nat → Bool → Routine φ W Bool
  | 0, fired => return fired
  | batches + 1, fired => do
      let expired ← observe
      if expired = 0 then return fired
      else
        let resumable ← fireTimers me (min expired kTimerBatch) []
        let target ← observe
        scheduleBatchTo me (some me) resumable target
        if expired < kTimerBatch then return true else runExpired me batches true

/-- The timer service of a worker: nothing when no deadline has passed. -/
def serviceTimers (me : Fin W) : Routine φ W Bool := do
  let due ← observe
  let batches ← observe
  if due = 0 then return false else runExpired me batches false

def serviceFairness (me : Fin W) : Routine φ W (Option φ) := do
  let inboxItem ← drainInbox me
  doSome inboxItem (stageFairnessItem me)
  let next ← runnextLoad me
  let more ← maybeNonempty
  let protectPrivateFifo := inboxItem.isNone && next.isNone && more
  let registered ← observe
  doIf (0 < registered) (poll me)
  let _ ← serviceTimers me
  let next ← runnextLoad me
  doIf (protectPrivateFifo && next.isSome) publishStealable
  takeLocal me

/-- The queue the cursor of `service_global_fairness` points at. -/
def fairnessSource (me : Fin W) (cursor : Nat) : Routine φ W (Option φ) := do
  if cursor % 2 = 0 then globalPop
  else
    let item ← ringPop me
    doSome item fun _ => do
      let _ ← repairStealable
    return item

/-- The sources of `Worker::service_global_fairness` from the cursor on. -/
def globalFairnessFrom (me : Fin W) (cursor : Nat) : Nat → Routine φ W (Option φ)
  | 0 => return none
  | sources + 1 => do
      match ← fairnessSource me cursor with
      | some item =>
        stageFairnessItem me item
        takeLocal me
      | none => globalFairnessFrom me (cursor + 1) sources

def serviceGlobalFairness (me : Fin W) : Routine φ W (Option φ) := do
  let cursor ← observe
  globalFairnessFrom me cursor 2

def nextLocal (me : Fin W) : Routine φ W (Option φ) := do
  let tick ← observe
  let served ← orNone (tick % kLocalServiceInterval = 0) (serviceFairness me)
  match served with
  | some item => return some item
  | none =>
    let served ← orNone (tick % kGlobalQueueInterval = 0) (serviceGlobalFairness me)
    match served with
    | some item => return some item
    | none => takeLocal me

def findOther (me : Fin W) : Routine φ W (Option (Fin W)) := do
  let first ← observe
  let second ← observe
  let candidate := if first = me then second else first
  return if h : candidate < W ∧ candidate ≠ me then some ⟨candidate, h.1⟩ else none

def stealFrom (me : Fin W) : Nat → Routine φ W (Option φ)
  | 0 => return none
  | attempts + 1 => do
      match ← findOther me with
      | none => return none
      | some victim =>
        let batch ← ringGrab victim (kLocalQueueCapacity / 2)
        let stillStealable ← repairStealable
        match batch with
        | [] => stealFrom me attempts
        | first :: rest =>
          let retained ← pushAll me rest 0
          doIf (0 < retained) publishStealable
          doIf stillStealable wakeOneSearcher
          return some first

def stealFromPeers (me : Fin W) : Routine φ W (Option φ) := do
  let _ ← observe
  if W ≤ 1 then return none else stealFrom me W

def consumeSearcherCredit (me : Fin W) : Routine φ W (Option φ) := do
  let credit ← observe
  match ← orNone (0 < credit) (stealFromPeers me) with
  | some item => return some item
  | none =>
    let more ← maybeNonempty
    doIf (0 < credit ∧ more) wakeOneSearcher
    return none

/-- The local recheck of `find_work` after a poll or a timer. -/
def takeLocalOrInbox (me : Fin W) : Routine φ W (Option φ) := do
  match ← takeLocal me with
  | some item => return some item
  | none => drainInbox me

def findWork (me : Fin W) : Routine φ W (Option φ) := do
  match ← drainInbox me with
  | some item => return some item
  | none =>
    match ← globalPopBatch (kLocalQueueCapacity / 2) W with
    | first :: rest =>
      let retained ← pushAll me rest 0
      doIf (0 < retained) publishStealable
      return some first
    | [] =>
      let ready ← observe
      doIf (0 < ready) (poll me)
      match ← orNone (0 < ready) (takeLocalOrInbox me) with
      | some item => return some item
      | none =>
        let fired ← serviceTimers me
        match ← orNone fired (takeLocalOrInbox me) with
        | some item => return some item
        | none => stealFromPeers me

def scheduleFrame (one : Fin W) (me : Option (Fin W)) (frame : φ) : Routine φ W Unit := do
  match me with
  | some me => let _ ← push me frame true
  | none => scheduleCompletionFallback one frame W

def scheduleToFrame (one : Fin W) (me : Option (Fin W)) (frame : φ) (target : Nat) : Routine φ W Unit := do
  if W ≤ target then scheduleFrame one me frame
  else
    match me with
    | some me =>
      if target = me then
        let _ ← push me frame true
      else enqueueRemote one target frame true
    | none => enqueueRemote one target frame true

def scheduleNextFrame (one : Fin W) (me : Option (Fin W)) (frame : φ) : Routine φ W Unit := do
  match me with
  | some me => pushNext me frame
  | none => scheduleCompletionFallback one frame W

def rescheduleSelf (one : Fin W) (me : Option (Fin W)) (frame : φ) : Routine φ W Unit := do
  match me with
  | some me => let _ ← push me frame false
  | none => scheduleFrame one none frame

/-- Stages one item of another queue ahead of the current continuation; whether there was one. -/
def stageFrom (me : Fin W) (source : Routine φ W (Option φ)) : Routine φ W Bool := do
  match ← source with
  | some item =>
    stageFairnessItem me item
    return true
  | none => return false

/-- `Scheduler::reschedule_self_for_cooperative_io` with the debt bits of the global queue, of the
inbox and of the local queues. -/
def rescheduleSelfForCooperativeIo (one : Fin W) (me : Option (Fin W)) (frame : φ)
    (debtGlobal debtInbox debtLocal : Bool) : Routine φ W Unit := do
  match me with
  | none => scheduleFrame one none frame
  | some me =>
    let stagedGlobal ← stageFrom me (orNone debtGlobal globalPop)
    let stagedInbox ← stageFrom me (orNone debtInbox (drainInbox me))
    let idle ← observe
    let _ ← push me frame (stagedGlobal || stagedInbox || (debtLocal && idle != 0))

end Routines
end Cio.Frames
