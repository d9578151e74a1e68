import Cio.FrameModel

/-! The queues, the threads and their interleavings. A thread owns the frames in its local variables
(`held`), and a worker also its `runnext` slot, which no other thread writes. Each queue operation
moves frames between a queue and the caller: `takes` is what leaves the local variables, `gives` what
enters them. -/

namespace Cio.Frames

open ThreadProgram Transition Function

section Semantics

variable {φ : Type} {W : Nat}

/-- The shared queues. `live` is a history variable: the frames submitted and not yet resumed. -/
structure Queues (φ : Type) (W : Nat) where
  ring : Fin W → List φ := fun _ => []
  inbox : Fin W → List φ := fun _ => []
  global : List φ := []
  live : Multiset φ := 0

/-- What a thread owns: the slot of the worker it is, if any, and the frames in its variables. -/
structure Own (φ : Type) (W : Nat) where
  worker : Option (Fin W) := none
  runnext : Option φ := none
  held : Multiset φ := 0

/-- The environment's part of a step: a queue operation that reads a lagging counter or loses a race
comes back empty-handed, a shared word has some value, a suspended coroutine becomes runnable. -/
structure Choice (φ : Type) where
  empty : Bool := false
  value : Nat := 0
  arrival : Option φ := none

def frames (item : Option φ) : Multiset φ := (item.toList : Multiset φ)

def kept (item : φ) (stored : Bool) : Multiset φ := if stored then 0 else {item}

def takes : Cmd φ W → Multiset φ
  | .ringPush _ item => {item}
  | .inboxTryPush _ frame => {frame}
  | .globalPush item => {item}
  | .globalPushBatch items => (items : Multiset φ)
  | .runnextStore _ item => frames item
  | _ => 0

/-- The frames its answer leaves in the local variables; a store hands over what it displaced. -/
def gives (own : Own φ W) : (c : Cmd φ W) → Answer φ W c → Multiset φ
  | .ringPush _ item, stored => kept item stored
  | .ringPop _, item => frames item
  | .ringGrab _ _, items => ((show List φ from items) : Multiset φ)
  | .ringPopHalf _, items => ((show List φ from items) : Multiset φ)
  | .inboxTryPush _ frame, stored => kept frame stored
  | .inboxPop _, item => frames item
  | .globalPush _, _ => 0
  | .globalPushBatch _, _ => 0
  | .globalPop, item => frames item
  | .globalPopBatch _ _, items => ((show List φ from items) : Multiset φ)
  | .runnextLoad _, _ => 0
  | .runnextStore _ _, _ => frames own.runnext
  | .observe, _ => 0
  | .arrive, item => frames item

def Owned (own : Own φ W) : Cmd φ W → Prop
  | .ringPush w _ | .ringPop w | .ringPopHalf w | .inboxPop w | .runnextLoad w
  | .runnextStore w _ => own.worker = some w
  | _ => True

def runnextAfter (own : Own φ W) : Cmd φ W → Option φ
  | .runnextStore _ item => item
  | _ => own.runnext

def Loads (own : Own φ W) : (c : Cmd φ W) → Answer φ W c → Prop
  | .runnextLoad _, item => item = own.runnext
  | _, _ => True

/-- The discipline of every thread: it hands over only frames it holds, and uses only its own
owner-side operations. -/
def discipline : Protocol (Cmd φ W) (Answer φ W) (Own φ W) where
  may own c := takes c ≤ own.held ∧ Owned own c
  next own c a own' := own'.worker = own.worker ∧ own'.runnext = runnextAfter own c ∧
    own'.held + takes c = own.held + gives own c a ∧ Loads own c a

namespace Queues

/-- `LocalRunQueue::grab`: half of the ring, rounded up. -/
def grabCount (ring : List φ) : Nat := ring.length - ring.length / 2

/-- `GlobalRunQueue::pop_batch`: a share of the queue, at least one item and at most `max`. -/
def batchCount (global : List φ) (max share : Nat) : Nat :=
  let available := global.length % 2 ^ 32
  if available = 0 then 0
  else min (min (available / (if share = 0 then 1 else share) + 1) available) max

def apply [DecidableEq φ] (q : Queues φ W) (own : Own φ W) :
    (c : Cmd φ W) → Choice φ → Option (Queues φ W × Answer φ W c)
  | .ringPush w item, _ =>
    if (q.ring w).length < kLocalQueueCapacity then
      some ({ q with ring := update q.ring w (q.ring w ++ [item]) }, true)
    else some (q, false)
  | .ringPop w, _ =>
    some ({ q with ring := update q.ring w (q.ring w).tail }, (q.ring w).head?)
  | .ringGrab w max, _ =>
    if kLocalQueueCapacity / 2 < grabCount (q.ring w) then none
    else
      let n := min (grabCount (q.ring w)) max
      some ({ q with ring := update q.ring w ((q.ring w).drop n) }, (q.ring w).take n)
  | .ringPopHalf w, i =>
    let n := if i.empty then 0 else (q.ring w).length / 2
    some ({ q with ring := update q.ring w ((q.ring w).drop n) }, (q.ring w).take n)
  | .inboxTryPush w frame, _ =>
    if (q.inbox w).length < kRemoteInboxCapacity then
      some ({ q with inbox := update q.inbox w (q.inbox w ++ [frame]) }, true)
    else some (q, false)
  | .inboxPop w, i =>
    if i.empty then some (q, none)
    else some ({ q with inbox := update q.inbox w (q.inbox w).tail }, (q.inbox w).head?)
  | .globalPush item, _ => some ({ q with global := q.global ++ [item] }, ())
  | .globalPushBatch items, _ => some ({ q with global := q.global ++ items }, ())
  | .globalPop, i =>
    if i.empty then some (q, none) else some ({ q with global := q.global.tail }, q.global.head?)
  | .globalPopBatch max share, i =>
    let n := if i.empty then 0 else batchCount q.global max share
    some ({ q with global := q.global.drop n }, q.global.take n)
  | .runnextLoad _, _ => some (q, own.runnext)
  | .runnextStore _ _, _ => some (q, ())
  | .observe, i => some (q, i.value)
  | .arrive, i =>
    match i.arrival with
    | none => some (q, none)
    | some frame =>
      if frame ∈ q.live then none else some ({ q with live := frame ::ₘ q.live }, some frame)

end Queues

def exec [DecidableEq φ] (q : Queues φ W) (own : Own φ W) (c : Cmd φ W) (i : Choice φ) :
    Option (Queues φ W × Answer φ W c × Own φ W) :=
  (q.apply own c i).map fun r =>
    (r.1, r.2, { own with
      runnext := runnextAfter own c
      held := own.held - takes c + gives own c r.2 })

end Semantics

/-- A routine called from outside: by the worker loop, by a running coroutine, or by a foreign
thread. -/
inductive Job (φ : Type) where
  | push (item : φ) (publish : Bool)
  | pushNext (item : φ)
  | stageFairnessItem (item : φ)
  | drainInbox
  | takeLocal
  | serviceFairness
  | serviceGlobalFairness
  | nextLocal
  | stealFromPeers
  | consumeSearcherCredit
  | findWork
  | poll
  | serviceTimers
  | enqueueRemote (target : Nat) (frame : φ) (wake : Bool)
  | scheduleCompletionFallback (frame : φ) (preferred : Nat)
  | scheduleIoCompletion (frame : φ) (preferred : Nat)
  | scheduleCompletionWake (frame : φ) (preferred : Nat)
  | scheduleFrame (frame : φ)
  | scheduleToFrame (frame : φ) (target : Nat)
  | scheduleNextFrame (frame : φ)
  | rescheduleSelf (frame : φ)
  | rescheduleSelfForCooperativeIo (frame : φ) (debtGlobal debtInbox debtLocal : Bool)
  | scheduleBatch (batch : List φ)
  | scheduleBatchTo (batch : List φ) (target : Nat)

namespace Job

variable {φ : Type} {W : Nat}

def submits : Job φ → List φ
  | push item _ | pushNext item | stageFairnessItem item => [item]
  | drainInbox | takeLocal | serviceFairness | serviceGlobalFairness | nextLocal | stealFromPeers
  | consumeSearcherCredit | findWork | poll | serviceTimers => []
  | enqueueRemote _ frame _ | scheduleCompletionFallback frame _ | scheduleIoCompletion frame _
  | scheduleCompletionWake frame _ | scheduleFrame frame | scheduleToFrame frame _
  | scheduleNextFrame frame | rescheduleSelf frame
  | rescheduleSelfForCooperativeIo frame _ _ _ => [frame]
  | scheduleBatch batch | scheduleBatchTo batch _ => batch

/-- The routine on worker `me`, with the frame it selects for the worker to resume, if any. -/
def onWorker (me : Fin W) : Job φ → Routine φ W (Option φ)
  | push item publish => do let _ ← Frames.push me item publish; return none
  | pushNext item => do Frames.pushNext me item; return none
  | stageFairnessItem item => do Frames.stageFairnessItem me item; return none
  | drainInbox => Frames.drainInbox me
  | takeLocal => Frames.takeLocal me
  | serviceFairness => Frames.serviceFairness me
  | serviceGlobalFairness => Frames.serviceGlobalFairness me
  | nextLocal => Frames.nextLocal me
  | stealFromPeers => Frames.stealFromPeers me
  | consumeSearcherCredit => Frames.consumeSearcherCredit me
  | findWork => Frames.findWork me
  | poll => do Frames.poll me; return none
  | serviceTimers => do let _ ← Frames.serviceTimers me; return none
  | enqueueRemote target frame wake => do Frames.enqueueRemote me target frame wake; return none
  | scheduleCompletionFallback frame preferred => do
      Frames.scheduleCompletionFallback me frame preferred
      return none
  | scheduleIoCompletion frame preferred => do
      Frames.scheduleIoCompletion me (some me) frame preferred
      return none
  | scheduleCompletionWake frame preferred => do
      Frames.scheduleCompletionWake me (some me) frame preferred
      return none
  | scheduleFrame frame => do Frames.scheduleFrame me (some me) frame; return none
  | scheduleToFrame frame target => do
      Frames.scheduleToFrame me (some me) frame target
      return none
  | scheduleNextFrame frame => do Frames.scheduleNextFrame me (some me) frame; return none
  | rescheduleSelf frame => do Frames.rescheduleSelf me (some me) frame; return none
  | rescheduleSelfForCooperativeIo frame debtGlobal debtInbox debtLocal => do
      Frames.rescheduleSelfForCooperativeIo me (some me) frame debtGlobal debtInbox debtLocal
      return none
  | scheduleBatch batch => do Frames.scheduleBatch me (some me) batch; return none
  | scheduleBatchTo batch target => do Frames.scheduleBatchTo me (some me) batch target; return none

/-- The routines that a thread which is no worker of this scheduler may call; `one` is some worker. -/
def onForeign (one : Fin W) : Job φ → Option (Routine φ W Unit)
  | enqueueRemote target frame wake => some (Frames.enqueueRemote one target frame wake)
  | scheduleCompletionFallback frame preferred =>
    some (Frames.scheduleCompletionFallback one frame preferred)
  | scheduleIoCompletion frame preferred =>
    some (Frames.scheduleIoCompletion one none frame preferred)
  | scheduleCompletionWake frame preferred =>
    some (Frames.scheduleCompletionWake one none frame preferred)
  | scheduleFrame frame => some (Frames.scheduleFrame one none frame)
  | scheduleToFrame frame target => some (Frames.scheduleToFrame one none frame target)
  | scheduleNextFrame frame => some (Frames.scheduleNextFrame one none frame)
  | rescheduleSelf frame => some (Frames.rescheduleSelf one none frame)
  | rescheduleSelfForCooperativeIo frame debtGlobal debtInbox debtLocal =>
    some (Frames.rescheduleSelfForCooperativeIo one none frame debtGlobal debtInbox debtLocal)
  | scheduleBatch batch => some (Frames.scheduleBatch one none batch)
  | scheduleBatchTo batch target => some (Frames.scheduleBatchTo one none batch target)
  | _ => none

def run {F : Nat} (one : Fin W) : Fin W ⊕ Fin F → Job φ → Option (Routine φ W (Option φ))
  | .inl me, job => some (job.onWorker me)
  | .inr _, job => (job.onForeign one).map fun m => do m; return none

end Job

/-- The queues and what every thread is doing: worker threads on the left, foreign ones on the
right. -/
structure State (φ : Type) (W F : Nat) where
  queues : Queues φ W
  thread : Fin W ⊕ Fin F → Thread (Cmd φ W) (Answer φ W) (Own φ W) (Option φ)

/-- A thread calls a routine, executes the next operation of its routine, or resumes the coroutine
its routine selected. -/
inductive Act (φ : Type) (W F : Nat) where
  | call (t : Fin W ⊕ Fin F) (job : Job φ)
  | step (t : Fin W ⊕ Fin F) (i : Choice φ)
  | resume (t : Fin W ⊕ Fin F)

namespace State

variable {φ : Type} {W F : Nat}

def setThread (s : State φ W F) (t : Fin W ⊕ Fin F)
    (th : Thread (Cmd φ W) (Answer φ W) (Own φ W) (Option φ)) : State φ W F :=
  { s with thread := update s.thread t th }

lemma setThread_self (s : State φ W F) (t : Fin W ⊕ Fin F)
    (th : Thread (Cmd φ W) (Answer φ W) (Own φ W) (Option φ)) : (s.setThread t th).thread t = th := by
  simp [setThread]

lemma setThread_of_ne (s : State φ W F) {t u : Fin W ⊕ Fin F} (hu : u ≠ t)
    (th : Thread (Cmd φ W) (Answer φ W) (Own φ W) (Option φ)) : (s.setThread t th).thread u = s.thread u := by
  simp [setThread, hu]

variable [DecidableEq φ]

/-- The frames of a call are coroutines that are not submitted yet, and the thread has nothing else
to do. -/
def call (s : State φ W F) (one : Fin W) (t : Fin W ⊕ Fin F) (job : Job φ) : Option (State φ W F) :=
  match (s.thread t).prog, job.run one t with
  | .ret none, some m =>
    if job.submits.Nodup ∧ ∀ frame ∈ job.submits, frame ∉ s.queues.live then
      some ({ s with queues := { s.queues with live := s.queues.live + job.submits } }.setThread t
        ⟨m, { (s.thread t).own with held := job.submits }⟩)
    else none
  | _, _ => none

def step (s : State φ W F) (t : Fin W ⊕ Fin F) (i : Choice φ) : Option (State φ W F) :=
  (advance exec s.queues (s.thread t) i).map fun r => { s with queues := r.1 }.setThread t r.2

/-- The worker resumes the selected coroutine, which then is no longer the scheduler's. -/
def resume (s : State φ W F) (t : Fin W ⊕ Fin F) : Option (State φ W F) :=
  match (s.thread t).prog with
  | .ret (some frame) =>
    some ({ s with queues := { s.queues with live := s.queues.live.erase frame } }.setThread t
      ⟨.ret none, { (s.thread t).own with held := (s.thread t).own.held.erase frame }⟩)
  | _ => none

def initial : State φ W F where
  queues := {}
  thread t := ⟨.ret none, { worker := t.getLeft? }⟩

end State

def frameSystem (φ : Type) [DecidableEq φ] {W : Nat} (F : Nat) (one : Fin W) : System (State φ W F) (Act φ W F) where
  init s := s = State.initial
  step s
    | .call t job => s.call one t job
    | .step t i => s.step t i
    | .resume t => s.resume t

/-- Where a frame can be. -/
inductive Place (W F : Nat) where
  | runnext (w : Fin W)
  | ring (w : Fin W)
  | inbox (w : Fin W)
  | global
  | locals (t : Fin W ⊕ Fin F)
  deriving DecidableEq

def State.at {φ : Type} {W F : Nat} (s : State φ W F) : Place W F → Multiset φ
  | .runnext w => frames (s.thread (.inl w)).own.runnext
  | .ring w => (s.queues.ring w : Multiset φ)
  | .inbox w => (s.queues.inbox w : Multiset φ)
  | .global => (s.queues.global : Multiset φ)
  | .locals t => (s.thread t).own.held

end Cio.Frames
