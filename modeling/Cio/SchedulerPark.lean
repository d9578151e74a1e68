import Cio.QueueLocal
import Cio.WordSet

/-! Parking of workers and the wakes of producers, one atomic access per step: `GlobalRunQueue` with
its size counter that follows the deque, the bounded inboxes, the idle bitmap, `wake_worker`,
`wake_one_idle` and `notify_batch`, the coalescing flag and the eventfd of each reactor, and `park`
with `worker_has_work`, the blocking poll and `leave_park`. Frames carry no data here: the deque is
the number of its frames. What the remaining checks of a worker find is a choice of the environment,
and so is a poll that returns without a wake. -/

namespace Cio.Sched

open Transition Function

/-! ### The inbox -/

def remoteInboxCapacity : UInt64 := 256

/-- The positions and the slot sequences of a `BoundedMpscQueue`. -/
structure Inbox where
  producerPos : UInt64 := 0
  consumerPos : UInt64 := 0
  sequence : Nat → UInt64 := UInt64.ofNat

namespace Inbox

def slot (pos : UInt64) : Nat := (pos &&& (remoteInboxCapacity - 1)).toNat

def published (b : Inbox) : Bool := b.sequence (slot b.consumerPos) - (b.consumerPos + 1) == 0

def store (b : Inbox) (pos value : UInt64) : Inbox := { b with sequence := update b.sequence (slot pos) value }

end Inbox

/-! ### Producers and workers -/

/-- The next access of a producer. A claim carries its start, its place in the scan and how many
wakes `notify_batch` still owes; `observed` is what the compare-exchange expects. -/
inductive CallPc where
  | insert (k : UInt32) (start more : Nat)
  | count (k : UInt32) (start more : Nat)
  | claimLoad (start pos more : Nat)
  | claimCas (start pos more : Nat) (observed : BitVec 64)
  | notify (more : Nat)
  | exchange (w more : Nat)
  | write (w more : Nat)
  | inboxLoadPos (target : Nat)
  | inboxLoadSeq (target : Nat) (pos : UInt64)
  | inboxCas (target : Nat) (pos : UInt64)
  | inboxPublish (target : Nat) (pos : UInt64)
  | clearIdle (target : Nat)
  | done

/-- The next access of a worker; `blocking` tells the poll of `park` from a poll between tasks. -/
inductive WorkerPc where
  | running
  | popLock (batch : Bool)
  | popSub (k : UInt32)
  | inboxTake
  | setIdle
  | checkLocal
  | checkInbox
  | checkGlobal
  | checkRest
  | enterPoll (blocking : Bool)
  | inPoll (blocking : Bool)
  | returned (blocking sawWake : Bool)
  | drain (blocking : Bool)
  | resetPending (blocking : Bool)
  | leavePoll (blocking : Bool)
  | leavePark
  deriving DecidableEq

/-- The global queue, the idle bits, the calls and the workers. -/
structure ParkState where
  queued : Nat := 0
  size : UInt32 := 0
  mutex : Option Nat := none
  idle : WordSet.Words := fun _ => 0
  wakeCursor : UInt32 := 0
  calls : List CallPc := []
  worker : Nat → WorkerPc := fun _ => .running
  inbox : Nat → Inbox := fun _ => {}
  polling : Nat → Bool := fun _ => false
  foreign : Nat → Bool := fun _ => false
  wakePending : Nat → Bool := fun _ => false
  tokens : Nat → Nat := fun _ => 0

inductive WriteResult where
  | written | eintr | eagain | failed

inductive ParkAct where
  | push (start : Nat)
  | pushBatch (k : UInt32) (target : Nat)
  | spill (k : UInt32) (start : Nat)
  | enqueueRemote (target : Nat)
  | call (i : Nat)
  | weakFail (i : Nat)
  | write (i : Nat) (r : WriteResult)
  | popGlobal (w : Nat) (batch : Bool)
  | popInbox (w : Nat)
  | pollNow (w : Nat)
  | park (w : Nat)
  | worker (w : Nat) (found : Bool)
  | foreignPoll (w : Nat)
  | foreignDone (w : Nat)

namespace ParkState

def setCall (s : ParkState) (i : Nat) (pc : CallPc) : ParkState := { s with calls := s.calls.set i pc }

def addCall (s : ParkState) (pc : CallPc) : ParkState := { s with calls := s.calls ++ [pc] }

def setWorker (s : ParkState) (w : Nat) (pc : WorkerPc) : ParkState := { s with worker := update s.worker w pc }

def setInbox (s : ParkState) (w : Nat) (b : Inbox) : ParkState := { s with inbox := update s.inbox w b }

lemma setWorker_worker_self (s : ParkState) (w : Nat) (pc : WorkerPc) : (s.setWorker w pc).worker w = pc :=
  update_self ..

lemma setWorker_worker_of_ne (s : ParkState) {v w : Nat} (hne : v ≠ w) (pc : WorkerPc) :
    (s.setWorker w pc).worker v = s.worker v :=
  update_of_ne hne ..

/-! ### `claim_from` -/

/-- The words that `claim_from` visits, with the bits it may take there: the upper part of the first
word, the other words, the lower part of the first. -/
def claimWord (workers start pos : Nat) : Option (Nat × BitVec 64) :=
  let start := start % workers
  let firstWord := start / 64
  let firstBit := start % 64
  let wordCount := (workers + 63) / 64
  if pos = 0 then some (firstWord, BitVec.allOnes 64 <<< firstBit)
  else if pos < wordCount then some ((firstWord + pos) % wordCount, BitVec.allOnes 64)
  else if pos = wordCount ∧ firstBit ≠ 0 then some (firstWord, BitVec.twoPow 64 firstBit - 1)
  else none

/-- `claim_from_word` with the observed value: no candidate sends it to the next word. -/
def claimNext (start pos more : Nat) (observed allowed : BitVec 64) : CallPc :=
  if observed &&& allowed = 0 then .claimLoad start (pos + 1) more
  else .claimCas start pos more observed

def claimLoad (s : ParkState) (workers i start pos more : Nat) : ParkState :=
  match claimWord workers start pos with
  | none => s.setCall i .done
  | some (word, allowed) => s.setCall i (claimNext start pos more (s.idle word) allowed)

def claimCas (s : ParkState) (workers i start pos more : Nat) (observed : BitVec 64) : ParkState :=
  match claimWord workers start pos with
  | none => s.setCall i .done
  | some (word, allowed) =>
    if s.idle word = observed then
      let selected := WordSet.lowest (observed &&& allowed)
      let result := word * 64 + selected
      { s with
        idle := update s.idle word (observed &&& ~~~BitVec.twoPow 64 selected) }.setCall i
          (if result < workers then .exchange result more else .claimLoad start (pos + 1) more)
    else s.setCall i (claimNext start pos more (s.idle word) allowed)

/-! ### `wake` -/

/-- After a wake that found a worker, `notify_batch` goes on with the wakes it owes. -/
def afterWake (more : Nat) : CallPc := if more = 0 then .done else .notify more

def eventfdMax : Nat := 2 ^ 64 - 2

/-- What an eventfd answers to a write of one: it never fails in another way. -/
def eventfdMay (tokens : Nat) : WriteResult → Bool
  | .written => tokens < eventfdMax
  | .eintr => true
  | .eagain => tokens = eventfdMax
  | .failed => false

def writeWake (s : ParkState) (i w more : Nat) : WriteResult → ParkState
  | .written => { s with tokens := update s.tokens w (s.tokens w + 1) }.setCall i (afterWake more)
  | .eintr => s
  | .eagain => s.setCall i (afterWake more)
  | .failed =>
    { s with wakePending := update s.wakePending w false }.setCall i (afterWake more)

/-! ### Producers -/

def callStep (s : ParkState) (workers i : Nat) : Option ParkState :=
  match s.calls[i]? with
  | none | some .done | some (.write _ _) => none
  | some (.insert k start more) =>
    if s.mutex = none then
      some ({ s with queued := s.queued + k.toNat }.setCall i (.count k start more))
    else none
  | some (.count k start more) =>
    some ({ s with size := s.size + k }.setCall i (.claimLoad start 0 more))
  | some (.claimLoad start pos more) => some (s.claimLoad workers i start pos more)
  | some (.claimCas start pos more observed) => some (s.claimCas workers i start pos more observed)
  | some (.notify more) =>
    some ({ s with wakeCursor := s.wakeCursor + 1 }.setCall i
      (.claimLoad s.wakeCursor.toNat 0 (more - 1)))
  | some (.exchange w more) =>
    if s.wakePending w then some (s.setCall i (afterWake more))
    else
      some ({ s with wakePending := update s.wakePending w true }.setCall i (.write w more))
  | some (.inboxLoadPos target) =>
    some (s.setCall i (.inboxLoadSeq target (s.inbox target).producerPos))
  | some (.inboxLoadSeq target pos) =>
    let difference := (s.inbox target).sequence (Inbox.slot pos) - pos
    if difference = 0 then some (s.setCall i (.inboxCas target pos))
    -- a full inbox falls back to the global queue
    else if difference.toInt64 < 0 then some (s.setCall i (.insert 1 (target + 1) 0))
    else some (s.setCall i (.inboxLoadPos target))
  | some (.inboxCas target pos) =>
    let b := s.inbox target
    if b.producerPos = pos then
      some ((s.setInbox target { b with producerPos := pos + 1 }).setCall i (.inboxPublish target pos))
    else some (s.setCall i (.inboxLoadSeq target b.producerPos))
  | some (.inboxPublish target pos) =>
    some ((s.setInbox target ((s.inbox target).store pos (pos + 1))).setCall i (.clearIdle target))
  | some (.clearIdle target) =>
    if WordSet.test s.idle target then
      some ({ s with idle := WordSet.erase s.idle target }.setCall i (.exchange target 0))
    else some (s.setCall i .done)

/-- A weak compare-exchange of the inbox may fail although the position is unchanged. -/
def weakFail (s : ParkState) (i : Nat) : Option ParkState :=
  match s.calls[i]? with
  | some (.inboxCas target _) =>
    some (s.setCall i (.inboxLoadSeq target (s.inbox target).producerPos))
  | _ => none

/-! ### Workers -/

def popBatchCount (available max share : UInt32) : UInt32 :=
  let n := available / (if share ≠ 0 then share else 1) + 1
  let n := if available < n then available else n
  if max < n then max else n

/-- How many frames a worker takes once it holds the mutex of the global queue. -/
def popCount (s : ParkState) (workers : Nat) (batch : Bool) : UInt32 :=
  if batch then
    popBatchCount (UInt32.ofNat s.queued) (Queue.localQueueCapacity / 2) (UInt32.ofNat workers)
  else if s.queued = 0 then 0 else 1

def afterPoll (blocking : Bool) : WorkerPc := if blocking then .leavePark else .running

/-- The next access of worker `w`. `found` is what the checks outside this model find, and whether a
poll that returns reports the wake. -/
def workerStep (s : ParkState) (workers w : Nat) (found : Bool) : Option ParkState :=
  match s.worker w with
  | .running => none
  | .popLock batch =>
    if s.mutex = none then
      let k := s.popCount workers batch
      if k = 0 then some (s.setWorker w .running)
      else
        some ({ s with queued := s.queued - k.toNat, mutex := some w }.setWorker w (.popSub k))
    else none
  | .popSub k => some ({ s with size := s.size - k, mutex := none }.setWorker w .running)
  | .inboxTake =>
    let b := s.inbox w
    some ((s.setInbox w { b.store b.consumerPos (b.consumerPos + remoteInboxCapacity) with
      consumerPos := b.consumerPos + 1 }).setWorker w .running)
  | .setIdle => some ({ s with idle := WordSet.insert s.idle w }.setWorker w .checkLocal)
  -- stopping, `runnext_` and the local queue
  | .checkLocal => some (s.setWorker w (if found then .leavePark else .checkInbox))
  | .checkInbox => some (s.setWorker w (if (s.inbox w).published then .leavePark else .checkGlobal))
  | .checkGlobal => some (s.setWorker w (if s.size ≠ 0 then .leavePark else .checkRest))
  -- timers and stealable peers
  | .checkRest => some (s.setWorker w (if found then .leavePark else .enterPoll true))
  | .enterPoll blocking =>
    if s.polling w then some (s.setWorker w (afterPoll blocking))
    else
      some ({ s with polling := update s.polling w true }.setWorker w (.inPoll blocking))
  | .inPoll blocking =>
    if found ∧ s.tokens w = 0 then none else some (s.setWorker w (.returned blocking found))
  | .returned blocking sawWake =>
    some ({ s with idle := WordSet.erase s.idle w }.setWorker w
      (if sawWake then .drain blocking else .leavePoll blocking))
  | .drain blocking =>
    if s.tokens w = 0 then some (s.setWorker w (.resetPending blocking))
    else some { s with tokens := update s.tokens w 0 }
  | .resetPending blocking =>
    some ({ s with wakePending := update s.wakePending w false }.setWorker w
      (.leavePoll blocking))
  | .leavePoll blocking =>
    some ({ s with polling := update s.polling w false }.setWorker w (afterPoll blocking))
  | .leavePark => some ({ s with idle := WordSet.erase s.idle w }.setWorker w .running)

def startStep (s : ParkState) (w : Nat) (pc : WorkerPc) : Option ParkState :=
  match s.worker w with
  | .running => some (s.setWorker w pc)
  | _ => none

end ParkState

/-! ### The system -/

structure Workers where
  count : Nat
  pos : 0 < count

/-- How many workers the constructor makes; too many is an exception. -/
def workerCount (requested hardware : Nat) : Option Workers :=
  if hn : requested = 0 then
    if max 1 hardware > 2 ^ 32 - 2 then none
    else some ⟨max 1 hardware, Nat.lt_of_lt_of_le Nat.one_pos (Nat.le_max_left 1 hardware)⟩
  else if requested > 2 ^ 32 - 2 then none
  else some ⟨requested, Nat.pos_of_ne_zero hn⟩

def parkStep (n : Workers) (s : ParkState) : ParkAct → Option ParkState
  | .push start => some (s.addCall (.insert 1 start 0))
  -- `schedule_batch_to`: one wake for the batch, then `notify_batch`
  | .pushBatch k target =>
    if k = 0 then none else some (s.addCall (.insert k target (min k.toNat n.count - 1)))
  -- the overflow of a local queue
  | .spill k start => if k = 0 then none else some (s.addCall (.insert k start 0))
  | .enqueueRemote target =>
    if target < n.count then some (s.addCall (.inboxLoadPos target)) else none
  | .call i => s.callStep n.count i
  | .weakFail i => s.weakFail i
  | .write i r =>
    match s.calls[i]? with
    | some (.write w more) =>
      if ParkState.eventfdMay (s.tokens w) r then some (s.writeWake i w more r) else none
    | _ => none
  | .popGlobal w batch =>
    if w < n.count then s.startStep w (if s.size = 0 then .running else .popLock batch) else none
  | .popInbox w =>
    if w < n.count then s.startStep w (if (s.inbox w).published then .inboxTake else .running)
    else none
  | .pollNow w => if w < n.count then s.startStep w (.enterPoll false) else none
  | .park w => if w < n.count then s.startStep w .setIdle else none
  | .worker w found => if w < n.count then s.workerStep n.count w found else none
  -- the monitor may poll a shard; it leaves the wake to the owner
  | .foreignPoll w =>
    if s.polling w then none
    else
      some { s with
        polling := update s.polling w true
        foreign := update s.foreign w true }
  | .foreignDone w =>
    if s.foreign w then
      some { s with
        polling := update s.polling w false
        foreign := update s.foreign w false }
    else none

def parkSystem (n : Workers) : System ParkState ParkAct where
  init s := s = {}
  step := parkStep n

/-! ### No lost wakeup -/

def ParkState.Blocked (s : ParkState) (w : Nat) : Prop := s.worker w = .inPoll true

def CallPc.published : CallPc → Bool
  | .count _ _ _ | .claimLoad _ _ _ | .claimCas _ _ _ _ | .notify _ => true
  | .exchange _ _ | .write _ _ | .clearIdle _ => true
  | .insert _ _ _ | .inboxLoadPos _ | .inboxLoadSeq _ _ | .inboxCas _ _ | .inboxPublish _ _ => false
  | .done => false

def CallPc.wakes (w : Nat) : CallPc → Bool
  | .exchange v _ | .write v _ | .clearIdle v => v = w
  | _ => false

/-- Work in the global queue while every worker sleeps, or in the inbox of a sleeping worker, is
covered by a pending wake token or by a producer that is still waking. -/
structure NoLostWakeup (n : Workers) (s : ParkState) : Prop where
  globalQueue : 0 < s.queued → (∀ w, w < n.count → s.Blocked w) →
    (∃ w, w < n.count ∧ 0 < s.tokens w) ∨ ∃ pc ∈ s.calls, pc.published = true
  inboxes : ∀ w, w < n.count → s.Blocked w → (s.inbox w).published = true →
    0 < s.tokens w ∨ ∃ pc ∈ s.calls, pc.wakes w = true

/-- A producer inserts only while fewer than `2 ^ 32` frames result. -/
def QueueFits (s : ParkState) : ParkAct → Prop
  | .call i =>
    match s.calls[i]? with
    | some (.insert k _ _) => s.queued + k.toNat < 2 ^ 32
    | _ => True
  | _ => True

instance (s : ParkState) (act : ParkAct) : Decidable (QueueFits s act) := by
  unfold QueueFits
  split
  · split <;> infer_instance
  · infer_instance

end Cio.Sched
