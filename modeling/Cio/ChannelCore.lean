import Cio.RingBuffer
import Cio.TransitionSystem

/-! Channels and `select`. The locked operations of `Channel` act on a world of channels, parked
waiters and selectors; a step is one critical section, one access of a timer callback or of the
publication handshake, or one wake after the locks were released. A program fixes what every plain
operation and every selector does when it starts; the interleaving is arbitrary.
The ghost logs of a channel record who committed, who received and who saw it closed, in order. -/

namespace Cio.Chan

open Transition RingBuffer Function

inductive OpStatus where
  | done | closed | blocked
  deriving DecidableEq

/-- A `ChanWaiter`: the one of the plain operation `t`, or the one of case `i` of selector `k`. -/
inductive Waiter where
  | op (t : Nat)
  | sel (k i : Nat)
  deriving DecidableEq

def Waiter.mark (w : Waiter) (acquired : Nat → Bool) : Nat → Bool :=
  match w with
  | .op t => update acquired t true
  | .sel _ _ => acquired

def Waiter.claim (w : Waiter) (winner : Nat → Option Nat) : Nat → Option Nat :=
  match w with
  | .op _ => winner
  | .sel k i => update winner k (some i)

/-! ### Programs -/

inductive Dir (α : Type) where
  | send (v : α)
  | recv

/-- A plain send or receive; without blocking it is `try_send` or `try_recv`. -/
structure Call (α : Type) where
  chan : Nat
  dir : Dir α
  blocking : Bool

/-- The cases of a selector; a nil channel is `none`. -/
inductive Case (α : Type) where
  | recv (chan : Option Nat)
  | send (chan : Option Nat) (v : α)
  | timeout
  | otherwise

/-- The capacities, and what each task and each selector calls. -/
structure Program (α : Type) where
  capacity : Nat → Nat
  call : Nat → Call α
  cases : Nat → List (Case α)

def Case.home {α : Type} : Case α → Option (Nat × Dir α)
  | .recv chan => chan.map fun c => (c, .recv)
  | .send chan v => chan.map fun c => (c, .send v)
  | .timeout | .otherwise => none

def Program.home {α : Type} (P : Program α) : Waiter → Option (Nat × Dir α)
  | .op t => some ((P.call t).chan, (P.call t).dir)
  | .sel k i => (P.cases k)[i]?.bind Case.home

/-! ### The state -/

/-- A channel, with what was committed, delivered and observed so far. -/
structure Channel (α : Type) where
  ring : FifoRing α
  closed : Bool := false
  senders : List Waiter := []
  receivers : List Waiter := []
  committed : List (Waiter × α) := []
  delivered : List (Waiter × α) := []
  observed : List Waiter := []

inductive OpPc where
  | fresh
  | parked
  | woken
  | returned (status : OpStatus)
  deriving DecidableEq

/-- Where a selector is: arming its timeouts from case `i` on, suspended, or in `finish` at case `i`. -/
inductive SelPc where
  | fresh
  | arming (i : Nat)
  | suspended
  | finishing (i : Nat)
  | completed
  deriving DecidableEq

inductive Phase where
  | setup | parked | resumed
  deriving DecidableEq

/-- A timeout: its callback is `firing` before and `won` after it set the winner. -/
inductive TimerPc where
  | idle | armed | firing | won
  deriving DecidableEq

/-- The memory of channels, waiters and selectors. `acquired` marks the plain operations whose effect
took place; `inlineResumes` and `dispatched` count how often a selector was resumed by its own setup and by
wakers. -/
structure World (α : Type) where
  chan : Nat → Channel α
  slot : Waiter → Option α
  success : Waiter → Bool := fun _ => false
  acquired : Nat → Bool := fun _ => false
  winner : Nat → Option Nat := fun _ => none
  phase : Nat → Phase := fun _ => .setup
  timer : Nat → Nat → TimerPc := fun _ _ => .idle
  enqueued : Nat → Bool := fun _ => false
  ops : Nat → OpPc := fun _ => .fresh
  sels : Nat → SelPc := fun _ => .fresh
  wakes : List Waiter := []
  inlineResumes : Nat → Nat := fun _ => 0
  dispatched : Nat → Nat := fun _ => 0

namespace World

variable {α : Type}

def setChan (s : World α) (c : Nat) (ch : Channel α) : World α := { s with chan := update s.chan c ch }

def setSlot (s : World α) (w : Waiter) (x : Option α) : World α := { s with slot := update s.slot w x }

def setSuccess (s : World α) (w : Waiter) (b : Bool) : World α := { s with success := update s.success w b }

def setOp (s : World α) (t : Nat) (pc : OpPc) : World α := { s with ops := update s.ops t pc }

def setSel (s : World α) (k : Nat) (pc : SelPc) : World α := { s with sels := update s.sels k pc }

def setTimer (s : World α) (k i : Nat) (pc : TimerPc) : World α :=
  { s with timer := update s.timer k (update (s.timer k) i pc) }

lemma setChan_chan_self (s : World α) (c : Nat) (ch : Channel α) : (s.setChan c ch).chan c = ch :=
  update_self ..

lemma setChan_chan_of_ne (s : World α) {c c' : Nat} (hc : c' ≠ c) (ch : Channel α) :
    (s.setChan c ch).chan c' = s.chan c' :=
  update_of_ne hc ..

/-! ### Waiters -/

def live (s : World α) : Waiter → Bool
  | .op _ => true
  | .sel k _ => s.winner k = none

/-- The effect of the waiter takes place now; for a selector this sets the winner. -/
def take (s : World α) (w : Waiter) : World α :=
  { s with acquired := w.mark s.acquired, winner := w.claim s.winner }

/-- A waiter that was taken off a queue and is woken after the unlock. -/
def acquire (s : World α) (w : Waiter) : World α := { s.take w with wakes := s.wakes ++ [w] }

def acquireFront (live : Waiter → Bool) : List Waiter → Option Waiter × List Waiter
  | [] => (none, [])
  | w :: rest => if live w then (some w, rest) else acquireFront live rest

def pushSender (s : World α) (c : Nat) (w : Waiter) : World α :=
  s.setChan c { s.chan c with senders := (s.chan c).senders ++ [w] }

def pushReceiver (s : World α) (c : Nat) (w : Waiter) : World α :=
  s.setChan c { s.chan c with receivers := (s.chan c).receivers ++ [w] }

def removeSender (s : World α) (c : Nat) (w : Waiter) : World α :=
  s.setChan c { s.chan c with senders := (s.chan c).senders.erase w }

def removeReceiver (s : World α) (c : Nat) (w : Waiter) : World α :=
  s.setChan c { s.chan c with receivers := (s.chan c).receivers.erase w }

/-! ### The locked operations -/

/-- `try_send_locked` with the value `v` in the slot of `self`. -/
def trySendLocked (s : World α) (c : Nat) (self : Waiter) (v : α) : OpStatus × World α :=
  let ch := s.chan c
  if ch.closed then (.closed, s.setChan c { ch with observed := ch.observed ++ [self] })
  else
    match acquireFront s.live ch.receivers with
    | (some r, rest) =>
      (.done, ((((s.setChan c { ch with
        receivers := rest
        committed := ch.committed ++ [(self, v)]
        delivered := ch.delivered ++ [(r, v)] }).setSlot self none).setSlot r (some v)).setSuccess r
          true).acquire r)
    | (none, rest) =>
      if ch.ring.count < ch.ring.capacity then
        (.done, (s.setChan c { ch with
          receivers := rest
          ring := ch.ring.put (some v)
          committed := ch.committed ++ [(self, v)] }).setSlot self none)
      else (.blocked, s.setChan c { ch with receivers := rest })

/-- The values that leave an optional slot, labelled with their owner. -/
def labelled (w : Waiter) (x : Option α) : List (Waiter × α) := x.toList.map fun v => (w, v)

/-- The buffered branch of the receives: the first cell goes to the slot of `self`. -/
def takeFront (s : World α) (c : Nat) (self : Waiter) : World α :=
  let ch := s.chan c
  (s.setChan c { ch with
    ring := ch.ring.drop
    delivered := ch.delivered ++ labelled self ch.ring.front }).setSlot self ch.ring.front

def tryRecvLocked (s : World α) (c : Nat) (self : Waiter) : OpStatus × World α :=
  let ch := s.chan c
  if 0 < ch.ring.count then
    let s1 := s.takeFront c self
    let ch1 := s1.chan c
    match acquireFront s.live ch.senders with
    | (some w, rest) =>
      (.done, (((s1.setChan c { ch1 with
        senders := rest
        ring := ch1.ring.put (s.slot w)
        committed := ch.committed ++ labelled w (s.slot w) }).setSlot w none).setSuccess w
          true).acquire w)
    | (none, rest) => (.done, s1.setChan c { ch1 with senders := rest })
  else
    match acquireFront s.live ch.senders with
    | (some w, rest) =>
      (.done, ((((s.setChan c { ch with
        senders := rest
        committed := ch.committed ++ labelled w (s.slot w)
        delivered := ch.delivered ++ labelled self (s.slot w) }).setSlot self (s.slot w)).setSlot w
          none).setSuccess w true).acquire w)
    | (none, rest) =>
      if ch.closed then
        (.closed, (s.setChan c { ch with
          senders := rest
          observed := ch.observed ++ [self] }).setSlot self none)
      else (.blocked, s.setChan c { ch with senders := rest })

/-- `try_recv_now_locked`: the buffered branch without blocked senders is a shortcut. -/
def tryRecvNowLocked (s : World α) (c : Nat) (self : Waiter) : OpStatus × World α :=
  let ch := s.chan c
  if ch.ring.count = 0 ∨ ch.senders ≠ [] then s.tryRecvLocked c self
  else (.done, s.takeFront c self)

/-- `close` fails one waiter; a receiver's slot is reset. -/
def closeOne (s : World α) (c : Nat) (receiver : Bool) (w : Waiter) : World α :=
  let s1 := s.setChan c { s.chan c with observed := (s.chan c).observed ++ [w] }
  ((if receiver then s1.setSlot w none else s1).setSuccess w false).acquire w

def closeWaiters (c : Nat) (receiver : Bool) : List Waiter → World α → World α
  | [], s => s
  | w :: rest, s => closeWaiters c receiver rest (if s.live w then s.closeOne c receiver w else s)

def close (s : World α) (c : Nat) : World α :=
  let ch := s.chan c
  if ch.closed then s
  else
    closeWaiters c false ch.senders
      (closeWaiters c true ch.receivers
        (s.setChan c { ch with closed := true, senders := [], receivers := [] }))

/-! ### Plain operations -/

/-- `SendAwaiter`, `RecvAwaiter`, `try_send` and `try_recv`: the critical section. -/
def callStep (P : Program α) (s : World α) (t : Nat) : Option (World α) :=
  match s.ops t with
  | .fresh =>
    let call := P.call t
    match call.dir with
    | .send v =>
      let (status, s1) := s.trySendLocked call.chan (.op t) v
      if status = .blocked then
        if call.blocking then some ((s1.pushSender call.chan (.op t)).setOp t .parked)
        else some (s1.setOp t (.returned .blocked))
      else
        some (((s1.setSuccess (.op t) (status = .done)).take (.op t)).setOp t (.returned status))
    | .recv =>
      let (status, s1) :=
        if call.blocking then s.tryRecvLocked call.chan (.op t)
        else s.tryRecvNowLocked call.chan (.op t)
      if status = .blocked then
        if call.blocking then some ((s1.pushReceiver call.chan (.op t)).setOp t .parked)
        else some (s1.setOp t (.returned .blocked))
      else some ((s1.take (.op t)).setOp t (.returned status))
  | _ => none

/-! ### Selectors -/

def caseTry (P : Program α) (s : World α) (k i : Nat) : OpStatus × World α :=
  match P.home (.sel k i) with
  | some (c, .recv) => s.tryRecvLocked c (.sel k i)
  | some (c, .send v) =>
    let (status, s1) := s.trySendLocked c (.sel k i) v
    (status, if status = .blocked then s1 else s1.setSuccess (.sel k i) (status = .done))
  | none => (.blocked, s)

def scan (P : Program α) (k : Nat) : List Nat → World α → Option Nat × World α
  | [], s => (none, s)
  | i :: rest, s =>
    let (status, s1) := s.caseTry P k i
    if status = .blocked then scan P k rest s1 else (some i, s1)

def caseEnqueue (P : Program α) (k : Nat) (s : World α) (i : Nat) : World α :=
  match P.home (.sel k i) with
  | some (c, .recv) => s.pushReceiver c (.sel k i)
  | some (c, .send _) => s.pushSender c (.sel k i)
  | none => s

end World

def channelCases {α : Type} (cases : List (Case α)) : List Nat :=
  (List.range cases.length).filter fun i =>
    match cases[i]? with
    | some (.recv _) | some (.send _ _) => true
    | _ => false

def defaultIndex {α : Type} (cases : List (Case α)) : Option Nat :=
  (List.range cases.length).reverse.find? fun i =>
    match cases[i]? with
    | some .otherwise => true
    | _ => false

namespace World

variable {α : Type}

/-- The selector resumes within its own `setup`. -/
def resumeInline (s : World α) (k : Nat) : World α :=
  { s with inlineResumes := update s.inlineResumes k (s.inlineResumes k + 1) }.setSel k
    (.finishing 0)

/-- `setup` up to the unlock: ready scan, default, or a waiter on every case. -/
def selectStep (P : Program α) (s : World α) (k : Nat) (order : List Nat) : Option (World α) :=
  if s.sels k = .fresh ∧ order.isPerm (channelCases (P.cases k)) then
    match scan P k order s with
    | (some i, s1) => some ((s1.take (.sel k i)).resumeInline k)
    | (none, s1) =>
      match defaultIndex (P.cases k) with
      | some i => some ((s1.take (.sel k i)).resumeInline k)
      | none =>
        some ({ (List.range (P.cases k).length).foldl (caseEnqueue P k) s1 with
          enqueued := update s1.enqueued k true }.setSel k (.arming 0))
  else none

/-- `setup` after the unlock: arms the timeouts one by one, then publishes the phase. -/
def armStep (P : Program α) (s : World α) (k : Nat) : Option (World α) :=
  match s.sels k with
  | .arming i =>
    match (P.cases k)[i]? with
    | some .timeout => some ((s.setTimer k i .armed).setSel k (.arming (i + 1)))
    | some _ => some (s.setSel k (.arming (i + 1)))
    | none =>
      if s.phase k = .setup then
        some ({ s with phase := update s.phase k .parked }.setSel k .suspended)
      else some (s.resumeInline k)
  | _ => none

/-- `take_resume_ownership` and, with it, the dispatch. -/
def exchangePhase (s : World α) (k : Nat) : World α :=
  let s1 := { s with phase := update s.phase k .resumed }
  if s.phase k = .parked then
    { s1 with dispatched := update s.dispatched k (s.dispatched k + 1) }
  else s1

/-- `wake` of a waiter that was taken off a queue. -/
def wakeStep (s : World α) (j : Nat) : Option (World α) :=
  match s.wakes[j]? with
  | none => none
  | some (.op t) => some ({ s with wakes := s.wakes.eraseIdx j }.setOp t .woken)
  | some (.sel k _) => some ({ s with wakes := s.wakes.eraseIdx j }.exchangePhase k)

/-- The next access of the timeout callback: it leaves the heap, tries to win, takes the phase. -/
def timerStep (s : World α) (k i : Nat) : Option (World α) :=
  match s.timer k i with
  | .idle => none
  | .armed => some (s.setTimer k i .firing)
  | .firing =>
    if s.winner k = none then some ((s.take (.sel k i)).setTimer k i .won)
    else some (s.setTimer k i .idle)
  | .won => some ((s.exchangePhase k).setTimer k i .idle)

def resumeStep (s : World α) (k : Nat) : Option (World α) :=
  if s.sels k = .suspended ∧ 0 < s.dispatched k then some (s.setSel k (.finishing 0)) else none

/-- `case_retract`; disarming waits for a callback that has begun. -/
def caseRetract (P : Program α) (s : World α) (k i : Nat) : Option (World α) :=
  match (P.cases k)[i]? with
  | some .timeout =>
    if s.timer k i = .firing ∨ s.timer k i = .won then none else some (s.setTimer k i .idle)
  | _ =>
    if s.winner k = some i then some s
    else
      match P.home (.sel k i) with
      | some (c, .recv) => some (s.removeReceiver c (.sel k i))
      | some (c, .send _) => some (s.removeSender c (.sel k i))
      | none => some s

def finishStep (P : Program α) (s : World α) (k : Nat) : Option (World α) :=
  match s.sels k with
  | .finishing i =>
    if s.enqueued k = false then some (s.setSel k .completed)
    else if i < (P.cases k).length then
      (s.caseRetract P k i).map fun s1 => s1.setSel k (.finishing (i + 1))
    else some ({ s with enqueued := update s.enqueued k false }.setSel k .completed)
  | _ => none

end World

/-! ### The system -/

inductive Act where
  | call (t : Nat)
  | close (c : Nat)
  | select (k : Nat) (order : List Nat)
  | arm (k : Nat)
  | wake (j : Nat)
  | timer (k i : Nat)
  | resume (k : Nat)
  | finish (k : Nat)

def chanStep {α : Type} (P : Program α) (s : World α) : Act → Option (World α)
  | .call t => s.callStep P t
  | .close c => some (s.close c)
  | .select k order => s.selectStep P k order
  | .arm k => s.armStep P k
  | .wake j => s.wakeStep j
  | .timer k i => s.timerStep k i
  | .resume k => s.resumeStep k
  | .finish k => s.finishStep P k

def Program.slot {α : Type} (P : Program α) (w : Waiter) : Option α :=
  match P.home w with
  | some (_, .send v) => some v
  | _ => none

def Program.start {α : Type} (P : Program α) : World α where
  chan c := { ring := { capacity := P.capacity c } }
  slot := P.slot

def chanSystem {α : Type} (P : Program α) : System (World α) Act where
  init s := s = P.start
  step := chanStep P

end Cio.Chan
