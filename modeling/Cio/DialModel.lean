import Cio.ReactorDesc
import Cio.TransitionSystem

/-! `TcpConn::dial` with a cancellation token. A watcher task closes the shared stream when the token fires,
while `await_connect` reads the stream's two fields again and again without the lifecycle lock: it dereferences
`desc_` at its start and after a premature edge, and hands `fd_` to two socket calls. Every read of a field and
every call is a step of its own. -/

namespace Cio.Net.Dial

open Reactor Transition

/-- `await_connect` (`start` to `note`; `woken` is `await_resume`) and the rest of `dial`: `settle` closes the
channel of the watcher, `joining` awaits it. A call has already read the number it is made on. -/
inductive DialPc where
  | start
  | awaiting
  | suspend
  | parked
  | woken (err : Option Error)
  | sockopt
  | sockoptCall (fd : Int)
  | peer
  | peerCall (fd : Int)
  | note
  | settle (result : Option Error)
  | joining (result : Option Error)
  | done (result : Option Error)
  | crashed
  deriving DecidableEq

/-- The watcher; `Socket::close` clears `fd_` and `desc_` and publishes `closing` in one critical section, wakes
the parked task in `detach` and closes the number last. -/
inductive WatcherPc where
  | select
  | clearFd
  | clearDesc (fd : Int)
  | publish (fd : Int)
  | detach (fd : Int)
  | closeFd (fd : Int)
  | done (cancelled : Bool)
  deriving DecidableEq

/-- The stream (`fd_`, whether `desc_` is set), its descriptor, and the two tasks. `closing` stands for the end
of the incarnation: a recycled node fails the generation check with the same error. `stale` records a socket
call on the number after it was closed. -/
structure State where
  fd : Int
  desc : Bool := true
  closing : Bool := false
  slot : SlotWord Unit := .idle
  released : Bool := false
  fired : Bool := false
  settled : Bool := false
  stale : Bool := false
  dial : DialPc := .start
  watcher : WatcherPc := .select

/-- What the kernel answers to `getsockopt(SO_ERROR)` and `getpeername`. -/
inductive Answer where
  | ok
  | notConnected
  | failed (e : Error)
  deriving DecidableEq

/-- `io_error` on a socket without deadlines and without a bound token. -/
def State.ioError (s : State) (stopping : Bool) : Option Error :=
  if s.closing then some (.errc .closed) else if stopping then some (.errc .shutdown) else none

def State.unblock (s : State) (err : Option Error) : State :=
  { s with
    slot := s.slot.unblock
    dial := if s.slot = .waiter () then .woken err else s.dial }

/-- Inside the critical section of `close`. -/
def WatcherPc.locks : WatcherPc → Bool
  | .clearDesc _ | .publish _ => true
  | .select | .clearFd | .detach _ | .closeFd _ | .done _ => false

def dialStep (s : State) (stopping : Bool) (answer : Answer) : Option State :=
  match s.dial with
  | .start => some { s with dial := if s.desc then .awaiting else .crashed }
  | .awaiting => some { s with dial := if s.desc then .suspend else .settle (some .ebadf) }
  | .suspend =>
    if s.watcher.locks then none
    else
      match s.ioError stopping with
      | some e => some { s with dial := .settle (some e) }
      | none =>
        match s.slot with
        | .ready => some { s with slot := .idle, dial := .woken none }
        | .waiter _ => some { s with dial := .settle (some (.errc .broken)) }
        | .idle => some { s with slot := .waiter (), dial := .parked }
  | .parked => none
  | .woken (some e) => some { s with dial := .settle (some e) }
  | .woken none =>
    match s.ioError stopping with
    | some e => some { s with dial := .settle (some e) }
    | none => some { s with dial := .sockopt }
  | .sockopt => some { s with dial := .sockoptCall s.fd }
  | .sockoptCall fd =>
    if fd < 0 then some { s with dial := .settle (some .ebadf) }
    else
      match answer with
      | .ok => some { s with stale := s.stale || s.released, dial := .peer }
      | .failed e => some { s with stale := s.stale || s.released, dial := .settle (some e) }
      | .notConnected => none
  | .peer => some { s with dial := .peerCall s.fd }
  | .peerCall fd =>
    if fd < 0 then some { s with dial := .settle (some .ebadf) }
    else
      match answer with
      | .ok => some { s with stale := s.stale || s.released, dial := .settle none }
      | .failed e => some { s with stale := s.stale || s.released, dial := .settle (some e) }
      | .notConnected => some { s with stale := s.stale || s.released, dial := .note }
  | .note => some { s with dial := if s.desc then .awaiting else .crashed }
  | .settle result => some { s with settled := true, dial := .joining result }
  | .joining result =>
    match s.watcher with
    | .done cancelled => some { s with dial := .done (if cancelled then some (.errc .cancelled) else result) }
    | _ => none
  | .done _ | .crashed => none

/-- The watcher goes on; in its `select` it takes the token's case when `cancel` says so. -/
def watcherStep (s : State) (cancel : Bool) : Option State :=
  match s.watcher with
  | .select =>
    if cancel then if s.fired then some { s with watcher := .clearFd } else none
    else if s.settled then some { s with watcher := .done false } else none
  | .clearFd => some { s with fd := -1, watcher := .clearDesc s.fd }
  | .clearDesc fd => some { s with desc := false, watcher := .publish fd }
  | .publish fd => some { s with closing := true, watcher := .detach fd }
  | .detach fd => some { s.unblock (some (.errc .closed)) with watcher := .closeFd fd }
  | .closeFd fd => some { s with released := decide (0 ≤ fd), watcher := .done true }
  | .done _ => none

/-- A label: the token fires, the poller delivers an edge, or one of the two tasks goes on. -/
inductive Act where
  | fire
  | edge
  | dial (stopping : Bool) (answer : Answer)
  | watcher (cancel : Bool)

def step (s : State) : Act → Option State
  | .fire => some { s with fired := true }
  | .edge => some (s.unblock none)
  | .dial stopping answer => dialStep s stopping answer
  | .watcher cancel => watcherStep s cancel

def dialSystem : System State Act where
  init s := ∃ fd, 0 ≤ fd ∧ s = { fd := fd }
  step := step

/-! ### The windows -/

namespace DialPc

def derefs : DialPc → Bool
  | .start | .note => true
  | .awaiting | .suspend | .parked | .woken _ | .sockopt | .sockoptCall _ | .peer | .peerCall _ | .settle _
  | .joining _ | .done _ | .crashed => false

def calling : DialPc → Bool
  | .sockoptCall fd | .peerCall fd => decide (0 ≤ fd)
  | .start | .awaiting | .suspend | .parked | .woken _ | .sockopt | .peer | .note | .settle _ | .joining _
  | .done _ | .crashed => false

def asksPeer : DialPc → Bool
  | .peerCall fd => decide (0 ≤ fd)
  | .start | .awaiting | .suspend | .parked | .woken _ | .sockopt | .sockoptCall _ | .peer | .note | .settle _
  | .joining _ | .done _ | .crashed => false

end DialPc

def WatcherPc.unlinks : WatcherPc → Bool
  | .clearDesc _ => true
  | .select | .clearFd | .publish _ | .detach _ | .closeFd _ | .done _ => false

def WatcherPc.closes : WatcherPc → Bool
  | .closeFd _ => true
  | .select | .clearFd | .clearDesc _ | .publish _ | .detach _ | .done _ => false

/-- `close` does not clear `desc_` while `await_connect` is about to dereference it, does not close the number
while it is about to be used, and `getpeername` does not answer `ENOTCONN` on a closed stream. -/
def Safe (s : State) : Act → Prop
  | .watcher _ =>
    (s.watcher.unlinks = true → s.dial.derefs = false) ∧ (s.watcher.closes = true → s.dial.calling = false)
  | .dial _ answer => s.dial.asksPeer = true → answer = .notConnected → s.desc = true
  | .fire | .edge => True

instance (s : State) (act : Act) : Decidable (Safe s act) :=
  match act with
  | .watcher _ => inferInstanceAs (Decidable ((s.watcher.unlinks = true → s.dial.derefs = false) ∧
      (s.watcher.closes = true → s.dial.calling = false)))
  | .dial _ answer =>
    inferInstanceAs (Decidable (s.dial.asksPeer = true → answer = .notConnected → s.desc = true))
  | .fire | .edge => inferInstanceAs (Decidable True)

end Cio.Net.Dial
