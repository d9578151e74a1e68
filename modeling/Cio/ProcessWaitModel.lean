import Cio.ReactorDesc
import Cio.TransitionSystem

/-! `Child::wait` on a pidfd that stays attached: the awaiter's lifecycle-locked transaction, the
exit edge, deadlines (`set_deadline`, the timer, `on_deadline`), and cancellation tokens
(`set_cancel`, `CancelState::cancel`, the hooks it runs). A wait is clean while neither a deadline
nor a token has been set since before it started.
`set_cancel` and `set_deadline` are split where other threads can get in between; the slot accesses
of one function are one step, as its loop retries until one of them succeeds. -/

namespace Cio.Process

open Function

open Transition
open Cio.Reactor

structure Status where
  exitCode : Option Int := none
  signal : Option Int := none
  deriving DecidableEq

/-- The `CLD_` codes of `siginfo_t`. -/
inductive SiCode where
  | exited | killed | dumped | trapped | stopped | continued
  deriving DecidableEq

structure SigInfo where
  siCode : SiCode
  siStatus : Int
  deriving DecidableEq

def SigInfo.decode (info : SigInfo) : Except Error Status :=
  match info.siCode with
  | .exited => .ok { exitCode := some info.siStatus }
  | .killed | .dumped => .ok { signal := some info.siStatus }
  | _ => .error .eagain

inductive ChildState where
  | running
  | exited (info : SigInfo)
  | reaped (info : SigInfo)
  deriving DecidableEq

def ChildState.exitInfo : ChildState → Option SigInfo
  | running => none
  | exited info | reaped info => some info

/-- `waitid(P_PIDFD, WEXITED)` on a non-blocking pidfd. -/
def ChildState.waitid : ChildState → ChildState × Except Error SigInfo
  | running => (running, .error .eagain)
  | exited info => (reaped info, .ok info)
  | reaped info => (reaped info, .error .echild)

/-- The deadline timer's node: linked in a heap, or its callback is running. -/
inductive TimerState where
  | idle
  | armed (seq : UInt32) (deadlineNs : Int)
  | firing (seq : UInt32)

def TimerState.isFiring : TimerState → Bool
  | firing _ => true
  | _ => false

/-- Where the task that calls `wait` stands. It holds the lifecycle lock in `suspendSlot`. -/
inductive WaitPc where
  | idle
  | suspendCheck
  | suspendSlot
  | parked
  | resume (err : Option Error)
  | waitid
  deriving DecidableEq

/-- Where `set_cancel` stands after the previous binding was detached. -/
inductive BindPc where
  | idle
  | publish (token : Option Nat)
  | hook (token : Nat)
  deriving DecidableEq

/-- Where `cancel()` stands with one of the hooks it took over. -/
inductive HookPc where
  | check (hook : Nat)
  | run (hook : Nat)

/-- The child, its descriptor, the timer, the tokens and the waiter. -/
structure WaitState where
  child : ChildState := .running
  edge : Bool := false
  dispatching : Nat := 0
  desc : IoDesc Unit Nat
  env : Env Nat
  timer : TimerState := .idle
  deadlineUpdate : Option Int := none
  binding : Option (Nat × Nat) := none
  bindUpdate : BindPc := .idle
  nextHook : Nat := 0
  active : Nat → Bool := fun _ => true
  hooks : Nat → List Nat := fun _ => []
  hooksFired : Nat → Bool := fun _ => false
  cancelling : List Nat := []
  firing : List HookPc := []
  waiter : WaitPc := .idle
  clean : Bool := false
  status : Option Status := none
  returned : List (Bool × Except Error Status) := []

inductive WaitAct where
  | exit (info : SigInfo)
  | harvest
  | dispatch
  | tick (now : Int)
  | setDeadline (deadlineNs : Int)
  | storeDeadline
  | expire
  | onDeadline
  | setCancel (token : Option Nat)
  | publishFlag
  | addHook
  | cancel (token : Nat)
  | takeHooks (token : Nat)
  | hookCheck (i : Nat)
  | hookRun (i : Nat)
  | call
  | wait

namespace WaitState

def slot (s : WaitState) : SlotWord Unit := s.desc.slot .read

def unconstrained (s : WaitState) : Bool := s.desc.absoluteDeadlineNs .read == 0 && s.desc.cancelFlag.isNone

def unlocked (s : WaitState) : Bool := s.waiter != .suspendSlot

/-- Installs a descriptor whose slots were unblocked with `err`; a waiter taken out is scheduled. -/
def unblocked (s : WaitState) (d : IoDesc Unit Nat) (err : Option Error) : WaitState :=
  { s with
    desc := d
    waiter := if s.slot = .waiter () ∧ d.slot .read ≠ .waiter () then .resume err else s.waiter }

def finish (s : WaitState) (result : Except Error Status) : WaitState :=
  { s with waiter := .idle, clean := false, returned := s.returned ++ [(s.clean, result)] }

def call (s : WaitState) : WaitState :=
  let started := { s with clean := s.unconstrained }
  match s.status with
  | some status => started.finish (.ok status)
  | none =>
    if s.desc.fd < 0 then started.finish (.error .esrch)
    else { started with waiter := .suspendCheck }

/-- The steps of `IoAwaiter` and the rest of `wait`. -/
def wait (s : WaitState) : Option WaitState :=
  match s.waiter with
  | .idle | .parked => none
  | .suspendCheck =>
    match s.desc.ioError s.env .read s.desc.generation with
    | some err => some { s with waiter := .resume (some err) }
    | none => some { s with waiter := .suspendSlot }
  | .suspendSlot =>
    match s.desc.suspendSlot .read () with
    | (d, .ok true) => some { s with desc := d, waiter := .parked }
    | (d, .ok false) => some { s with desc := d, waiter := .resume none }
    | (d, .error err) => some { s with desc := d, waiter := .resume (some err) }
  | .resume (some err) => some (s.finish (.error err))
  | .resume none =>
    match s.desc.ioError s.env .read s.desc.generation with
    | some err => some (s.finish (.error err))
    | none => some { s with desc := s.desc.noteReadable .read, waiter := .waitid }
  | .waitid =>
    match s.child.waitid with
    | (child, .error err) => some ({ s with child := child }.finish (.error err))
    | (child, .ok info) =>
      match info.decode with
      | .error err => some ({ s with child := child }.finish (.error err))
      | .ok status =>
        some ({ s with child := child, status := some status }.finish (.ok status))

/-- `SocketCancelHook::detach` and `remove_hook` for the previous binding. -/
def detachHook (s : WaitState) : WaitState :=
  match s.binding with
  | none => s
  | some (hook, token) =>
    { s with
      active := update s.active hook false
      hooks := update s.hooks token ((s.hooks token).erase hook)
      binding := none }

/-- `add_hook`; a token that has fired runs the hook on the spot. -/
def addHook (s : WaitState) (token : Nat) : WaitState :=
  if s.hooksFired token then
    s.unblocked (s.desc.cancelWaiters s.desc.generation) (some (.errc .cancelled))
  else
    { s with
      hooks := update s.hooks token (s.hooks token ++ [s.nextHook])
      binding := some (s.nextHook, token)
      nextHook := s.nextHook + 1 }

end WaitState

def waitStep (s : WaitState) : WaitAct → Option WaitState
  | .exit info =>
    if s.child = .running ∧ info.siCode ∈ [.exited, .killed, .dumped] then
      some { s with child := .exited info, edge := true }
    else none
  | .harvest =>
    if s.edge then some { s with edge := false, dispatching := s.dispatching + 1 } else none
  | .dispatch =>
    if 0 < s.dispatching then
      some ({ s with dispatching := s.dispatching - 1 }.unblocked (s.desc.unblock .read none) none)
    else none
  | .tick now => if s.env.now ≤ now then some { s with env := { s.env with now := now } } else none
  | .setDeadline deadlineNs =>
    -- `disarm` waits while the callback runs
    if s.deadlineUpdate = none ∧ s.timer.isFiring = false then
      some { s with timer := .idle, deadlineUpdate := some deadlineNs }
    else none
  | .storeDeadline =>
    match s.deadlineUpdate with
    | none => none
    | some deadlineNs =>
      if s.unlocked then
        let (d, armed) := s.desc.storeDeadline s.env .read s.desc.generation deadlineNs
        some { s.unblocked d (some (.errc .timedOut)) with
          timer := (armed.map fun seq => .armed seq deadlineNs).getD .idle
          deadlineUpdate := none
          clean := s.clean && deadlineNs == 0 }
      else none
  | .expire =>
    match s.timer with
    | .armed seq deadlineNs =>
      if deadlineNs ≤ s.env.now then some { s with timer := .firing seq } else none
    | _ => none
  | .onDeadline =>
    match s.timer with
    | .firing seq =>
      if s.unlocked then
        some { s.unblocked (s.desc.onDeadline .read seq) (some (.errc .timedOut)) with
          timer := .idle }
      else none
    | _ => none
  | .setCancel token =>
    if s.bindUpdate = .idle then some { s.detachHook with bindUpdate := .publish token } else none
  | .publishFlag =>
    match s.bindUpdate with
    | .publish token =>
      some { s with
        desc := { s.desc with cancelFlag := token }
        bindUpdate := (token.map .hook).getD .idle
        clean := s.clean && token.isNone }
    | _ => none
  | .addHook =>
    match s.bindUpdate with
    | .hook token =>
      if s.unlocked then some { s.addHook token with bindUpdate := .idle } else none
    | _ => none
  | .cancel token =>
    if s.env.fired token = false then
      some { s with
        env := { s.env with fired := update s.env.fired token true }
        cancelling := token :: s.cancelling }
    else none
  | .takeHooks token =>
    if token ∈ s.cancelling then
      some { s with
        cancelling := s.cancelling.erase token
        hooksFired := update s.hooksFired token true
        firing := s.firing ++ (s.hooks token).map .check
        hooks := update s.hooks token [] }
    else none
  | .hookCheck i =>
    match s.firing[i]? with
    | some (.check hook) =>
      if s.active hook then some { s with firing := s.firing.set i (.run hook) }
      else some { s with firing := s.firing.eraseIdx i }
    | _ => none
  | .hookRun i =>
    match s.firing[i]? with
    | some (.run _) =>
      if s.unlocked then
        some ({ s with firing := s.firing.eraseIdx i }.unblocked
          (s.desc.cancelWaiters s.desc.generation) (some (.errc .cancelled)))
      else none
    | _ => none
  | .call => if s.waiter = .idle then some s.call else none
  | .wait => s.wait

/-- A child that has just been started: the pidfd was attached to a node without a token. -/
def waitSystem : System WaitState WaitAct where
  init s := ∃ (d : IoDesc Unit Nat) (fd now : Int), d.cancelFlag = none ∧ 0 ≤ fd ∧
    s = { desc := d.attachFields fd, env := { now := now, stopping := false, fired := fun _ => false } }
  step := waitStep

end Cio.Process
