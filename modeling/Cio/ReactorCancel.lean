import Cio.ReactorDesc
import Cio.TransitionSystem

/-! Cancellation bindings on a recycled descriptor slab: `Reactor::attach`, `Socket::set_cancel` and
`clear_cancel`, `CancelState::cancel` and `Socket::close` over any number of sockets, tokens and
awaiters. A Socket is not thread-safe, so one operation on it is one step; operations on different
sockets and the awaiters that keep a closed node alive interleave freely.
`bound` is a history variable: the token bound to the node's current incarnation by `set_cancel`,
neither replaced nor cleared since. -/

namespace Cio.Reactor

open Transition Function IoDesc

def kChunkSize : Nat := 512
def kMaxChunks : Nat := 8192

/-- `SocketCancelHook`: which incarnation to wake, unless it was retired. -/
structure CancelHook where
  node : Nat := 0
  generation : UInt32 := 0
  active : Bool := true

structure CancelState where
  cancelled : Bool := false
  fired : Bool := false
  hooks : List Nat := []

structure Socket where
  fd : Int := -1
  desc : Option Nat := none
  cancelBinding : Option Nat := none
  cancelToken : Option Nat := none

/-- One reactor shard with everything that can reach its descriptors. Nodes are slab addresses; the
slab never frees, so a node keeps its contents between two incarnations. -/
structure Slab where
  nodes : Nat → IoDesc Nat Nat := fun _ => {}
  freeList : List Nat := []
  chunkCount : Nat := 0
  stopping : Bool := false
  now : Int := 0
  sockets : Nat → Socket := fun _ => {}
  tokens : Nat → CancelState := fun _ => {}
  hooks : Nat → CancelHook := fun _ => {}
  hookCount : Nat := 0
  awaiters : Nat → Option Nat := fun _ => none
  bound : Nat → Option Nat := fun _ => none

namespace Slab

def env (s : Slab) : Env Nat :=
  { now := s.now, stopping := s.stopping, fired := fun token => (s.tokens token).cancelled }

def setNode (s : Slab) (n : Nat) (d : IoDesc Nat Nat) : Slab := { s with nodes := update s.nodes n d }

def setSocket (s : Slab) (k : Nat) (socket : Socket) : Slab := { s with sockets := update s.sockets k socket }

def setToken (s : Slab) (token : Nat) (state : CancelState) : Slab :=
  { s with tokens := update s.tokens token state }

/-- `alloc_desc`: the head of the free list, or the first node of a fresh chunk whose other nodes
go on the free list. `memory` is the outcome of the chunk allocation. -/
def allocDesc (s : Slab) (memory : Bool) : Option (Nat × Slab) :=
  match s.freeList with
  | n :: rest => some (n, { s with freeList := rest })
  | [] =>
    if s.chunkCount < kMaxChunks ∧ memory then
      let base := s.chunkCount * kChunkSize
      some (base, { s with
        chunkCount := s.chunkCount + 1
        freeList := (List.range (kChunkSize - 1)).map (base + 1 + ·) })
    else none

def freeDesc (s : Slab) (n : Nat) : Slab :=
  { s.setNode n (s.nodes n).freeFields with freeList := n :: s.freeList }

def releaseDesc (s : Slab) (n : Nat) : Slab :=
  let released := s.setNode n { s.nodes n with refs := (s.nodes n).refs - 1 }
  if (s.nodes n).refs = 1 then released.freeDesc n else released

/-- `Reactor::attach`; `registered` is the outcome of `epoll_ctl`. A new incarnation starts without
a bound token. -/
def attach (s : Slab) (fd : Int) (memory registered : Bool) : Except Error Nat × Slab :=
  if s.stopping then (.error (.errc .shutdown), s)
  else
    match s.allocDesc memory with
    | none => (.error .enomem, s)
    | some (n, s) =>
      let s := s.setNode n ((s.nodes n).attachFields fd)
      let s := { s with bound := update s.bound n none }
      if registered then (.ok n, s)
      else
        (.error .enomem, (s.setNode n { s.nodes n with closing := true }).releaseDesc n)

/-- `Socket::adopt` after the descriptor was made non-blocking. -/
def adopt (s : Slab) (k : Nat) (fd : Int) (memory registered : Bool) : Slab :=
  match s.attach fd memory registered with
  | (.ok n, s) => s.setSocket k { s.sockets k with fd := fd, desc := some n }
  | (.error _, s) => s

/-- `capture_operation`: the socket's node and its current incarnation. -/
def captureOperation (s : Slab) (socket : Socket) : Except Error (Nat × UInt32) :=
  match socket.desc with
  | none => .error .ebadf
  | some n =>
    if socket.fd ≠ (s.nodes n).fd ∨ (s.nodes n).closing then .error (.errc .closed)
    else if s.stopping then .error (.errc .shutdown)
    else .ok (n, (s.nodes n).generation)

def onCancel (s : Slab) (h : Nat) : Slab :=
  let hook := s.hooks h
  if hook.active then s.setNode hook.node ((s.nodes hook.node).cancelWaiters hook.generation) else s

/-- The part shared by `set_cancel` and `close`: the previous hook goes inert and leaves the list of
its token. -/
def retireBinding (s : Slab) (k : Nat) : Slab :=
  match (s.sockets k).cancelBinding with
  | none => s
  | some h =>
    let s := { s with hooks := update s.hooks h { s.hooks h with active := false } }
    let s := match (s.sockets k).cancelToken with
      | none => s
      | some token =>
        s.setToken token { s.tokens token with hooks := (s.tokens token).hooks.erase h }
    s.setSocket k { s.sockets k with cancelBinding := none }

/-- `CancelState::add_hook` for a fresh hook, and what `set_cancel` does with its answer. -/
def addHook (s : Slab) (k token n : Nat) (generation : UInt32) : Slab :=
  let h := s.hookCount
  let s := { s with
    hooks := update s.hooks h { node := n, generation := generation, active := true }
    hookCount := h + 1 }
  if (s.tokens token).fired then s.onCancel h
  else
    (s.setToken token { s.tokens token with hooks := (s.tokens token).hooks ++ [h] }).setSocket k
      { s.sockets k with cancelBinding := some h }

/-- `Socket::set_cancel`; an empty token is `clear_cancel`. -/
def setCancel (s : Slab) (k : Nat) (token : Option Nat) : Slab :=
  let s := s.retireBinding k
  let operation := s.captureOperation (s.sockets k)
  let s := s.setSocket k { s.sockets k with cancelToken := token }
  match operation with
  | .error _ => s
  | .ok (n, generation) =>
    let s := s.setNode n { s.nodes n with cancelFlag := token }
    let s := { s with bound := update s.bound n token }
    match token with
    | none => s
    | some token => s.addHook k token n generation

def cancel (s : Slab) (token : Nat) : Slab :=
  let state := s.tokens token
  if state.cancelled then s
  else state.hooks.foldl onCancel (s.setToken token { cancelled := true, fired := true, hooks := [] })

def detach (s : Slab) (n : Nat) : Slab := (s.setNode n (s.nodes n).detachFields).releaseDesc n

def close (s : Slab) (k : Nat) : Slab :=
  let s := s.retireBinding k
  match (s.sockets k).desc with
  | none => s.setSocket k { s.sockets k with fd := -1 }
  | some n =>
    let s := s.setSocket k { s.sockets k with fd := -1, desc := none }
    (s.setNode n { s.nodes n with closing := true }).detach n

/-- `IoAwaiter::await_suspend` of awaiter `w` on socket `k`. -/
def awaitSuspend (s : Slab) (k : Nat) (dir : Dir) (w : Nat) : Slab :=
  match (s.sockets k).desc with
  | none => s
  | some n =>
    if ((s.nodes n).ioError s.env dir (s.nodes n).generation).isSome then s
    else
      let d := { s.nodes n with refs := (s.nodes n).refs + 1 }
      { s.setNode n (d.suspendSlot dir w).1 with
        awaiters := update s.awaiters w (some n) }

/-- The awaiter's destructor: it drops its reference once it is out of the slot. -/
def dropAwaiter (s : Slab) (w : Nat) : Slab :=
  match s.awaiters w with
  | none => s
  | some n => { s.releaseDesc n with awaiters := update s.awaiters w none }

/-- `Reactor::dispatch` of an event token for one direction. -/
def dispatch (s : Slab) (n : Nat) (generation : UInt32) (dir : Dir) : Slab :=
  let d := s.nodes n
  if d.generation = generation ∧ d.refs ≠ 0 ∧ d.closing = false then
    s.setNode n (d.unblock dir none)
  else s

end Slab

inductive CancelAct where
  | adopt (k : Nat) (fd : Int) (memory registered : Bool)
  | setCancel (k : Nat) (token : Option Nat)
  | cancel (token : Nat)
  | close (k : Nat)
  | awaitSuspend (k : Nat) (dir : Dir) (w : Nat)
  | dropAwaiter (w : Nat)
  | dispatch (n : Nat) (generation : UInt32) (dir : Dir)
  | tick (now : Int)
  | stop

/-- A socket adopts a descriptor only while it holds none; an awaiter identity is reused, and its
frame destroyed, only while no slot holds it. -/
def cancelStep (s : Slab) : CancelAct → Option Slab
  | .adopt k fd memory registered =>
    if (s.sockets k).desc = none ∧ (s.sockets k).fd = -1 ∧ 0 ≤ fd then
      some (s.adopt k fd memory registered)
    else none
  | .setCancel k token => some (s.setCancel k token)
  | .cancel token => some (s.cancel token)
  | .close k => some (s.close k)
  | .awaitSuspend k dir w =>
    if s.awaiters w = none then some (s.awaitSuspend k dir w) else none
  | .dropAwaiter w =>
    match s.awaiters w with
    | none => none
    | some n =>
      if (s.nodes n).slot .read = .waiter w ∨ (s.nodes n).slot .write = .waiter w then none
      else some (s.dropAwaiter w)
  | .dispatch n generation dir => some (s.dispatch n generation dir)
  | .tick now => if s.now ≤ now then some { s with now := now } else none
  | .stop => some { s with stopping := true }

def cancelSystem : System Slab CancelAct where
  init s := s = {}
  step := cancelStep

namespace Slab

/-- The token bound to the node's current incarnation has been cancelled. -/
def BoundFired (s : Slab) (n : Nat) : Prop :=
  ∃ token, s.bound n = some token ∧ (s.tokens token).cancelled = true

/-- Cancellation is reported on an open socket only for a token bound to its own incarnation. -/
def CancelTruthful (s : Slab) : Prop :=
  ∀ k n, (s.sockets k).desc = some n →
    ((s.nodes n).cancelled s.env.fired = true → s.BoundFired n) ∧
    (∀ dir generation, (s.nodes n).ioError s.env dir generation = some (.errc .cancelled) →
      s.BoundFired n) ∧
    (∀ dir generation, (s.nodes n).beginSyscall s.env dir generation =
      .error (.errc .cancelled) → s.BoundFired n)

/-- Nothing the cancellation check reads through a descriptor changed hands: the flags and the
recorded bindings are the same. -/
def SameBindings (s t : Slab) : Prop :=
  (∀ n, (t.nodes n).cancelFlag = (s.nodes n).cancelFlag) ∧ t.bound = s.bound

variable (s : Slab)

/-- Every node's flag is the one of the token bound to its current incarnation. -/
def FlagsBound (s : Slab) : Prop := ∀ n, (s.nodes n).cancelFlag = s.bound n

/-! ### Only `set_cancel` writes a cancellation flag -/

lemma SameBindings.refl : s.SameBindings s := ⟨fun _ => rfl, rfl⟩

lemma SameBindings.trans {s t u : Slab} (hst : s.SameBindings t) (htu : t.SameBindings u) : s.SameBindings u :=
  ⟨fun n => (htu.1 n).trans (hst.1 n), htu.2.trans hst.2⟩

lemma SameBindings.flagsBound {s t : Slab} (h : s.SameBindings t) (hs : s.FlagsBound) : t.FlagsBound := by
  intro n
  rw [h.1 n, h.2]
  exact hs n

variable (k : Nat)

lemma setSocket_same (socket : Socket) : s.SameBindings (s.setSocket k socket) := .refl s

variable (n : Nat)

lemma setNode_same (d : IoDesc Nat Nat)
    (hd : d.cancelFlag = (s.nodes n).cancelFlag) : s.SameBindings (s.setNode n d) := by
  refine ⟨fun m => ?_, rfl⟩
  by_cases hm : m = n
  · subst hm
    simp [setNode, hd]
  · simp [setNode, hm]

lemma releaseDesc_same : s.SameBindings (s.releaseDesc n) := by
  have hrefs := setNode_same s n { s.nodes n with refs := (s.nodes n).refs - 1 } rfl
  simp only [releaseDesc]
  split
  · exact hrefs.trans (setNode_same _ n _ rfl)
  · exact hrefs

lemma onCancel_same (h : Nat) : s.SameBindings (s.onCancel h) := by
  simp only [onCancel]
  split
  · exact setNode_same _ _ _ (by simp)
  · exact .refl s

lemma foldl_onCancel_same (hooks : List Nat) : s.SameBindings (hooks.foldl onCancel s) := by
  induction hooks generalizing s with
  | nil => exact .refl s
  | cons h rest ih => exact (onCancel_same s h).trans (ih _)

lemma retireBinding_same : s.SameBindings (s.retireBinding k) := by
  simp only [retireBinding]
  split
  · exact .refl s
  · split <;> exact .refl s

lemma addHook_same (k token n : Nat) (generation : UInt32) : s.SameBindings (s.addHook k token n generation) := by
  simp only [addHook]
  split
  · exact onCancel_same _ _
  · exact .refl s

lemma cancel_same (token : Nat) : s.SameBindings (s.cancel token) := by
  simp only [cancel]
  split
  · exact .refl s
  · exact foldl_onCancel_same _ _

lemma detach_same : s.SameBindings (s.detach n) :=
  (setNode_same s n (s.nodes n).detachFields (by simp)).trans (releaseDesc_same _ n)

lemma close_same : s.SameBindings (s.close k) := by
  refine (retireBinding_same s k).trans ?_
  simp only [close]
  split
  · exact .refl _
  · refine SameBindings.trans ?_ (detach_same _ _)
    exact (setSocket_same _ _ _).trans (setNode_same _ _ _ rfl)

lemma awaitSuspend_same (dir : Dir) (w : Nat) : s.SameBindings (s.awaitSuspend k dir w) := by
  simp only [awaitSuspend]
  split
  · exact .refl s
  · split
    · exact .refl s
    · exact setNode_same s _ _ (by simp)

lemma dropAwaiter_same (w : Nat) : s.SameBindings (s.dropAwaiter w) := by
  simp only [dropAwaiter]
  split
  · exact .refl s
  · exact releaseDesc_same s _

lemma dispatch_same (generation : UInt32) (dir : Dir) : s.SameBindings (s.dispatch n generation dir) := by
  simp only [dispatch]
  split
  · exact setNode_same s _ _ (by simp)
  · exact .refl s

lemma setCancel_flagsBound (token : Option Nat) (hs : s.FlagsBound) : (s.setCancel k token).FlagsBound := by
  have hretired := (retireBinding_same s k).flagsBound hs
  simp only [setCancel]
  split
  · exact hretired
  · rename_i n generation _
    have hpub : FlagsBound { (((s.retireBinding k).setSocket k
          { (s.retireBinding k).sockets k with cancelToken := token }).setNode n
          { (s.retireBinding k).nodes n with cancelFlag := token }) with
        bound := update (s.retireBinding k).bound n token } := by
      intro m
      by_cases hm : m = n
      · subst hm
        simp [setNode]
      · simpa [setNode, setSocket, hm] using hretired m
    cases token with
    | none => exact hpub
    | some token => exact (addHook_same _ k token n generation).flagsBound hpub

lemma allocDesc_frame {s t : Slab} {memory : Bool} {n : Nat}
    (h : s.allocDesc memory = some (n, t)) : t.nodes = s.nodes ∧ t.bound = s.bound := by
  simp only [allocDesc] at h
  split at h
  · cases h
    exact ⟨rfl, rfl⟩
  · split at h
    · cases h
      exact ⟨rfl, rfl⟩
    · cases h

lemma attach_flagsBound (fd : Int) (memory registered : Bool) (hs : s.FlagsBound)
    (hclean : ∀ n t, s.allocDesc memory = some (n, t) → (s.nodes n).cancelFlag = none) :
    (s.attach fd memory registered).2.FlagsBound := by
  simp only [attach]
  split
  · exact hs
  · split
    · exact hs
    · rename_i n t halloc
      obtain ⟨hnodes, hbound⟩ := allocDesc_frame halloc
      have hatt : FlagsBound { t.setNode n ((t.nodes n).attachFields fd) with
          bound := update t.bound n none } := by
        intro m
        by_cases hm : m = n
        · subst hm
          simpa [setNode, IoDesc.attachFields, hnodes] using hclean _ _ halloc
        · simpa [setNode, hm, hnodes, hbound] using hs m
      split
      · exact hatt
      · refine (releaseDesc_same _ n).flagsBound ?_
        exact SameBindings.flagsBound (setNode_same _ n _ rfl) hatt

lemma adopt_same (fd : Int) (memory registered : Bool) :
    (s.attach fd memory registered).2.SameBindings (s.adopt k fd memory registered) := by
  simp only [adopt]
  split <;> rename_i h <;> rw [h]
  · exact setSocket_same _ _ _
  · exact .refl _

lemma FlagsBound.cancelTruthful {s : Slab} (hs : s.FlagsBound) : s.CancelTruthful := by
  intro k n _
  have hcut : (s.nodes n).cancelled s.env.fired → s.BoundFired n := by
    intro h
    rw [cancelled, hs n] at h
    cases hbound : s.bound n with
    | none => simp [hbound] at h
    | some token => exact ⟨token, hbound, by simpa [hbound, env] using h⟩
  exact ⟨hcut, fun _ _ h => hcut (cancelled_of_ioError h), fun _ _ h => hcut (cancelled_of_beginSyscall h)⟩

/-- The node an `attach` is handed carries no flag of an earlier incarnation. -/
def AttachClean (s : Slab) : CancelAct → Prop
  | .adopt _ _ memory _ => ∀ n t, s.allocDesc memory = some (n, t) → (s.nodes n).cancelFlag = none
  | _ => True

lemma cancelStep_flagsBound (a : CancelAct) (t : Slab) (hs : s.FlagsBound)
    (hclean : s.AttachClean a) (hst : cancelStep s a = some t) : t.FlagsBound := by
  cases a with simp only [cancelStep] at hst
  | adopt k fd memory registered =>
    split at hst
    · cases hst
      exact (adopt_same s k fd memory registered).flagsBound (attach_flagsBound s fd memory registered hs hclean)
    · cases hst
  | setCancel k token =>
    cases hst
    exact setCancel_flagsBound s k token hs
  | cancel token =>
    cases hst
    exact (cancel_same s token).flagsBound hs
  | close k =>
    cases hst
    exact (close_same s k).flagsBound hs
  | awaitSuspend k dir w =>
    split at hst
    · cases hst
      exact (awaitSuspend_same s k dir w).flagsBound hs
    · cases hst
  | dropAwaiter w =>
    split at hst
    · cases hst
    · split at hst
      · cases hst
      · cases hst
        exact (dropAwaiter_same s w).flagsBound hs
  | dispatch n generation dir =>
    cases hst
    exact (dispatch_same s n generation dir).flagsBound hs
  | tick =>
    split at hst
    · cases hst
      exact hs
    · cases hst
  | stop =>
    cases hst
    exact hs

/-! ### A stale flag is inherited -/

lemma foldl_onCancel_frame (hooks : List Nat) :
    (hooks.foldl onCancel s).sockets = s.sockets ∧ (hooks.foldl onCancel s).tokens = s.tokens := by
  induction hooks generalizing s with
  | nil => exact ⟨rfl, rfl⟩
  | cons h rest ih =>
    have hhead : (s.onCancel h).sockets = s.sockets ∧ (s.onCancel h).tokens = s.tokens := by
      simp only [onCancel]
      split <;> exact ⟨rfl, rfl⟩
    exact ⟨(ih _).1.trans hhead.1, (ih _).2.trans hhead.2⟩

lemma cancel_sockets (token : Nat) : (s.cancel token).sockets = s.sockets := by
  simp only [cancel]
  split
  · rfl
  · exact (foldl_onCancel_frame _ _).1

lemma cancel_cancelled (token : Nat) : ((s.cancel token).tokens token).cancelled = true := by
  simp only [cancel]
  split
  · assumption
  · rw [(foldl_onCancel_frame _ _).2]
    simp [setToken]

/-- An open socket whose node has a flag but no binding reports the cancellation of a token that was
never bound to it. -/
lemma not_truthful_of_stale {s : Slab} {k n token : Nat} (hdesc : (s.sockets k).desc = some n)
    (hflag : (s.nodes n).cancelFlag = some token) (hbound : s.bound n = none) : ¬(s.cancel token).CancelTruthful := by
  intro htrue
  have hsame := cancel_same s token
  obtain ⟨hcut, -⟩ := htrue k n (by rw [cancel_sockets, hdesc])
  obtain ⟨other, hother, -⟩ := hcut (by
    rw [cancelled, hsame.1 n, hflag]
    exact cancel_cancelled s token)
  rw [hsame.2, hbound] at hother
  cases hother

lemma adopt_inherits {s t : Slab} {n : Nat} {memory : Bool} (fd : Int)
    (hstop : s.stopping = false) (halloc : s.allocDesc memory = some (n, t)) :
    ((s.adopt k fd memory true).sockets k).desc = some n ∧
      ((s.adopt k fd memory true).nodes n).cancelFlag = (s.nodes n).cancelFlag ∧
      (s.adopt k fd memory true).bound n = none := by
  have hnodes := (allocDesc_frame halloc).1
  simp [adopt, attach, hstop, halloc, setSocket, setNode, IoDesc.attachFields, hnodes]

end Slab

open Slab

/-- In every run whose attaches are all handed a node without a flag, cancellation is reported only
for a token bound to the same incarnation; and whenever an attach is handed a node that still has a
flag, cancelling one token makes the new socket report a cancellation it was never bound to. -/
theorem cancel_truthful_of_attach_clean (s : Slab) : (cancelSystem.ReachableVia AttachClean s → s.CancelTruthful) ∧
      ∀ k fd memory t, s.stopping = false → cancelStep s (.adopt k fd memory true) = some t →
        ¬s.AttachClean (.adopt k fd memory true) → ∃ token, ¬(t.cancel token).CancelTruthful := by
  constructor
  · intro hs
    refine FlagsBound.cancelTruthful (System.ReachableVia.invariant ?_ cancelStep_flagsBound hs)
    rintro _ rfl n
    rfl
  · intro k fd memory t hstop hstep hclean
    simp only [AttachClean, not_forall] at hclean
    obtain ⟨n, s', halloc, hflag⟩ := hclean
    obtain ⟨token, htoken⟩ := Option.ne_none_iff_exists'.mp hflag
    simp only [cancelStep] at hstep
    split at hstep
    · cases hstep
      obtain ⟨hdesc, hinherited, hbound⟩ := adopt_inherits k fd hstop halloc
      exact ⟨token, not_truthful_of_stale hdesc (hinherited.trans htoken) hbound⟩
    · cases hstep

theorem cancel_truthful_bound_socket :
    ∃ s, cancelSystem.ReachableVia AttachClean s ∧ (s.nodes 0).cancelled s.env.fired = true ∧
      s.BoundFired 0 := by
  have hstart : cancelSystem.ReachableVia AttachClean {} := .start rfl
  have hadopt := hstart.next (a := CancelAct.adopt 0 3 true true) (fun _ _ _ => rfl) rfl
  have hbind := hadopt.next (a := CancelAct.setCancel 0 (some 7)) trivial rfl
  have hreach := hbind.next (a := CancelAct.cancel 7) trivial rfl
  exact ⟨_, hreach, rfl, ((cancel_truthful_of_attach_clean _).1 hreach 0 0 rfl).1 rfl⟩

/-- Socket 0 is bound to a token, the token fires, the socket closes; socket 1 reuses the node and is
cancelled although nothing was ever bound to it. -/
theorem cancel_leaks_through_recycled_node : ¬∀ s, cancelSystem.Reachable s → s.CancelTruthful := by
  intro hall
  obtain ⟨s, hs, hdesc, hcut, hbound⟩ := cancelSystem.reachable_of_run {}
    [.adopt 0 3 true true, .setCancel 0 (some 7), .cancel 7, .close 0, .adopt 1 3 true true]
    (fun s => (s.sockets 1).desc = some 0 ∧ (s.nodes 0).cancelled s.env.fired = true ∧ s.bound 0 = none) rfl
    (by decide)
  obtain ⟨token, htoken, -⟩ := (hall s hs 1 0 hdesc).1 hcut
  rw [hbound] at htoken
  cases htoken

end Cio.Reactor
