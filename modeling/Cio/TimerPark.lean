import Cio.TransitionSystem
import Cio.CallPool

/-! A worker that parks while timers are armed on its shard. `TimerService::arm` runs on any number of foreign threads
and on the worker itself, other threads claim the idle bit and wake, shut down, or poll the reactor of the shard without
blocking, and the clock advances between any two steps. The timer heap is the list of its deadlines: its root is a least
one, and a new timer becomes the root only below all others. A time of `INT64_MAX` is `none`. -/

namespace Cio.TimerPark

open CallPool Transition List

/-! ### The model -/

inductive Pc where
  /-- `TimerService::arm`: the heap insert, and the store of `earliest` with the lock of the shard still held. -/
  | insert (d : Int)
  | publish (d : Int) (nowEarliest : Bool)
  /-- `Scheduler::nudge_poller`, and `Reactor::nudge` with its two loads. -/
  | claim (d : Int)
  | nudge (d : Int)
  | compare (d : Int)
  /-- `wake_worker` and the other calls that claim the idle bit. -/
  | notify
  /-- `Reactor::wake`. -/
  | exchange
  | write
  /-- `poll(0)` on another thread. -/
  | tryPoll
  | publishPoll
  | resetPoll
  | leavePoll
  | done
  deriving DecidableEq

/-- The next access of the worker. A poll carries whether it is that of `park`, the deadline that its timeout was taken
from, and the time it was taken at. -/
inductive Owner where
  | active
  | calling
  | check
  | load
  | clock (deadline : Option Int)
  | poll (parked : Bool) (deadline : Option Int) (taken : Int)
  | publish (parked : Bool) (deadline : Option Int) (taken : Int)
  | enter (parked : Bool) (deadline : Option Int) (taken : Int)
  | blocked (parked : Bool) (deadline : Option Int) (taken started : Int)
  | returned (parked sawWake : Bool)
  | reset (parked sawWake : Bool)
  | drain (parked : Bool)
  | clearPending (parked : Bool)
  | release (parked : Bool)
  | leave
  deriving DecidableEq

/-- The shard, the reactor and the idle bit of the worker. The worker's own call is kept apart from those of the others;
`pwait2` tells whether the kernel has `epoll_pwait2`. -/
structure State where
  heap : List Int
  earliest : Option Int
  locked : Bool
  idle : Bool
  polling : Bool
  pollerDeadline : Option Int
  wakePending : Bool
  token : Bool
  owner : Owner
  ownCall : Pc
  calls : List Pc
  now : Int
  pwait2 : Bool

inductive Act where
  | arm (d : Int)
  | armOwn (d : Int)
  | remove (d : Int)
  | notify
  | wake
  | pollElsewhere
  | call (i : Nat)
  | park
  | pollNow
  | owner (found : Bool)
  | tick

def notAfter : Option Int → Int → Bool
  | none, _ => false
  | some d, t => decide (d ≤ t)

/-- `TimerService::next_timeout_ns`, with `none` for a timeout of -1. -/
def nextTimeout (deadline : Option Int) (now : Int) : Option Int :=
  deadline.map fun d => if 0 < d - now then d - now else 0

def intMax : Int := 2147483647

/-- How long `wait_for_events` lets the kernel wait. -/
def waitLength (pwait2 : Bool) (timeout : Int) : Int :=
  if pwait2 then timeout else min ((timeout + 999999) / 1000000) intMax * 1000000

def pollTimeout (parked : Bool) (deadline : Option Int) (taken : Int) : Option Int :=
  if parked then nextTimeout deadline taken else some 0

namespace State

def start (now : Int) (pwait2 : Bool) : State where
  heap := []
  earliest := none
  locked := false
  idle := false
  polling := false
  pollerDeadline := none
  wakePending := false
  token := false
  owner := .active
  ownCall := .done
  calls := []
  now := now
  pwait2 := pwait2

def all (s : State) : List Pc := s.ownCall :: s.calls

def put (s : State) (i : Nat) (c : Pc) : State :=
  { s with
    ownCall := if i = 0 then c else s.ownCall
    calls := if i = 0 then s.calls else s.calls.set (i - 1) c }

def callStep (s : State) (own : Bool) : Pc → Option (State × Pc)
  | .insert d =>
    if s.locked then none
    else some ({ s with heap := d :: s.heap, locked := true }, .publish d (s.heap.all (d < ·)))
  | .publish d nowEarliest =>
    some ({ s with earliest := if nowEarliest then some d else s.earliest, locked := false },
      if nowEarliest then if own then .nudge d else .claim d else .done)
  | .claim d => some (if s.idle then ({ s with idle := false }, .exchange) else (s, .nudge d))
  | .nudge d => some (s, if s.polling then .compare d else .done)
  | .compare d => some (s, if notAfter s.pollerDeadline d then .done else .exchange)
  | .notify => some (if s.idle then ({ s with idle := false }, .exchange) else (s, .done))
  | .exchange => some ({ s with wakePending := true }, if s.wakePending then .done else .write)
  | .write => some ({ s with token := true }, .done)
  | .tryPoll => some (if s.polling then (s, .done) else ({ s with polling := true }, .publishPoll))
  | .publishPoll => some ({ s with pollerDeadline := some s.now }, .resetPoll)
  | .resetPoll => some ({ s with pollerDeadline := none }, .leavePoll)
  | .leavePoll => some ({ s with polling := false }, .done)
  | .done => none

/-- The next access of the worker. `found` is what the checks outside this model find, and whether a wait that ends
reports the wake; a wait may end at any time. -/
def ownerStep (s : State) (found : Bool) : Option State :=
  match s.owner with
  | .active => none
  | .calling => if s.ownCall = .done then some { s with owner := .active } else none
  | .check =>
    some { s with owner := if found || notAfter s.earliest s.now then .leave else .load }
  | .load => some { s with owner := .clock s.earliest }
  | .clock deadline => some { s with owner := .poll true deadline s.now }
  | .poll parked deadline taken =>
    if s.polling then some { s with owner := if parked then .leave else .active }
    else some { s with polling := true, owner := .publish parked deadline taken }
  | .publish parked deadline taken =>
    some
      { s with
        pollerDeadline := (pollTimeout parked deadline taken).map (s.now + ·)
        owner := .enter parked deadline taken }
  | .enter parked deadline taken => some { s with owner := .blocked parked deadline taken s.now }
  | .blocked parked _ _ _ => if found && !s.token then none else some { s with owner := .returned parked found }
  -- `poller_returned` clears the idle bit of the owner of the shard
  | .returned parked sawWake => some { s with idle := false, owner := .reset parked sawWake }
  | .reset parked sawWake =>
    some { s with pollerDeadline := none, owner := if sawWake then .drain parked else .release parked }
  | .drain parked =>
    some (if s.token then { s with token := false } else { s with owner := .clearPending parked })
  | .clearPending parked => some { s with wakePending := false, owner := .release parked }
  | .release parked => some { s with polling := false, owner := if parked then .leave else .active }
  | .leave => some { s with idle := false, owner := .active }

def step (s : State) : Act → Option State
  | .arm d => some { s with calls := s.calls ++ [.insert d] }
  | .armOwn d => if s.owner = .active then some { s with owner := .calling, ownCall := .insert d } else none
  -- `disarm` and `run_expired`, which publish anew if the root is gone
  | .remove d =>
    if s.locked = false ∧ d ∈ s.heap then
      some
        { s with
          heap := s.heap.erase d
          earliest := if s.earliest = some d then (s.heap.erase d).min? else s.earliest }
    else none
  | .notify => some { s with calls := s.calls ++ [.notify] }
  -- `shutdown` wakes without a claim
  | .wake => some { s with calls := s.calls ++ [.exchange] }
  | .pollElsewhere => some { s with calls := s.calls ++ [.tryPoll] }
  | .call i =>
    match s.all[i]? with
    | some c => (s.callStep (i == 0) c).map fun r => r.1.put i r.2
    | none => none
  | .park => if s.owner = .active then some { s with idle := true, owner := .check } else none
  | .pollNow => if s.owner = .active then some { s with owner := .poll false none s.now } else none
  | .owner found => s.ownerStep found
  | .tick => some { s with now := s.now + 1 }

end State

def parkSystem : System State Act where
  init s := ∃ now pwait2, s = .start now pwait2
  step := State.step

/-! ### The property -/

/-- The worker waits in the kernel: the time of the wait is not over. -/
def State.Waits (s : State) (deadline : Option Int) (taken started : Int) : Prop :=
  s.owner = .blocked true deadline taken started ∧
    ∀ timeout ∈ nextTimeout deadline taken, s.now < started + waitLength s.pwait2 timeout

instance (s : State) (deadline : Option Int) (taken started : Int) : Decidable (s.Waits deadline taken started) :=
  inferInstanceAs (Decidable (_ ∧ _))

/-- The call is between the heap insert of a new earliest deadline and its claim of the idle bit, between such a claim
and the end of its wake, or in a wake. -/
def Pc.rescuing : Pc → Nat
  | .publish _ true | .claim _ | .exchange | .write => 1
  | _ => 0

/-- The milliseconds of `epoll_wait`, rounded up. -/
def slack (pwait2 : Bool) : Int := if pwait2 then 0 else 999999

/-- A worker that waits with no wake pending or on its way is late for an armed deadline by no more than the time that
passed between the computation of its timeout and the start of its wait, up to the rounding. -/
def Punctual (s : State) : Prop :=
  ∀ deadline taken started, s.Waits deadline taken started → s.token = false → (∀ c ∈ s.calls, c.rescuing = 0) →
    ∀ d ∈ s.heap, s.now < d + (started - taken) + slack s.pwait2

/-! ### What is kept -/

namespace Pc

def publishing : Pc → Nat
  | .publish _ _ => 1
  | _ => 0

def lowering : Pc → Nat
  | .publish _ true => 1
  | _ => 0

def waking : Pc → Nat
  | .exchange | .write => 1
  | _ => 0

def writing : Pc → Nat
  | .write => 1
  | _ => 0

def Lowest (heap : List Int) : Pc → Prop
  | .publish d true => ∀ x ∈ heap, d ≤ x
  | _ => True

lemma writing_le_waking (c : Pc) : c.writing ≤ c.waking := by
  cases c <;> first | exact le_rfl | exact Nat.zero_le _

lemma waking_le_rescuing (c : Pc) : c.waking ≤ c.rescuing := by
  cases c <;> first | exact le_rfl | exact Nat.zero_le _

lemma lowering_le_publishing (c : Pc) : c.lowering ≤ c.publishing := by
  cases c with
  | publish _ b =>
    cases b with
    | true => exact le_rfl
    | false => exact Nat.zero_le _
  | _ => exact le_rfl

lemma lowering_le_rescuing (c : Pc) : c.lowering ≤ c.rescuing := by
  cases c with
  | publish _ b => cases b <;> exact le_rfl
  | _ => exact Nat.zero_le _

end Pc

namespace Owner

def parked : Owner → Bool
  | .check | .load | .clock _ => true
  | .poll b _ _ | .publish b _ _ | .enter b _ _ | .blocked b _ _ _ => b
  | _ => false

def snapshot : Owner → Option (Option Int)
  | .clock deadline => some deadline
  | .poll true deadline _ | .publish true deadline _ | .enter true deadline _ => some deadline
  | .blocked true deadline _ _ => some deadline
  | _ => none

def draining : Owner → Bool
  | .drain _ | .clearPending _ => true
  | _ => false

def waiting : Owner → Bool
  | .blocked _ _ _ _ => true
  | _ => false

lemma parked_of_snapshot {o : Owner} {deadline : Option Int} (h : o.snapshot = some deadline) : o.parked = true := by
  cases o with
  | poll b | publish b | enter b | blocked b =>
    cases b with
    | true => rfl
    | false => cases h
  | clock => rfl
  | _ => cases h

lemma not_draining_of_parked {o : Owner} (h : o.parked) : o.draining = false := by
  cases o <;> first | rfl | cases h

end Owner

def Below (deadline : Option Int) (x : Int) : Prop := ∃ d ∈ deadline, d ≤ x

/-- A deadline that the worker does not know has a wake under way. -/
structure Kept (s : State) : Prop where
  own : s.owner ≠ .calling → s.ownCall = .done
  mutex : weight Pc.publishing s.all = if s.locked then 1 else 0
  lowest : ∀ c ∈ s.all, c.Lowest s.heap
  low : (∀ x ∈ s.heap, Below s.earliest x) ∨ 0 < weight Pc.lowering s.all
  pending : s.wakePending = true → s.token = true ∨ 0 < weight Pc.writing s.all ∨ s.owner.draining = true
  claimed : s.owner.parked = true → s.idle = false → s.token = true ∨ 0 < weight Pc.waking s.all
  sleep : ∀ deadline, s.owner.snapshot = some deadline → ∀ x ∈ s.heap,
    Below deadline x ∨ s.token = true ∨ 0 < weight Pc.rescuing s.all
  started : ∀ parked deadline taken started, s.owner = .blocked parked deadline taken started → started ≤ s.now

variable {s u v : State} {i : Nat} {c d : Pc}

/-! ### Steps of a call -/

lemma put_all (s : State) (i : Nat) (c : Pc) : (s.put i c).all = s.all.set i c := by
  cases i with
  | zero => rfl
  | succ => rfl

/-- A call that holds no lock turns from `c` to `d` and leaves the shard as it is. -/
structure Signals (s v : State) (c d : Pc) : Prop where
  heap : v.heap = s.heap := by rfl
  earliest : v.earliest = s.earliest := by rfl
  locked : v.locked = s.locked := by rfl
  owner : v.owner = s.owner := by rfl
  ownCall : v.ownCall = s.ownCall := by rfl
  calls : v.calls = s.calls := by rfl
  now : v.now = s.now := by rfl
  started : c ≠ .done := by exact nofun
  publishing : d.publishing = c.publishing := by rfl
  lowering : d.lowering = c.lowering := by rfl
  lowest : ∀ l, d.Lowest l := by exact fun _ => trivial

lemma Signals.all (hv : Signals s v c d) : v.all = s.all := by
  rw [State.all, State.all, hv.ownCall, hv.calls]

section

variable (h : Kept s) (hi : s.all[i]? = some c)
include h hi

lemma Kept.ownCall_put (hc : c ≠ .done) (howner : v.owner = s.owner)
    (hown : v.ownCall = s.ownCall) (hu : (v.put i d).owner ≠ .calling) : (v.put i d).ownCall = .done := by
  have hdone := h.own (howner ▸ hu)
  cases i with
  | zero =>
    cases hi
    exact absurd hdone hc
  | succ => exact hown.trans hdone

lemma Kept.pending_set (hset : s.wakePending) (hle : c.writing ≤ d.writing := by exact Nat.zero_le _) :
    s.token ∨ 0 < weight Pc.writing (s.all.set i d) ∨ s.owner.draining = true :=
  (h.pending hset).imp_right (Or.imp_left fun hpos => hpos.trans_le (weight_le_set hi hle))

lemma Kept.claimed_set (hpark : s.owner.parked) (hidle : s.idle = false)
    (hle : c.waking ≤ d.waking := by exact Nat.zero_le _) : s.token ∨ 0 < weight Pc.waking (s.all.set i d) :=
  (h.claimed hpark hidle).imp_right fun hpos => hpos.trans_le (weight_le_set hi hle)

lemma Kept.signal (hv : Signals s v c d) (hpend : v.wakePending →
      v.token ∨ 0 < weight Pc.writing (s.all.set i d) ∨ s.owner.draining)
    (hclaim : s.owner.parked → v.idle = false →
      v.token ∨ 0 < weight Pc.waking (s.all.set i d))
    (hrescued : s.owner.parked → s.token ∨ 0 < weight Pc.rescuing s.all →
      v.token ∨ 0 < weight Pc.rescuing (s.all.set i d)) : Kept (v.put i d) := by
  have hall : (v.put i d).all = s.all.set i d := by rw [put_all, hv.all]
  obtain ⟨hheap, hmin, hlock, howner, hown, -, hnow, hstart, hpub, hlowering, hlow⟩ := hv
  obtain ⟨heap, earliest, locked, _, _, _, _, _, owner, ownCall, calls, now, _⟩ := v
  subst hheap hmin hlock howner hnow
  have hset := weight_set Pc.publishing hi d
  refine ⟨h.ownCall_put hi hstart rfl hown, ?_, ?_, ?_, ?_, ?_, ?_, h.started⟩
  all_goals rw [hall]
  · exact (show _ = weight Pc.publishing s.all by omega).trans h.mutex
  · exact forall_set h.lowest (hlow _) i
  · exact h.low.imp_right fun hpos => hpos.trans_le (weight_le_set hi hlowering.ge)
  · exact hpend
  · exact hclaim
  · intro deadline hsnap x hx
    exact (h.sleep deadline hsnap x hx).imp_right (hrescued (Owner.parked_of_snapshot hsnap))

lemma Kept.quiet (hv : Signals s v c d) (hwrite : c.writing ≤ d.writing := by exact Nat.zero_le _)
    (hwake : c.waking ≤ d.waking := by exact Nat.zero_le _)
    (hrescuing : c.rescuing ≤ d.rescuing := by exact Nat.zero_le _) (hpend : v.wakePending = s.wakePending := by rfl)
    (htoken : v.token = s.token := by rfl) (hidle : v.idle = s.idle := by rfl) : Kept (v.put i d) := by
  refine h.signal hi hv ?_ ?_ ?_
  · rw [hpend, htoken]
    exact fun hset => h.pending_set hi hset hwrite
  · rw [hidle, htoken]
    exact fun hpark hclear => h.claimed_set hi hpark hclear hwake
  · rw [htoken]
    exact fun _ => Or.imp_right fun hpos => hpos.trans_le (weight_le_set hi hrescuing)

lemma Kept.claims (hv : Signals s v c .exchange)
    (hrescuing : c.rescuing ≤ 1) (hwrite : c.writing = 0 := by rfl) (hwake : c.waking = 0 := by rfl)
    (hpend : v.wakePending = s.wakePending := by rfl) (htoken : v.token = s.token := by rfl) :
    Kept (v.put i .exchange) := by
  refine h.signal hi hv ?_ ?_ ?_
  · rw [hpend, htoken]
    exact fun hset => h.pending_set hi hset hwrite.le
  · refine fun _ _ => .inr ?_
    have hset : _ = _ + 1 := weight_set Pc.waking hi .exchange
    omega
  · rw [htoken]
    exact fun _ => Or.imp_right fun hpos => hpos.trans_le (weight_le_set hi hrescuing)

end

variable {x : Int}

lemma Below.mono {deadline : Option Int} {y : Int} (h : Below deadline x) (hle : x ≤ y) : Below deadline y := by
  obtain ⟨d, hd, hdx⟩ := h
  exact ⟨d, hd, hdx.trans hle⟩

lemma exists_le_of_not_all {l : List Int} (h : ¬ l.all (x < ·)) : ∃ y ∈ l, y ≤ x := by
  by_contra hnone
  push Not at hnone
  exact h (all_eq_true.mpr fun y hy => decide_eq_true (hnone y hy))

lemma Kept.below (h : Kept s) (hfree : s.locked = false) : ∀ y ∈ s.heap, Below s.earliest y := by
  refine h.low.resolve_right fun hpos => ?_
  have hle := weight_mono Pc.lowering_le_publishing s.all
  have hmutex := h.mutex
  rw [if_neg (Bool.eq_false_iff.mp hfree)] at hmutex
  omega

lemma kept_insert (h : Kept s) (hi : s.all[i]? = some (.insert x)) (hfree : s.locked = false) :
    Kept ({ s with heap := x :: s.heap, locked := true }.put i (.publish x (s.heap.all (x < ·)))) := by
  have hall : (State.put { s with heap := x :: s.heap, locked := true } i (.publish x (s.heap.all (x < ·)))).all =
      s.all.set i (.publish x (s.heap.all (x < ·))) := put_all _ i _
  have hnone : weight Pc.publishing s.all = 0 := by rw [h.mutex, if_neg (Bool.eq_false_iff.mp hfree)]
  refine ⟨h.ownCall_put hi nofun rfl rfl, ?_, ?_, ?_, fun hset => ?_, fun hpark hidle => ?_,
    fun deadline hsnap y hy => ?_, h.started⟩
  all_goals rw [hall]
  · have hset : _ + 0 = _ + 1 := weight_set Pc.publishing hi (.publish x (s.heap.all (x < ·)))
    exact hset.trans (by rw [hnone]; rfl)
  · refine forall_set (fun c hc => ?_) ?_ i
    · -- nobody else holds the lock
      have hzero : c.publishing = 0 := Nat.le_zero.mp (hnone ▸ le_weight Pc.publishing hc)
      cases c with
      | publish => cases hzero
      | _ => trivial
    · rcases hmin : s.heap.all (x < ·) with _ | _
      · trivial
      · intro y hy
        rcases mem_cons.mp hy with rfl | hy
        · exact le_rfl
        · exact (of_decide_eq_true (all_eq_true.mp hmin y hy)).le
  · by_cases hmin : s.heap.all (x < ·)
    · refine .inr ?_
      rw [hmin]
      have hset : weight Pc.lowering (s.all.set i (.publish x true)) = weight Pc.lowering s.all + 1 :=
        weight_set Pc.lowering hi (.publish x true)
      omega
    · left
      obtain ⟨y, hy, hyx⟩ := exists_le_of_not_all hmin
      intro z hz
      rcases mem_cons.mp hz with rfl | hz
      · exact (h.below hfree y hy).mono hyx
      · exact h.below hfree z hz
  · exact h.pending_set hi hset
  · exact h.claimed_set hi hpark hidle
  · have hold : ∀ z ∈ s.heap, Below deadline z ∨ s.token ∨
        0 < weight Pc.rescuing (s.all.set i (.publish x (s.heap.all (x < ·)))) := fun z hz =>
      (h.sleep deadline hsnap z hz).imp_right (Or.imp_right fun hpos =>
        hpos.trans_le (weight_le_set hi (Nat.zero_le _)))
    rcases mem_cons.mp hy with rfl | hy
    · by_cases hmin : s.heap.all (y < ·)
      · refine .inr (.inr ?_)
        rw [hmin]
        have hset : weight Pc.rescuing (s.all.set i (.publish y true)) = weight Pc.rescuing s.all + 1 :=
          weight_set Pc.rescuing hi (.publish y true)
        omega
      · obtain ⟨z, hz, hzy⟩ := exists_le_of_not_all hmin
        exact (hold z hz).imp_left fun hbelow => hbelow.mono hzy
    · exact hold y hy

lemma kept_publish {b own : Bool} (h : Kept s) (hi : s.all[i]? = some (.publish x b))
    (hown : own → s.owner = .calling) :
    Kept ({ s with earliest := if b then some x else s.earliest, locked := false }.put i
      (if b then if own then .nudge x else .claim x else .done)) := by
  obtain ⟨d, hd⟩ : ∃ d : Pc, d = if b then if own then .nudge x else .claim x else .done := ⟨_, rfl⟩
  have hzero : d.publishing = 0 ∧ ∀ l, d.Lowest l := by
    rw [hd]
    cases b <;> cases own <;> exact ⟨rfl, fun _ => trivial⟩
  obtain ⟨hpub, hlow⟩ := hzero
  rw [← hd]
  have hall : (State.put { s with earliest := if b then some x else s.earliest, locked := false } i d).all =
      s.all.set i d := put_all _ i d
  refine ⟨h.ownCall_put hi nofun rfl rfl, ?_, ?_, ?_, fun hset => ?_, fun hpark hidle => ?_,
    fun deadline hsnap y hy => ?_, h.started⟩
  all_goals rw [hall]
  · show weight Pc.publishing (s.all.set i d) = 0
    have hset : _ + 1 = _ + d.publishing := weight_set Pc.publishing hi d
    have hmutex := h.mutex
    split at hmutex <;> omega
  · exact forall_set h.lowest (hlow _) i
  · cases b with
    | true => exact .inl fun y hy => ⟨x, rfl, h.lowest _ (mem_of_getElem? hi) y hy⟩
    | false => exact h.low.imp_right fun hpos => hpos.trans_le (weight_le_set hi (Nat.zero_le _))
  · exact h.pending_set hi hset
  · exact h.claimed_set hi hpark hidle
  · refine (h.sleep deadline hsnap y hy).imp_right (Or.imp_right fun hpos => ?_)
    have hfor : own = false := by
      -- a worker that arms a timer has not parked
      by_contra hself
      rw [Bool.not_eq_false] at hself
      replace hsnap : s.owner.snapshot = some deadline := hsnap
      rw [hown hself] at hsnap
      cases hsnap
    refine hpos.trans_le (weight_le_set hi ?_)
    rw [hd, hfor]
    cases b <;> exact le_rfl

lemma kept_callStep {own : Bool} {r : State × Pc} (h : Kept s) (hi : s.all[i]? = some c)
    (hown : own → s.owner = .calling) (hr : s.callStep own c = some r) : Kept (r.1.put i r.2) := by
  cases c with
  | insert =>
    obtain ⟨hguard, rfl⟩ := of_unless hr
    exact kept_insert h hi (Bool.eq_false_iff.mpr hguard)
  | publish =>
    cases hr
    exact kept_publish h hi hown
  | claim x =>
    cases hr
    split
    · exact h.claims hi {} le_rfl
    · rename_i hbusy
      -- whoever took the bit is about to wake or has done so
      refine h.signal hi {} (fun hset => h.pending_set hi hset)
        (fun hpark hclear => h.claimed_set hi hpark hclear) fun hpark _ => ?_
      exact (h.claimed_set hi hpark (Bool.eq_false_iff.mpr hbusy)).imp_right fun hpos =>
        hpos.trans_le (weight_mono Pc.waking_le_rescuing _)
  | nudge | compare | tryPoll =>
    cases hr
    split <;> exact h.quiet hi {}
  | notify =>
    cases hr
    split
    · exact h.claims hi {} (Nat.zero_le _)
    · exact h.quiet hi {}
  | exchange =>
    cases hr
    split
    · rename_i hset
      -- the wake that set the flag has not written its token yet, or the token is still there
      have hle := weight_mono Pc.writing_le_waking (s.all.set i .done)
      have hpos : s.owner.parked → s.token ∨ 0 < weight Pc.waking (s.all.set i .done) := by
        intro hpark
        have hdraining := Owner.not_draining_of_parked hpark
        rcases h.pending_set hi hset with htoken | hpos | hdrain
        · exact .inl htoken
        · exact .inr (hpos.trans_le hle)
        · rw [hdraining] at hdrain
          cases hdrain
      refine h.signal hi {} (fun _ => h.pending_set hi hset) (fun hpark _ => hpos hpark) fun hpark _ => ?_
      exact (hpos hpark).imp_right fun hpos => hpos.trans_le (weight_mono Pc.waking_le_rescuing _)
    · show Kept (State.put { s with wakePending := true } i .write)
      have hwrite : weight Pc.writing (s.all.set i .write) = weight Pc.writing s.all + 1 :=
        weight_set Pc.writing hi .write
      have hle := weight_mono Pc.writing_le_waking (s.all.set i .write)
      have hle' := weight_mono Pc.waking_le_rescuing (s.all.set i .write)
      exact h.signal hi {} (fun _ => .inr (.inl (by omega))) (fun _ _ => .inr (by omega)) fun _ _ => .inr (by omega)
  | write =>
    cases hr
    exact h.signal hi {} (fun _ => .inl rfl) (fun _ _ => .inl rfl) fun _ _ => .inl rfl
  | publishPoll | resetPoll | leavePoll =>
    cases hr
    exact h.quiet hi {}
  | done => cases hr

/-! ### Steps of the worker -/

lemma Kept.away (h : Kept s) {o : Owner} {idle polling : Bool} {deadline : Option Int}
    (hdraining : s.owner.draining → o.draining)
    (hdone : s.ownCall = .done := by exact Kept.own ‹_› nofun) (hpark : o.parked = false := by rfl)
    (hwaiting : o.waiting = false := by rfl) :
    Kept { s with owner := o, idle := idle, polling := polling, pollerDeadline := deadline } := by
  refine ⟨fun _ => hdone, h.mutex, h.lowest, h.low, fun hset => ?_, fun hp => ?_, fun deadline hsnap => ?_, ?_⟩
  · exact (h.pending hset).imp_right (Or.imp_right hdraining)
  · exact absurd hp (Bool.eq_false_iff.mp hpark)
  · exact absurd (Owner.parked_of_snapshot hsnap) (Bool.eq_false_iff.mp hpark)
  · rintro _ _ _ _ rfl
    cases hwaiting

lemma Kept.stay (h : Kept s) {o : Owner} {polling : Bool} {deadline : Option Int}
    (hsnap : o.snapshot = s.owner.snapshot)
    (hstart : ∀ parked deadline taken started, o = .blocked parked deadline taken started → started = s.now)
    (hdone : s.ownCall = .done := by exact Kept.own ‹_› nofun) (hpark : o.parked = s.owner.parked := by rfl)
    (hdraining : o.draining = s.owner.draining := by rfl) :
    Kept { s with owner := o, polling := polling, pollerDeadline := deadline } := by
  refine ⟨fun _ => hdone, h.mutex, h.lowest, h.low, ?_, ?_, ?_, fun _ _ _ _ hb => (hstart _ _ _ _ hb).le⟩
  · rw [hdraining]
    exact h.pending
  · rw [hpark]
    exact h.claimed
  · rw [hsnap]
    exact h.sleep

/-- The deadline is taken after the idle bit has been published: what is armed later finds the bit. -/
lemma kept_load (h : Kept s) (hdone : s.ownCall = .done) (howner : s.owner = .load) :
    Kept { s with owner := .clock s.earliest } := by
  have hpark : s.owner.parked = true := by rw [howner]; rfl
  have hdraining := Owner.not_draining_of_parked hpark
  refine ⟨fun _ => hdone, h.mutex, h.lowest, h.low, fun hset => ?_, fun _ => h.claimed hpark,
    fun deadline hsnap x hx => ?_, nofun⟩
  · refine (h.pending hset).imp_right (Or.imp_right fun hdrain => ?_)
    rw [hdraining] at hdrain
    cases hdrain
  · obtain rfl : s.earliest = deadline := Option.some.inj hsnap
    refine h.low.imp (fun hbelow => hbelow x hx) fun hpos => .inr ?_
    exact hpos.trans_le (weight_mono Pc.lowering_le_rescuing s.all)

lemma kept_ownerStep {found : Bool} (h : Kept s) (hu : s.ownerStep found = some u) : Kept u := by
  obtain ⟨heap, earliest, locked, idle, polling, pollerDeadline, wakePending, token, owner, ownCall, calls, now,
    pwait2⟩ := s
  cases owner with
  | active => cases hu
  | calling =>
    obtain ⟨hdone, hu⟩ := Option.ite_none_right_eq_some.mp hu
    cases hu
    exact h.away id hdone
  | check =>
    cases hu
    split
    · exact h.away id
    · exact h.stay rfl nofun
  | load =>
    cases hu
    exact kept_load h (h.own nofun) rfl
  | clock =>
    cases hu
    exact h.stay rfl nofun
  | poll parked =>
    rw [State.ownerStep] at hu
    dsimp only at hu
    split at hu <;> cases hu
    · cases parked <;> exact h.away id
    · exact h.stay (by cases parked <;> rfl) nofun
  | publish parked =>
    cases hu
    exact h.stay (by cases parked <;> rfl) nofun
  | enter parked =>
    cases hu
    refine h.stay (by cases parked <;> rfl) ?_
    rintro _ _ _ _ hb
    cases hb
    rfl
  | blocked =>
    obtain ⟨-, hu⟩ := Option.ite_none_left_eq_some.mp hu
    cases hu
    exact h.away nofun
  | returned | leave =>
    cases hu
    exact h.away id
  | reset parked sawWake =>
    cases hu
    cases sawWake with
    | true => exact h.away fun _ => rfl
    | false => exact h.away id
  | drain =>
    cases hu
    split
    · -- the token is read; the flag is still set, and the worker is about to clear it
      exact ⟨h.own, h.mutex, h.lowest, h.low, fun _ => .inr (.inr rfl), nofun, nofun, nofun⟩
    · exact h.away id
  | clearPending =>
    cases hu
    exact ⟨fun _ => h.own nofun, h.mutex, h.lowest, h.low, nofun, nofun, nofun, nofun⟩
  | release parked =>
    cases hu
    cases parked <;> exact h.away id

/-! ### Every run -/

lemma kept_spawn (h : Kept s) (hpub : c.publishing = 0) (hlow : c.Lowest s.heap) :
    Kept { s with calls := s.calls ++ [c] } := by
  have hmore : ∀ {f : Pc → Nat}, 0 < weight f s.all → 0 < weight f (s.all ++ [c]) := by
    intro f hpos
    rw [weight_concat]
    exact hpos.trans_le (Nat.le_add_right _ _)
  refine ⟨h.own, ?_, forall_append h.lowest hlow, h.low.imp_right hmore,
    fun hset => (h.pending hset).imp_right (Or.imp_left hmore),
    fun hpark hidle => (h.claimed hpark hidle).imp_right hmore,
    fun deadline hsnap x hx => (h.sleep deadline hsnap x hx).imp_right (Or.imp_right hmore), h.started⟩
  show weight Pc.publishing (s.all ++ [c]) = _
  rw [weight_concat, hpub]
  exact h.mutex

lemma below_min {l : List Int} (hx : x ∈ l) : Below l.min? x := by
  obtain ⟨m, hm⟩ := Option.isSome_iff_exists.mp (isSome_min?_of_mem hx)
  exact ⟨m, hm, (min?_eq_some_iff.mp hm).2 x hx⟩

lemma kept_remove (h : Kept s) (hfree : s.locked = false) : Kept { s with
      heap := s.heap.erase x
      earliest := if s.earliest = some x then (s.heap.erase x).min? else s.earliest } := by
  have hsub : ∀ y ∈ s.heap.erase x, y ∈ s.heap := fun y => mem_of_mem_erase
  refine ⟨h.own, h.mutex, fun c hc => ?_, .inl fun y hy => ?_, h.pending, h.claimed,
    fun deadline hsnap y hy => h.sleep deadline hsnap y (hsub y hy), h.started⟩
  · have hlow := h.lowest c hc
    cases c with
    | publish _ b =>
      cases b with
      | true => exact fun y hy => hlow y (hsub y hy)
      | false => trivial
    | _ => trivial
  · split
    · exact below_min hy
    · exact h.below hfree y (hsub y hy)

lemma kept_step {a : Act} (h : Kept s) (hu : s.step a = some u) : Kept u := by
  cases a with
  | arm | notify | wake | pollElsewhere =>
    cases hu
    exact kept_spawn h rfl trivial
  | armOwn x =>
    obtain ⟨howner, rfl⟩ := of_guard hu
    have hdone : s.ownCall = .done := h.own (howner ▸ nofun)
    have hw : ∀ f : Pc → Nat, f .done = 0 → f (.insert x) = 0 →
        weight f (.insert x :: s.calls) = weight f s.all := by
      intro f hd hx
      rw [State.all, hdone, weight, weight, hd, hx]
    refine ⟨fun hc => absurd rfl hc, (hw Pc.publishing rfl rfl).trans h.mutex, fun c hc => ?_, ?_, fun hset => ?_,
      nofun, nofun, nofun⟩
    · rcases mem_cons.mp hc with rfl | hc
      · trivial
      · exact h.lowest c (mem_cons_of_mem _ hc)
    · exact h.low.imp_right fun hpos => hpos.trans_eq (hw Pc.lowering rfl rfl).symm
    · have hold := h.pending hset
      rw [howner] at hold
      exact hold.imp_right (Or.imp_left fun hpos => hpos.trans_eq (hw Pc.writing rfl rfl).symm)
  | remove =>
    obtain ⟨⟨hfree, -⟩, rfl⟩ := of_guard hu
    exact kept_remove h hfree
  | call i =>
    rw [State.step] at hu
    split at hu
    · rename_i c hi
      obtain ⟨r, hr, rfl⟩ := Option.map_eq_some_iff.mp hu
      refine kept_callStep h hi (fun hown => ?_) hr
      -- the worker's own call is in progress only while it arms a timer
      obtain rfl : i = 0 := of_decide_eq_true hown
      by_contra hother
      obtain rfl : s.ownCall = c := Option.some.inj hi
      rw [h.own hother] at hr
      cases hr
    · cases hu
  | park =>
    obtain ⟨howner, rfl⟩ := of_guard hu
    have hdone : s.ownCall = .done := h.own (howner ▸ nofun)
    refine ⟨fun _ => hdone, h.mutex, h.lowest, h.low, fun hset => ?_, nofun, nofun, nofun⟩
    have hold := h.pending hset
    rw [howner] at hold
    exact hold
  | pollNow =>
    obtain ⟨howner, rfl⟩ := of_guard hu
    exact h.away (fun hd => by rw [howner] at hd; cases hd) (h.own (howner ▸ nofun))
  | owner => exact kept_ownerStep h hu
  | tick =>
    cases hu
    exact ⟨h.own, h.mutex, h.lowest, h.low, h.pending, h.claimed, h.sleep,
      fun _ _ _ _ hb => (h.started _ _ _ _ hb).trans (Int.le_add_one le_rfl)⟩

lemma kept_of_reachable (hs : parkSystem.Reachable s) : Kept s := by
  refine hs.invariant (P := Kept) ?_ fun _ _ _ h _ hst => kept_step h hst
  rintro s ⟨now, pwait2, rfl⟩
  refine ⟨fun _ => rfl, rfl, fun c hc => ?_, .inl nofun, nofun, nofun, nofun, nofun⟩
  rw [mem_singleton.mp hc]
  trivial

/-! ### The guarantee -/

lemma waitLength_le (pwait2 : Bool) (timeout : Int) : waitLength pwait2 timeout ≤ timeout + slack pwait2 := by
  cases pwait2 with
  | true => exact (Int.add_zero timeout).ge
  | false =>
    show min ((timeout + 999999) / 1000000) intMax * 1000000 ≤ timeout + 999999
    omega

lemma waitLength_zero (pwait2 : Bool) : waitLength pwait2 0 = 0 := by
  cases pwait2 <;> decide

/-- **Timers do not oversleep a parked worker**: it waits past an armed deadline with no wake pending or on its way for
no longer than its way from the computation of the timeout to the wait took. -/
theorem park_punctual {s : State} (hs : parkSystem.Reachable s) : Punctual s := by
  have h := kept_of_reachable hs
  rintro deadline taken started ⟨howner, hwait⟩ htoken hcalls d hd
  have hnone : weight Pc.rescuing s.all = 0 := by
    have hdone : s.ownCall = .done := h.own (howner ▸ nofun)
    rw [State.all, hdone, weight, weight_eq_zero hcalls]
    rfl
  have hbelow : Below deadline d := by
    refine (h.sleep deadline (howner ▸ rfl) d hd).resolve_right ?_
    rintro (hset | hpos)
    · rw [htoken] at hset
      cases hset
    · omega
  obtain ⟨e, he, hed⟩ := hbelow
  obtain rfl : deadline = some e := he
  have hnow : s.now < started + waitLength s.pwait2 (if 0 < e - taken then e - taken else 0) := hwait _ rfl
  have hstart := h.started _ _ _ _ howner
  split at hnow
  · have hlength := waitLength_le s.pwait2 (e - taken)
    omega
  · -- a deadline that was past already does not let the kernel wait
    rw [waitLength_zero] at hnow
    omega

/-- A timer that is armed for 5 wakes a worker that waits until 10; it parks again, with both timers armed. -/
theorem park_punctual_woken : ∃ s, parkSystem.Reachable s ∧ s.Waits (some 5) 0 0 ∧ s.token = false ∧
    (∀ c ∈ s.calls, c.rescuing = 0) ∧ s.heap = [5, 10] ∧ s.now < 5 := by
  obtain ⟨s, hs, hwaits, htoken, hcalls, hheap, hpwait2⟩ := parkSystem.reachable_of_run (.start 0 true)
    [.arm 10, .call 1, .call 1, .call 1, .call 1, .park, .owner false, .owner false, .owner false, .owner false,
      .owner false, .owner false, .arm 5, .call 2, .call 2, .call 2, .call 2, .call 2, .owner true, .owner false,
      .owner false, .owner false, .owner false, .owner false, .owner false, .owner false, .park, .owner false,
      .owner false, .owner false, .owner false, .owner false, .owner false, .tick, .tick, .tick]
    (fun s => s.Waits (some 5) 0 0 ∧ s.token = false ∧ (∀ c ∈ s.calls, c.rescuing = 0) ∧ s.heap = [5, 10] ∧
      s.pwait2 = true)
    ⟨0, true, rfl⟩ (by decide +kernel)
  have hnow := park_punctual hs _ _ _ hwaits htoken hcalls 5 (hheap ▸ mem_cons_self)
  rw [hpwait2] at hnow
  exact ⟨s, hs, hwaits, htoken, hcalls, hheap, hnow⟩

/-- The worker computes its timeout at 0 and waits from 5 on: at 12 it still waits although a timer is armed for 10, no
wake is pending and no call is in progress. -/
theorem park_oversleeps : ∃ s, parkSystem.Reachable s ∧ s.Waits (some 10) 0 5 ∧ s.token = false ∧
    (∀ c ∈ s.calls, c = .done) ∧ 10 ∈ s.heap ∧ 10 < s.now := by
  exact parkSystem.reachable_of_run (.start 0 true)
    [.arm 10, .call 1, .call 1, .call 1, .call 1, .park, .owner false, .owner false, .owner false, .tick, .tick, .tick,
      .tick, .tick, .owner false, .owner false, .owner false, .tick, .tick, .tick, .tick, .tick, .tick, .tick]
    _
    ⟨0, true, rfl⟩ (by decide +kernel)

end Cio.TimerPark
