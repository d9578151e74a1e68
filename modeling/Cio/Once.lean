import Cio.CallPool
import Cio.TransitionSystem

/-! `Once`. The critical sections of `call_slow` are single steps. The function runs outside the lock, for as long as
it likes, and returns or throws. The gate is a channel nobody sends on, so a receive on it returns when it has been
closed and not before. -/

namespace Cio.Once

open CallPool Transition List

/-- Where a call is: the load of `done_` (`load`), the first critical section (`lock`), the receive on the gate
(`recv`), the function (`run`), the second critical section once the function has returned (`publish`), and the close
of the copied gate, if there was one (`close`). -/
inductive Pc where
  | load
  | lock
  | recv
  | run
  | publish
  | close (gate : Bool)
  | returned
  | threw
  deriving DecidableEq

/-- `gate` is `none` until a waiter has made it, then it says whether it is closed. `succeeded` records that a
function has returned normally; no call reads it. -/
structure State where
  done : Bool := false
  running : Bool := false
  gate : Option Bool := none
  succeeded : Bool := false
  tasks : List Pc := []

namespace State

def setPc (s : State) (i : Nat) (pc : Pc) : State := { s with tasks := s.tasks.set i pc }

/-- The next step of a call. `throws` is how its function ends. -/
def taskStep (s : State) (i : Nat) (throws : Bool) : Pc → Option State
  | .load => some (s.setPc i (if s.done then .returned else .lock))
  | .lock =>
    if s.done then some (s.setPc i .returned)
    else if s.running then some ({ s with gate := some (s.gate.getD false) }.setPc i .recv)
    else some ({ s with running := true }.setPc i .run)
  | .recv => if s.gate = some true then some (s.setPc i .returned) else none
  | .run => if throws then some (s.setPc i .threw) else some ({ s with succeeded := true }.setPc i .publish)
  | .publish => some ({ s with done := true, running := false }.setPc i (.close s.gate.isSome))
  | .close gate => some ({ s with gate := if gate then some true else s.gate }.setPc i .returned)
  | .returned | .threw => none

end State

inductive Act where
  | call
  | task (i : Nat) (throws : Bool)

def onceStep (s : State) : Act → Option State
  | .call => some { s with tasks := s.tasks ++ [.load] }
  | .task i throws =>
    match s.tasks[i]? with
    | some pc => s.taskStep i throws pc
    | none => none

def onceSystem : System State Act where
  init s := s = {}
  step := onceStep

/-! ### What a step does -/

inductive TaskStep (s : State) (i : Nat) (throws : Bool) : Pc → State → Prop where
  | pass {pc : Pc} (hpc : pc = .load ∨ pc = .lock) (hdone : s.done = true) :
      TaskStep s i throws pc (s.setPc i .returned)
  | lock : TaskStep s i throws .load (s.setPc i .lock)
  | wait (hrunning : s.running = true) :
      TaskStep s i throws .lock ({ s with gate := some (s.gate.getD false) }.setPc i .recv)
  | run (hdone : s.done = false) (hrunning : s.running = false) :
      TaskStep s i throws .lock ({ s with running := true }.setPc i .run)
  | released (hgate : s.gate = some true) : TaskStep s i throws .recv (s.setPc i .returned)
  | threw (hthrows : throws = true) : TaskStep s i throws .run (s.setPc i .threw)
  | succeeded : TaskStep s i throws .run ({ s with succeeded := true }.setPc i .publish)
  | publish :
      TaskStep s i throws .publish ({ s with done := true, running := false }.setPc i (.close s.gate.isSome))
  | close {gate : Bool} :
      TaskStep s i throws (.close gate) ({ s with gate := if gate then some true else s.gate }.setPc i .returned)

variable {s u : State} {i : Nat} {pc : Pc} {throws : Bool}

lemma taskStep_cases (hs : s.taskStep i throws pc = some u) : TaskStep s i throws pc u := by
  cases pc with simp only [State.taskStep] at hs
  | load =>
    cases hs
    split
    · exact .pass (.inl rfl) ‹_›
    · exact .lock
  | lock =>
    split at hs
    · cases hs
      exact .pass (.inr rfl) ‹_›
    · rename_i hdone
      split at hs <;> rename_i hrun <;> cases hs
      · exact .wait hrun
      · exact .run (Bool.eq_false_iff.mpr hdone) (Bool.eq_false_iff.mpr hrun)
  | recv =>
    split at hs <;> cases hs
    exact .released ‹_›
  | run =>
    split at hs <;> cases hs
    · exact .threw ‹_›
    · exact .succeeded
  | publish =>
    cases hs
    exact .publish
  | close =>
    cases hs
    exact .close
  | returned | threw => cases hs

/-! ### The invariant -/

/-- The call has set `running_` and not cleared it. A call whose function threw never does. -/
def Pc.holds : Pc → Nat
  | .run | .publish | .threw => 1
  | .load | .lock | .recv | .close _ | .returned => 0

def Pc.passed : Pc → Bool
  | .publish | .close _ | .returned => true
  | .load | .lock | .recv | .run | .threw => false

/-- One caller runs the function; whoever is past it knows of a success. -/
structure Kept (s : State) : Prop where
  holds : weight Pc.holds s.tasks = if s.running = true then 1 else 0
  done : s.done = true → s.succeeded = true
  passed : ∀ pc ∈ s.tasks, pc.passed = true → s.succeeded = true
  closed : s.gate = some true → s.succeeded = true
  pending : s.succeeded = true → s.done = true ∨ ∃ pc ∈ s.tasks, pc = .publish
  gated : ∀ pc ∈ s.tasks, pc = .recv → s.gate ≠ none
  closing : s.gate = some false → s.running = true ∨ ∃ pc ∈ s.tasks, pc = .close true

lemma Kept.running_of (h : Kept s) (hpc : pc ∈ s.tasks) (hholds : pc.holds = 1) : s.running = true := by
  have hle := le_weight Pc.holds hpc
  rw [h.holds, hholds] at hle
  by_contra hne
  rw [if_neg hne] at hle
  cases hle

lemma Kept.set (h : Kept s) {pc' : Pc} (hi : s.tasks[i]? = some pc) (htasks : u.tasks = s.tasks.set i pc')
    (hholds : (if u.running then 1 else 0) + pc.holds = (if s.running then 1 else 0) + pc'.holds)
    (hsucc : s.succeeded → u.succeeded) (hdone : u.done → u.succeeded) (hpassed : pc'.passed → u.succeeded)
    (hshut : u.gate = some true → u.succeeded) (hpend : u.succeeded → u.done ∨ ∃ x ∈ s.tasks.set i pc', x = .publish)
    (hgated : s.gate ≠ none → u.gate ≠ none) (hgated' : pc' = .recv → u.gate ≠ none)
    (hend : u.gate = some false → u.running ∨ ∃ x ∈ s.tasks.set i pc', x = .close true) : Kept u := by
  refine ⟨?_, hdone, ?_, hshut, ?_, ?_, ?_⟩
  · have hset := weight_set Pc.holds hi pc'
    have hold := h.holds
    rw [← htasks] at hset
    omega
  · rw [htasks]
    exact forall_set (fun x hx hpast => hsucc (h.passed x hx hpast)) hpassed i
  · rw [htasks]
    exact hpend
  · rw [htasks]
    exact forall_set (fun x hx hrecv => hgated (h.gated x hx hrecv)) hgated' i
  · rw [htasks]
    exact hend

lemma Kept.move (h : Kept s) {pc' : Pc} (hi : s.tasks[i]? = some pc)
    (hholds : pc.holds = pc'.holds) (hpassed : pc'.passed → s.succeeded)
    (hpublish : pc ≠ .publish) (hclose : pc ≠ .close true) (hrecv : pc' ≠ .recv) : Kept (s.setPc i pc') := by
  refine h.set hi rfl (hholds ▸ rfl) id h.done hpassed h.closed (fun hs => ?_) id
    (fun heq => absurd heq hrecv) (fun hgate => ?_)
  · exact (h.pending hs).imp_right fun hex => exists_set hi hex (fun heq => absurd heq hpublish)
  · exact (h.closing hgate).imp_right fun hex => exists_set hi hex (fun heq => absurd heq hclose)

lemma kept_taskStep (h : Kept s) (hi : s.tasks[i]? = some pc) (hst : TaskStep s i throws pc u) : Kept u := by
  have hmem := mem_of_getElem? hi
  cases hst with
  | pass hpc hdone =>
    rcases hpc with rfl | rfl <;>
      exact h.move hi rfl (fun _ => h.done hdone) (by simp) (by simp) (by simp)
  | lock | threw => exact h.move hi rfl nofun (by simp) (by simp) (by simp)
  | wait hrun =>
    refine h.set hi rfl rfl id h.done nofun (fun hgate => ?_) (fun hs => ?_)
      (fun _ => by simp [State.setPc]) (fun _ => by simp [State.setPc]) (fun _ => .inl hrun)
    · have hgate : some (s.gate.getD false) = some true := hgate
      cases hold : s.gate with
      | none =>
        rw [hold] at hgate
        cases hgate
      | some =>
        rw [hold] at hgate
        exact h.closed (hold.trans hgate)
    · exact (h.pending hs).imp_right fun hex => exists_set hi hex nofun
  | run hdone hrun =>
    refine h.set hi rfl (hrun ▸ rfl) id h.done nofun h.closed (fun hs => ?_) id nofun (fun _ => .inl rfl)
    exact (h.pending hs).imp_right fun hex => exists_set hi hex nofun
  | released hgate => exact h.move hi rfl (fun _ => h.closed hgate) (by simp) (by simp) (by simp)
  | succeeded =>
    refine h.set hi rfl rfl (fun _ => rfl) (fun _ => rfl) (fun _ => rfl) (fun _ => rfl)
      (fun _ => .inr (exists_set_self hi rfl)) id nofun (fun _ => .inl ?_)
    exact h.running_of hmem rfl
  | publish =>
    have hsucc := h.passed _ hmem rfl
    have hrun := h.running_of hmem rfl
    refine h.set hi rfl (by rw [hrun]; rfl) id (fun _ => hsucc) (fun _ => hsucc) h.closed
      (fun _ => .inl rfl) id nofun (fun hgate => .inr ?_)
    have hgate : s.gate = some false := hgate
    rw [hgate]
    exact exists_set_self hi rfl
  | @close gate =>
    have hsucc := h.passed _ hmem rfl
    refine h.set hi rfl rfl id h.done (fun _ => hsucc) (fun _ => hsucc) (fun hs => ?_) ?_ nofun ?_
    · exact (h.pending hs).imp_right fun hex => exists_set hi hex nofun
    · cases gate with
      | false => exact id
      | true => exact fun _ => by simp [State.setPc]
    · cases gate with
      | false =>
        intro hgate
        exact (h.closing hgate).imp_right fun hex => exists_set hi hex nofun
      | true => exact nofun

lemma kept_onceStep {a : Act} (h : Kept s) (hst : onceStep s a = some u) : Kept u := by
  cases a with
  | call =>
    cases hst
    refine ⟨?_, h.done, forall_append h.passed nofun, h.closed, fun hs => ?_,
      forall_append h.gated nofun, fun hgate => ?_⟩
    · rw [weight_concat]
      exact h.holds
    · exact (h.pending hs).imp_right fun hex => exists_append hex _
    · exact (h.closing hgate).imp_right fun hex => exists_append hex _
  | task i throws =>
    simp only [onceStep] at hst
    split at hst
    · exact kept_taskStep h ‹_› (taskStep_cases hst)
    · cases hst

lemma kept_of_reachable {C : State → Act → Prop} (hs : onceSystem.ReachableVia C s) : Kept s := by
  refine hs.invariant (P := Kept) ?_ (fun s a u h _ hst => kept_onceStep h hst)
  rintro s rfl
  refine ⟨rfl, by simp, ?_, by simp, by simp, ?_, by simp⟩ <;> intro pc hpc <;> cases hpc

/-! ### One function at a time -/

def State.Runs (s : State) (i : Nat) : Prop := s.tasks[i]? = some .run

/-- One run at a time, none after a success, and none returns before one. -/
structure OnceSafe (s : State) : Prop where
  exclusive : ∀ i j, s.Runs i → s.Runs j → i = j
  afterSuccess : .returned ∈ s.tasks → s.succeeded = true
  notAgain : ∀ (a : Act) (u : State) (i : Nat), s.succeeded = true → onceStep s a = some u → u.Runs i → s.Runs i

lemma Kept.runs_of_step (h : Kept s) {a : Act} (hs : s.succeeded)
    (hst : onceStep s a = some u) (hi : u.Runs i) : s.Runs i := by
  cases a with
  | call =>
    cases hst
    obtain hold | ⟨-, heq⟩ := lookup_concat hi
    · exact hold
    · cases heq
  | task j throws =>
    simp only [onceStep] at hst
    split at hst
    · rename_i pc hj
      by_cases hij : j = i
      · -- the call itself advances; it gets to its function from the first critical section only
        subst hij
        have hlt := (List.getElem?_eq_some_iff.mp hj).1
        cases taskStep_cases hst with
        | run hdone hrun =>
          rcases h.pending hs with hd | ⟨x, hx, rfl⟩
          · cases hdone.symm.trans hd
          · cases hrun.symm.trans (h.running_of hx rfl)
        | pass | lock | wait | released | threw | succeeded | publish | close =>
          rw [State.Runs, State.setPc, getElem?_set_self hlt] at hi
          cases hi
      · have hframe : u.tasks[i]? = s.tasks[i]? := by
          cases taskStep_cases hst <;> exact getElem?_set_ne hij
        rw [State.Runs, ← hframe]
        exact hi
    · cases hst

lemma Kept.onceSafe (h : Kept s) : OnceSafe s := by
  refine ⟨fun i j hi hj => ?_, fun hmem => h.passed _ hmem rfl, fun a u i hs hst => h.runs_of_step hs hst⟩
  refine eq_of_weight_le_one (f := Pc.holds) hi hj Nat.one_pos Nat.one_pos ?_
  rw [h.holds]
  split <;> decide

/-! ### Every call returns -/

/-- The function that ends in the step returns normally. -/
def NoThrow (s : State) : Act → Prop
  | .call => True
  | .task i throws => s.tasks[i]? = some .run → throws = false

instance (s : State) (a : Act) : Decidable (NoThrow s a) :=
  match a with
  | .call => inferInstanceAs (Decidable True)
  | .task i throws => inferInstanceAs (Decidable (s.tasks[i]? = some .run → throws = false))

/-- From any state in which no function has thrown: no further calls are made, and the functions return. -/
def finishing : System State Nat where
  init := onceSystem.ReachableVia NoThrow
  step s i := onceStep s (.task i false)

lemma not_threw_of_reachable (hs : onceSystem.ReachableVia NoThrow s) : ∀ pc ∈ s.tasks, pc ≠ .threw := by
  refine hs.invariant (P := fun s => ∀ pc ∈ s.tasks, pc ≠ .threw) ?_ (fun s a u h hc hst => ?_)
  · rintro s rfl pc hpc
    cases hpc
  · cases a with
    | call =>
      cases hst
      exact forall_append h (by simp)
    | task i throws =>
      simp only [onceSystem, onceStep] at hst
      split at hst
      · rename_i pc hi
        cases taskStep_cases hst with
        | threw hthrows => cases hthrows.symm.trans (hc hi)
        | pass | lock | wait | run | released | succeeded | publish | close => exact forall_set h (by simp) i
      · cases hst

def Pc.rank : Pc → Nat
  | .load => 6
  | .lock => 5
  | .run => 4
  | .publish => 3
  | .close _ => 2
  | .recv => 1
  | .returned | .threw => 0

lemma taskStep_rank (hi : s.tasks[i]? = some pc)
    (hs : TaskStep s i throws pc u) : weight Pc.rank u.tasks < weight Pc.rank s.tasks := by
  have hset : ∀ pc' : Pc, pc'.rank < pc.rank → weight Pc.rank (s.tasks.set i pc') < weight Pc.rank s.tasks := by
    intro pc' hlt
    have hsum := weight_set Pc.rank hi pc'
    omega
  cases hs with
  | pass hpc => rcases hpc with rfl | rfl <;> exact hset .returned (by decide)
  | lock | wait | run | released | threw | succeeded => exact hset _ (by decide)
  | publish => exact hset (.close s.gate.isSome) (Nat.lt_succ_self 2)
  | close => exact hset .returned Nat.two_pos

lemma Kept.returned_of_stuck (h : Kept s) (hnone : ∀ pc ∈ s.tasks, pc ≠ .threw)
    (hstuck : finishing.Stuck s) : ∀ pc ∈ s.tasks, pc = .returned := by
  have hidle : ∀ pc ∈ s.tasks, pc = .returned ∨ pc = .recv ∧ s.gate ≠ some true := by
    intro pc hpc
    obtain ⟨i, hi⟩ := mem_iff_getElem?.mp hpc
    have hnext : s.taskStep i false pc = none := by
      have hs := hstuck i
      simp only [finishing, onceStep, hi] at hs
      exact hs
    cases pc with
    | returned => exact .inl rfl
    | threw => exact absurd rfl (hnone _ hpc)
    | recv =>
      refine .inr ⟨rfl, fun hgate => ?_⟩
      simp only [State.taskStep, if_pos hgate] at hnext
      cases hnext
    | lock =>
      simp only [State.taskStep] at hnext
      split at hnext
      · cases hnext
      · split at hnext <;> cases hnext
    | load | run | publish | close => cases hnext
  intro pc hpc
  rcases hidle pc hpc with hret | ⟨rfl, hopen⟩
  · exact hret
  · -- the gate was made and is open, so somebody is going to close it
    exfalso
    have hgate : s.gate = some false := by
      cases hg : s.gate with
      | none => exact absurd hg (h.gated _ hpc rfl)
      | some closed =>
        cases closed with
        | false => rfl
        | true => exact absurd hg hopen
    have hquiet : weight Pc.holds s.tasks = 0 :=
      weight_eq_zero fun x hx => by rcases hidle x hx with rfl | ⟨rfl, -⟩ <;> rfl
    rcases h.closing hgate with hrun | ⟨x, hx, rfl⟩
    · have hholds := h.holds
      rw [hquiet, if_pos hrun] at hholds
      cases hholds
    · rcases hidle _ hx with heq | ⟨heq, -⟩ <;> cases heq

lemma finishing_endsIn : finishing.EndsIn fun s => ∀ pc ∈ s.tasks, pc = .returned := by
  refine System.endsIn_of_measure (P := onceSystem.ReachableVia NoThrow) (m := fun s => weight Pc.rank s.tasks)
    (fun _ h => h) (fun s i u h hs => ⟨.next (a := .task i false) h (fun _ => rfl) hs, ?_⟩)
    fun s h => (kept_of_reachable h).returned_of_stuck (not_threw_of_reachable h)
  simp only [finishing, onceStep] at hs
  split at hs
  · exact taskStep_rank ‹_› (taskStep_cases hs)
  · cases hs

/-! ### The guarantee -/

/-- **While no function throws, one function runs at a time, none after one has returned, and every call returns.** -/
theorem once_safe {s : State} (hs : onceSystem.ReachableVia NoThrow s) :
    OnceSafe s ∧ finishing.EndsIn fun s => ∀ pc ∈ s.tasks, pc = .returned :=
  ⟨(kept_of_reachable hs).onceSafe, finishing_endsIn⟩

theorem once_safe_waiting : ∃ s, onceSystem.ReachableVia NoThrow s ∧ s.tasks = [.run, .recv, .recv] ∧ OnceSafe s := by
  obtain ⟨s, hs, hp⟩ := onceSystem.reachableVia_of_run NoThrow {}
    [.call, .call, .call, .task 0 false, .task 0 false, .task 1 false, .task 1 false, .task 2 false, .task 2 false]
    (fun s => s.tasks = [.run, .recv, .recv]) rfl (by decide +kernel)
  exact ⟨s, hs, hp, (once_safe hs).1⟩

/-- The function of the first call throws. The second call, which was waiting, and the third, which is made after
that, wait on a gate nobody is going to close. -/
theorem once_wedged : ∃ s, onceSystem.Reachable s ∧ s.tasks = [.threw, .recv, .recv] ∧
    ∀ i throws, onceStep s (.task i throws) = none := by
  obtain ⟨s, hs, htasks, hgate⟩ := onceSystem.reachable_of_run {}
    [.call, .call, .task 0 false, .task 0 false, .task 1 false, .task 1 false, .task 0 true, .call, .task 2 false,
      .task 2 false]
    (fun s => s.tasks = [.threw, .recv, .recv] ∧ s.gate = some false) rfl (by decide +kernel)
  refine ⟨s, hs, htasks, fun i throws => ?_⟩
  rw [onceStep, htasks]
  match i with
  | 0 => rfl
  | 1 | 2 =>
    show s.taskStep _ throws .recv = none
    rw [State.taskStep, hgate]
    rfl
  | _ + 3 => rfl

end Cio.Once
