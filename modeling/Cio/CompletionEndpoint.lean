import Cio.CallPool
import Cio.TransitionSystem

/-! `CompletionEndpoint`. A thread that wants to hand a completion to the scheduler takes a lease: it counts itself in
the word of the endpoint unless the closed bit is set, and then reads the scheduler pointer. `shutdown` sets the bit,
waits until the count is zero and clears the pointer; after that the scheduler may be destroyed. Each atomic access is
one step. -/

namespace Cio.CompletionEndpoint

open CallPool Transition

def kCountMask : Nat := 9223372036854775807

/-- Where a completion stands: in the loop of `lock` with the word it observed, past the exchange, in the branch for a
null pointer, with a lease, with the lease after the dispatch, or at its end. -/
inductive Pc where
  | load
  | exchange (closed : Bool) (count : Nat)
  | readScheduler
  | releaseNull
  | leased
  | dispatched
  | refused
  | released
  deriving DecidableEq

/-- `retire_completion_target`: not begun, in its loop with the count it observed, or returned. -/
inductive Retire where
  | idle
  | waiting (observed : Nat)
  | returned
  deriving DecidableEq

/-- The word as its closed bit and its count, whether the pointer is set, and whether the scheduler exists. `deliveries`
records for each dispatch whether the scheduler existed. -/
structure State where
  closed : Bool
  count : Nat
  scheduler : Bool
  alive : Bool
  retire : Retire
  calls : List Pc
  deliveries : List Bool

namespace State

/-- What `acquire_completion_target` leaves. -/
def opened : State where
  closed := false
  count := 0
  scheduler := true
  alive := true
  retire := .idle
  calls := []
  deliveries := []

def goto (s : State) (i : Nat) (pc : Pc) : State := { s with calls := s.calls.set i pc }

def release (s : State) : State := { s with count := s.count - 1 }

def callStep (s : State) (i : Nat) : Pc → Option State
  | .load => some (s.goto i (.exchange s.closed s.count))
  | .exchange closed count =>
    if closed = true ∨ count = kCountMask then some (s.goto i .refused)
    else if s.closed = closed ∧ s.count = count then some ({ s with count := count + 1 }.goto i .readScheduler)
    else some (s.goto i (.exchange s.closed s.count))
  | .readScheduler => some (s.goto i (if s.scheduler then .leased else .releaseNull))
  | .releaseNull => some (s.release.goto i .refused)
  | .leased => some ({ s with deliveries := s.deliveries ++ [s.alive] }.goto i .dispatched)
  | .dispatched => some (s.release.goto i .released)
  | .refused | .released => none

def retireStep (s : State) : Option State :=
  match s.retire with
  | .idle => some { s with closed := true, retire := .waiting s.count }
  | .waiting 0 => some { s with scheduler := false, retire := .returned }
  | .waiting _ => some { s with retire := .waiting s.count }
  | .returned => none

end State

/-- A completion begins; a call advances, fails its weak exchange or gives the lease back unused; `shutdown` retires the
endpoint; the scheduler is destroyed. -/
inductive Act where
  | lock
  | step (i : Nat)
  | weakFail (i : Nat)
  | drop (i : Nat)
  | retire
  | destroy

def State.step (s : State) : Act → Option State
  | .lock => some { s with calls := s.calls ++ [.load] }
  | .step i => s.calls[i]?.bind (s.callStep i)
  | .weakFail i =>
    match s.calls[i]? with
    | some (.exchange false _) => some (s.goto i (.exchange s.closed s.count))
    | _ => none
  | .drop i => if s.calls[i]? = some .leased then some (s.release.goto i .released) else none
  | .retire => s.retireStep
  | .destroy => if s.retire = .returned then some { s with alive := false } else none

def endpointSystem : System State Act where
  init s := s = .opened
  step := State.step

def Pc.holds : Pc → Nat
  | .readScheduler | .releaseNull | .leased | .dispatched => 1
  | _ => 0

/-- Whoever is counted can use the scheduler; once `retire` has returned nobody is or will be; every dispatch finds the
scheduler; nobody is granted a lease without a scheduler. -/
structure LeasesSafe (s : State) : Prop where
  alive : ∀ pc ∈ s.calls, pc.holds = 1 → s.alive = true ∧ s.scheduler = true
  retired : s.retire = .returned → (∀ pc ∈ s.calls, pc.holds = 0) ∧ s.closed = true
  delivered : ∀ existed ∈ s.deliveries, existed = true
  notNull : .releaseNull ∉ s.calls

/-- `retire` has seen that nobody is counted. -/
def Retire.drained : Retire → Bool
  | .waiting 0 | .returned => true
  | _ => false

/-- Calls hold the scheduler, which retires without any. -/
structure Kept (s : State) : Prop where
  counted : s.count = weight Pc.holds s.calls
  closed : s.retire ≠ .idle → s.closed = true
  drained : s.retire.drained = true → s.count = 0
  pointer : s.scheduler = false → s.retire = .returned
  alive : s.alive = false → s.retire = .returned
  delivered : ∀ existed ∈ s.deliveries, existed = true
  notNull : ∀ pc ∈ s.calls, pc ≠ .releaseNull

variable {s u : State} {i : Nat} {pc q : Pc}

lemma Kept.present (h : Kept s) (hpc : pc ∈ s.calls) (hholds : pc.holds = 1) :
    s.retire.drained = false ∧ s.scheduler ∧ s.alive = true := by
  have hpos : s.count ≠ 0 := by
    have hle := le_weight Pc.holds hpc
    rw [h.counted]
    omega
  have hnot : s.retire.drained = false := by
    rw [Bool.eq_false_iff]
    exact fun hdrain => hpos (h.drained hdrain)
  have hne : s.retire ≠ .returned := by
    intro hret
    rw [hret] at hnot
    cases hnot
  refine ⟨hnot, ?_, ?_⟩
  · by_contra hnull
    exact hne (h.pointer (Bool.eq_false_iff.mpr hnull))
  · by_contra hdestroyed
    exact hne (h.alive (Bool.eq_false_iff.mpr hdestroyed))

lemma Kept.safe (h : Kept s) : LeasesSafe s where
  alive pc hpc hholds := ⟨(h.present hpc hholds).2.2, (h.present hpc hholds).2.1⟩
  retired hret := by
    refine ⟨fun pc hpc => ?_, h.closed (by rw [hret]; simp)⟩
    have hzero := h.drained (hret ▸ rfl)
    have hle := le_weight Pc.holds hpc
    rw [← h.counted, hzero] at hle
    exact Nat.le_zero.mp hle
  delivered := h.delivered
  notNull hnull := h.notNull _ hnull rfl

section

variable (h : Kept s) (hi : s.calls[i]? = some pc)
include h hi

lemma Kept.goto {n : Nat} {l : List Bool} (hcount : n + pc.holds = s.count + q.holds) (hq : q ≠ .releaseNull)
    (hdrain : s.retire.drained → n = 0) (hl : ∀ existed ∈ l, existed) :
    Kept ({ s with count := n, deliveries := l }.goto i q) := by
  refine { h with counted := ?_, drained := hdrain, delivered := hl, notNull := forall_set h.notNull hq i }
  have hset := weight_set Pc.holds hi q
  have hcnt := h.counted
  show n = weight Pc.holds (s.calls.set i q)
  omega

lemma Kept.move (hholds : pc.holds = q.holds) (hq : q ≠ .releaseNull) : Kept (s.goto i q) :=
  h.goto hi (congrArg (s.count + ·) hholds) hq h.drained h.delivered

lemma Kept.release (hholds : pc.holds = 1) (hq : q ≠ .releaseNull)
    (hfree : q.holds = 0) : Kept (s.release.goto i q) := by
  have hmem := List.mem_of_getElem? hi
  have hle := le_weight Pc.holds hmem
  have hcnt := h.counted
  refine h.goto hi ?_ hq (fun hdrain => ?_) h.delivered
  · rw [hholds, hfree]
    omega
  · rw [(h.present hmem hholds).1] at hdrain
    cases hdrain

lemma kept_callStep (hu : s.callStep i pc = some u) : Kept u := by
  have hmem := List.mem_of_getElem? hi
  cases pc with
  | load =>
    cases hu
    exact h.move hi rfl (by simp)
  | exchange closed count =>
    rw [State.callStep] at hu
    split at hu
    · cases hu
      exact h.move hi rfl (by simp)
    · rename_i hopen
      split at hu <;> cases hu
      · rename_i hword
        obtain ⟨hshut, rfl⟩ := hword
        refine h.goto hi rfl (by simp) (fun hdrain => ?_) h.delivered
        -- the word the exchange found was open, so `retire` has not begun
        have hidle : s.retire = .idle := by
          by_contra hbegun
          exact hopen (.inl (hshut.symm.trans (h.closed hbegun)))
        rw [hidle] at hdrain
        cases hdrain
      · exact h.move hi rfl (by simp)
  | readScheduler =>
    cases hu
    rw [if_pos (h.present hmem rfl).2.1]
    exact h.move hi rfl (by simp)
  | releaseNull => exact absurd rfl (h.notNull _ hmem)
  | leased =>
    cases hu
    exact h.goto hi rfl (by simp) h.drained (forall_append h.delivered (h.present hmem rfl).2.2)
  | dispatched =>
    cases hu
    exact h.release hi rfl (by simp) rfl
  | refused | released => cases hu

end

lemma kept_retireStep (h : Kept s) (hu : s.retireStep = some u) : Kept u := by
  have hnot : s.retire ≠ .returned → s.scheduler ∧ s.alive = true := by
    refine fun hne => ⟨?_, ?_⟩ <;> by_contra hnone
    · exact hne (h.pointer (Bool.eq_false_iff.mpr hnone))
    · exact hne (h.alive (Bool.eq_false_iff.mpr hnone))
  -- the observed count is the count of this moment
  have hwait : ∀ {c : Bool}, s.retire ≠ .returned → c →
      Kept { s with closed := c, retire := .waiting s.count } := by
    intro c hne hc
    obtain ⟨hpointer, halive⟩ := hnot hne
    refine { h with closed := fun _ => hc, drained := fun hdrain => ?_, pointer := ?_, alive := ?_ }
    · by_contra hpos
      obtain ⟨n, hn⟩ := Nat.exists_eq_succ_of_ne_zero hpos
      rw [hn] at hdrain
      cases hdrain
    · exact fun hnull => by rw [hpointer] at hnull; cases hnull
    · exact fun hdead => by rw [halive] at hdead; cases hdead
  rw [State.retireStep] at hu
  split at hu <;> cases hu
  · rename_i hidle
    exact hwait (by rw [hidle]; simp) rfl
  · rename_i hzero
    exact { h with
      closed := fun _ => h.closed (by rw [hzero]; simp)
      drained := fun _ => h.drained (hzero ▸ rfl)
      pointer := fun _ => rfl
      alive := fun _ => rfl }
  · rename_i n hne hretire
    exact hwait (by rw [hretire]; simp) (h.closed (by rw [hretire]; simp))

lemma kept_step {a : Act} (h : Kept s) (hu : s.step a = some u) : Kept u := by
  cases a with
  | lock =>
    cases hu
    refine { h with counted := ?_, notNull := forall_append h.notNull (by simp) }
    rw [weight_concat]
    exact h.counted
  | step =>
    obtain ⟨pc, hi, hcall⟩ := Option.bind_eq_some_iff.mp hu
    exact kept_callStep h hi hcall
  | weakFail i =>
    rw [State.step] at hu
    split at hu <;> cases hu
    rename_i hi
    exact h.move hi rfl (by simp)
  | drop =>
    obtain ⟨hi, rfl⟩ := of_guard hu
    exact h.release hi rfl (by simp) rfl
  | retire => exact kept_retireStep h hu
  | destroy =>
    obtain ⟨hret, rfl⟩ := of_guard hu
    exact { h with alive := fun _ => hret }

/-- **In every interleaving of leases with the retirement of the endpoint, a lease refers to a scheduler that exists
until the lease is released, after `retire` no lease is outstanding or granted, and every dispatch is delivered to the
scheduler or refused.** -/
theorem leases_safe {s : State} (hs : endpointSystem.Reachable s) : LeasesSafe s := by
  refine (hs.invariant (P := Kept) ?_ fun _ _ _ h _ hstep => kept_step h hstep).safe
  rintro s rfl
  exact ⟨rfl, (absurd rfl ·), nofun, nofun, nofun, nofun, nofun⟩

/-- Two completions: one is delivered while `retire` waits for it, the other comes too late. -/
theorem leases_safe_waiting : ∃ s, endpointSystem.Reachable s ∧
    (s.calls = [.released, .refused] ∧ s.deliveries = [true] ∧ s.alive = false) ∧ LeasesSafe s := by
  obtain ⟨s, hs, hend⟩ := endpointSystem.reachable_of_run .opened
    [.lock, .lock, .step 0, .step 1, .step 0, .step 0, .retire, .step 1, .step 1, .step 0, .retire, .step 0, .retire,
      .retire, .destroy]
    (fun s => s.calls = [.released, .refused] ∧ s.deliveries = [true] ∧ s.alive = false) rfl (by decide +kernel)
  exact ⟨s, hs, hend, leases_safe hs⟩

end Cio.CompletionEndpoint
