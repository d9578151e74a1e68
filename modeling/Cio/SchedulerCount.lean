import Cio.CallPool
import Cio.SchedulerPark

/-! The size counter of the global queue. It plus what the producers have yet to add is the length of
the deque modulo `2 ^ 32`, up to the frames that the holder of the mutex has removed and not yet
subtracted; so with no producer and no consumer under way it is the length, as long as that is below
`2 ^ 32`. -/

namespace Cio.Sched

open Transition CallPool WrapCounter Function ParkState CallPc Option

def CallPc.uncounted : CallPc → Nat
  | .count k _ _ => k.toNat
  | _ => 0

/-- The counter lags behind the deque by what was inserted and not yet added; `taken` is what the
holder of the mutex has removed and not yet subtracted. -/
structure CountInv (s : ParkState) (taken : Nat) : Prop where
  count : s.size + word (weight uncounted s.calls) = word (s.queued + taken)
  holder : ∀ w k, s.worker w = .popSub k → s.mutex = some w ∧ k.toNat = taken
  held : ∀ w, s.mutex = some w → ∃ k, s.worker w = .popSub k
  free : s.mutex = none → taken = 0
  fits : s.queued < 2 ^ 32

namespace CountInv

variable {s t : ParkState} {taken w : Nat} {k : UInt32}

section

variable (h : CountInv s taken)
include h

lemma of_call {i : Nat} {x y : CallPc} (hx : s.calls[i]? = some x) (hcalls : t.calls = s.calls.set i y)
    (hzero : x.uncounted = 0 ∧ y.uncounted = 0)
    (hsame : t.size = s.size ∧ t.queued = s.queued ∧ t.mutex = s.mutex ∧ t.worker = s.worker) : CountInv t taken := by
  obtain ⟨hsize, hq, hmutex, hwk⟩ := hsame
  have hsum := weight_set uncounted hx y
  rw [hzero.1, hzero.2, add_zero, add_zero] at hsum
  refine ⟨?_, ?_, ?_, ?_, ?_⟩
  · rw [hsize, hcalls, hsum, hq]
    exact h.count
  · rw [hwk, hmutex]
    exact h.holder
  · rw [hwk, hmutex]
    exact h.held
  · rw [hmutex]
    exact h.free
  · rw [hq]
    exact h.fits

lemma of_worker {pc : WorkerPc} (hold : ∀ k, s.worker w ≠ .popSub k) (hnew : ∀ k, pc ≠ .popSub k)
    (hwk : t.worker = update s.worker w pc)
    (hsame : t.size = s.size ∧ t.queued = s.queued ∧ t.mutex = s.mutex ∧ t.calls = s.calls) : CountInv t taken := by
  obtain ⟨hsize, hq, hmutex, hcalls⟩ := hsame
  have hpop : ∀ v k, t.worker v = .popSub k ↔ s.worker v = .popSub k := by
    intro v k
    rw [hwk]
    by_cases hv : v = w
    · rw [hv, update_self]
      exact ⟨fun heq => absurd heq (hnew k), fun heq => absurd heq (hold k)⟩
    · rw [update_of_ne hv]
  refine ⟨?_, ?_, ?_, ?_, ?_⟩
  · rw [hsize, hcalls, hq]
    exact h.count
  · intro v k hv
    rw [hmutex]
    exact h.holder v k ((hpop v k).mp hv)
  · intro v hv
    rw [hmutex] at hv
    obtain ⟨k, hk⟩ := h.held v hv
    exact ⟨k, (hpop v k).mpr hk⟩
  · rw [hmutex]
    exact h.free
  · rw [hq]
    exact h.fits

lemma insert {i start more : Nat}
    (hx : s.calls[i]? = some (.insert k start more)) (hfits : s.queued + k.toNat < 2 ^ 32) :
    CountInv ({ s with queued := s.queued + k.toNat }.setCall i (.count k start more)) taken := by
  have hsum := weight_set uncounted hx (.count k start more)
  refine ⟨?_, h.holder, h.held, h.free, hfits⟩
  show s.size + word (weight uncounted (s.calls.set i (.count k start more))) = word (s.queued + k.toNat + taken)
  rw [show weight uncounted (s.calls.set i (.count k start more)) =
      weight uncounted s.calls + k.toNat from hsum, ← word_add, ← UInt32.add_assoc, h.count,
    word_add]
  congr 1
  omega

lemma add {i start more : Nat} (hx : s.calls[i]? = some (.count k start more)) :
    CountInv ({ s with size := s.size + k }.setCall i (.claimLoad start 0 more)) taken := by
  have hsum := weight_set uncounted hx (.claimLoad start 0 more)
  refine ⟨?_, h.holder, h.held, h.free, h.fits⟩
  show s.size + k + word (weight uncounted (s.calls.set i (.claimLoad start 0 more))) = word (s.queued + taken)
  have hcount := h.count
  rw [show weight uncounted s.calls =
      weight uncounted (s.calls.set i (.claimLoad start 0 more)) + k.toNat from hsum.symm,
    ← word_add, word_toNat] at hcount
  rw [← hcount, UInt32.add_assoc, UInt32.add_comm k]

lemma remove (hfree : s.mutex = none) (hle : k.toNat ≤ s.queued) :
    CountInv ({ s with queued := s.queued - k.toNat, mutex := some w }.setWorker w (.popSub k))
      k.toNat := by
  have hidle : ∀ v j, s.worker v ≠ .popSub j := by
    intro v j heq
    have hheld := (h.holder v j heq).1
    rw [hfree] at hheld
    cases hheld
  have hfits := h.fits
  refine ⟨?_, fun v j hv => ?_, fun v hv => ?_, nofun, ?_⟩
  · show s.size + word (weight uncounted s.calls) = word (s.queued - k.toNat + k.toNat)
    rw [h.count, h.free hfree, Nat.sub_add_cancel hle, Nat.add_zero]
  · by_cases hsame : v = w
    · subst hsame
      rw [setWorker_worker_self] at hv
      cases hv
      exact ⟨rfl, rfl⟩
    · rw [setWorker_worker_of_ne _ hsame] at hv
      exact absurd hv (hidle v j)
  · cases hv
    exact ⟨k, update_self ..⟩
  · show s.queued - k.toNat < 2 ^ 32
    omega

lemma subtract (hpc : s.worker w = .popSub k) :
    CountInv ({ s with size := s.size - k, mutex := none }.setWorker w .running) 0 := by
  obtain ⟨hmutex, rfl⟩ := h.holder w k hpc
  refine ⟨?_, fun v j hv => ?_, nofun, fun _ => rfl, h.fits⟩
  · have hcount := h.count
    rw [← word_add, word_toNat] at hcount
    exact sub_add_of_add_eq hcount
  · by_cases hsame : v = w
    · rw [hsame, setWorker_worker_self] at hv
      cases hv
    · rw [setWorker_worker_of_ne _ hsame] at hv
      have hother := (h.holder v j hv).1
      rw [hmutex] at hother
      cases hother
      exact absurd rfl hsame

end

end CountInv

lemma popCount_le (s : ParkState) (workers : Nat) (batch : Bool) : (s.popCount workers batch).toNat ≤ s.queued := by
  have havailable : (UInt32.ofNat s.queued).toNat ≤ s.queued := by
    rw [UInt32.toNat_ofNat']
    exact Nat.mod_le _ _
  have hcap : ∀ a b : UInt32, (if a < b then a else b).toNat ≤ b.toNat := by
    intro a b
    split
    · rename_i hlt
      exact le_of_lt (UInt32.lt_iff_toNat_lt.mp hlt)
    · exact le_rfl
  rw [popCount]
  split
  · rw [popBatchCount]
    refine le_trans (hcap _ _) (le_trans ?_ havailable)
    by_cases hlt : UInt32.ofNat s.queued < UInt32.ofNat s.queued /
        (if UInt32.ofNat workers ≠ 0 then UInt32.ofNat workers else 1) + 1
    · rw [if_pos hlt]
    · rw [if_neg hlt]
      exact UInt32.le_iff_toNat_le.mp (UInt32.not_lt.mp hlt)
  · split
    · exact Nat.zero_le _
    · rename_i hne
      exact Nat.pos_of_ne_zero hne

lemma claimNext_uncounted (start pos more : Nat) (observed allowed : BitVec 64) :
    (claimNext start pos more observed allowed).uncounted = 0 := by
  rw [claimNext]
  split <;> rfl

lemma afterWake_uncounted (more : Nat) : (afterWake more).uncounted = 0 := by
  rw [afterWake]
  split <;> rfl

variable {s t : ParkState} {taken w i more : Nat}

lemma callStep_count {taken workers : Nat} (h : CountInv s taken)
    (hfits : QueueFits s (.call i)) (hs : s.callStep workers i = some t) : CountInv t taken := by
  unfold callStep at hs
  dsimp only [QueueFits] at hfits
  cases hx : s.calls[i]? with
  | none =>
    rw [hx] at hs
    cases hs
  | some pc =>
    rw [hx] at hs hfits
    cases pc <;> dsimp only at hs hfits
    case done | write => cases hs
    case insert k start more =>
      obtain ⟨-, rfl⟩ := of_guard hs
      exact h.insert hx hfits
    case count k start more =>
      cases hs
      exact h.add hx
    case claimLoad start pos more =>
      cases hs
      unfold ParkState.claimLoad
      split
      · exact h.of_call hx rfl ⟨rfl, rfl⟩ ⟨rfl, rfl, rfl, rfl⟩
      · exact h.of_call hx rfl ⟨rfl, claimNext_uncounted ..⟩ ⟨rfl, rfl, rfl, rfl⟩
    case claimCas start pos more observed =>
      cases hs
      unfold ParkState.claimCas
      split
      · exact h.of_call hx rfl ⟨rfl, rfl⟩ ⟨rfl, rfl, rfl, rfl⟩
      · split
        · refine h.of_call hx rfl ⟨rfl, ?_⟩ ⟨rfl, rfl, rfl, rfl⟩
          split <;> rfl
        · exact h.of_call hx rfl ⟨rfl, claimNext_uncounted ..⟩ ⟨rfl, rfl, rfl, rfl⟩
    case notify | inboxLoadPos | inboxPublish =>
      cases hs
      exact h.of_call hx rfl ⟨rfl, rfl⟩ ⟨rfl, rfl, rfl, rfl⟩
    case exchange w more =>
      split at hs <;> cases hs
      · exact h.of_call hx rfl ⟨rfl, afterWake_uncounted more⟩ ⟨rfl, rfl, rfl, rfl⟩
      · exact h.of_call hx rfl ⟨rfl, rfl⟩ ⟨rfl, rfl, rfl, rfl⟩
    case inboxLoadSeq target pos =>
      split at hs
      · cases hs
        exact h.of_call hx rfl ⟨rfl, rfl⟩ ⟨rfl, rfl, rfl, rfl⟩
      · split at hs <;> cases hs
        all_goals exact h.of_call hx rfl ⟨rfl, rfl⟩ ⟨rfl, rfl, rfl, rfl⟩
    case inboxCas | clearIdle =>
      split at hs <;> cases hs
      all_goals exact h.of_call hx rfl ⟨rfl, rfl⟩ ⟨rfl, rfl, rfl, rfl⟩

lemma workerStep_count {taken workers : Nat} {found : Bool} (h : CountInv s taken)
    (hs : s.workerStep workers w found = some t) : ∃ taken', CountInv t taken' := by
  unfold workerStep at hs
  cases hpc : s.worker w <;> rw [hpc] at hs <;> dsimp only at hs
  case running => cases hs
  case popLock batch =>
    obtain ⟨hfree, hs⟩ := ite_none_right_eq_some.mp hs
    split at hs <;> cases hs
    · exact ⟨taken, h.of_worker (by simp [hpc]) (by nofun) rfl ⟨rfl, rfl, rfl, rfl⟩⟩
    · exact ⟨_, h.remove hfree (popCount_le s workers batch)⟩
  case popSub k =>
    cases hs
    exact ⟨0, h.subtract hpc⟩
  case inPoll blocking =>
    obtain ⟨-, rfl⟩ := of_unless hs
    exact ⟨taken, h.of_worker (by simp [hpc]) (by nofun) rfl ⟨rfl, rfl, rfl, rfl⟩⟩
  case enterPoll blocking =>
    split at hs <;> cases hs
    · exact ⟨taken, h.of_worker (by simp [hpc]) (by cases blocking <;> nofun) rfl ⟨rfl, rfl, rfl, rfl⟩⟩
    · exact ⟨taken, h.of_worker (by simp [hpc]) (by nofun) rfl ⟨rfl, rfl, rfl, rfl⟩⟩
  case drain blocking =>
    split at hs <;> cases hs
    · exact ⟨taken, h.of_worker (by simp [hpc]) (by nofun) rfl ⟨rfl, rfl, rfl, rfl⟩⟩
    · exact ⟨taken, { h with }⟩
  all_goals
    cases hs
    refine ⟨taken, h.of_worker (by simp [hpc]) ?_ rfl ⟨rfl, rfl, rfl, rfl⟩⟩
  case inboxTake | setIdle | resetPending | leavePark => nofun
  case leavePoll blocking => cases blocking <;> nofun
  all_goals
    split <;> nofun

lemma startStep_count {pc : WorkerPc} (h : CountInv s taken)
    (hpc : ∀ k, pc ≠ .popSub k) (hs : s.startStep w pc = some t) : CountInv t taken := by
  unfold startStep at hs
  split at hs <;> cases hs
  rename_i hrun
  exact h.of_worker (by simp [hrun]) hpc rfl ⟨rfl, rfl, rfl, rfl⟩

lemma CountInv.addCall {s : ParkState} (h : CountInv s taken) {pc : CallPc}
    (hpc : pc.uncounted = 0) : CountInv (s.addCall pc) taken := by
  refine ⟨?_, h.holder, h.held, h.free, h.fits⟩
  show s.size + word (weight uncounted (s.calls ++ [pc])) = word (s.queued + taken)
  rw [weight_concat, hpc]
  exact h.count

lemma writeWake_count {s : ParkState} (h : CountInv s taken) (hx : s.calls[i]? = some (.write w more))
    (r : WriteResult) : CountInv (s.writeWake i w more r) taken := by
  cases r with
  | eintr => exact h
  | written | eagain | failed => exact h.of_call hx rfl ⟨rfl, afterWake_uncounted more⟩ ⟨rfl, rfl, rfl, rfl⟩

lemma parkStep_count {n : Workers} {act : ParkAct} (h : CountInv s taken) (hfits : QueueFits s act)
    (hs : parkStep n s act = some t) : ∃ taken', CountInv t taken' := by
  cases act with
  | push =>
    cases hs
    exact ⟨taken, h.addCall rfl⟩
  | pushBatch | spill =>
    obtain ⟨-, rfl⟩ := of_unless hs
    exact ⟨taken, h.addCall rfl⟩
  | enqueueRemote =>
    obtain ⟨-, rfl⟩ := of_guard hs
    exact ⟨taken, h.addCall rfl⟩
  | call => exact ⟨taken, callStep_count h hfits hs⟩
  | weakFail i =>
    simp only [parkStep, weakFail] at hs
    split at hs <;> cases hs
    rename_i hx
    exact ⟨taken, h.of_call hx rfl ⟨rfl, rfl⟩ ⟨rfl, rfl, rfl, rfl⟩⟩
  | write i r =>
    simp only [parkStep] at hs
    split at hs
    · rename_i hx
      obtain ⟨-, rfl⟩ := of_guard hs
      exact ⟨taken, writeWake_count h hx r⟩
    · cases hs
  | popGlobal | popInbox =>
    simp only [parkStep, ite_none_right_eq_some] at hs
    refine ⟨taken, startStep_count h ?_ hs.2⟩
    split <;> nofun
  | pollNow | park =>
    simp only [parkStep, ite_none_right_eq_some] at hs
    exact ⟨taken, startStep_count h (by nofun) hs.2⟩
  | worker =>
    simp only [parkStep, ite_none_right_eq_some] at hs
    exact workerStep_count h hs.2
  | foreignPoll =>
    obtain ⟨-, rfl⟩ := of_unless hs
    exact ⟨taken, { h with }⟩
  | foreignDone =>
    obtain ⟨-, rfl⟩ := of_guard hs
    exact ⟨taken, { h with }⟩

end Cio.Sched
