import Cio.ChannelCore

/-! The handshake of one selector. A selector is resumed once: by its own setup, when the phase was taken
before it could park, or by the waker that finds it parked. A winner that is set is followed by one waker, which
is owed until it takes the phase; no waker is owed once the phase was taken or the selector runs again. -/

namespace Cio.Chan

open Function

variable {α : Type}

/-- A selector with its timeouts, its queued waiters and its pending wakes. -/
structure SelView where
  pc : SelPc
  phase : Phase
  winner : Option Nat
  inlineResumes : Nat
  dispatched : Nat
  enqueued : Bool
  timer : Nat → TimerPc
  linked : Nat → Prop
  waking : Nat → Prop

namespace SelView

def PcOk (v : SelView) : Prop :=
  match v.pc with
  | .fresh =>
    v.winner = none ∧ v.phase = .setup ∧ v.inlineResumes = 0 ∧ v.dispatched = 0
  | .arming _ => v.phase ≠ .parked ∧ v.inlineResumes = 0 ∧ v.dispatched = 0 ∧ v.enqueued = true
  | .suspended =>
    v.phase ≠ .setup ∧ v.inlineResumes = 0 ∧ (v.dispatched = if v.phase = .resumed then 1 else 0) ∧
      v.enqueued = true
  | .finishing _ | .completed =>
    v.phase ≠ .parked ∧ v.winner ≠ none ∧ v.inlineResumes + v.dispatched = 1

/-- Where the waiter of case `i` may still be queued. -/
def MayLink (v : SelView) (i : Nat) : Prop :=
  match v.pc with
  | .fresh | .completed => False
  | .arming _ | .suspended => True
  | .finishing j => j ≤ i ∧ v.enqueued = true

/-- Where the timeout of case `i` may be in the heap or in its callback. -/
def MayFire (v : SelView) (i : Nat) : Prop :=
  match v.pc with
  | .fresh | .completed => False
  | .arming j => i < j
  | .suspended => True
  | .finishing j => j ≤ i ∧ v.enqueued = true

def Running (v : SelView) : Prop :=
  match v.pc with
  | .finishing _ | .completed => True
  | _ => False

def Owed (v : SelView) (i : Nat) : Prop := v.waking i ∨ v.timer i = .won

/-- Winner, links and timers agree with the phase. -/
structure Ok (cases : List (Case α)) (v : SelView) : Prop where
  pc : v.PcOk
  linked : ∀ i, v.linked i → v.MayLink i
  timer : ∀ i, v.timer i ≠ .idle → cases[i]? = some .timeout ∧ v.MayFire i
  waking : ∀ i, v.waking i → cases[i]? ≠ some .timeout
  owed : ∀ i, v.Owed i → v.winner = some i ∧ v.phase ≠ .resumed ∧ ¬ v.Running
  resumed : v.phase = .resumed → v.winner ≠ none
  notLost : v.winner ≠ none → v.Running ∨ v.phase = .resumed ∨ ∃ i, v.Owed i
  index : ∀ i, v.winner = some i → i < cases.length

namespace Ok

variable {cases : List (Case α)} {v v' : SelView} {i : Nat}

section

variable (h : v.Ok cases)

include h

lemma not_running (hnone : v.winner = none) : ¬ v.Running := by
  intro hrun
  have hpc := h.pc
  rw [PcOk] at hpc
  rw [Running] at hrun
  cases hv : v.pc with
  | fresh | arming | suspended =>
    rw [hv] at hrun
    exact hrun
  | finishing | completed =>
    rw [hv] at hpc
    exact hpc.2.1 hnone

lemma not_owed (hnone : v.winner = none) (i : Nat) : ¬ v.Owed i := by
  intro howed
  have hwin := (h.owed i howed).1
  rw [hnone] at hwin
  cases hwin

lemma owed_unique {j : Nat} (hi : v.Owed i) (hj : v.Owed j) : j = i :=
  Option.some.inj ((h.owed j hj).1.symm.trans (h.owed i hi).1)

lemma not_waking_of_timer (hi : v.timer i ≠ .idle) : ¬ v.waking i :=
  fun hwake => h.waking i hwake (h.timer i hi).1

lemma frame (hlink : ∀ i, v'.linked i → v.linked i := by exact fun _ hl => hl)
    (hwaking : ∀ i, v'.waking i ↔ v.waking i := by exact fun _ => Iff.rfl)
    (hpc : v'.pc = v.pc := by first | rfl | exact update_of_ne ‹_› ..)
    (hphase : v'.phase = v.phase := by first | rfl | exact update_of_ne ‹_› ..)
    (hwin : v'.winner = v.winner := by first | rfl | exact update_of_ne ‹_› ..)
    (hinl : v'.inlineResumes = v.inlineResumes := by first | rfl | exact update_of_ne ‹_› ..)
    (hsent : v'.dispatched = v.dispatched := by first | rfl | exact update_of_ne ‹_› ..)
    (henq : v'.enqueued = v.enqueued := by first | rfl | exact update_of_ne ‹_› ..)
    (htimer : v'.timer = v.timer := by first | rfl | exact update_of_ne ‹_› ..) : v'.Ok cases := by
  have howed : ∀ i, v'.Owed i ↔ v.Owed i := by
    intro i
    rw [Owed, hwaking, htimer, Owed]
  refine ⟨?_, fun i hi => ?_, fun i hi => ?_, fun i hi => h.waking i ((hwaking i).mp hi), fun i hi => ?_, ?_,
    fun hw => ?_, ?_⟩
  · rw [PcOk, hpc, hphase, hwin, hinl, hsent, henq]
    exact h.pc
  · rw [MayLink, hpc, henq]
    exact h.linked i (hlink i hi)
  · rw [htimer] at hi
    rw [MayFire, hpc, henq]
    exact h.timer i hi
  · rw [Running, hpc, hphase, hwin]
    exact h.owed i ((howed i).mp hi)
  · rw [hphase, hwin]
    exact h.resumed
  · rw [hwin] at hw
    rw [Running, hpc, hphase]
    rcases h.notLost hw with hrun | hres | ⟨i, hi⟩
    · exact .inl hrun
    · exact .inr (.inl hres)
    · exact .inr (.inr ⟨i, (howed i).mpr hi⟩)
  · rw [hwin]
    exact h.index

lemma win (linked waking : Nat → Prop) (timer : Nat → TimerPc) (hfresh : v.pc ≠ .fresh) (hnone : v.winner = none)
    (hi : i < cases.length) (hlink : ∀ j, linked j → v.linked j) (htimer : ∀ j, timer j ≠ .idle → v.timer j ≠ .idle)
    (hwaking : ∀ j, waking j → j = i ∧ cases[i]? ≠ some .timeout) (hwon : ∀ j, timer j = .won → j = i)
    (howed : waking i ∨ timer i = .won) :
    ({ v with winner := some i, linked := linked, waking := waking, timer := timer } : SelView).Ok cases := by
  have hpc := h.pc
  refine ⟨?_, fun j hj => h.linked j (hlink j hj), fun j hj => h.timer j (htimer j hj), fun j hj => ?_,
    fun j hj => ⟨?_, fun hres => h.resumed hres hnone, h.not_running hnone⟩, fun _ => by nofun,
    fun _ => .inr (.inr ⟨i, howed⟩), fun j hj => ?_⟩
  · rw [PcOk] at hpc ⊢
    cases hv : v.pc with
    | fresh => exact absurd hv hfresh
    | arming | suspended =>
      rw [hv] at hpc
      exact hpc
    | finishing | completed =>
      rw [hv] at hpc
      exact absurd hnone hpc.2.1
  · obtain ⟨rfl, hcase⟩ := hwaking j hj
    exact hcase
  · rcases hj with hj | hj
    · rw [(hwaking j hj).1]
    · rw [hwon j hj]
  · cases hj
    exact hi

end

/-! ### The setup, the wakers and `finish` -/

lemma inline (h : v.Ok cases) (hfresh : v.pc = .fresh) (hi : i < cases.length) :
    ({ v with pc := .finishing 0, winner := some i, inlineResumes := v.inlineResumes + 1 } :
      SelView).Ok cases := by
  have hpc := h.pc
  rw [PcOk, hfresh] at hpc
  obtain ⟨hnone, hsetup, hinl, hsent⟩ := hpc
  refine ⟨⟨?_, nofun, ?_⟩, fun j hj => ?_, fun j hj => ?_, h.waking, fun j hj => ?_, fun _ => by nofun,
    fun _ => .inl trivial, fun j hj => ?_⟩
  · rw [hsetup]
    nofun
  · show v.inlineResumes + 1 + v.dispatched = 1
    omega
  · have hmay := h.linked j hj
    rw [MayLink, hfresh] at hmay
    exact hmay.elim
  · have hmay := (h.timer j hj).2
    rw [MayFire, hfresh] at hmay
    exact hmay.elim
  · exact absurd hj (h.not_owed hnone j)
  · cases hj
    exact hi

lemma publish (h : v.Ok cases) (hfresh : v.pc = .fresh) (linked : Nat → Prop) :
    ({ v with pc := .arming 0, enqueued := true, linked := linked } : SelView).Ok cases := by
  have hpc := h.pc
  rw [PcOk, hfresh] at hpc
  obtain ⟨hnone, hsetup, hinl, hsent⟩ := hpc
  refine ⟨⟨?_, hinl, hsent, rfl⟩, fun _ _ => trivial, fun j hj => ?_, h.waking,
    fun j hj => absurd hj (h.not_owed hnone j), h.resumed, fun hw => absurd hnone hw, h.index⟩
  · rw [hsetup]
    nofun
  · have hmay := (h.timer j hj).2
    rw [MayFire, hfresh] at hmay
    exact hmay.elim

lemma move (h : v.Ok cases) (hpc : v'.PcOk) (hlink : ∀ i, v'.linked i → v'.MayLink i)
    (hfire : ∀ i, v.timer i ≠ .idle → v.MayFire i → v'.MayFire i) (hphase : v'.phase = .resumed ↔ v.phase = .resumed)
    (hrun : v.Running → v'.Running) (hrun' : v'.Running → v.Running ∨ v.phase = .resumed)
    (hwin : v'.winner = v.winner) (htimer : v'.timer = v.timer) (hwaking : v'.waking = v.waking) : v'.Ok cases := by
  have howed : v'.Owed = v.Owed := by
    funext i
    rw [Owed, hwaking, htimer, Owed]
  refine ⟨hpc, hlink, fun i hi => ?_, ?_, fun i hi => ?_, fun hres => ?_, fun hw => ?_, ?_⟩
  · rw [htimer] at hi
    exact ⟨(h.timer i hi).1, hfire i hi (h.timer i hi).2⟩
  · rw [hwaking]
    exact h.waking
  · rw [howed] at hi
    obtain ⟨hset, hnot, hstill⟩ := h.owed i hi
    exact ⟨hwin.trans hset, fun hres => hnot (hphase.mp hres), fun hr => (hrun' hr).elim hstill hnot⟩
  · rw [hwin]
    exact h.resumed (hphase.mp hres)
  · rw [hwin] at hw
    rw [howed]
    rcases h.notLost hw with hr | hres | hi
    · exact .inl (hrun hr)
    · exact .inr (.inl (hphase.mpr hres))
    · exact .inr (.inr hi)
  · rw [hwin]
    exact h.index

lemma retime (h : v.Ok cases) (pc : TimerPc) (hcase : pc ≠ .idle → cases[i]? = some .timeout ∧ v.MayFire i)
    (hwon : v.timer i ≠ .won) (hpc : pc ≠ .won) : ({ v with timer := update v.timer i pc } : SelView).Ok cases := by
  have hiff : ∀ j, update v.timer i pc j = .won ↔ v.timer j = .won := by
    intro j
    by_cases hj : j = i
    · rw [hj, update_self]
      exact ⟨fun heq => absurd heq hpc, fun heq => absurd heq hwon⟩
    · rw [update_of_ne hj]
  refine ⟨h.pc, h.linked, fun j hj => ?_, h.waking, fun j hj => h.owed j (hj.imp_right (hiff j).mp), h.resumed,
    fun hw => ?_, h.index⟩
  · dsimp only at hj
    by_cases heq : j = i
    · subst heq
      rw [update_self] at hj
      exact hcase hj
    · rw [update_of_ne heq] at hj
      exact h.timer j hj
  · rcases h.notLost hw with hr | hres | ⟨j, hj⟩
    · exact .inl hr
    · exact .inr (.inl hres)
    · exact .inr (.inr ⟨j, hj.imp_right (hiff j).mpr⟩)

lemma exchange (h : v.Ok cases) (hwin : v.winner ≠ none) (waking : Nat → Prop) (timer : Nat → TimerPc)
    (htimer : ∀ j, timer j ≠ .idle → v.timer j ≠ .idle) (hwaking : ∀ j, ¬ waking j) (hwon : ∀ j, timer j ≠ .won) :
    ({ v with
      phase := .resumed
      dispatched := if v.phase = .parked then v.dispatched + 1 else v.dispatched
      waking := waking
      timer := timer } : SelView).Ok cases := by
  have hpc := h.pc
  refine ⟨?_, h.linked, fun j hj => h.timer j (htimer j hj), fun j hj => absurd hj (hwaking j), fun j hj => ?_,
    fun _ => hwin, fun _ => .inr (.inl rfl), h.index⟩
  · rw [PcOk] at hpc ⊢
    cases hv : v.pc with rw [hv] at hpc
    | fresh => exact absurd hpc.1 hwin
    | arming | finishing | completed =>
      rw [if_neg hpc.1]
      exact ⟨nofun, hpc.2⟩
    | suspended =>
      obtain ⟨hsetup, hinl, hsent, henq⟩ := hpc
      refine ⟨nofun, hinl, ?_, henq⟩
      cases hphase : v.phase with
      | setup => exact absurd hphase hsetup
      | parked | resumed =>
        rw [hphase] at hsent
        rw [hsent]
        rfl
  · rcases hj with hj | hj
    · exact absurd hj (hwaking j)
    · exact absurd hj (hwon j)

end Ok

end SelView

end Cio.Chan
