import Cio.DialKept

/-! What a cancellable dial guarantees. Once the watcher has cleared `desc_` the task that dials cannot loop any
more, so both tasks end, and the dial returns `cancelled`. -/

namespace Cio.Net.Dial

open Transition State

/-! ### The end of a cancelled dial -/

def DialPc.rank : DialPc → Nat
  | .start | .note => 11
  | .awaiting => 10
  | .suspend => 9
  | .parked => 8
  | .woken _ => 7
  | .sockopt => 6
  | .sockoptCall _ => 5
  | .peer => 4
  | .peerCall _ => 3
  | .settle _ => 2
  | .joining _ => 1
  | .done _ | .crashed => 0

def WatcherPc.rank : WatcherPc → Nat
  | .select => 6
  | .clearFd => 5
  | .clearDesc _ => 4
  | .publish _ => 3
  | .detach _ => 2
  | .closeFd _ => 1
  | .done _ => 0

def State.rank (s : State) : Nat := s.dial.rank + s.watcher.rank

/-- The two tasks go on after the watcher has begun to close the stream. -/
def cancelledDial : System State (Bool × Answer ⊕ Unit) where
  init s := dialSystem.ReachableVia Safe s ∧ s.desc = false
  step s
    | .inl (stopping, answer) => if Safe s (.dial stopping answer) then dialStep s stopping answer else none
    | .inr _ => if Safe s (.watcher true) then watcherStep s true else none

def Closing (s : State) : Prop := dialSystem.ReachableVia Safe s ∧ s.desc = false

variable {s u : State}

lemma dialStep_desc {stopping : Bool} {answer : Answer}
    (hs : dialStep s stopping answer = some u) : u.desc = s.desc := by
  unfold dialStep at hs
  split at hs <;> (try split at hs) <;> (try split at hs) <;> (try split at hs) <;> cases hs <;> rfl

lemma watcherStep_desc {cancel : Bool} (hs : watcherStep s cancel = some u)
    (hdesc : s.desc = false) : u.desc = false := by
  unfold watcherStep at hs
  split at hs <;> (try split at hs) <;> (try split at hs) <;> cases hs <;> first | rfl | exact hdesc

lemma Closing.step {a : Bool × Answer ⊕ Unit} (h : Closing s) (hs : cancelledDial.step s a = some u) : Closing u := by
  cases a with
  | inl label =>
    obtain ⟨hsafe, hs⟩ := Option.ite_none_right_eq_some.mp hs
    exact ⟨h.1.next hsafe hs, (dialStep_desc hs).trans h.2⟩
  | inr =>
    obtain ⟨hsafe, hs⟩ := Option.ite_none_right_eq_some.mp hs
    exact ⟨h.1.next hsafe hs, watcherStep_desc hs h.2⟩

lemma Kept.closing_of_unlocked (h : Kept s) (hdesc : s.desc = false)
    (hlock : s.watcher.locks = false) : s.closing = true := by
  rw [h.closing]
  have hoff := h.desc
  rw [hdesc] at hoff
  cases hw : s.watcher with
  | publish =>
    rw [hw] at hlock
    cases hlock
  | detach | closeFd => rfl
  | select | clearFd | clearDesc =>
    rw [hw] at hoff
    cases hoff
  | done b =>
    rw [hw] at hoff
    cases b with
    | true => rfl
    | false => cases hoff

attribute [local simp] DialPc.rank WatcherPc.rank rank

lemma dialStep_rank {stopping : Bool} {answer : Answer} (h : Kept s) (hdesc : s.desc = false)
    (hsafe : Safe s (.dial stopping answer)) (hs : dialStep s stopping answer = some u) : u.rank < s.rank := by
  have hder : s.dial.derefs = false := by
    rw [Bool.eq_false_iff]
    intro hd
    rw [h.derefs hd] at hdesc
    cases hdesc
  cases hpc : s.dial with simp only [dialStep, hpc] at hs
  | start | note =>
    rw [hpc] at hder
    cases hder
  | suspend =>
    split at hs
    · cases hs
    rename_i hlock
    have hend := h.closing_of_unlocked hdesc (Bool.eq_false_iff.mpr hlock)
    rw [ioError, if_pos hend] at hs
    cases hs
    simp [hpc]
  | awaiting =>
    simp only [hdesc] at hs
    cases hs
    simp [hpc]
  | woken err =>
    cases err with
    | some =>
      cases hs
      simp [hpc]
    | none =>
      dsimp only at hs
      split at hs <;> cases hs <;> simp [hpc]
  | sockoptCall =>
    split at hs
    · cases hs
      simp [hpc]
    · split at hs <;> cases hs <;> simp [hpc]
  | peerCall fd =>
    split at hs
    · cases hs
      simp [hpc]
    · rename_i hfd
      split at hs <;> cases hs
      · simp [hpc]
      · simp [hpc]
      · have hlink := hsafe (hpc ▸ decide_eq_true (not_lt.mp hfd)) rfl
        rw [hdesc] at hlink
        cases hlink
  | sockopt | peer | settle =>
    cases hs
    simp [hpc]
  | joining =>
    split at hs <;> cases hs
    simp [hpc]
  | parked | done | crashed => cases hs

lemma watcherStep_rank {cancel : Bool} (h : Kept s) (hs : watcherStep s cancel = some u) : u.rank < s.rank := by
  cases hw : s.watcher with simp only [watcherStep, hw] at hs
  | detach fd =>
    cases hs
    have hle : (s.unblock (some (.errc .closed))).dial.rank ≤ s.dial.rank := by
      unfold unblock
      dsimp only
      split
      · rename_i hslot
        rw [h.parked.mpr hslot]
        simp
      · exact le_rfl
    simp only [rank, hw, WatcherPc.rank]
    omega
  | select => split at hs <;> split at hs <;> cases hs <;> simp [hw]
  | clearFd | clearDesc | publish | closeFd =>
    cases hs
    simp [hw]
  | done => cases hs

lemma cancelledDial_rank {a : Bool × Answer ⊕ Unit} (h : Closing s)
    (hs : cancelledDial.step s a = some u) : u.rank < s.rank := by
  have hk := kept_of_reachable h.1
  cases a with
  | inl =>
    obtain ⟨hsafe, hs⟩ := Option.ite_none_right_eq_some.mp hs
    exact dialStep_rank hk h.2 hsafe hs
  | inr =>
    obtain ⟨-, hs⟩ := Option.ite_none_right_eq_some.mp hs
    exact watcherStep_rank hk hs

lemma dial_of_stuck (hstuck : cancelledDial.Stuck s) (hlock : s.watcher.locks = false) :
    s.dial = .parked ∨ s.dial = .crashed ∨ (∃ r, s.dial = .done r) ∨
      ∃ r, s.dial = .joining r ∧ ∀ b, s.watcher ≠ .done b := by
  have hsafe : Safe s (.dial false .ok) := nofun
  have hnone : dialStep s false .ok = none := by
    have hs := hstuck (.inl (false, .ok))
    simp only [cancelledDial] at hs
    rwa [if_pos hsafe] at hs
  cases hpc : s.dial with
  | parked => exact .inl rfl
  | crashed => exact .inr (.inl rfl)
  | done r => exact .inr (.inr (.inl ⟨r, rfl⟩))
  | joining r =>
    refine .inr (.inr (.inr ⟨r, rfl, fun b hw => ?_⟩))
    simp only [dialStep, hpc, hw] at hnone
    cases hnone
  | suspend =>
    simp only [dialStep, hpc, hlock, Bool.false_eq_true, if_false] at hnone
    split at hnone <;> (try split at hnone) <;> cases hnone
  | woken err =>
    cases err <;> simp only [dialStep, hpc] at hnone
    · split at hnone <;> cases hnone
    · cases hnone
  | sockoptCall | peerCall =>
    simp only [dialStep, hpc] at hnone
    split at hnone <;> cases hnone
  | start | awaiting | sockopt | peer | note | settle =>
    simp only [dialStep, hpc] at hnone
    cases hnone

lemma watcher_of_stuck (h : Kept s) (hdesc : s.desc = false) (hstuck : cancelledDial.Stuck s) :
    s.watcher = .done true := by
  have hoff := h.desc
  rw [hdesc] at hoff
  have hnone : Safe s (.watcher true) → watcherStep s true = none := by
    intro hsafe
    have hs := hstuck (.inr ())
    simp only [cancelledDial] at hs
    rwa [if_pos hsafe] at hs
  cases hw : s.watcher with
  | select | clearFd | clearDesc =>
    rw [hw] at hoff
    cases hoff
  | publish | detach =>
    have hs := hnone ⟨fun hu => (by rw [hw] at hu; cases hu), fun hc => (by rw [hw] at hc; cases hc)⟩
    simp only [watcherStep, hw] at hs
    cases hs
  | closeFd =>
    -- a call that is about to be made can be made
    have hcall : s.dial.calling = false := by
      rcases dial_of_stuck hstuck (hw ▸ rfl) with hpc | hpc | ⟨r, hpc⟩ | ⟨r, hpc, -⟩ <;> rw [hpc] <;> rfl
    have hs := hnone ⟨fun hu => (by rw [hw] at hu; cases hu), fun _ => hcall⟩
    simp only [watcherStep, hw] at hs
    cases hs
  | done b =>
    rw [hw] at hoff
    cases b with
    | true => rfl
    | false => cases hoff

lemma cancelledDial_endsIn : cancelledDial.EndsIn fun s => s.dial = .done (some (.errc .cancelled)) := by
  refine System.endsIn_of_measure (P := Closing) (m := rank) (fun _ h => h)
    (fun _ _ _ h hs => ⟨h.step hs, cancelledDial_rank h hs⟩) fun s hend hstuck => ?_
  have hk := kept_of_reachable hend.1
  have hw := watcher_of_stuck hk hend.2 hstuck
  rcases dial_of_stuck hstuck (hw ▸ rfl) with hpc | hpc | ⟨r, hpc⟩ | ⟨r, hpc, hwait⟩
  · exact absurd hpc (hk.swept (hw ▸ rfl))
  · exact absurd hpc hk.alive
  · obtain ⟨b, hb, hr⟩ := hk.joined r hpc
    rw [hw] at hb
    cases hb
    rw [hpc, hr rfl]
  · exact absurd hw (hwait true)

/-! ### The guarantee -/

/-- No null pointer was dereferenced, no call was made on a closed number, and a dial whose stream the watcher
closed has returned `cancelled` if it has returned. -/
structure DialSafe (s : State) : Prop where
  alive : s.dial ≠ .crashed
  clean : s.stale = false
  cancelled : ∀ r, s.dial = .done r → s.watcher = .done true → r = some (.errc .cancelled)

/-- **Outside its three windows the cancellable dial is safe, and a dial whose stream is closed by the watcher
returns `cancelled`.** -/
theorem dial_safe {s : State} (hs : dialSystem.ReachableVia Safe s) :
    DialSafe s ∧ cancelledDial.EndsIn fun s => s.dial = .done (some (.errc .cancelled)) := by
  refine ⟨?_, cancelledDial_endsIn⟩
  have hk := kept_of_reachable hs
  refine ⟨hk.alive, hk.clean, fun r hr hw => ?_⟩
  obtain ⟨b, hb, hres⟩ := hk.joined r hr
  rw [hw] at hb
  cases hb
  exact hres rfl

theorem dial_safe_parked : ∃ s, dialSystem.ReachableVia Safe s ∧ s.watcher = .done true ∧
    s.dial = .done (some (.errc .cancelled)) ∧ DialSafe s := by
  obtain ⟨s, hs, hw, hd⟩ := dialSystem.reachableVia_of_run Safe { fd := 7 }
    [.dial false .ok, .dial false .ok, .dial false .ok, .fire, .watcher true, .watcher true, .watcher true,
      .watcher true, .watcher true, .watcher true, .dial false .ok, .dial false .ok, .dial false .ok]
    (fun s => s.watcher = .done true ∧ s.dial = .done (some (.errc .cancelled)))
    ⟨7, by decide, rfl⟩ (by decide +kernel)
  exact ⟨s, hs, hw, hd, (dial_safe hs).1⟩

/-- The token fires before the first step of `await_connect`, which dereferences the cleared pointer; or between
readiness and the `SO_ERROR` check, which is then made on the closed number. -/
theorem dial_unsafe : (∃ s, dialSystem.Reachable s ∧ s.dial = .crashed) ∧
    ∃ s, dialSystem.Reachable s ∧ s.stale = true := by
  constructor
  · exact dialSystem.reachable_of_run { fd := 7 }
      [.fire, .watcher true, .watcher true, .watcher true, .dial false .ok] _
      ⟨7, by decide, rfl⟩ (by decide +kernel)
  · exact dialSystem.reachable_of_run { fd := 7 }
      [.dial false .ok, .dial false .ok, .edge, .dial false .ok, .dial false .ok, .dial false .ok, .fire,
        .watcher true, .watcher true, .watcher true, .watcher true, .watcher true, .watcher true, .dial false .ok]
      _ ⟨7, by decide, rfl⟩ (by decide +kernel)

end Cio.Net.Dial
