import Cio.DialModel

/-! Outside its windows the cancellable dial keeps its promises: where the watcher is says what the two fields
hold, and where the task that dials is says what it may still do with them. -/

namespace Cio.Net.Dial

open Reactor

namespace WatcherPc

def cleared : WatcherPc → Bool
  | .clearDesc _ | .publish _ | .detach _ | .closeFd _ | .done true => true
  | .select | .clearFd | .done false => false

def unlinked : WatcherPc → Bool
  | .publish _ | .detach _ | .closeFd _ | .done true => true
  | .select | .clearFd | .clearDesc _ | .done false => false

def published : WatcherPc → Bool
  | .detach _ | .closeFd _ | .done true => true
  | .select | .clearFd | .clearDesc _ | .publish _ | .done false => false

def swept : WatcherPc → Bool
  | .closeFd _ | .done true => true
  | .select | .clearFd | .clearDesc _ | .publish _ | .detach _ | .done false => false

end WatcherPc

def DialPc.past : DialPc → Bool
  | .joining _ | .done _ => true
  | .start | .awaiting | .suspend | .parked | .woken _ | .sockopt | .sockoptCall _ | .peer | .peerCall _ | .note
  | .settle _ | .crashed => false

/-- The dial and its watcher agree about the descriptor. -/
structure Kept (s : State) : Prop where
  alive : s.dial ≠ .crashed
  clean : s.stale = false
  fd : s.watcher.cleared = true → s.fd = -1
  desc : s.desc = !s.watcher.unlinked
  closing : s.closing = s.watcher.published
  released : s.released = true → s.watcher = .done true
  derefs : s.dial.derefs = true → s.desc = true
  calling : s.dial.calling = true → s.released = false
  parked : s.dial = .parked ↔ s.slot = .waiter ()
  swept : s.watcher.swept = true → s.dial ≠ .parked
  settled : s.settled = s.dial.past
  quiet : s.watcher = .done false → s.settled = true
  joined : ∀ r, s.dial = .done r → ∃ b, s.watcher = .done b ∧ (b = true → r = some (.errc .cancelled))

attribute [local simp] DialPc.past State.unblock SlotWord.unblock

lemma kept_init {fd : Int} : Kept { fd := fd } := by
  constructor <;> simp [WatcherPc.cleared, WatcherPc.unlinked, WatcherPc.published, WatcherPc.swept, DialPc.calling]

variable {s u : State}

section

variable (h : Kept s)

include h

lemma Kept.setDial (pc : DialPc) (stale : Bool) (halive : pc ≠ .crashed) (hclean : stale = false)
    (hder : pc.derefs → s.desc) (hcall : pc.calling → s.released = false) (hpark : s.dial ≠ .parked ∧ pc ≠ .parked)
    (hpast : s.dial.past = false ∧ pc.past = false) : Kept { s with stale := stale, dial := pc } := by
  refine { h with
    alive := halive
    clean := hclean
    derefs := hder
    calling := hcall
    parked := iff_of_false hpark.2 fun hslot => hpark.1 (h.parked.mpr hslot)
    swept := fun _ => hpark.2
    settled := h.settled.trans (hpast.1.trans hpast.2.symm)
    joined := fun r hr => ?_ }
  have hpc : pc.past = true := by rw [show pc = .done r from hr]; rfl
  rw [hpast.2] at hpc
  cases hpc

lemma Kept.fd_safe (hfd : decide (0 ≤ s.fd)) : s.released = false := by
  rw [Bool.eq_false_iff]
  intro hrel
  have hclr := h.fd (by rw [h.released hrel]; rfl)
  rw [hclr] at hfd
  cases hfd

lemma Kept.move (pc : DialPc) (halive : pc ≠ .crashed) (hder : pc.derefs = false)
    (hcall : pc.calling → s.released = false) (hpark : s.dial ≠ .parked ∧ pc ≠ .parked)
    (hpast : s.dial.past = false ∧ pc.past = false) : Kept { s with dial := pc } := by
  refine h.setDial pc s.stale halive h.clean (fun hd => ?_) hcall hpark hpast
  rw [hder] at hd
  cases hd

lemma Kept.settle {result : Option Error} (hpark : s.dial ≠ .parked)
    (hpast : s.dial.past = false) : Kept { s with dial := .settle result } :=
  h.move (.settle result) (by simp) rfl nofun ⟨hpark, by simp⟩ ⟨hpast, rfl⟩

lemma suspend_kept {stopping : Bool} {answer : Answer} (hpc : s.dial = .suspend)
    (hs : dialStep s stopping answer = some u) : Kept u := by
  have hpark : s.dial ≠ .parked := by simp [hpc]
  have hpast : s.dial.past = false := by rw [hpc]; rfl
  simp only [dialStep, hpc] at hs
  split at hs
  · cases hs
  cases hio : s.ioError stopping with
  | some =>
    rw [hio] at hs
    cases hs
    exact h.settle hpark hpast
  | none =>
    rw [hio] at hs
    have hopen : s.closing = false := by
      rw [Bool.eq_false_iff]
      intro hend
      rw [State.ioError, if_pos hend] at hio
      cases hio
    cases hslot : s.slot with
    | waiter => exact absurd (h.parked.mpr hslot) hpark
    | ready =>
      simp only [hslot] at hs
      cases hs
      exact { h with
        alive := by simp
        derefs := nofun
        calling := nofun
        parked := by simp
        swept := fun _ => by simp
        settled := h.settled.trans hpast
        joined := nofun }
    | idle =>
      simp only [hslot] at hs
      cases hs
      refine { h with
        alive := by simp
        derefs := nofun
        calling := nofun
        parked := by simp
        swept := fun hswept => ?_
        settled := h.settled.trans hpast
        joined := nofun }
      -- nobody parks after the sweep: `closing` is published before it
      have hpub : s.watcher.published = true := by
        revert hswept
        cases s.watcher with
        | done b => cases b <;> exact id
        | _ => first | exact fun _ => rfl | exact nofun
      rw [← h.closing, hopen] at hpub
      cases hpub

lemma Kept.called {pc : DialPc} (hcall : s.dial.calling) (halive : pc ≠ .crashed) (hder : pc.derefs → s.desc)
    (hquiet : pc.calling = false) (hpark : pc ≠ .parked) (hpast : pc.past = false) :
    Kept { s with stale := s.stale || s.released, dial := pc } := by
  have hopen := h.calling hcall
  have hold : s.dial ≠ .parked ∧ s.dial.past = false := by
    cases hpc : s.dial with
    | sockoptCall | peerCall => exact ⟨by simp, rfl⟩
    | _ =>
      rw [hpc] at hcall
      cases hcall
  refine h.setDial pc _ halive (by rw [h.clean, hopen]; rfl) hder (fun hc => ?_) ⟨hold.1, hpark⟩ ⟨hold.2, hpast⟩
  rw [hquiet] at hc
  cases hc

lemma dialStep_kept {stopping : Bool} {answer : Answer}
    (hsafe : Safe s (.dial stopping answer)) (hs : dialStep s stopping answer = some u) : Kept u := by
  cases hpc : s.dial with
  | start | note =>
    have hdesc := h.derefs (hpc ▸ rfl)
    simp only [dialStep, hpc] at hs
    rw [if_pos hdesc] at hs
    cases hs
    exact h.move .awaiting (by simp) rfl nofun (by simp [hpc]) (by simp [hpc])
  | awaiting =>
    simp only [dialStep, hpc] at hs
    by_cases hdesc : s.desc
    · rw [if_pos hdesc] at hs
      cases hs
      exact h.move .suspend (by simp) rfl nofun (by simp [hpc]) (by simp [hpc])
    · rw [if_neg hdesc] at hs
      cases hs
      exact h.settle (by simp [hpc]) (hpc ▸ rfl)
  | suspend => exact suspend_kept h hpc hs
  | parked | done | crashed =>
    simp only [dialStep, hpc] at hs
    cases hs
  | woken err =>
    have hpark : s.dial ≠ .parked := by simp [hpc]
    have hpast : s.dial.past = false := by rw [hpc]; rfl
    cases err with
    | some =>
      simp only [dialStep, hpc] at hs
      cases hs
      exact h.settle hpark hpast
    | none =>
      simp only [dialStep, hpc] at hs
      split at hs <;> cases hs
      · exact h.settle hpark hpast
      · exact h.move .sockopt (by simp) rfl nofun ⟨hpark, by simp⟩ ⟨hpast, rfl⟩
  | sockopt =>
    simp only [dialStep, hpc] at hs
    cases hs
    exact h.move (.sockoptCall s.fd) (by simp) rfl h.fd_safe (by simp [hpc]) (by simp [hpc])
  | peer =>
    simp only [dialStep, hpc] at hs
    cases hs
    exact h.move (.peerCall s.fd) (by simp) rfl h.fd_safe (by simp [hpc]) (by simp [hpc])
  | sockoptCall fd =>
    simp only [dialStep, hpc] at hs
    split at hs
    · cases hs
      exact h.settle (by simp [hpc]) (hpc ▸ rfl)
    · rename_i hfd
      have hcall : s.dial.calling = true := by
        rw [hpc]
        exact decide_eq_true (not_lt.mp hfd)
      split at hs <;> cases hs
      all_goals exact h.called hcall (by simp) nofun rfl (by simp) rfl
  | peerCall fd =>
    simp only [dialStep, hpc] at hs
    split at hs
    · cases hs
      exact h.settle (by simp [hpc]) (hpc ▸ rfl)
    · rename_i hfd
      have hcall : s.dial.calling = true := by
        rw [hpc]
        exact decide_eq_true (not_lt.mp hfd)
      split at hs <;> cases hs
      · exact h.called hcall (by simp) nofun rfl (by simp) rfl
      · exact h.called hcall (by simp) nofun rfl (by simp) rfl
      · refine h.called hcall (by simp) (fun _ => hsafe ?_ rfl) rfl (by simp) rfl
        rw [hpc]
        exact decide_eq_true (not_lt.mp hfd)
  | settle =>
    simp only [dialStep, hpc] at hs
    cases hs
    exact { h with
      alive := by simp
      derefs := nofun
      calling := nofun
      parked := iff_of_false (by simp) fun hslot => absurd (h.parked.mpr hslot) (by simp [hpc])
      swept := fun _ => by simp
      settled := rfl
      quiet := fun _ => rfl
      joined := nofun }
  | joining result =>
    simp only [dialStep, hpc] at hs
    split at hs
    · rename_i cancelled hwatcher
      cases hs
      exact { h with
        alive := by simp
        derefs := nofun
        calling := nofun
        parked := iff_of_false (by simp) fun hslot => absurd (h.parked.mpr hslot) (by simp [hpc])
        swept := fun _ => by simp
        settled := h.settled.trans (hpc ▸ rfl)
        joined := fun r hr => by
          cases hr
          exact ⟨cancelled, hwatcher, fun hc => if_pos hc⟩ }
    · cases hs

lemma Kept.unblock (err : Option Error) : Kept (s.unblock err) := by
  by_cases hslot : s.slot = .waiter ()
  · have hpc := h.parked.mpr hslot
    have hpast : s.dial.past = false := by rw [hpc]; rfl
    unfold State.unblock
    rw [if_pos hslot, hslot]
    exact { h with
      alive := by simp
      derefs := nofun
      calling := nofun
      parked := by simp
      swept := fun _ => by simp
      settled := h.settled.trans hpast
      joined := nofun }
  · have hne : s.slot.unblock ≠ .waiter () := by cases s.slot <;> simp
    unfold State.unblock
    rw [if_neg hslot]
    exact { h with
      parked := iff_of_false (fun hpc => hslot (h.parked.mp hpc)) hne }

lemma Kept.setWatcher (hstale : u.stale = s.stale) (hdial : u.dial = s.dial) (hslot : u.slot = s.slot)
    (hset : u.settled = s.settled) (hold : ∀ b, s.watcher ≠ .done b) (hfd : u.watcher.cleared → u.fd = -1)
    (hdesc : u.desc = !u.watcher.unlinked) (hend : u.closing = u.watcher.published)
    (hrel : u.released → u.watcher = .done true) (hder : s.dial.derefs → u.desc)
    (hcall : s.dial.calling → u.released = false) (hswept : u.watcher.swept → s.dial ≠ .parked)
    (hquiet : u.watcher = .done false → s.settled) : Kept u := by
  refine ⟨hdial ▸ h.alive, hstale.trans h.clean, hfd, hdesc, hend, hrel, hdial ▸ hder,
    hdial ▸ hcall, ?_, hdial ▸ hswept, ?_, ?_, fun r hr => ?_⟩
  · rw [hdial, hslot]
    exact h.parked
  · rw [hset, hdial]
    exact h.settled
  · rw [hset]
    exact hquiet
  · obtain ⟨b, hb, -⟩ := h.joined r (hdial.symm.trans hr)
    exact absurd hb (hold b)

lemma watcherStep_kept {cancel : Bool} (hsafe : Safe s (.watcher cancel))
    (hst : watcherStep s cancel = some u) : Kept u := by
  have hrel : (∀ b, s.watcher ≠ .done b) → s.released = false := by
    intro hold
    rw [Bool.eq_false_iff]
    exact fun hr => hold true (h.released hr)
  cases hw : s.watcher with simp only [watcherStep, hw] at hst
  | done => cases hst
  | select =>
    have hold : ∀ b, s.watcher ≠ .done b := by simp [hw]
    have hopen := hrel hold
    have hdesc : s.desc = true := by rw [h.desc, hw]; rfl
    have hend : s.closing = false := by rw [h.closing, hw]; rfl
    split at hst
    · split at hst <;> cases hst
      exact h.setWatcher rfl rfl rfl rfl hold nofun hdesc hend
        (fun hr => absurd hr (by simp [hopen])) h.derefs h.calling nofun
        nofun
    · split at hst <;> cases hst
      rename_i hset
      exact h.setWatcher rfl rfl rfl rfl hold nofun hdesc hend
        (fun hr => absurd hr (by simp [hopen])) h.derefs h.calling nofun (fun _ => hset)
  | clearFd =>
    have hold : ∀ b, s.watcher ≠ .done b := by simp [hw]
    have hopen := hrel hold
    cases hst
    exact h.setWatcher rfl rfl rfl rfl hold (fun _ => rfl) (by rw [h.desc, hw]; rfl)
      (by rw [h.closing, hw]; rfl) (fun hr => absurd hr (by simp [hopen])) h.derefs h.calling
      nofun nofun
  | clearDesc =>
    have hold : ∀ b, s.watcher ≠ .done b := by simp [hw]
    have hopen := hrel hold
    have hnoderef := hsafe.1 (hw ▸ rfl)
    cases hst
    exact h.setWatcher rfl rfl rfl rfl hold (fun _ => h.fd (hw ▸ rfl)) rfl (by rw [h.closing, hw]; rfl)
      (fun hr => absurd hr (by simp [hopen])) (fun hd => absurd hd (by simp [hnoderef])) h.calling
      nofun nofun
  | publish =>
    have hold : ∀ b, s.watcher ≠ .done b := by simp [hw]
    have hopen := hrel hold
    cases hst
    exact h.setWatcher rfl rfl rfl rfl hold (fun _ => h.fd (hw ▸ rfl)) (by rw [h.desc, hw]; rfl) rfl
      (fun hr => absurd hr (by simp [hopen])) h.derefs h.calling nofun
      nofun
  | detach =>
    have hold : ∀ b, s.watcher ≠ .done b := by simp [hw]
    have hopen := hrel hold
    cases hst
    have hk := h.unblock (some (.errc .closed))
    refine hk.setWatcher rfl rfl rfl rfl hold (fun _ => h.fd (hw ▸ rfl)) ?_ ?_
      (fun hr => absurd hr (by simp [hopen])) hk.derefs hk.calling (fun _ => ?_)
      nofun
    · exact h.desc.trans (hw ▸ rfl)
    · exact h.closing.trans (hw ▸ rfl)
    · -- whoever was parked was woken
      intro hpc
      have hslot := hk.parked.mp hpc
      cases hs : s.slot <;> simp [hs] at hslot
  | closeFd =>
    have hold : ∀ b, s.watcher ≠ .done b := by simp [hw]
    have hnocall := hsafe.2 (hw ▸ rfl)
    cases hst
    exact h.setWatcher rfl rfl rfl rfl hold (fun _ => h.fd (hw ▸ rfl)) (by rw [h.desc, hw]; rfl)
      (by rw [h.closing, hw]; rfl) (fun _ => rfl) h.derefs (fun hc => absurd hc (by simp [hnocall]))
      (fun _ => h.swept (hw ▸ rfl)) nofun

lemma step_kept {act : Act} (hsafe : Safe s act) (hs : step s act = some u) : Kept u := by
  cases act with
  | fire =>
    cases hs
    exact { h with }
  | edge =>
    cases hs
    exact h.unblock none
  | dial => exact dialStep_kept h hsafe hs
  | watcher => exact watcherStep_kept h hsafe hs

end

lemma kept_of_reachable (hs : dialSystem.ReachableVia Safe s) : Kept s := by
  refine hs.invariant (fun s hinit => ?_) fun s act u h hsafe hst => step_kept h hsafe hst
  obtain ⟨fd, -, rfl⟩ := hinit
  exact kept_init

end Cio.Net.Dial
