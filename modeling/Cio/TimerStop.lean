import Cio.CallPool
import Cio.TimerHandle
import Cio.TransitionSystem

/-! `Timer::stop` and `Timer::reset` beside the driver of a one-shot timer. Both decide what they return from one load
of `fired`, which the driver stores only after the deadline has won its select. -/

namespace Cio.TimerStop

open CallPool TimerHandle Transition List Core

/-- A call of `stop` or `reset` in progress; `pending` is what it has read from `fired` and will return. -/
inductive Call where
  | exchange
  | loadFired
  | cancel (pending : Bool)
  | loadStopped (deadline : Int)
  | loadPending (deadline : Int)
  | store (deadline : Int) (pending : Bool)
  | nudge (deadline : Int) (pending : Bool)
  | returned

/-- The timer and the calls on it. The rest is history: whether a stop has returned true, which call stored the deadline
last, the deadline of the last reset if it has returned true, and the times of the deliveries. -/
structure State where
  core : Core
  calls : List Call
  stopTrue : Bool
  setter : Nat
  promise : Option Int
  delivered : List Int

inductive Act where
  | stop
  | reset (deadline : Int)
  | call (i : Nat)
  | drive (rearmFirst : Bool)
  | fire
  | tick

namespace State

def create (deadline now : Int) : State where
  core := .start deadline 0 now
  calls := []
  stopTrue := false
  setter := 0
  promise := none
  delivered := []

def setCall (s : State) (i : Nat) (c : Call) : State := { s with calls := s.calls.set i c }

def callStep (s : State) (i : Nat) : Call → Option State
  | .exchange =>
    if s.core.stopped then some (s.setCall i .returned)
    else some { s.setCall i .loadFired with core := { s.core with stopped := true } }
  | .loadFired => some (s.setCall i (.cancel !s.core.fired))
  | .cancel pending =>
    some { s.setCall i .returned with core := s.core.closeStop, stopTrue := s.stopTrue || pending }
  | .loadStopped deadline => some (s.setCall i (if s.core.stopped then .returned else .loadPending deadline))
  | .loadPending deadline => some (s.setCall i (.store deadline !s.core.fired))
  | .store deadline pending =>
    some
      { s.setCall i (.nudge deadline pending) with
        core := { s.core with deadlineNs := deadline }, setter := i, promise := none }
  | .nudge deadline pending =>
    some
      { s.setCall i .returned with
        core := s.core.nudge
        promise := if pending = true ∧ s.setter = i then some deadline else s.promise }
  | .returned => none

/-- What the next step of the driver delivers: the tick or the callback, at this time. -/
def delivers (s : State) : List Int := if s.core.driver = .deliver then [s.core.now] else []

def step (s : State) : Act → Option State
  | .stop => some { s with calls := s.calls ++ [.exchange] }
  | .reset deadline => some { s with calls := s.calls ++ [.loadStopped deadline] }
  | .call i => s.calls[i]?.bind (s.callStep i)
  | .drive rearmFirst =>
    (s.core.drive rearmFirst).map fun c => { s with core := c, delivered := s.delivered ++ s.delivers }
  | .fire => s.core.fire.map fun c => { s with core := c }
  | .tick => some { s with core := { s.core with now := s.core.now + 1 } }

end State

def timerSystem : System State Act where
  init s := ∃ deadline now, s = .create deadline now
  step := State.step

def Call.deciding : Call → Nat
  | .cancel _ | .store .. | .nudge .. => 1
  | _ => 0

def Call.nudging : Call → Nat
  | .nudge .. => 1
  | _ => 0

/-- The deadline wins the select only while no call stands between its load of `fired` and its return, and no call loads
`fired` while the driver stands between that win and its own store of `fired`. -/
def State.apart (s : State) : Act → Bool
  | .fire => weight Call.deciding s.calls == 0
  | .call i =>
    match s.calls[i]? with
    | some .loadFired | some (.loadPending _) => !s.core.firing
    | _ => true
  | _ => true

def Apart (s : State) (a : Act) : Prop := s.apart a = true

instance (s : State) (a : Act) : Decidable (Apart s a) := inferInstanceAs (Decidable (_ = true))

/-! ### What is kept -/

def Pending (c : Core) : Prop := c.fired = false ∧ c.firing = false

namespace State

def Silent (s : State) : Prop := s.core.fired = false ∧ s.delivered = []

/-- The driver has the current deadline, or will be told: by a call that has stored another one, or as `told` says. -/
def Fresh (s : State) (deadline : Int) (told : Prop) : Prop :=
  deadline = s.core.deadlineNs ∨ 0 < weight Call.nudging s.calls ∨ told

/-- The driver is on its way out: the timer was stopped, or has delivered. -/
def Over (s : State) : Prop :=
  s.Silent ∧ s.core.stopClosed = true ∨
    s.core.fired = true ∧ ∃ t, s.delivered = [t] ∧ ∀ d, s.promise = some d → d ≤ t

def At (s : State) : Driver → Prop
  | .load => s.Silent
  | .setup deadline => s.Silent ∧ s.Fresh deadline (s.core.rearm = true)
  | .arm deadline =>
    s.Silent ∧ s.Fresh deadline (s.core.winner ≠ none) ∧ (s.core.stopClosed = true → s.core.winner ≠ none) ∧
      (s.core.winner = some .stopped → s.core.stopClosed = true) ∧ s.core.winner ≠ some .deadline
  | .parked deadline =>
    s.Silent ∧ s.Fresh deadline (s.core.winner ≠ none) ∧ (s.core.stopClosed = true → s.core.winner ≠ none) ∧
      (s.core.winner = some .stopped → s.core.stopClosed = true) ∧
        (s.core.winner = some .deadline → s.core.deadlineNs ≤ s.core.now)
  | .check _ | .loadPeriod _ | .storeFired => s.Silent ∧ s.core.deadlineNs ≤ s.core.now
  | .compare _ seen => s.Silent ∧ s.core.deadlineNs ≤ s.core.now ∧ seen = s.core.deadlineNs
  | .deliver => s.core.fired = true ∧ s.delivered = [] ∧ ∀ d, s.promise = some d → d ≤ s.core.now
  | .tick .. | .advance .. | .storeNext _ => False
  | .close | .done => s.Over

end State

/-- A call that has seen the timer pending finds it so until it returns, and one that has seen it fired finds it
fired. -/
def Call.Sound (c : Core) : Call → Prop
  | .loadFired => c.stopped = true
  | .cancel pending => c.stopped = true ∧ (pending = true → Pending c)
  | .store _ pending => if pending then Pending c else c.fired = true
  | .nudge _ pending => pending = true → Pending c
  | .exchange | .loadStopped _ | .loadPending _ | .returned => True

structure Kept (s : State) : Prop where
  period : s.core.periodNs = 0
  closed : s.core.stopClosed = true → s.core.stopped = true
  driver : s.At s.core.driver
  calls : ∀ c ∈ s.calls, c.Sound s.core
  setter : ∀ deadline pending, s.calls[s.setter]? = some (.nudge deadline pending) → s.core.deadlineNs = deadline
  promise : ∀ d, s.promise = some d → s.core.deadlineNs = d
  stopTrue : s.stopTrue = true → s.core.stopClosed = true ∧ Pending s.core

variable {s : State} {i : Nat}

variable {c : Core} {deadline : Int} {rearmFirst pending : Bool} {u : State}

lemma Call.Sound.mono {c' : Core} {x : Call} (h : x.Sound c) (hstopped : c.stopped → c'.stopped)
    (hfired : c.fired → c'.fired) (hpend : Pending c → Pending c') : x.Sound c' := by
  cases x with
  | loadFired => exact hstopped h
  | cancel => exact ⟨hstopped h.1, fun hp => hpend (h.2 hp)⟩
  | store deadline pending =>
    cases pending with
    | true => exact hpend h
    | false => exact hfired h
  | nudge => exact fun hp => hpend (h hp)
  | exchange | loadStopped | loadPending | returned => trivial

lemma State.At.silent_of_not_fired (h : s.At s.core.driver) (hfired : s.core.fired = false) : s.Silent := by
  generalize s.core.driver = pc at h
  cases pc with
  | load => exact h
  | setup | arm | parked | check | compare | loadPeriod | storeFired => exact h.1
  | deliver =>
    rw [h.1] at hfired
    cases hfired
  | tick | advance | storeNext => exact h.elim
  | close | done =>
    rcases h with hstopped | hgave
    · exact hstopped.1
    · rw [hgave.1] at hfired
      cases hfired

/-! ### Steps of the driver -/

lemma Kept.drive_to (h : Kept s) {l : List Int} (hat : State.At { s with core := c, delivered := l } c.driver)
    (hpend : Pending s.core → Pending c := by exact fun hp => ⟨hp.1, rfl⟩)
    (hfired : s.core.fired → c.fired := by exact id)
    (hdeadline : c.deadlineNs = s.core.deadlineNs := by rfl) (hper : c.periodNs = s.core.periodNs := by rfl)
    (hstopped : c.stopped = s.core.stopped := by rfl) (hshut : c.stopClosed = s.core.stopClosed := by rfl) :
    Kept { s with core := c, delivered := l } where
  period := hper.trans h.period
  closed hc := hstopped.trans (h.closed (hshut.symm.trans hc))
  driver := hat
  calls x hx := (h.calls x hx).mono (hstopped.trans ·) hfired hpend
  setter d b hset := hdeadline.trans (h.setter d b hset)
  promise d hd := hdeadline.trans (h.promise d hd)
  stopTrue htrue := ⟨hshut.trans (h.stopTrue htrue).1, hpend (h.stopTrue htrue).2⟩

lemma Kept.setup (h : Kept s) (hpc : s.core.driver = .setup deadline) (rearmFirst : Bool) :
    Kept { s with core := s.core.setup rearmFirst deadline } := by
  have hat := h.driver
  rw [hpc] at hat
  obtain ⟨hsil, hfresh⟩ := hat
  rcases s.core.setup_cases rearmFirst deadline with ⟨-, hsetup⟩ | ⟨hshut, hsetup⟩ | ⟨hrearm, hopen, hsetup⟩
  all_goals rw [hsetup]
  · exact h.drive_to hsil
  · exact h.drive_to (.inl ⟨hsil, hshut⟩)
  · refine h.drive_to ⟨hsil, ?_, ?_, nofun, nofun⟩
    · refine hfresh.imp_right fun hor => hor.imp_right fun htold => ?_
      rw [hrearm] at htold
      cases htold
    · exact fun hshut => nomatch hopen.symm.trans hshut

lemma Pending.not_firing {p : Prop} (h : Pending c) (hfiring : c.firing) : p := by
  have hnot := h.2
  rw [hfiring] at hnot
  cases hnot

lemma Kept.advance (h : Kept s) (hc : s.core.drive rearmFirst = some c)
    (hne : s.core.driver ≠ .deliver) : Kept { s with core := c } := by
  have hat := h.driver
  obtain ⟨⟨deadlineNs, periodNs, fired, stopped, stopClosed, rearm, winner, driver, now⟩, calls, _, _, _, _⟩ := s
  cases driver with
  | load =>
    cases hc
    exact h.drive_to ⟨hat, .inl rfl⟩
  | setup =>
    cases hc
    exact h.setup rfl rearmFirst
  | arm =>
    cases hc
    obtain ⟨hsil, hfresh, hshut, hstopped, hdeadline⟩ := hat
    refine h.drive_to ⟨hsil, hfresh, hshut, hstopped, fun hwin => absurd hwin hdeadline⟩ (fun hp => ⟨hp.1, ?_⟩)
    exact beq_eq_false_iff_ne.mpr hdeadline
  | parked =>
    obtain ⟨hsil, -, -, hstopped, hdeadline⟩ := hat
    match winner with
    | none => cases hc
    | some .stopped =>
      cases hc
      exact h.drive_to (.inl ⟨hsil, hstopped rfl⟩)
    | some .rearm =>
      cases hc
      exact h.drive_to hsil
    | some .deadline =>
      cases hc
      exact h.drive_to ⟨hsil, hdeadline rfl⟩ (fun hp => hp.not_firing rfl)
  | check =>
    cases hc
    exact h.drive_to ⟨hat.1, hat.2, rfl⟩ (fun hp => hp.not_firing rfl)
  | compare =>
    cases hc
    obtain ⟨hsil, hdue, rfl⟩ := hat
    rw [if_neg (not_lt.mpr hdue)]
    exact h.drive_to ⟨hsil, hdue⟩ (fun hp => hp.not_firing rfl)
  | loadPeriod =>
    cases hc
    rw [if_pos h.period]
    exact h.drive_to hat (fun hp => hp.not_firing rfl)
  | storeFired =>
    cases hc
    refine h.drive_to ⟨rfl, hat.1.2, fun d hd => ?_⟩ (fun hp => hp.not_firing rfl) fun _ => rfl
    exact (h.promise d hd).ge.trans hat.2
  | deliver => exact absurd rfl hne
  | tick | advance | storeNext => exact hat.elim
  | close =>
    cases hc
    exact h.drive_to hat
  | done => cases hc

lemma Kept.drive (h : Kept s) (hc : s.core.drive rearmFirst = some c) :
    Kept { s with core := c, delivered := s.delivered ++ s.delivers } := by
  by_cases hpc : s.core.driver = .deliver
  · have hat := h.driver
    rw [Core.drive, hpc] at hc
    rw [hpc] at hat
    cases hc
    obtain ⟨hfired, hgave, hdue⟩ := hat
    refine h.drive_to (.inr ⟨hfired, s.core.now, ?_, hdue⟩)
    rw [State.delivers, if_pos hpc, hgave]
    rfl
  · rw [State.delivers, if_neg hpc, append_nil]
    exact h.advance hc hpc

/-! ### The clock and the timer -/

lemma State.At.later (h : s.At s.core.driver) :
    State.At { s with core := { s.core with now := s.core.now + 1 } } s.core.driver := by
  have hlater : ∀ {d : Int}, d ≤ s.core.now → d ≤ s.core.now + 1 := fun hle => hle.trans (Int.le_add_one le_rfl)
  generalize s.core.driver = pc at h
  cases pc with
  | load | setup | arm | close | done => exact h
  | parked => exact ⟨h.1, h.2.1, h.2.2.1, h.2.2.2.1, fun hwin => hlater (h.2.2.2.2 hwin)⟩
  | check | loadPeriod | storeFired => exact ⟨h.1, hlater h.2⟩
  | compare => exact ⟨h.1, hlater h.2.1, h.2.2⟩
  | deliver => exact ⟨h.1, h.2.1, fun d hd => hlater (h.2.2 d hd)⟩
  | tick | advance | storeNext => exact h.elim

lemma Kept.tick (h : Kept s) : Kept { s with core := { s.core with now := s.core.now + 1 } } :=
  { h with driver := h.driver.later }

lemma Kept.current (h : Kept s) (hpc : s.core.driver = .parked deadline) (hwin : s.core.winner = none)
    (hnudging : weight Call.nudging s.calls = 0) : deadline = s.core.deadlineNs := by
  have hat := h.driver
  rw [hpc] at hat
  rcases hat.2.1 with hcur | hnudge | htold
  · exact hcur
  · rw [hnudging] at hnudge
    cases hnudge
  · exact absurd hwin htold

/-- The deadline wins while nobody is about to promise anything: what it stands for is the current deadline. -/
lemma Kept.fire (h : Kept s) (hc : s.core.fire = some c) (hquiet : weight Call.deciding s.calls = 0) :
    Kept { s with core := c } := by
  have hat := h.driver
  rw [Core.fire] at hc
  split at hc
  · rename_i deadline hpc
    obtain ⟨⟨hdue, hnone⟩, rfl⟩ := of_guard hc
    rw [hpc] at hat
    obtain ⟨hsil, -, hshut, -⟩ := hat
    have hcur := h.current hpc hnone
      (Nat.le_zero.mp (hquiet ▸ weight_mono (fun c => by cases c <;> simp [Call.nudging, Call.deciding]) s.calls))
    have hopen : s.core.stopClosed ≠ true := fun hc => hshut hc hnone
    refine { h with driver := ?_, calls := fun x hx => ?_, stopTrue := fun htrue => ?_ }
    · rw [hpc]
      refine ⟨hsil, .inl hcur, fun hc => absurd hc hopen, nofun, fun _ => ?_⟩
      rw [hcur] at hdue
      exact hdue
    · have hle := le_weight Call.deciding hx
      have hsound := h.calls x hx
      rw [hquiet] at hle
      cases x with
      | cancel | store | nudge => cases hle
      | _ => exact hsound
    · exact absurd (h.stopTrue htrue).1 hopen
  · cases hc

/-! ### Steps of the calls -/

lemma State.At.calls {pc : Driver} (h : s.At pc) {l : List Call}
    (hl : weight Call.nudging s.calls ≤ weight Call.nudging l) : State.At { s with calls := l } pc := by
  have hfresh : ∀ {d : Int} {told : Prop}, s.Fresh d told → State.Fresh { s with calls := l } d told :=
    fun hfresh => hfresh.imp_right fun hor => hor.imp_left fun hpos => hpos.trans_le hl
  cases pc with
  | load | check | compare | loadPeriod | storeFired | deliver | close | done => exact h
  | setup => exact ⟨h.1, hfresh h.2⟩
  | arm | parked => exact ⟨h.1, hfresh h.2.1, h.2.2⟩
  | tick | advance | storeNext => exact h.elim

lemma Kept.setter_set (h : Kept s) {c x : Call} (hi : s.calls[i]? = some c) (hx : x.nudging = 0) {d : Int} {b : Bool}
    (hnudge : (s.calls.set i x)[s.setter]? = some (.nudge d b)) : s.core.deadlineNs = d := by
  by_cases hsetter : i = s.setter
  · rw [hsetter, getElem?_set_self', ← hsetter, hi] at hnudge
    cases hnudge
    cases hx
  · rw [getElem?_set_ne hsetter] at hnudge
    exact h.setter d b hnudge

lemma Kept.moveCall (h : Kept s) {c : Call} (hi : s.calls[i]? = some c) (hc : c.nudging = 0) (c' : Call)
    (hnudging : c'.nudging = 0) (hsound : c'.Sound s.core) : Kept (s.setCall i c') := by
  have hset := weight_set Call.nudging hi c'
  exact { h with
    driver := h.driver.calls (by omega)
    calls := forall_set h.calls hsound i
    setter := fun _ _ => h.setter_set hi hnudging }

lemma Kept.begin (h : Kept s) (c : Call) (hnudging : c.nudging = 0) (hsound : c.Sound s.core) :
    Kept { s with calls := s.calls ++ [c] } := by
  refine { h with
    driver := h.driver.calls (by rw [weight_concat]; exact Nat.le_add_right _ _)
    calls := forall_append h.calls hsound
    setter := fun d b hnudge => ?_ }
  have hnudge : (s.calls ++ [c])[s.setter]? = some (.nudge d b) := hnudge
  obtain hold | ⟨-, rfl⟩ := lookup_concat hnudge
  · exact h.setter d b hold
  · cases hnudging

lemma firing_closeStop (c : Core) : c.closeStop.firing = c.firing := by
  obtain ⟨_, _, _, _, _, _, winner, driver, _⟩ := c
  cases driver <;> first | rfl | cases winner <;> rfl

lemma firing_nudge (c : Core) : c.nudge.firing = c.firing := by
  obtain ⟨_, _, _, _, _, _, winner, driver, _⟩ := c
  cases driver <;> first | rfl | cases winner <;> rfl

section

variable (hpc : c.driver = .arm deadline ∨ c.driver = .parked deadline)
include hpc

lemma waiting_eq : c.waiting = c.winner.isNone := by
  rcases hpc with hpc | hpc <;> rw [waiting, hpc]

/-- After the close or the nudge a registered select is decided, and no case but the one of that channel is new. -/
lemma decided_closeStop :
    c.closeStop.winner ≠ none ∧ (c.closeStop.winner = some .deadline → c.winner = some .deadline) := by
  have hwin : c.closeStop.winner = if c.winner.isNone then some .stopped else c.winner := by
    rw [← waiting_eq hpc]
    rfl
  rw [hwin]
  cases c.winner <;> simp

lemma decided_nudge : c.nudge.winner ≠ none ∧ (c.nudge.winner = some .deadline → c.winner = some .deadline) ∧
      (c.nudge.winner = some .stopped → c.winner = some .stopped) := by
  rw [nudge, waiting_eq hpc]
  cases c.winner <;> simp

end

lemma State.At.closeStop (h : s.At s.core.driver) : State.At { s with core := s.core.closeStop } s.core.driver := by
  cases hpc : s.core.driver with
  | arm | parked =>
    rw [hpc] at h
    obtain ⟨hdec, hdeadline⟩ := decided_closeStop (by first | exact .inl hpc | exact .inr hpc)
    exact ⟨h.1, .inr (.inr hdec), fun _ => hdec, fun _ => rfl, fun hwon => h.2.2.2.2 (hdeadline hwon)⟩
  | close | done =>
    rw [hpc] at h
    exact h.imp_left fun hsil => ⟨hsil.1, rfl⟩
  | _ =>
    rw [hpc] at h
    exact h

lemma Kept.closeStop (h : Kept s) (hstopped : s.core.stopped) : Kept { s with core := s.core.closeStop } where
  period := h.period
  closed _ := hstopped
  driver := h.driver.closeStop
  calls c hc := (h.calls c hc).mono id id fun hp => ⟨hp.1, (firing_closeStop s.core).trans hp.2⟩
  setter := h.setter
  promise := h.promise
  stopTrue htrue := ⟨rfl, (h.stopTrue htrue).2.1, (firing_closeStop s.core).trans (h.stopTrue htrue).2.2⟩

lemma State.At.nudge (h : s.At s.core.driver) (l : List Call) :
    State.At { s with core := s.core.nudge, calls := l } s.core.driver := by
  rw [nudge_eq]
  cases hpc : s.core.driver with
  | setup =>
    rw [hpc] at h
    exact ⟨h.1, .inr (.inr (rearm_nudge (by rw [waiting, hpc])))⟩
  | arm | parked =>
    rw [hpc] at h
    obtain ⟨hdec, hdeadline, hstopped⟩ := decided_nudge (by first | exact .inl hpc | exact .inr hpc)
    exact ⟨h.1, .inr (.inr hdec), fun _ => hdec, fun hwon => h.2.2.2.1 (hstopped hwon),
      fun hwon => h.2.2.2.2 (hdeadline hwon)⟩
  | _ =>
    rw [hpc] at h
    exact h

lemma State.At.promise {pc : Driver} (h : s.At pc) (hfired : s.core.fired = false) (p : Option Int) :
    State.At { s with promise := p } pc := by
  cases pc with
  | deliver =>
    rw [h.1] at hfired
    cases hfired
  | close | done =>
    refine h.imp id fun hgave => ?_
    rw [hgave.1] at hfired
    cases hfired
  | _ => exact h

/-- A reset that returns false changes no promise; one that returns true makes its own, and nothing was delivered. -/
lemma Kept.nudge (h : Kept s) (hi : s.calls[i]? = some (.nudge deadline pending)) : Kept
      { s.setCall i .returned with
        core := s.core.nudge
        promise := if pending ∧ s.setter = i then some deadline else s.promise } := by
  have hat := h.driver.nudge (s.calls.set i .returned)
  have hfiring := firing_nudge s.core
  rw [nudge_eq] at hat hfiring ⊢
  refine ⟨h.period, h.closed, ?_, ?_, fun _ _ => h.setter_set (x := .returned) hi rfl, ?_, ?_⟩
  · split
    · rename_i htrue
      exact hat.promise (h.calls _ (mem_of_getElem? hi) htrue.1).1 _
    · exact hat
  · intro c hc
    exact (forall_set (y := .returned) h.calls trivial i c hc).mono id id fun hp => ⟨hp.1, hfiring.trans hp.2⟩
  · intro d hd
    have hd : (if pending ∧ s.setter = i then some deadline else s.promise) = some d := hd
    split at hd
    · rename_i htrue
      cases hd
      exact h.setter deadline pending (htrue.2 ▸ hi)
    · exact h.promise d hd
  · intro htrue
    exact ⟨(h.stopTrue htrue).1, (h.stopTrue htrue).2.1, hfiring.trans (h.stopTrue htrue).2.2⟩

/-- A reset stores its deadline while the timer is pending, or after it has fired: the driver has no decision to make
from the old one. -/
lemma State.At.store (h : s.At s.core.driver) (hsafe : Pending s.core ∨ s.core.fired) {l : List Call}
    (hl : 0 < weight Call.nudging l) (deadline : Int) (n : Nat) :
    State.At { s with core := { s.core with deadlineNs := deadline }, calls := l, setter := n, promise := none }
      s.core.driver := by
  have hfiring : s.core.firing → s.core.fired = true := fun hfiring =>
    hsafe.elim (fun hpend => hpend.not_firing hfiring) id
  obtain ⟨⟨deadlineNs, periodNs, fired, stopped, stopClosed, rearm, winner, driver, now⟩, calls, _, _, _, _⟩ := s
  cases driver with
  | load => exact h
  | setup => exact ⟨h.1, .inr (.inl hl)⟩
  | arm => exact ⟨h.1, .inr (.inl hl), h.2.2⟩
  | parked =>
    refine ⟨h.1, .inr (.inl hl), h.2.2.1, h.2.2.2.1, fun hwin => ?_⟩
    cases h.1.1.symm.trans (hfiring (beq_iff_eq.mpr hwin))
  | check | compare | loadPeriod | storeFired => cases h.1.1.symm.trans (hfiring rfl)
  | deliver => exact ⟨h.1, h.2.1, nofun⟩
  | tick | advance | storeNext => exact h.elim
  | close | done => exact h.imp id fun ⟨hfired, t, ht, _⟩ => ⟨hfired, t, ht, nofun⟩

lemma Kept.store (h : Kept s) (hi : s.calls[i]? = some (.store deadline pending)) : Kept
      { s.setCall i (.nudge deadline pending) with
        core := { s.core with deadlineNs := deadline }, setter := i, promise := none } where
  period := h.period
  closed := h.closed
  driver := by
    have hsafe : Pending s.core ∨ s.core.fired = true := by
      have hsound := h.calls _ (mem_of_getElem? hi)
      cases pending with
      | true => exact .inl hsound
      | false => exact .inr hsound
    refine h.driver.store hsafe ?_ deadline i
    show 0 < weight Call.nudging (s.calls.set i (.nudge deadline pending))
    have hset : weight Call.nudging (s.calls.set i (.nudge deadline pending)) + 0 = weight Call.nudging s.calls + 1 :=
      weight_set Call.nudging hi (.nudge deadline pending)
    omega
  calls := by
    have hsound := h.calls _ (mem_of_getElem? hi)
    refine forall_set (y := .nudge deadline pending) h.calls (fun (hpend : pending) => ?_) i
    rw [hpend] at hsound
    exact hsound
  setter d b hnudge := by
    have hnudge : (s.calls.set i (.nudge deadline pending))[i]? = some (.nudge d b) := hnudge
    rw [getElem?_set_self', hi] at hnudge
    cases hnudge
    rfl
  promise := nofun
  stopTrue := h.stopTrue

lemma Kept.stop (h : Kept s) : Kept { s with core := { s.core with stopped := true } } :=
  { h with closed := fun _ => rfl, calls := fun c hc => (h.calls c hc).mono (fun _ => rfl) id id }

lemma Kept.cancel (h : Kept s) (hi : s.calls[i]? = some (.cancel pending)) :
    Kept { s.setCall i .returned with core := s.core.closeStop, stopTrue := s.stopTrue || pending } := by
  obtain ⟨hstopped, hpend⟩ := h.calls _ (mem_of_getElem? hi)
  have hclose := (h.moveCall hi rfl .returned rfl trivial).closeStop hstopped
  refine { hclose with stopTrue := fun htrue => ⟨rfl, ?_⟩ }
  rcases Bool.or_eq_true_iff.mp htrue with hold | hnew
  · exact (hclose.stopTrue hold).2
  · exact ⟨(hpend hnew).1, (firing_closeStop s.core).trans (hpend hnew).2⟩

lemma Kept.callStep (h : Kept s) (hapart : Apart s (.call i)) (hu : s.step (.call i) = some u) : Kept u := by
  obtain ⟨c, hi, hu⟩ := Option.bind_eq_some_iff.mp hu
  have hapart : (match s.calls[i]? with
    | some .loadFired | some (.loadPending _) => !s.core.firing
    | _ => true) = true := hapart
  rw [hi] at hapart
  cases c with
  | exchange =>
    rw [State.callStep] at hu
    split at hu <;> cases hu
    · exact h.moveCall hi rfl .returned rfl trivial
    · exact h.stop.moveCall hi rfl .loadFired rfl rfl
  | loadFired =>
    cases hu
    have hfiring : s.core.firing = false := by simpa using hapart
    refine h.moveCall hi rfl _ rfl ⟨h.calls _ (mem_of_getElem? hi), fun hpend => ⟨?_, hfiring⟩⟩
    simpa using hpend
  | cancel =>
    cases hu
    exact h.cancel hi
  | loadStopped deadline =>
    cases hu
    split
    · exact h.moveCall hi rfl .returned rfl trivial
    · exact h.moveCall hi rfl (.loadPending deadline) rfl trivial
  | loadPending =>
    cases hu
    have hfiring : s.core.firing = false := by simpa using hapart
    refine h.moveCall hi rfl _ rfl ?_
    cases hfired : s.core.fired with
    | true => exact hfired
    | false => exact ⟨hfired, hfiring⟩
  | store =>
    cases hu
    exact h.store hi
  | nudge =>
    cases hu
    exact h.nudge hi
  | returned => cases hu

/-! ### Every run -/

lemma kept_step {a : Act} (h : Kept s) (hapart : Apart s a) (hu : s.step a = some u) : Kept u := by
  cases a with
  | stop =>
    cases hu
    exact h.begin .exchange rfl trivial
  | reset deadline =>
    cases hu
    exact h.begin (.loadStopped deadline) rfl trivial
  | call => exact h.callStep hapart hu
  | drive =>
    obtain ⟨c, hc, rfl⟩ := Option.map_eq_some_iff.mp hu
    exact h.drive hc
  | fire =>
    obtain ⟨c, hc, rfl⟩ := Option.map_eq_some_iff.mp hu
    exact h.fire hc (beq_iff_eq.mp hapart)
  | tick =>
    cases hu
    exact h.tick

lemma kept_create (deadline now : Int) : Kept (.create deadline now) where
  period := rfl
  closed := nofun
  driver := ⟨rfl, rfl⟩
  calls := nofun
  setter := nofun
  promise := nofun
  stopTrue := nofun

lemma kept_of_reachable (hs : timerSystem.ReachableVia Apart s) : Kept s := by
  refine hs.invariant ?_ fun _ _ _ h hapart hst => kept_step h hapart hst
  rintro s ⟨deadline, now, rfl⟩
  exact kept_create deadline now

/-! ### Delivery -/

/-- What the driver, its timer and the clock do from `s` while no call is in progress; the clock runs until the deadline
is reached. -/
def settling (s : State) : System State Act where
  init u := u = s
  step u
    | .drive rearmFirst => u.step (.drive rearmFirst)
    | .fire => u.step .fire
    | .tick => if u.core.now < u.core.deadlineNs then u.step .tick else none
    | _ => none

/-- How far the driver is from its end, for a timer that is not stopped. -/
def driverRank (c : Core) : Nat :=
  match c.driver with
  | .load => 11
  | .setup _ => 10
  | .arm _ => if c.winner = some .rearm then 13 else 9
  | .parked _ =>
    match c.winner with
    | some .rearm => 12
    | some .deadline => 7
    | _ => 8
  | .check _ => 6
  | .compare .. => 5
  | .loadPeriod _ => 4
  | .storeFired => 3
  | .deliver | .tick .. | .advance .. | .storeNext _ => 2
  | .close => 1
  | .done => 0

def coreRank (c : Core) : Nat := driverRank c + if c.rearm then 20 else 0

def State.rank (s : State) : Nat := coreRank s.core + (s.core.deadlineNs - s.core.now).toNat

/-- No call is in progress on a timer that is not stopped and owes a delivery. -/
structure Owes (d : Int) (s : State) : Prop where
  kept : Kept s
  quiet : ∀ c ∈ s.calls, c = .returned
  running : s.core.stopped = false
  promise : s.promise = some d

variable {d : Int}

lemma Owes.open (h : Owes d s) : s.core.stopClosed = false := by
  rw [Bool.eq_false_iff]
  intro hshut
  have hstopped := h.kept.closed hshut
  rw [h.running] at hstopped
  cases hstopped

lemma Owes.current (h : Owes d s) (hpc : s.core.driver = .parked deadline)
    (hwin : s.core.winner = none) : deadline = s.core.deadlineNs :=
  h.kept.current hpc hwin (weight_eq_zero fun c hc => by rw [h.quiet c hc]; rfl)

structure Closer (c c' : Core) : Prop where
  stopped : c'.stopped = c.stopped
  deadlineNs : c'.deadlineNs = c.deadlineNs
  now : c'.now = c.now
  rank : coreRank c' < coreRank c

lemma coreRank_lt {c' : Core} (hrearm : c'.rearm = c.rearm) (hdriver : driverRank c' < driverRank c) :
    coreRank c' < coreRank c := by
  rw [coreRank, coreRank, hrearm]
  exact Nat.add_lt_add_right hdriver _

attribute [local simp] driverRank

lemma Owes.closer_setup (h : Owes d s) (hpc : s.core.driver = .setup deadline) (rearmFirst : Bool) :
    Closer s.core (s.core.setup rearmFirst deadline) := by
  rcases s.core.setup_cases rearmFirst deadline with ⟨hrearm, hsetup⟩ | ⟨hshut, -⟩ | ⟨-, -, hsetup⟩
  · rw [hsetup]
    refine ⟨rfl, rfl, rfl, ?_⟩
    simp [coreRank, takeRearm, hpc, hrearm]
  · rw [h.open] at hshut
    cases hshut
  · rw [hsetup]
    refine ⟨rfl, rfl, rfl, coreRank_lt rfl ?_⟩
    simp [hpc]

lemma Owes.closer (h : Owes d s) (hc : s.core.drive rearmFirst = some c) : Closer s.core c := by
  have hat := h.kept.driver
  have hopen := h.open
  obtain ⟨⟨deadlineNs, periodNs, fired, stopped, stopClosed, rearm, winner, driver, now⟩, calls, _, _, _, _⟩ := s
  cases driver with
  | setup =>
    cases hc
    exact h.closer_setup rfl rearmFirst
  | arm =>
    cases hc
    refine ⟨rfl, rfl, rfl, coreRank_lt rfl ?_⟩
    match winner with
    | none | some .rearm => simp
    | some .stopped => cases hopen.symm.trans (hat.2.2.2.1 rfl)
    | some .deadline => exact absurd rfl hat.2.2.2.2
  | parked =>
    match winner with
    | none => cases hc
    | some .stopped => cases hopen.symm.trans (hat.2.2.2.1 rfl)
    | some .rearm | some .deadline =>
      cases hc
      refine ⟨rfl, rfl, rfl, coreRank_lt rfl ?_⟩
      simp
  | compare =>
    cases hc
    obtain ⟨-, hdue, rfl⟩ := hat
    rw [if_neg (not_lt.mpr hdue)]
    refine ⟨rfl, rfl, rfl, coreRank_lt rfl ?_⟩
    simp
  | loadPeriod =>
    cases hc
    rw [if_pos h.kept.period]
    refine ⟨rfl, rfl, rfl, coreRank_lt rfl ?_⟩
    simp
  | load | check | storeFired | deliver | close =>
    cases hc
    refine ⟨rfl, rfl, rfl, coreRank_lt rfl ?_⟩
    simp
  | tick | advance | storeNext => exact hat.elim
  | done => cases hc

lemma Owes.step (h : Owes d s) {r : State} {a : Act} (hu : (settling r).step s a = some u) :
    Owes d u ∧ u.rank < s.rank := by
  cases a with
  | stop | reset | call => cases hu
  | drive =>
    obtain ⟨c, hc, rfl⟩ := Option.map_eq_some_iff.mp hu
    have hcl := h.closer hc
    refine ⟨⟨h.kept.drive hc, h.quiet, hcl.stopped.trans h.running, h.promise⟩, ?_⟩
    show coreRank c + (c.deadlineNs - c.now).toNat < _
    rw [hcl.deadlineNs, hcl.now]
    exact Nat.add_lt_add_right hcl.rank _
  | fire =>
    obtain ⟨c, hc, rfl⟩ := Option.map_eq_some_iff.mp hu
    have hquiet : weight Call.deciding s.calls = 0 := weight_eq_zero fun x hx => by rw [h.quiet x hx]; rfl
    have hkept := h.kept.fire hc hquiet
    rw [fire] at hc
    split at hc
    · rename_i deadline hpc
      obtain ⟨⟨-, hwin⟩, rfl⟩ := of_guard hc
      have hrank : coreRank { s.core with winner := some .deadline } < coreRank s.core :=
        coreRank_lt rfl (by simp [hpc, hwin])
      exact ⟨⟨hkept, h.quiet, h.running, h.promise⟩, Nat.add_lt_add_right hrank _⟩
    · cases hc
  | tick =>
    have hu : (if s.core.now < s.core.deadlineNs then s.step .tick else none) = some u := hu
    obtain ⟨hlt, rfl⟩ := of_guard hu
    refine ⟨⟨h.kept.tick, h.quiet, h.running, h.promise⟩, Nat.add_lt_add_left ?_ (coreRank s.core)⟩
    show (s.core.deadlineNs - (s.core.now + 1)).toNat < (s.core.deadlineNs - s.core.now).toNat
    omega

lemma Owes.delivered_of_stuck (h : Owes d s) {r : State} (hstuck : (settling r).Stuck s) :
    ∃ t, s.delivered = [t] ∧ d ≤ t := by
  have hat := h.kept.driver
  have hdrive : s.core.drive false = none := Option.map_eq_none_iff.mp (hstuck (.drive false))
  cases hpc : s.core.driver with
  | parked deadline =>
    exfalso
    rw [drive, hpc] at hdrive
    dsimp only at hdrive
    split at hdrive <;> try cases hdrive
    rename_i hwin
    have hcur := h.current hpc hwin
    by_cases hlt : s.core.now < s.core.deadlineNs
    · have htick : (if s.core.now < s.core.deadlineNs then s.step .tick else none) = none := hstuck .tick
      rw [if_pos hlt] at htick
      cases htick
    · have hfire : s.core.fire = none := Option.map_eq_none_iff.mp (hstuck .fire)
      rw [fire, hpc] at hfire
      dsimp only at hfire
      rw [if_pos ⟨hcur ▸ not_lt.mp hlt, hwin⟩] at hfire
      cases hfire
  | done =>
    rw [hpc] at hat
    rcases hat with hstopped | ⟨-, t, ht, hdue⟩
    · have hopen := h.open
      rw [hstopped.2] at hopen
      cases hopen
    · exact ⟨t, ht, hdue d h.promise⟩
  | _ =>
    rw [drive, hpc] at hdrive
    cases hdrive

lemma Owes.endsIn (h : Owes d s) : (settling s).EndsIn fun u => ∃ t, u.delivered = [t] ∧ d ≤ t :=
  System.endsIn_of_measure (fun u (hinit : u = s) => hinit ▸ h)
    (fun _ _ _ hu hs => hu.step hs) fun _ hu => hu.delivered_of_stuck

/-! ### The guarantee -/

/-- After a stop that returned true nothing is delivered; after a reset that returned true nothing was delivered before
its deadline, and there is one delivery at or after it unless the timer is stopped or reset again. -/
structure TimerSafe (s : State) : Prop where
  stop : s.stopTrue = true → s.delivered = []
  reset : ∀ d, s.promise = some d → ∀ t ∈ s.delivered, d ≤ t
  once : s.delivered.length ≤ 1
  delivery : ∀ d, s.promise = some d → (∀ c ∈ s.calls, c = .returned) → s.core.stopped = false →
    (settling s).EndsIn fun u => ∃ t, u.delivered = [t] ∧ d ≤ t

lemma State.At.due (h : s.At s.core.driver) {d t : Int} (hd : s.promise = some d) (ht : t ∈ s.delivered) : d ≤ t := by
  generalize s.core.driver = pc at h
  cases pc with
  | load => exact nomatch h.2 ▸ ht
  | setup | arm | parked | check | compare | loadPeriod | storeFired =>
    rw [h.1.2] at ht
    cases ht
  | deliver =>
    rw [h.2.1] at ht
    cases ht
  | tick | advance | storeNext => exact h.elim
  | close | done =>
    rcases h with hstopped | ⟨-, time, htime, hdue⟩
    · rw [hstopped.1.2] at ht
      cases ht
    · rw [htime, mem_singleton] at ht
      rw [ht]
      exact hdue d hd

lemma State.At.once (h : s.At s.core.driver) : s.delivered.length ≤ 1 := by
  generalize s.core.driver = pc at h
  cases pc with
  | load => simp [h.2]
  | setup | arm | parked | check | compare | loadPeriod | storeFired => simp [h.1.2]
  | deliver => simp [h.2.1]
  | tick | advance | storeNext => exact h.elim
  | close | done =>
    rcases h with hstopped | ⟨-, time, htime, -⟩
    · simp [hstopped.1.2]
    · simp [htime]

/-- **A stop and a reset keep what they promise by returning true, as long as the deadline does not win the select while
they stand between their load of `fired` and their return, and they do not load `fired` between that win and the
driver's store.** -/
theorem timer_safe {s : State} (hs : timerSystem.ReachableVia Apart s) : TimerSafe s := by
  have h := kept_of_reachable hs
  refine ⟨fun htrue => ?_, fun d hd t ht => h.driver.due hd ht, h.driver.once, fun d hd hquiet hrun => ?_⟩
  · exact (h.driver.silent_of_not_fired (h.stopTrue htrue).2.1).2
  · exact Owes.endsIn ⟨h, hquiet, hrun, hd⟩

/-- A reset moves the deadline from 2 to 4 while the driver waits, and the timer delivers at 4; another timer is
stopped. -/
theorem timer_safe_moved :
    (∃ s, timerSystem.ReachableVia Apart s ∧ s.promise = some 4 ∧ s.delivered = [4] ∧ TimerSafe s) ∧
      ∃ s, timerSystem.ReachableVia Apart s ∧ s.stopTrue = true ∧ s.core.driver = .done ∧ TimerSafe s := by
  refine ⟨?_, ?_⟩
  · obtain ⟨s, hs, hvow, hgave⟩ := timerSystem.reachableVia_of_run Apart (.create 2 0)
      [.drive false, .drive false, .drive false, .reset 4, .tick, .call 0, .call 0, .call 0, .call 0, .tick,
        .drive false, .drive false, .drive false, .drive false, .tick, .tick, .fire, .drive false, .drive false,
        .drive false, .drive false, .drive false, .drive false]
      (fun s => s.promise = some 4 ∧ s.delivered = [4]) ⟨2, 0, rfl⟩ (by decide +kernel)
    exact ⟨s, hs, hvow, hgave, timer_safe hs⟩
  · obtain ⟨s, hs, hstop, hdone⟩ := timerSystem.reachableVia_of_run Apart (.create 2 0)
      [.drive false, .drive false, .stop, .call 0, .call 0, .call 0, .drive false, .drive false, .drive false]
      (fun s => s.stopTrue = true ∧ s.core.driver = .done) ⟨2, 0, rfl⟩ (by decide +kernel)
    exact ⟨s, hs, hstop, hdone, timer_safe hs⟩

/-- The deadline wins, a stop loads `fired` before the driver stores it and returns true, and then the tick is
delivered; a reset stores its deadline after the driver has compared the old one with the clock, returns true, and then
the tick is delivered at once. -/
theorem timer_unsafe : (∃ s, timerSystem.Reachable s ∧ s.stopTrue = true ∧ s.delivered = [] ∧
        (timerSystem.run s (replicate 5 (.drive false))).map State.delivered = some [0]) ∧
      ∃ s, timerSystem.Reachable s ∧ s.promise = some 100 ∧ s.delivered = [] ∧
        (timerSystem.run s (replicate 3 (.drive false))).map State.delivered = some [0] := by
  refine ⟨?_, ?_⟩
  · exact timerSystem.reachable_of_run (.create 0 0)
      [.drive false, .drive false, .drive false, .fire, .drive false, .stop, .call 0, .call 0, .call 0]
      _
      ⟨0, 0, rfl⟩ (by decide +kernel)
  · exact timerSystem.reachable_of_run (.create 0 0)
      [.drive false, .drive false, .drive false, .fire, .drive false, .drive false, .drive false, .reset 100, .call 0,
        .call 0, .call 0, .call 0]
      _
      ⟨0, 0, rfl⟩ (by decide +kernel)

end Cio.TimerStop
