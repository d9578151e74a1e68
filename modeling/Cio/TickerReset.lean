import Cio.CallPool
import Cio.TimerHandle
import Cio.TransitionSystem

/-! `Ticker::reset` beside the driver of a ticker. The driver computes the next deadline from the one it loaded at the
top of its loop and stores it without looking at `deadline_ns` again. -/

namespace Cio.TickerReset

open CallPool TimerHandle Transition List Core

/-- A call of `stop` or `reset` in progress; `time` is what a reset has read from the clock. -/
inductive Call where
  | exchange
  | cancel
  | storePeriod (period : Int)
  | readNow (period : Int)
  | storeDeadline (period time : Int)
  | nudge (period time : Int)
  | returned

/-- The ticker and the calls on it; `promise` is the period and the time of a reset that has returned while no other has
been called since, and `armed` the deadlines the driver has armed since then. -/
structure State where
  core : Core
  calls : List Call
  promise : Option (Int × Int)
  armed : List Int

inductive Act where
  | stop
  | reset (period : Int)
  | call (i : Nat)
  | drive (rearmFirst : Bool)
  | fire
  | tick

namespace State

def create (period now : Int) : State where
  core := .start (now + period) period now
  calls := []
  promise := none
  armed := []

def setCall (s : State) (i : Nat) (c : Call) : State := { s with calls := s.calls.set i c }

def callStep (s : State) (i : Nat) : Call → Option State
  | .exchange =>
    if s.core.stopped then some (s.setCall i .returned)
    else some { s.setCall i .cancel with core := { s.core with stopped := true } }
  | .cancel => some { s.setCall i .returned with core := s.core.closeStop }
  | .storePeriod period => some { s.setCall i (.readNow period) with core := { s.core with periodNs := period } }
  | .readNow period => some (s.setCall i (.storeDeadline period s.core.now))
  | .storeDeadline period time =>
    some { s.setCall i (.nudge period time) with core := { s.core with deadlineNs := time + period } }
  | .nudge period time =>
    some { s.setCall i .returned with core := s.core.nudge, promise := some (period, time), armed := [] }
  | .returned => none

def arms (s : State) : List Int :=
  match s.core.driver with
  | .arm deadline => [deadline]
  | _ => []

def step (s : State) : Act → Option State
  | .stop => some { s with calls := s.calls ++ [.exchange] }
  | .reset period =>
    if period ≤ 0 then some s
    else some { s with calls := s.calls ++ [.storePeriod period], promise := none }
  | .call i => s.calls[i]?.bind (s.callStep i)
  | .drive rearmFirst => (s.core.drive rearmFirst).map fun c => { s with core := c, armed := s.armed ++ s.arms }
  | .fire => s.core.fire.map fun c => { s with core := c }
  | .tick => some { s with core := { s.core with now := s.core.now + 1 } }

end State

def tickerSystem : System State Act where
  init s := ∃ period now, 0 < period ∧ s = .create period now
  step := State.step

/-- Every deadline armed since a reset returned lies a period after it, and any two are whole periods apart. -/
def Ticking (s : State) : Prop :=
  ∀ period time, s.promise = some (period, time) →
    (∀ d ∈ s.armed, time + period ≤ d) ∧ ∀ d ∈ s.armed, ∀ e ∈ s.armed, period ∣ d - e

def Call.resetting : Call → Nat
  | .storePeriod _ | .readNow _ | .storeDeadline .. | .nudge .. => 1
  | _ => 0

/-- The driver stands between its second load of `deadline_ns` and its store of the next deadline. -/
def advancing : Driver → Bool
  | .compare .. | .loadPeriod _ | .tick .. | .advance .. | .storeNext _ => true
  | _ => false

def arming : Driver → Bool
  | .arm _ => true
  | _ => false

/-- A reset is called when no other is in progress, stores its deadline while the driver is not between its second load
of `deadline_ns` and its store, and sends its nudge while the driver is not about to arm its timer. The deadlines that
a reset and the driver compute fit in 64 bits. -/
def State.apart (s : State) : Act → Bool
  | .reset _ => weight Call.resetting s.calls == 0
  | .call i =>
    match s.calls[i]? with
    | some (.storeDeadline period time) => !advancing s.core.driver && decide (time + period < 2 ^ 63)
    | some (.nudge ..) => !arming s.core.driver
    | _ => true
  | .drive _ =>
    match s.core.driver with
    | .advance deadline period => decide (nextDeadline deadline period s.core.now < 2 ^ 63)
    | _ => true
  | _ => true

def Apart (s : State) (a : Act) : Prop := s.apart a = true

instance (s : State) (a : Act) : Decidable (Apart s a) := inferInstanceAs (Decidable (_ = true))

/-! ### What is kept -/

def Bounded (c : Core) (period time : Int) : Driver → Prop
  | .compare _ seen => seen = c.deadlineNs
  | .loadPeriod _ => c.deadlineNs ≤ c.now
  | .tick _ p | .advance _ p => p = period ∧ c.deadlineNs ≤ c.now
  | .storeNext next => time + period ≤ next
  | _ => True

/-- A reset has stored its words, and the driver does not overwrite them with an earlier deadline. -/
structure InForce (c : Core) (period time : Int) : Prop where
  positive : 0 < period
  periodNs : c.periodNs = period
  deadlineNs : time + period ≤ c.deadlineNs
  driver : Bounded c period time c.driver

/-- The deadline the driver holds is in step with the current one, or it has armed none since the reset returned. -/
def InStep (s : State) (period time : Int) : Driver → Prop
  | .setup d => s.core.rearm = true ∨ time + period ≤ d ∧ period ∣ d - s.core.deadlineNs
  | .arm d => time + period ≤ d ∧ period ∣ d - s.core.deadlineNs
  | .parked d | .check d | .compare d _ | .loadPeriod d | .tick d _ | .advance d _ | .storeNext d =>
    s.armed = [] ∨ period ∣ d - s.core.deadlineNs
  | _ => True

/-- The driver goes by this period and this time. -/
structure Told (s : State) (period time : Int) : Prop where
  inForce : InForce s.core period time
  armed : ∀ d ∈ s.armed, time + period ≤ d ∧ period ∣ d - s.core.deadlineNs
  driver : InStep s period time s.core.driver

def Call.Sound (c : Core) : Call → Prop
  | .storePeriod period => 0 < period
  | .readNow period => 0 < period ∧ c.periodNs = period
  | .storeDeadline period _ => 0 < period ∧ c.periodNs = period
  | .nudge period time => InForce c period time
  | .exchange | .cancel | .returned => True

structure Kept (s : State) : Prop where
  alone : weight Call.resetting s.calls ≤ 1
  calls : ∀ c ∈ s.calls, c.Sound s.core
  promise : ∀ period time, s.promise = some (period, time) →
    weight Call.resetting s.calls = 0 ∧ Told s period time

variable {s : State} {i : Nat} {period time : Int}

lemma Kept.ticking (h : Kept s) : Ticking s := by
  intro period time hvow
  have htold := (h.promise period time hvow).2
  refine ⟨fun d hd => (htold.armed d hd).1, fun d hd e he => ?_⟩
  have hsub := Int.dvd_sub (htold.armed d hd).2 (htold.armed e he).2
  rwa [sub_sub_sub_cancel_right] at hsub

/-! ### Steps of the driver -/

variable {u c : Core} {rearmFirst : Bool} {x : Call}

lemma InForce.drive (h : InForce c period time) (hu : c.drive rearmFirst = some u) : InForce u period time := by
  obtain ⟨hpos, hper, hdeadline, hbd⟩ := h
  obtain ⟨deadlineNs, periodNs, fired, stopped, stopClosed, rearm, winner, driver, now⟩ := c
  cases driver with
  | load | check | deliver | close | storeFired | arm =>
    cases hu
    exact ⟨hpos, hper, hdeadline, by trivial⟩
  | setup deadline =>
    cases hu
    rcases setup_cases _ rearmFirst deadline with ⟨-, hsetup⟩ | ⟨-, hsetup⟩ | ⟨-, -, hsetup⟩
    all_goals
      rw [hsetup]
      exact ⟨hpos, hper, hdeadline, trivial⟩
  | parked deadline =>
    cases winner with
    | none => cases hu
    | some case => cases case <;> cases hu <;> exact ⟨hpos, hper, hdeadline, trivial⟩
  | compare deadline seen =>
    cases hu
    obtain rfl : seen = deadlineNs := hbd
    refine ⟨hpos, hper, hdeadline, ?_⟩
    split
    · trivial
    · rename_i hdue
      exact not_lt.mp hdue
  | loadPeriod =>
    cases hu
    obtain rfl : periodNs = period := hper
    refine ⟨hpos, rfl, hdeadline, ?_⟩
    rw [if_neg hpos.ne']
    exact ⟨rfl, hbd⟩
  | tick =>
    cases hu
    exact ⟨hpos, hper, hdeadline, hbd⟩
  | advance deadline =>
    cases hu
    obtain ⟨rfl, hdue⟩ := hbd
    exact ⟨hpos, hper, hdeadline, hdeadline.trans (hdue.trans (lt_nextDeadline deadline hpos now).le)⟩
  | storeNext =>
    cases hu
    exact ⟨hpos, hper, hbd, trivial⟩
  | done => cases hu

lemma Told.move (h : Told s period time) (hforce : InForce u period time)
    (hdeadline : u.deadlineNs = s.core.deadlineNs) (hdriver : InStep { s with core := u } period time u.driver) :
    Told { s with core := u } period time where
  inForce := hforce
  armed d hd := by
    rw [hdeadline]
    exact h.armed d hd
  driver := hdriver

lemma Told.setup (h : Told s period time) {deadline : Int} (hpc : s.core.driver = .setup deadline)
    (hforce : InForce (s.core.setup rearmFirst deadline) period time) :
    Told { s with core := s.core.setup rearmFirst deadline } period time := by
  have hs := h.driver
  rw [hpc] at hs
  rcases s.core.setup_cases rearmFirst deadline with ⟨-, hsetup⟩ | ⟨-, hsetup⟩ | ⟨hrearm, -, hsetup⟩
  all_goals rw [hsetup] at hforce ⊢
  · exact h.move hforce rfl trivial
  · exact h.move hforce rfl trivial
  · exact h.move hforce rfl (hs.resolve_left (hrearm ▸ Bool.false_ne_true))

lemma dvd_next {deadline current now : Int} (h : period ∣ deadline - current) :
    period ∣ nextDeadline deadline period now - current := by
  have hsum := Int.dvd_add (dvd_nextDeadline_sub deadline period now) h
  rwa [sub_add_sub_cancel] at hsum

lemma Told.advance (h : Told s period time) (hu : s.core.drive rearmFirst = some u)
    (hne : arming s.core.driver = false) : Told { s with core := u } period time := by
  have hforce := h.inForce.drive hu
  have hs := h.driver
  obtain ⟨⟨deadlineNs, periodNs, fired, stopped, stopClosed, rearm, winner, driver, now⟩, calls, promise, armed⟩ := s
  cases driver with
  | load =>
    cases hu
    exact h.move hforce rfl (.inr ⟨h.inForce.deadlineNs, by rw [sub_self]; exact Int.dvd_zero _⟩)
  | setup =>
    cases hu
    exact h.setup rfl hforce
  | arm => cases hne
  | parked deadline =>
    cases winner with
    | none => cases hu
    | some case =>
      cases case <;> cases hu
      · exact h.move hforce rfl trivial
      · exact h.move hforce rfl trivial
      · exact h.move hforce rfl hs
  | check | tick =>
    cases hu
    exact h.move hforce rfl hs
  | compare | loadPeriod =>
    cases hu
    refine h.move hforce rfl ?_
    split
    · trivial
    · exact hs
  | advance =>
    cases hu
    obtain ⟨rfl, -⟩ := h.inForce.driver
    exact h.move hforce rfl (hs.imp_right dvd_next)
  | storeNext =>
    cases hu
    refine ⟨hforce, fun d hd => ?_, trivial⟩
    obtain ⟨hle, hdvd⟩ := h.armed d hd
    refine ⟨hle, ?_⟩
    have hnext := hs.resolve_left (ne_nil_of_mem hd)
    have hsub := Int.dvd_sub hdvd hnext
    rwa [sub_sub_sub_cancel_right] at hsub
  | storeFired | deliver | close =>
    cases hu
    exact h.move hforce rfl trivial
  | done => cases hu

lemma Told.drive (h : Told s period time) (hu : s.core.drive rearmFirst = some u) :
    Told { s with core := u, armed := s.armed ++ s.arms } period time := by
  cases hpc : s.core.driver with
  | arm =>
    have hforce := h.inForce.drive hu
    have hs := h.driver
    rw [hpc] at hs
    rw [Core.drive, hpc] at hu
    cases hu
    refine ⟨hforce, fun d hd => ?_, .inr hs.2⟩
    have hd : d ∈ s.armed ++ s.arms := hd
    rw [State.arms, hpc] at hd
    rcases mem_append.mp hd with hold | hnew
    · exact h.armed d hold
    · rw [mem_singleton.mp hnew]
      exact hs
  | _ =>
    have hnone : s.arms = [] := by rw [State.arms, hpc]
    rw [hnone, append_nil]
    exact h.advance hu (hpc ▸ rfl)

lemma Call.Sound.mono (h : x.Sound c) (hper : u.periodNs = c.periodNs)
    (hforce : ∀ {period time : Int}, InForce c period time → InForce u period time) : x.Sound u := by
  cases x with
  | nudge => exact hforce h
  | readNow | storeDeadline => exact ⟨h.1, hper.trans h.2⟩
  | storePeriod => exact h
  | exchange | cancel | returned => trivial

lemma periodNs_drive (hu : c.drive rearmFirst = some u) : u.periodNs = c.periodNs := by
  rw [drive] at hu
  split at hu
  case h_2 =>
      cases hu
      rename_i deadline _
      rcases c.setup_cases rearmFirst deadline with ⟨-, hsetup⟩ | ⟨-, hsetup⟩ | ⟨-, -, hsetup⟩ <;> rw [hsetup] <;> rfl
  case h_4 => split at hu <;> cases hu <;> rfl
  all_goals
    cases hu
    try rfl

lemma Kept.drive (h : Kept s) (hu : s.core.drive rearmFirst = some u) :
    Kept { s with core := u, armed := s.armed ++ s.arms } where
  alone := h.alone
  calls c hc := (h.calls c hc).mono (periodNs_drive hu) (·.drive hu)
  promise period time hvow := ⟨(h.promise period time hvow).1, (h.promise period time hvow).2.drive hu⟩

/-! ### Steps that leave the words of a reset alone -/

/-- The words a reset is about are as before, the driver too, the clock may have advanced. -/
structure SameWords (c u : Core) : Prop where
  periodNs : u.periodNs = c.periodNs
  deadlineNs : u.deadlineNs = c.deadlineNs
  driver : u.driver = c.driver
  now : c.now ≤ u.now
  rearm : c.rearm = true → u.rearm = true

lemma InForce.same (h : InForce c period time) (hu : SameWords c u) : InForce u period time := by
  refine ⟨h.positive, hu.periodNs.trans h.periodNs, hu.deadlineNs ▸ h.deadlineNs, ?_⟩
  have hbd := h.driver
  rw [hu.driver]
  generalize c.driver = pc at hbd
  cases pc with
  | compare => exact hbd.trans hu.deadlineNs.symm
  | loadPeriod => exact hu.deadlineNs.trans_le (hbd.trans hu.now)
  | tick | advance => exact ⟨hbd.1, hu.deadlineNs.trans_le (hbd.2.trans hu.now)⟩
  | storeNext => exact hbd
  | _ => trivial

lemma Told.same (h : Told s period time) (hu : SameWords s.core u) : Told { s with core := u } period time := by
  refine h.move (h.inForce.same hu) hu.deadlineNs ?_
  have hs := h.driver
  rw [hu.driver]
  generalize s.core.driver = pc at hs
  cases pc with
  | setup => exact hs.imp hu.rearm fun hd => ⟨hd.1, hu.deadlineNs.symm ▸ hd.2⟩
  | arm => exact ⟨hs.1, hu.deadlineNs.symm ▸ hs.2⟩
  | parked | check | compare | loadPeriod | tick | advance | storeNext =>
    exact hs.imp_right fun hdvd => hu.deadlineNs.symm ▸ hdvd
  | _ => trivial

lemma Kept.same (h : Kept s) (hu : SameWords s.core u) : Kept { s with core := u } where
  alone := h.alone
  calls c hc := (h.calls c hc).mono hu.periodNs (·.same hu)
  promise period time hvow := ⟨(h.promise period time hvow).1, (h.promise period time hvow).2.same hu⟩

lemma sameWords_nudge (c : Core) : SameWords c c.nudge := by
  have hrearm : c.rearm → c.nudge.rearm = true := by
    intro hrearm
    rw [nudge]
    split
    · exact hrearm
    · rfl
  rw [nudge_eq] at hrearm ⊢
  exact ⟨rfl, rfl, rfl, le_rfl, hrearm⟩

lemma Kept.fire (h : Kept s) (hu : s.core.fire = some u) : Kept { s with core := u } := by
  rw [Core.fire] at hu
  split at hu
  · obtain ⟨-, rfl⟩ := of_guard hu
    exact h.same ⟨rfl, rfl, rfl, le_rfl, id⟩
  · cases hu

/-! ### Steps of the calls -/

lemma Told.calls {l : List Call} (h : Told s period time) : Told { s with calls := l } period time :=
  { inForce := h.inForce, armed := h.armed, driver := by
      have hs := h.driver
      generalize s.core.driver = pc at hs
      cases pc <;> exact hs }

lemma Kept.moveCall (h : Kept s) {c : Call} (hi : s.calls[i]? = some c) (c' : Call)
    (hresetting : c'.resetting = c.resetting) (hsound : c'.Sound s.core) : Kept (s.setCall i c') := by
  have hset : weight Call.resetting (s.calls.set i c') = weight Call.resetting s.calls := by
    have hset := weight_set Call.resetting hi c'
    omega
  refine ⟨hset.trans_le h.alone, forall_set h.calls hsound i, fun period time hvow => ?_⟩
  obtain ⟨hquiet, htold⟩ := h.promise period time hvow
  exact ⟨hset.trans hquiet, htold.calls⟩

lemma Kept.resetting (h : Kept s) {c : Call} (hi : s.calls[i]? = some c) (hc : c.resetting = 1) :
    weight Call.resetting (s.calls.set i .returned) = 0 ∧ s.promise = none := by
  have hset : weight Call.resetting (s.calls.set i .returned) + c.resetting = weight Call.resetting s.calls + 0 :=
    weight_set Call.resetting hi .returned
  have halone := h.alone
  have hle := le_weight Call.resetting (mem_of_getElem? hi)
  refine ⟨by omega, ?_⟩
  rcases hvow : s.promise with _ | ⟨period, time⟩
  · rfl
  · have hquiet := (h.promise period time hvow).1
    omega

lemma Call.sound_of_quiet (hx : x.resetting = 0) (c : Core) : x.Sound c := by
  cases x with
  | storePeriod | readNow | storeDeadline | nudge => cases hx
  | exchange | cancel | returned => trivial

lemma Kept.advanceReset (h : Kept s) {c : Call} (hi : s.calls[i]? = some c) (hc : c.resetting = 1)
    (c' : Call) (hresetting : c'.resetting = 1) (hsound : c'.Sound u) : Kept { s.setCall i c' with core := u } := by
  obtain ⟨hquiet, hnone⟩ := h.resetting hi hc
  refine ⟨?_, ?_, fun period time hvow => ?_⟩
  · have hset := weight_set Call.resetting hi c'
    have halone := h.alone
    show weight Call.resetting (s.calls.set i c') ≤ 1
    omega
  · show ∀ x ∈ s.calls.set i c', x.Sound u
    rw [← set_set]
    have hoth : ∀ x ∈ s.calls.set i .returned, x.Sound u := fun x hx =>
      Call.sound_of_quiet (Nat.le_zero.mp (hquiet ▸ le_weight Call.resetting hx)) u
    exact forall_set hoth hsound i
  · have hvow : s.promise = some (period, time) := hvow
    rw [hnone] at hvow
    cases hvow

lemma Kept.nudge (h : Kept s) (hi : s.calls[i]? = some (.nudge period time)) (harm : arming s.core.driver = false) :
    Kept { s.setCall i .returned with core := s.core.nudge, promise := some (period, time), armed := [] } := by
  obtain ⟨hquiet, -⟩ := h.resetting hi rfl
  have hforce : InForce s.core period time := h.calls _ (mem_of_getElem? hi)
  refine ⟨hquiet.trans_le (Nat.zero_le 1), ?_, fun p t hvow => ⟨hquiet, ?_⟩⟩
  · intro x hx
    exact Call.sound_of_quiet (Nat.le_zero.mp (hquiet ▸ le_weight Call.resetting hx)) _
  · cases hvow
    refine ⟨hforce.same (sameWords_nudge s.core), nofun, ?_⟩
    rw [(sameWords_nudge s.core).driver]
    cases hpc : s.core.driver with
    | setup => exact .inl (rearm_nudge (by rw [waiting, hpc]))
    | arm =>
      rw [hpc] at harm
      cases harm
    | parked | check | compare | loadPeriod | tick | advance | storeNext => exact .inl rfl
    | _ => trivial

lemma bounded_of_not_advancing {pc : Driver} (h : advancing pc = false) : Bounded c period time pc := by
  cases pc with
  | compare | loadPeriod | tick | advance | storeNext => cases h
  | _ => trivial

lemma Kept.callStep (h : Kept s) {u : State} (hapart : Apart s (.call i)) (hu : s.step (.call i) = some u) :
    Kept u := by
  obtain ⟨c, hi, hu⟩ := Option.bind_eq_some_iff.mp hu
  have hsound := h.calls c (mem_of_getElem? hi)
  have hapart : (match s.calls[i]? with
    | some (.storeDeadline period time) => !advancing s.core.driver && decide (time + period < 2 ^ 63)
    | some (.nudge ..) => !arming s.core.driver
    | _ => true) = true := hapart
  rw [hi] at hapart
  cases c with
  | exchange =>
    rw [State.callStep] at hu
    split at hu <;> cases hu
    · exact h.moveCall hi .returned rfl trivial
    · exact (h.moveCall hi .cancel rfl trivial).same ⟨rfl, rfl, rfl, le_rfl, id⟩
  | cancel =>
    cases hu
    exact (h.moveCall hi .returned rfl trivial).same ⟨rfl, rfl, rfl, le_rfl, id⟩
  | storePeriod p =>
    cases hu
    exact h.advanceReset hi rfl (.readNow p) rfl ⟨hsound, rfl⟩
  | readNow p =>
    cases hu
    exact h.moveCall hi (.storeDeadline p s.core.now) rfl hsound
  | storeDeadline p t =>
    cases hu
    refine h.advanceReset hi rfl (.nudge p t) rfl ⟨hsound.1, hsound.2, le_rfl, bounded_of_not_advancing ?_⟩
    simpa using (Bool.and_eq_true_iff.mp hapart).1
  | nudge =>
    cases hu
    exact h.nudge hi (by simpa using hapart)
  | returned => cases hu

/-! ### Every run -/

lemma kept_step {u : State} {a : Act} (h : Kept s) (hapart : Apart s a) (hu : s.step a = some u) : Kept u := by
  cases a with
  | stop =>
    cases hu
    have hweight : weight Call.resetting (s.calls ++ [.exchange]) = weight Call.resetting s.calls :=
      weight_concat _ _ _
    refine ⟨hweight.trans_le h.alone, forall_append h.calls trivial, fun p t hvow => ?_⟩
    obtain ⟨hquiet, htold⟩ := h.promise p t hvow
    exact ⟨hweight.trans hquiet, htold.calls⟩
  | reset p =>
    rw [State.step] at hu
    split at hu <;> cases hu
    · exact h
    · rename_i hpos
      have hquiet : weight Call.resetting s.calls = 0 := beq_iff_eq.mp hapart
      refine ⟨?_, forall_append h.calls (not_le.mp hpos), nofun⟩
      rw [weight_concat, hquiet]
      exact le_rfl
  | call => exact h.callStep hapart hu
  | drive =>
    obtain ⟨c, hc, rfl⟩ := Option.map_eq_some_iff.mp hu
    exact h.drive hc
  | fire =>
    obtain ⟨c, hc, rfl⟩ := Option.map_eq_some_iff.mp hu
    exact h.fire hc
  | tick =>
    cases hu
    exact h.same ⟨rfl, rfl, rfl, Int.le_add_one le_rfl, id⟩

lemma kept_create (period now : Int) : Kept (.create period now) where
  alone := Nat.zero_le _
  calls := nofun
  promise := nofun

/-- **Every deadline the driver arms after a reset has returned lies at least its period after it, and any two of them
are whole periods apart, as long as resets do not overlap, none stores its deadline between the driver's second load of
`deadline_ns` and its store, none sends its nudge while the driver is about to arm its timer, and the deadlines
fit.** -/
theorem reset_takes_effect {s : State} (hs : tickerSystem.ReachableVia Apart s) : Ticking s := by
  have hkept : Kept s := by
    refine hs.invariant ?_ fun _ _ _ h hapart hstep => kept_step h hapart hstep
    rintro s ⟨period, now, -, rfl⟩
    exact kept_create period now
  exact hkept.ticking

/-- The driver waits for 10 when the period is changed from 10 to 3 at the time 2: it arms 5, 8 and 11. -/
theorem reset_takes_effect_thrice : ∃ s, tickerSystem.ReachableVia Apart s ∧ s.promise = some (3, 2) ∧
    s.armed = [5, 8, 11] ∧ Ticking s := by
  obtain ⟨s, hs, hvow, harmed⟩ := tickerSystem.reachableVia_of_run Apart (.create 10 0)
    ([.drive false, .drive false, .drive false, .tick, .tick, .reset 3, .call 0, .call 0, .call 0, .call 0] ++
      replicate 4 (.drive false) ++ replicate 3 .tick ++ .fire :: replicate 10 (.drive false) ++
        replicate 3 .tick ++ .fire :: replicate 10 (.drive false))
    (fun s => s.promise = some (3, 2) ∧ s.armed = [5, 8, 11]) ⟨10, 0, by decide, rfl⟩ (by decide +kernel)
  exact ⟨s, hs, hvow, harmed, reset_takes_effect hs⟩

/-- A reset to 100 falls between the driver's clock check and its store of the next deadline, and the driver goes on
with 2; of two overlapping resets one leaves its period and the other its deadline; a reset is over before the driver
arms the timer of a select that it has already won. -/
theorem reset_lost : (∃ s, tickerSystem.Reachable s ∧ s.promise = some (100, 1) ∧ s.armed = [2]) ∧
      (∃ s, tickerSystem.Reachable s ∧ s.promise = some (100, 0) ∧ s.armed = [5]) ∧
        ∃ s, tickerSystem.Reachable s ∧ s.promise = some (100, 0) ∧ s.armed = [1, 100] := by
  refine ⟨?_, ?_, ?_⟩
  · exact tickerSystem.reachable_of_run (.create 1 0)
      ([.drive false, .drive false, .drive false, .tick, .fire, .drive false, .drive false, .drive false, .drive false,
        .reset 100, .call 0, .call 0, .call 0, .call 0] ++ replicate 8 (.drive false))
      _ ⟨1, 0, by decide, rfl⟩ (by decide +kernel)
  · exact tickerSystem.reachable_of_run (.create 1 0)
      [.drive false, .drive false, .drive false, .reset 5, .reset 100, .call 0, .call 0, .call 1, .call 1, .call 1,
        .call 0, .call 0, .call 1, .drive false, .drive false, .drive false, .drive false, .drive false, .drive false]
      _ ⟨1, 0, by decide, rfl⟩ (by decide +kernel)
  · exact tickerSystem.reachable_of_run (.create 1 0)
      [.drive false, .drive false, .reset 100, .call 0, .call 0, .call 0, .call 0, .drive false, .drive false,
        .drive false, .drive false, .drive false]
      _ ⟨1, 0, by decide, rfl⟩ (by decide +kernel)

end Cio.TickerReset
