import Cio.SelectSteps

/-! Channels and selectors in every interleaving. Values leave a channel in the order in which their sends
committed, reports agree with that order, and every selector commits one case, is resumed once and leaves no
waiter behind. -/

namespace Cio.Chan

open Transition RingBuffer List

variable {α : Type} {P : Program α} {s s' : World α} {c t k : Nat} {w : Waiter}

/-! ### The run -/

lemma Program.start_inv (P : Program α) : WorldInv P P.start := by
  have hfree : ∀ x, P.start.taken x = false := by
    intro x
    cases x <;> rfl
  refine ⟨⟨nofun, nofun, fun _ => nodup_nil, fun _ => nodup_nil, fun c x => ?_, fun x _ _ hx => ?_,
    fun _ _ => ⟨rfl, rfl⟩⟩, fun c => ⟨rfl, ⟨[], FifoRing.Holds.empty _, rfl⟩, nofun, nofun, fun _ => ⟨rfl, rfl⟩⟩,
    nodup_nil, nofun, fun c t hl => ?_, nofun, nofun, fun t ht => ?_, nofun, fun k => ?_⟩
  · rw [hfree x]
    rfl
  · rw [hfree x] at hx
    cases hx
  · rcases hl with hl | hl <;> cases hl
  · rcases ht with ht | ⟨_, _, ht⟩ <;> cases ht
  · refine ⟨⟨rfl, rfl, rfl, rfl⟩, fun i ⟨c, hc⟩ => ?_, fun i hi => absurd rfl hi, nofun, fun i hi => ?_, nofun,
      fun hw => absurd rfl hw, nofun⟩
    · rcases hc with hc | hc <;> cases hc
    · rcases hi with hi | hi <;> cases hi

lemma chanStep_advances {a : Act} (h : WorldInv P s) (hs : chanStep P s a = some s') : s.Advances P s' := by
  cases a with
  | call => exact callStep_advances h hs
  | close c =>
    cases hs
    exact close_advances h c
  | select => exact selectStep_advances h hs
  | arm => exact armStep_advances h hs
  | wake => exact wakeStep_advances h hs
  | timer => exact timerStep_advances h hs
  | resume => exact resumeStep_advances h hs
  | finish => exact finishStep_advances h hs

lemma worldInv_of_reachable (hs : (chanSystem P).Reachable s) : WorldInv P s := by
  refine System.ReachableVia.invariant (fun s hinit => ?_) (fun s a s' h _ hst => ?_) hs
  · cases hinit
    exact P.start_inv
  · exact (chanStep_advances h hst).inv

/-! ### Values -/

lemma Channel.Ok.contents {live : Waiter → Bool} {capacity : Nat} {ch : Channel α} (h : ch.Ok live capacity) :
    (ch.delivered.map fun d => some d.2) ++ ch.ring.contents = ch.committed.map fun d => some d.2 := by
  obtain ⟨l, hring, hfifo⟩ := h.fifo
  have hmap := congrArg (map some) hfifo
  rw [map_append, map_map, map_map] at hmap
  rw [hring.contents_eq]
  exact hmap

lemma Channel.Ok.delivered_eq {live : Waiter → Bool} {capacity : Nat} {ch : Channel α} (h : ch.Ok live capacity)
    (hcount : ch.ring.count = 0) : ch.delivered.map Prod.snd = ch.committed.map Prod.snd := by
  obtain ⟨l, hring, hfifo⟩ := h.fifo
  obtain rfl : l = [] := eq_nil_of_length_eq_zero (hring.count.symm.trans hcount)
  rw [append_nil] at hfifo
  exact hfifo

lemma WaiterInv.acts_le (h : WaiterInv P s) (c : Nat) (w : Waiter) : (s.chan c).acts w ≤ 1 := by
  rw [h.acts c w]
  split
  · exact le_refl 1
  · exact Nat.zero_le 1

lemma WaiterInv.taken_of_acts (h : WaiterInv P s) (hacts : 0 < (s.chan c).acts w) : s.taken w = true := by
  rw [h.acts c w] at hacts
  split at hacts
  · rename_i hboth
    exact hboth.1
  · cases hacts

lemma WaiterInv.success_iff (h : WaiterInv P s) {v : α} (hhome : P.home w = some (c, .send v)) :
    s.success w ↔ (w, v) ∈ (s.chan c).committed := by
  constructor
  · intro hsucc
    have htaken : s.taken w = true := by
      by_contra hne
      rw [(h.untaken w (Bool.eq_false_iff.mpr hne)).2] at hsucc
      cases hsucc
    rcases h.result w c _ htaken hhome with ⟨_, hmem⟩ | ⟨hfail, _⟩
    · exact hmem
    · rw [hfail] at hsucc
      cases hsucc
  · intro hmem
    have hpos : 0 < ((s.chan c).committed.map Prod.fst).count w := count_pos_iff.mpr (mem_map_of_mem hmem)
    have hle := h.acts_le c w
    rw [Channel.acts] at hle
    have htaken : s.taken w = true := h.taken_of_acts (c := c) (by rw [Channel.acts]; omega)
    rcases h.result w c _ htaken hhome with ⟨hok, _⟩ | ⟨_, hobs⟩
    · exact hok
    · -- a send that saw the channel closed has no other entry in the log
      have hseen := count_pos_iff.mpr hobs
      omega

/-- Whoever a value was delivered to has it in its slot. -/
lemma WaiterInv.slot_of_delivered (h : WaiterInv P s) {v : α} (hmem : (w, v) ∈ (s.chan c).delivered) :
    s.slot w = some v := by
  have hpos : 0 < ((s.chan c).delivered.map Prod.fst).count w := count_pos_iff.mpr (mem_map_of_mem hmem)
  have hacts := h.acts c w
  rw [Channel.acts] at hacts
  split at hacts
  next htaken =>
    obtain ⟨⟨c', d⟩, hhome, hc⟩ := Option.map_eq_some_iff.mp htaken.2
    obtain rfl : c' = c := hc
    have hres := h.result w c' d htaken.1 hhome
    cases d with
    | recv =>
      rcases hres with ⟨u, hslot, hu⟩ | ⟨-, hobs, -⟩
      · have hnodup : ((s.chan c').delivered.map Prod.fst).Nodup := nodup_iff_count_le_one.mpr fun w => by
          have hle := h.acts_le c' w
          rw [Channel.acts] at hle
          omega
        rw [hslot, (Prod.mk.inj (inj_on_of_nodup_map hnodup hu hmem rfl)).2]
      · have hseen := count_pos_iff.mpr hobs
        omega
    | send u =>
      -- a send that acted is in another log
      rcases hres with ⟨-, hcom⟩ | ⟨-, hobs⟩
      · have hsent : 0 < ((s.chan c').committed.map Prod.fst).count w := count_pos_iff.mpr (mem_map_of_mem hcom)
        omega
      · have hseen := count_pos_iff.mpr hobs
        omega
  next => omega

/-- The operation of the waiter hands its report to the caller: a plain operation was resumed or did not
suspend, or a selector completed with this case. -/
def World.Reports (s : World α) : Waiter → Prop
  | .op t => s.ops t = .woken ∨ ∃ status, s.ops t = .returned status
  | .sel k i => s.sels k = .completed ∧ s.winner k = some i

/-- The operation is a `try_send` or `try_recv` that gave up. -/
def World.GaveUp (P : Program α) (s : World α) : Waiter → Prop
  | .op t => (P.call t).blocking = false ∧ s.ops t = .returned .blocked
  | .sel _ _ => False

lemma WorldInv.reports_taken (h : WorldInv P s) (hrep : s.Reports w) : s.taken w ∨ s.GaveUp P w := by
  cases w with
  | op t =>
    rcases hrep with hwoken | ⟨status, hstat⟩
    · exact .inl (h.pcs.opReported t (.inl hwoken))
    · by_cases hbar : status = .blocked
      · subst hbar
        exact .inr ⟨h.pcs.opRefused t hstat, hstat⟩
      · exact .inl (h.pcs.opReported t (.inr ⟨status, hbar, hstat⟩))
  | sel => exact .inl (decide_eq_true hrep.2)

lemma WorldInv.received_value (h : WorldInv P s) (hhome : P.home w = some (c, .recv)) (hrep : s.Reports w)
    {v : α} (hslot : s.slot w = some v) : (w, v) ∈ (s.chan c).delivered := by
  rcases h.reports_taken hrep with htaken | hgave
  · rcases h.waiters.result w c _ htaken hhome with ⟨u, hu, hmem⟩ | ⟨hnone, _⟩
    · rw [hslot] at hu
      cases hu
      exact hmem
    · rw [hslot] at hnone
      cases hnone
  · -- an operation that gave up has an untouched slot
    cases w with
    | op t =>
      have hfree : s.taken (.op t) = false :=
        Bool.eq_false_iff.mpr fun hacq => (h.pcs.opAcquired t hacq).2 hgave.2
      rw [(h.waiters.untaken _ hfree).1, Program.slot, hhome] at hslot
      cases hslot
    | sel => exact hgave.elim

lemma WorldInv.received_none (h : WorldInv P s) (hhome : P.home w = some (c, .recv)) (hrep : s.Reports w)
    (hslot : s.slot w = none) :
    ((s.chan c).closed ∧ (s.chan c).delivered.map Prod.snd = (s.chan c).committed.map Prod.snd) ∨
      s.GaveUp P w := by
  rcases h.reports_taken hrep with htaken | hgave
  · rcases h.waiters.result w c _ htaken hhome with ⟨u, hu, _⟩ | ⟨_, _, hshut, hcount⟩
    · rw [hslot] at hu
      cases hu
    · exact .inl ⟨hshut, (h.chans c).delivered_eq hcount⟩
  · exact .inr hgave

/-- **Values are neither lost, duplicated nor reordered**: what was delivered, followed by what the ring holds, is what
was committed, in order. A send reports success exactly when it committed, no operation is logged twice, a receive
reports the value that was delivered to it and has every value that was, and it reports none only when the channel is
closed and has delivered everything, unless it is a `try_recv` that found an open channel with nothing left to
deliver. -/
theorem channel_fifo (P : Program α) {s : World α} (hs : (chanSystem P).Reachable s) (c : Nat) :
    ((s.chan c).delivered.map fun d => some d.2) ++ (s.chan c).ring.contents =
        ((s.chan c).committed.map fun d => some d.2) ∧
      (∀ w v, P.home w = some (c, .send v) → (s.success w = true ↔ (w, v) ∈ (s.chan c).committed)) ∧
      (∀ w, (s.chan c).acts w ≤ 1) ∧
      (∀ w v, P.home w = some (c, .recv) → s.Reports w → s.slot w = some v → (w, v) ∈ (s.chan c).delivered) ∧
      (∀ w v, (w, v) ∈ (s.chan c).delivered → s.slot w = some v) ∧
      (∀ w, P.home w = some (c, .recv) → s.Reports w → s.slot w = none →
        ((s.chan c).closed = true ∧
          (s.chan c).delivered.map Prod.snd = (s.chan c).committed.map Prod.snd) ∨ s.GaveUp P w) ∧
      ∀ t s', s.callStep P t = some s' → P.home (.op t) = some (c, .recv) → s'.GaveUp P (.op t) →
        (s'.chan c).closed = false ∧
          (s'.chan c).delivered.map Prod.snd = (s'.chan c).committed.map Prod.snd := by
  have h := worldInv_of_reachable hs
  refine ⟨(h.chans c).contents, fun w v hhome => h.waiters.success_iff hhome, h.waiters.acts_le c,
    fun w v hhome hrep hslot => h.received_value hhome hrep hslot, fun w v hmem => h.waiters.slot_of_delivered hmem,
    fun w hhome hrep hslot => h.received_none hhome hrep hslot, fun t s' hstep hhome hgave => ?_⟩
  have h' := (callStep_advances h hstep).inv
  obtain ⟨_, href⟩ := callStep_refused h hstep hgave.2
  obtain ⟨hchan, hdir⟩ := Prod.mk.inj (Option.some.inj hhome)
  rw [hchan, hdir] at href
  exact ⟨href.1, (h'.chans c).delivered_eq href.2⟩

/-- Two senders and a receiver at a channel of capacity one; every later operation is a `try_recv`. -/
def letterBox : Program Nat where
  capacity _ := 1
  call
    | 0 => ⟨0, .send 7, true⟩
    | 1 => ⟨0, .send 8, true⟩
    | 2 => ⟨0, .recv, true⟩
    | _ => ⟨0, .recv, false⟩
  cases _ := []

theorem channel_fifo_refill : ∃ s, (chanSystem letterBox).Reachable s ∧
    (s.chan 0).committed = [(.op 0, 7), (.op 1, 8)] ∧ (s.chan 0).delivered = [(.op 2, 7)] ∧
    ((s.chan 0).delivered.map fun d => some d.2) ++ (s.chan 0).ring.contents =
      (s.chan 0).committed.map fun d => some d.2 := by
  obtain ⟨s, hs, hcom, hdelivered⟩ := (chanSystem letterBox).reachable_of_run letterBox.start
    [.call 0, .call 1, .call 2]
    (fun s => (s.chan 0).committed = [(.op 0, 7), (.op 1, 8)] ∧ (s.chan 0).delivered = [(.op 2, 7)])
    rfl (by decide +kernel)
  exact ⟨s, hs, hcom, hdelivered, (channel_fifo letterBox hs 0).1⟩

/-- A `try_recv` on an open and empty channel returns none as well. -/
theorem try_recv_none_while_open : ∃ s, (chanSystem letterBox).Reachable s ∧
    letterBox.home (.op 3) = some (0, .recv) ∧ s.Reports (.op 3) ∧ s.slot (.op 3) = none ∧
    (s.chan 0).closed = false := by
  obtain ⟨s, hs, hret, hslot, hopen⟩ := (chanSystem letterBox).reachable_of_run letterBox.start [.call 3]
    (fun s => s.ops 3 = .returned .blocked ∧ s.slot (.op 3) = none ∧ (s.chan 0).closed = false)
    rfl (by decide +kernel)
  exact ⟨s, hs, rfl, .inr ⟨_, hret⟩, hslot, hopen⟩

/-! ### Selectors -/

structure CommitsOnce (P : Program α) (s : World α) (k : Nat) : Prop where
  /-- The winner is a case of the selector. -/
  winner : ∀ i, s.winner k = some i → i < (P.cases k).length
  /-- No step takes the winner back or sets another one. -/
  stable : ∀ a s' i, chanStep P s a = some s' → s.winner k = some i → s'.winner k = some i
  /-- The winning case acts once, on its own channel, and no other case acts at all. -/
  acts : ∀ i c, (s.chan c).acts (.sel k i) =
    if s.winner k = some i ∧ (P.home (.sel k i)).map Prod.fst = some c then 1 else 0
  /-- The winning case sent its value, received one, or saw the channel closed. -/
  result : ∀ i c d, s.winner k = some i → P.home (.sel k i) = some (c, d) → s.Result (.sel k i) c d
  /-- A losing case still has what it started with. -/
  losers : ∀ i, s.winner k ≠ some i → s.slot (.sel k i) = P.slot (.sel k i) ∧ s.success (.sel k i) = false
  /-- It is resumed at most once, and only with a winner. -/
  resumes : s.inlineResumes k + s.dispatched k ≤ if s.winner k = none then 0 else 1
  /-- A waker that has yet to take the phase is the winner's, and it comes before the resume. -/
  waker : ∀ i, .sel k i ∈ s.wakes ∨ s.timer k i = .won →
    s.winner k = some i ∧ s.inlineResumes k + s.dispatched k = 0
  /-- With a winner it was resumed, or its setup is about to, or the winner's waker is. -/
  notLost : s.winner k ≠ none → s.inlineResumes k + s.dispatched k = 1 ∨
    ((∃ j, s.sels k = .arming j) ∧ s.phase k = .resumed) ∨ ∃ i, .sel k i ∈ s.wakes ∨ s.timer k i = .won
  /-- Completed: one winner, one resume, and no waiter or timeout left behind. -/
  completed : s.sels k = .completed → s.winner k ≠ none ∧ s.inlineResumes k + s.dispatched k = 1 ∧
    (∀ c i, ¬ s.Linked c (.sel k i)) ∧ ∀ i, s.timer k i = .idle

namespace SelView.Ok

variable {cases : List (Case α)} {v : SelView}

lemma resumes_eq (h : v.Ok cases) :
    (v.inlineResumes + v.dispatched = 1 ∧ v.winner ≠ none ∧ (v.Running ∨ v.phase = .resumed)) ∨
      (v.inlineResumes + v.dispatched = 0 ∧ ¬ v.Running ∧ (v.phase = .resumed → ∃ j, v.pc = .arming j)) := by
  have hpc := h.pc
  rw [PcOk] at hpc
  rw [Running]
  cases hv : v.pc with
  | fresh =>
    rw [hv] at hpc
    obtain ⟨_, hsetup, hinl, hsent⟩ := hpc
    refine .inr ⟨by omega, id, fun hres => ?_⟩
    cases hsetup.symm.trans hres
  | arming j =>
    rw [hv] at hpc
    obtain ⟨_, hinl, hsent, _⟩ := hpc
    exact .inr ⟨by omega, id, fun _ => ⟨j, rfl⟩⟩
  | suspended =>
    rw [hv] at hpc
    obtain ⟨_, hinl, hsent, _⟩ := hpc
    by_cases hres : v.phase = .resumed
    · rw [if_pos hres] at hsent
      exact .inl ⟨by omega, h.resumed hres, .inr hres⟩
    · rw [if_neg hres] at hsent
      exact .inr ⟨by omega, id, fun heq => absurd heq hres⟩
  | finishing | completed =>
    rw [hv] at hpc
    exact .inl ⟨hpc.2.2, hpc.2.1, .inl trivial⟩

lemma resumes_le (h : v.Ok cases) : v.inlineResumes + v.dispatched ≤ if v.winner = none then 0 else 1 := by
  rcases h.resumes_eq with ⟨hone, hwin, _⟩ | ⟨hzero, _⟩
  · rw [if_neg hwin, hone]
  · rw [hzero]
    exact Nat.zero_le _

lemma resumes_of_owed (h : v.Ok cases) {i : Nat} (howed : v.Owed i) :
    v.winner = some i ∧ v.inlineResumes + v.dispatched = 0 := by
  obtain ⟨hwin, hphase, hstill⟩ := h.owed i howed
  refine ⟨hwin, ?_⟩
  rcases h.resumes_eq with ⟨_, _, hdone⟩ | ⟨hzero, _⟩
  · exact absurd hdone (not_or.mpr ⟨hstill, hphase⟩)
  · exact hzero

lemma resumed_or_owed (h : v.Ok cases) (hwin : v.winner ≠ none) :
    v.inlineResumes + v.dispatched = 1 ∨ ((∃ j, v.pc = .arming j) ∧ v.phase = .resumed) ∨ ∃ i, v.Owed i := by
  rcases h.resumes_eq with ⟨hone, _⟩ | ⟨_, hstill, harm⟩
  · exact .inl hone
  · rcases h.notLost hwin with hrun | hres | howed
    · exact absurd hrun hstill
    · exact .inr (.inl ⟨harm hres, hres⟩)
    · exact .inr (.inr howed)

end SelView.Ok

lemma WorldInv.completed (h : WorldInv P s) (hpc : s.sels k = .completed) :
    s.winner k ≠ none ∧ s.inlineResumes k + s.dispatched k = 1 ∧
      (∀ c i, ¬ s.Linked c (.sel k i)) ∧ ∀ i, s.timer k i = .idle := by
  have hpc' : (s.selView k).pc = .completed := hpc
  have hok := (h.pcs.sel k).pc
  rw [SelView.PcOk, hpc'] at hok
  refine ⟨hok.2.1, hok.2.2, fun c i hlink => ?_, fun i => ?_⟩
  · have hmay := (h.pcs.sel k).linked i ⟨c, hlink⟩
    rw [SelView.MayLink, hpc'] at hmay
    exact hmay
  · by_contra hne
    have hmay := ((h.pcs.sel k).timer i hne).2
    rw [SelView.MayFire, hpc'] at hmay
    exact hmay

/-- **Every selector commits exactly one case**, whatever the other selectors, plain operations, closers and
timeouts do in between. -/
theorem select_commits_once (P : Program α) {s : World α} (hs : (chanSystem P).Reachable s) (k : Nat) :
    CommitsOnce P s k := by
  have h := worldInv_of_reachable hs
  have hsel := h.pcs.sel k
  refine ⟨hsel.index, fun a s' i hstep hi => ?_, fun i c => ?_, fun i c d hi hd => ?_, fun i hi => ?_,
    hsel.resumes_le, fun i howed => hsel.resumes_of_owed howed, hsel.resumed_or_owed, h.completed⟩
  · exact of_decide_eq_true ((chanStep_advances h hstep).taken (.sel k i) (decide_eq_true hi))
  · refine (h.waiters.acts c (.sel k i)).trans (if_congr (and_congr_left fun _ => ?_) rfl rfl)
    exact decide_eq_true_iff
  · exact h.waiters.result _ c d (decide_eq_true hi) hd
  · exact h.waiters.untaken _ (decide_eq_false hi)

/-- A selector over a channel and a timeout, and a plain sender. -/
def mailOrTimeout : Program Nat where
  capacity _ := 0
  call _ := ⟨0, .send 7, true⟩
  cases _ := [.recv (some 0), .timeout]

theorem select_commits_once_sender_wins : ∃ s, (chanSystem mailOrTimeout).Reachable s ∧
    s.sels 0 = .completed ∧ s.winner 0 = some 0 ∧ s.dispatched 0 = 1 ∧ CommitsOnce mailOrTimeout s 0 := by
  obtain ⟨s, hs, hcompleted, hwin, hsent⟩ := (chanSystem mailOrTimeout).reachable_of_run mailOrTimeout.start
    [.select 0 [0], .arm 0, .arm 0, .arm 0, .timer 0 1, .call 0, .timer 0 1, .wake 0, .resume 0, .finish 0,
      .finish 0, .finish 0]
    (fun s => s.sels 0 = .completed ∧ s.winner 0 = some 0 ∧ s.dispatched 0 = 1) rfl (by decide +kernel)
  exact ⟨s, hs, hcompleted, hwin, hsent, select_commits_once mailOrTimeout hs 0⟩

end Cio.Chan
