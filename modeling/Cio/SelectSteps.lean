import Cio.ChannelWorld

/-! The steps of selectors. The ready scan only drops stale waiters until a case is ready; if none is, every
channel of the selector refuses its case, so the waiters may be queued. After that the setup, the wakers, the
timeouts and `finish` move the handshake of one selector and leave every other one alone. -/

namespace Cio.Chan

open Function List

variable {α : Type} {P : Program α} {s s' s1 : World α} {c k i : Nat} {w : Waiter}

/-! ### The setup -/

lemma Case.home_timeout_or {x : Case α} {y : Nat × Dir α} (h : x.home = some y) :
    (∃ chan, x = .recv chan) ∨ ∃ chan v, x = .send chan v := by
  cases x with
  | recv chan => exact .inl ⟨chan, rfl⟩
  | send chan v => exact .inr ⟨chan, v, rfl⟩
  | timeout | otherwise => cases h

lemma mem_channelCases {y : Nat × Dir α} (h : P.home (.sel k i) = some y) : i ∈ channelCases (P.cases k) := by
  refine mem_filter.mpr ⟨mem_range.mpr (lt_of_home h), ?_⟩
  obtain ⟨x, hx, hhome⟩ := Option.bind_eq_some_iff.mp h
  rw [hx]
  rcases Case.home_timeout_or hhome with ⟨chan, rfl⟩ | ⟨chan, v, rfl⟩
  · rfl
  · rfl

lemma defaultIndex_some {cases : List (Case α)} (h : defaultIndex cases = some i) : cases[i]? = some .otherwise := by
  have hfound := find?_some h
  split at hfound
  · assumption
  · cases hfound

/-- The ready scan went over the cases in `done` and found none ready. -/
structure World.Scanned (P : Program α) (k : Nat) (s s' : World α) (done : List Nat) : Prop where
  inv : WorldInv P s'
  same : s.SameRings s'
  taken : s'.taken = s.taken
  ops : s'.ops = s.ops
  sels : s'.sels = s.sels
  refuses : ∀ i ∈ done, ∀ c d, P.home (.sel k i) = some (c, d) → (s'.chan c).Refuses d

lemma WorldInv.caseTry (h : WorldInv P s) (hfresh : s.sels k = .fresh) {status : OpStatus}
    (hop : s.caseTry P k i = (status, s')) :
    if status = .blocked then World.Scanned P k s s' [i]
    else s.Effected P s' (.sel k i) ∧ i < (P.cases k).length := by
  have hw := h.fresh_sel hfresh i
  unfold World.caseTry at hop
  split at hop
  · rename_i c hhome
    have hout := h.tryRecv hw hhome hop
    split at hout
    · rename_i hbar
      rw [if_pos hbar]
      subst hbar
      refine ⟨hout.inv, tryRecvLocked_sameRings hop, hout.taken, hout.ops, hout.sels, fun j hj c' d hd => ?_⟩
      rw [mem_singleton.mp hj, hhome] at hd
      cases hd
      exact hout.refuses
    · rename_i hbar
      rw [if_neg hbar]
      exact ⟨hout, lt_of_home hhome⟩
  · rename_i c v hhome
    obtain ⟨st, s1, hsend⟩ : ∃ st s1, s.trySendLocked c (.sel k i) v = (st, s1) := ⟨_, _, rfl⟩
    have hout := h.trySend hw hhome hsend
    rw [hsend] at hop
    cases hop
    split at hout
    · rename_i hbar
      rw [if_pos hbar, if_pos hbar]
      subst hbar
      refine ⟨hout.inv, trySendLocked_sameRings hsend, hout.taken, hout.ops, hout.sels, fun j hj c' d hd => ?_⟩
      rw [mem_singleton.mp hj, hhome] at hd
      cases hd
      exact hout.refuses
    · rename_i hbar
      rw [if_neg hbar, if_neg hbar]
      exact ⟨hout, lt_of_home hhome⟩
  · rename_i hhome
    cases hop
    rw [if_pos rfl]
    refine ⟨h, fun _ => ⟨rfl, rfl⟩, rfl, rfl, rfl, fun j hj c' d hd => ?_⟩
    rw [mem_singleton.mp hj, hhome] at hd
    cases hd

variable {j : Nat} {order : List Nat}

lemma WorldInv.scan_none (h : WorldInv P s) (hfresh : s.sels k = .fresh)
    (hop : World.scan P k order s = (none, s')) : World.Scanned P k s s' order := by
  induction order generalizing s with
  | nil =>
    cases hop
    exact ⟨h, fun _ => ⟨rfl, rfl⟩, rfl, rfl, rfl, nofun⟩
  | cons i rest ih =>
    have htry := h.caseTry (i := i) hfresh (Prod.eta _).symm
    rw [World.scan] at hop
    dsimp only at hop
    split at hop
    · rename_i hbar
      rw [if_pos hbar] at htry
      have hrest := ih htry.inv ((congrFun htry.sels k).trans hfresh) hop
      refine ⟨hrest.inv, htry.same.trans hrest.same, hrest.taken.trans htry.taken, hrest.ops.trans htry.ops,
        hrest.sels.trans htry.sels, fun j hj c d hd => ?_⟩
      rcases mem_cons.mp hj with rfl | hj
      · exact hrest.same.refuses (htry.refuses j (mem_singleton_self _) c d hd)
      · exact hrest.refuses j hj c d hd
    · cases hop

lemma WorldInv.scan_some (h : WorldInv P s) (hfresh : s.sels k = .fresh) (hop : World.scan P k order s = (some i, s')) :
    s.Effected P s' (.sel k i) ∧ i < (P.cases k).length := by
  induction order generalizing s with
  | nil => cases hop
  | cons j rest ih =>
    have htry := h.caseTry (i := j) hfresh (Prod.eta _).symm
    rw [World.scan] at hop
    dsimp only at hop
    split at hop
    · rename_i hbar
      rw [if_pos hbar] at htry
      obtain ⟨hout, hi⟩ := ih htry.inv ((congrFun htry.sels k).trans hfresh) hop
      refine ⟨⟨hout.waiters, hout.chans, hout.pcs, fun x hx => hout.taken x ?_, hout.ops.trans htry.ops,
        hout.sels.trans htry.sels⟩, hi⟩
      rw [htry.taken]
      exact hx
    · rename_i hbar
      rw [if_neg hbar] at htry
      cases hop
      exact htry

lemma World.Effected.resumes (h : s.Effected P s1 (.sel k i)) (hfresh : s.sels k = .fresh)
    (hi : i < (P.cases k).length) : s.Advances P ((s1.take (.sel k i)).resumeInline k) := by
  have hfresh' : (s1.selView k).pc = .fresh := (congrFun h.sels k).trans hfresh
  have hnone : s1.winner k = none := by
    have hpc := (h.pcs.sel k).pc
    rw [SelView.PcOk, hfresh'] at hpc
    exact hpc.1
  have hview : ((s1.take (.sel k i)).resumeInline k).selView k = { s1.selView k with
      pc := .finishing 0
      winner := some i
      inlineResumes := (s1.selView k).inlineResumes + 1 } := by
    simp only [World.selView, World.resumeInline, World.setSel, World.take, Waiter.claim, World.Linked, update_self]
  refine ⟨⟨h.waiters.congr rfl rfl ⟨rfl, rfl⟩, fun c => h.chans.take (.sel k i) c, ?_⟩, h.taken⟩
  refine h.pcs.of_sel rfl rfl (.refl _) (fun _ _ hl => hl) (fun x hx => ?_) fun k' => ?_
  · exact (World.take_taken (s := s1) (w := .sel k i) (decide_eq_true hnone) x).mpr (.inl hx)
  · by_cases hk : k' = k
    · subst hk
      rw [hview]
      exact (h.pcs.sel k').inline hfresh' hi
    · exact (h.pcs.sel k').frame

structure World.Enqueued (P : Program α) (k : Nat) (s s' : World α) (n : Nat) : Prop where
  waiters : WaiterInv P s'
  chans : s'.ChansOk P
  same : s.SameRings s'
  links : ∀ c x, s'.Linked c x → s.Linked c x ∨ ∃ j, j < n ∧ x = .sel k j
  rest : ∃ chan, s' = { s with chan := chan }

lemma World.Enqueued.push {n : Nat} (h : World.Enqueued P k s s' n) (hfresh : s.Fresh (.sel k n))
    (href : ∀ c d, P.home (.sel k n) = some (c, d) → (s.chan c).Refuses d) :
    World.Enqueued P k s (s'.caseEnqueue P k n) (n + 1) := by
  obtain ⟨chan, hrest⟩ := h.rest
  have hfree : s'.taken (.sel k n) = false := by
    rw [hrest]
    exact hfresh.untaken
  have hnot : ∀ c, ¬ s'.Linked c (.sel k n) := by
    intro c hlink
    rcases h.links c _ hlink with hold | ⟨j, hj, heq⟩
    · exact (hfresh.apart c _ hold).1 rfl
    · cases heq
      exact lt_irrefl _ hj
  have hlinks : ∀ c x, s.Linked c x ∨ (∃ j, j < n ∧ x = .sel k j) →
      s.Linked c x ∨ ∃ j, j < n + 1 ∧ x = .sel k j := by
    rintro c x (hold | ⟨j, hj, heq⟩)
    · exact .inl hold
    · exact .inr ⟨j, Nat.lt_succ_of_lt hj, heq⟩
  unfold World.caseEnqueue
  split
  · rename_i c hhome
    have hempty := h.same.refuses (href c _ hhome)
    refine ⟨h.waiters.pushReceiver hhome hfree fun hmem => hnot c (.inr hmem),
      h.chans.pushReceiver hempty _, h.same.trans (.of_update rfl), fun c' x hx => ?_, ?_⟩
    · rcases World.linked_of_pushReceiver hx with hold | ⟨heq, _⟩
      · exact hlinks c' x (h.links c' x hold)
      · exact .inr ⟨n, Nat.lt_succ_self n, heq⟩
    · rw [hrest]
      exact ⟨_, rfl⟩
  · rename_i c v hhome
    have hfull := h.same.refuses (href c _ hhome)
    refine ⟨h.waiters.pushSender hhome hfree fun hmem => hnot c (.inl hmem),
      h.chans.pushSender hfull _, h.same.trans (.of_update rfl), fun c' x hx => ?_, ?_⟩
    · rcases World.linked_of_pushSender hx with hold | ⟨heq, _⟩
      · exact hlinks c' x (h.links c' x hold)
      · exact .inr ⟨n, Nat.lt_succ_self n, heq⟩
    · rw [hrest]
      exact ⟨_, rfl⟩
  · exact ⟨h.waiters, h.chans, h.same, fun c x hx => hlinks c x (h.links c x hx), chan, hrest⟩

lemma WorldInv.enqueue (h : WorldInv P s) (hfresh : s.sels k = .fresh)
    (href : ∀ i c d, P.home (.sel k i) = some (c, d) → (s.chan c).Refuses d) (n : Nat) :
    World.Enqueued P k s ((range n).foldl (World.caseEnqueue P k) s) n := by
  induction n with
  | zero => exact ⟨h.waiters, h.chans, fun _ => ⟨rfl, rfl⟩, fun _ _ hx => .inl hx, s.chan, rfl⟩
  | succ n ih =>
    rw [range_succ, foldl_append]
    exact ih.push (h.fresh_sel hfresh n) (href n)

lemma World.Enqueued.publishes {n : Nat} (h : World.Enqueued P k s s' n) (hinv : WorldInv P s)
    (hfresh : s.sels k = .fresh) :
    s.Advances P ({ s' with enqueued := update s.enqueued k true }.setSel k (.arming 0)) := by
  obtain ⟨chan, rfl⟩ := h.rest
  refine ⟨⟨h.waiters.congr rfl rfl ⟨rfl, rfl⟩, h.chans, ?_⟩, fun x hx => hx⟩
  refine hinv.pcs.of_sel rfl rfl (.refl _) (fun c t ht => ?_) (fun x hx => hx) fun k' => ?_
  · refine (h.links c _ ht).resolve_right ?_
    rintro ⟨j, _, heq⟩
    cases heq
  · by_cases hk : k' = k
    · subst hk
      have hview := (hinv.pcs.sel k').publish hfresh
        fun i => ∃ c, ({ s with chan := chan } : World α).Linked c (.sel k' i)
      simpa only [World.selView, World.setSel, World.Linked, update_self] using hview
    · refine (hinv.pcs.sel k').frame fun i hi => ?_
      obtain ⟨c, hc⟩ := hi
      refine ⟨c, ?_⟩
      refine (h.links c _ hc).resolve_right ?_
      rintro ⟨j, _, heq⟩
      exact hk (Waiter.sel.inj heq).1

lemma selectStep_advances (h : WorldInv P s) (hs : s.selectStep P k order = some s') : s.Advances P s' := by
  unfold World.selectStep at hs
  split at hs
  · rename_i hguard
    obtain ⟨hfresh, hperm⟩ := hguard
    split at hs
    · rename_i i s1 hscan
      cases hs
      obtain ⟨hout, hi⟩ := h.scan_some hfresh hscan
      exact hout.resumes hfresh hi
    · rename_i s1 hscan
      have hscanned := h.scan_none hfresh hscan
      have hfresh' : s1.sels k = .fresh := (congrFun hscanned.sels k).trans hfresh
      split at hs
      · -- the default case has no channel
        rename_i i hdefault
        cases hs
        have hcase := defaultIndex_some hdefault
        have hw := hscanned.inv.fresh_sel hfresh' i
        have hhome : P.home (.sel k i) = none := by
          rw [Program.home, hcase]
          rfl
        have hout : s.Effected P s1 (.sel k i) := by
          refine ⟨hscanned.inv.waiters.take_of_home_none hhome hw.live, hscanned.inv.chans,
            hscanned.inv.pcs, fun x hx => (World.take_taken hw.live x).mpr (.inl ?_), hscanned.ops,
            hscanned.sels⟩
          rw [hscanned.taken]
          exact hx
        exact hout.resumes hfresh (List.getElem?_eq_some_iff.mp hcase).1
      · cases hs
        have henq := hscanned.inv.enqueue hfresh'
          (fun i c d hd => hscanned.refuses i ((isPerm_iff.mp hperm).mem_iff.mpr (mem_channelCases hd)) c d hd)
          (P.cases k).length
        have hadv := henq.publishes hscanned.inv hfresh'
        refine ⟨hadv.inv, fun x hx => hadv.taken x ?_⟩
        rw [hscanned.taken]
        exact hx
  · cases hs

/-! ### The handshake -/

lemma WorldInv.handshake (h : WorldInv P s) (k : Nat) (hself : (s'.selView k).Ok (P.cases k))
    (hother : ∀ k', k' ≠ k → (s'.selView k').Ok (P.cases k') := by
      exact fun k' _ => (WorldInv.pcs ‹_›).sel k' |>.frame)
    (hwakes : s'.wakes.Sublist s.wakes := by exact .refl _)
    (hchan : s'.chan = s.chan := by rfl) (hslots : s'.slot = s.slot ∧ s'.success = s.success := by exact ⟨rfl, rfl⟩)
    (hops : s'.ops = s.ops := by rfl) (hacq : s'.acquired = s.acquired := by rfl)
    (hwin : s'.winner = s.winner := by rfl) : s.Advances P s' := by
  have htaken : s'.taken = s.taken := by
    funext x
    cases x with
    | op t => exact congrFun hacq t
    | sel k i => exact congrArg (fun winner => decide (winner = some i)) (congrFun hwin k)
  have hlive : s'.live = s.live := by
    funext x
    cases x with
    | op => rfl
    | sel k => exact congrArg (fun winner => decide (winner = none)) (congrFun hwin k)
  refine ⟨⟨h.waiters.congr hchan htaken hslots, fun c => ?_, ?_⟩, fun x hx => (congrFun htaken x).trans hx⟩
  · rw [hchan, hlive]
    exact h.chans c
  · refine h.pcs.of_sel hops hacq hwakes (fun c t ht => ?_) (fun x hx => (congrFun htaken x).trans hx) fun k' => ?_
    · rw [World.Linked, hchan] at ht
      exact ht
    · by_cases hk : k' = k
      · rw [hk]
        exact hself
      · exact hother k' hk

lemma WorldInv.arming (h : WorldInv P s) (hpc : s.sels k = .arming j) :
    s.phase k ≠ .parked ∧ s.inlineResumes k = 0 ∧ s.dispatched k = 0 ∧ s.enqueued k = true := by
  have hok := (h.pcs.sel k).pc
  rw [SelView.PcOk, show (s.selView k).pc = .arming j from hpc] at hok
  exact hok

lemma armStep_advances (h : WorldInv P s) (hs : s.armStep P k = some s') : s.Advances P s' := by
  unfold World.armStep at hs
  split at hs
  · rename_i i hpc
    have hpc' : (s.selView k).pc = .arming i := hpc
    obtain ⟨hphase, hinl, hsent, henq⟩ := h.arming hpc
    have hidle : ∀ j, (s.selView k).timer j ≠ .idle → j < i := by
      intro j hj
      have hfire := ((h.pcs.sel k).timer j hj).2
      rw [SelView.MayFire, hpc'] at hfire
      exact hfire
    have hstill : ¬ (s.selView k).Running := by
      rw [SelView.Running, hpc']
      exact id
    have hnext : ({ s.selView k with pc := .arming (i + 1) } : SelView).Ok (P.cases k) :=
      (h.pcs.sel k).move ⟨hphase, hinl, hsent, henq⟩ (fun _ _ => trivial)
        (fun j hj _ => Nat.lt_succ_of_lt (hidle j hj)) Iff.rfl (fun hr => absurd hr hstill) False.elim rfl rfl
        rfl
    split at hs
    · -- the timeout of case i is armed
      rename_i hcase
      cases hs
      have hwon : s.timer k i ≠ .won := by
        intro hwon
        refine absurd (hidle i fun hzero => ?_) (lt_irrefl i)
        rw [show (s.selView k).timer i = .won from hwon] at hzero
        cases hzero
      have hview := hnext.retime .armed (fun _ => ⟨hcase, Nat.lt_succ_self i⟩) hwon TimerPc.noConfusion
      refine h.handshake k ?_
      simpa only [World.selView, World.setSel, World.setTimer, World.Linked, update_self] using hview
    · cases hs
      refine h.handshake k ?_
      simpa only [World.selView, World.setSel, World.Linked, update_self] using hnext
    · split at hs
      · -- nobody took the phase, so the selector parks
        rename_i hsetup
        cases hs
        have hview : ({ s.selView k with pc := .suspended, phase := .parked } : SelView).Ok (P.cases k) := by
          refine (h.pcs.sel k).move ⟨Phase.noConfusion, hinl, hsent, henq⟩ (fun _ _ => trivial)
            (fun _ _ _ => trivial) ⟨Phase.noConfusion, fun hres => ?_⟩ (fun hr => absurd hr hstill) False.elim rfl
            rfl rfl
          rw [show (s.selView k).phase = .setup from hsetup] at hres
          cases hres
        refine h.handshake k ?_
        simpa only [World.selView, World.setSel, World.Linked, update_self] using hview
      · -- a waker took the phase and left the resume to the setup
        rename_i hsetup
        cases hs
        have hres : s.phase k = .resumed := by
          cases hp : s.phase k with
          | setup => exact absurd hp hsetup
          | parked => exact absurd hp hphase
          | resumed => rfl
        have hview : ({ s.selView k with
            pc := .finishing 0
            inlineResumes := (s.selView k).inlineResumes + 1 } : SelView).Ok (P.cases k) := by
          refine (h.pcs.sel k).move ⟨hphase, (h.pcs.sel k).resumed hres, ?_⟩
            (fun j _ => ⟨Nat.zero_le j, henq⟩) (fun j _ _ => ⟨Nat.zero_le j, henq⟩) Iff.rfl
            (fun _ => trivial) (fun _ => .inr hres) rfl rfl rfl
          show s.inlineResumes k + 1 + s.dispatched k = 1
          omega
        refine h.handshake k ?_
        simpa only [World.selView, World.resumeInline, World.setSel, World.Linked, update_self] using hview
  · cases hs

/-! ### Wakers and timeouts -/

lemma World.exchangePhase_eq (s : World α) (k : Nat) : s.exchangePhase k = { s with
    phase := update s.phase k .resumed
    dispatched := update s.dispatched k
      (if s.phase k = .parked then s.dispatched k + 1 else s.dispatched k) } := by
  unfold World.exchangePhase
  split
  · rfl
  · rw [update_eq_self]

lemma mem_eraseIdx_of_nodup {l : List Waiter} (hnodup : l.Nodup) (hj : l[j]? = some w) (x : Waiter) :
    x ∈ l.eraseIdx j ↔ x ≠ w ∧ x ∈ l := by
  obtain ⟨hlt, heq⟩ := List.getElem?_eq_some_iff.mp hj
  rw [← hnodup.erase_getElem j hlt, heq, hnodup.mem_erase_iff]

lemma WorldInv.wakeOp {t : Nat} (h : WorldInv P s) (hj : s.wakes[j]? = some (.op t)) :
    s.Advances P ({ s with wakes := s.wakes.eraseIdx j }.setOp t .woken) := by
  have hmem : .op t ∈ s.wakes := mem_of_getElem? hj
  have htaken : s.acquired t = true := h.pcs.wakesTaken _ hmem
  have hwake := mem_eraseIdx_of_nodup h.pcs.wakesNodup hj
  have hother : ∀ u, u ≠ t → update s.ops t .woken u = s.ops u := fun u hu =>
    update_of_ne hu ..
  have hpark : ∀ u, s.ops u = .parked → u ≠ t → update s.ops t .woken u = .parked := fun u hu hne =>
    (hother u hne).trans hu
  refine ⟨⟨h.waiters.congr rfl rfl ⟨rfl, rfl⟩, h.chans, ?_⟩, fun x hx => hx⟩
  refine ⟨h.pcs.wakesNodup.sublist (eraseIdx_sublist ..),
    fun w hw => h.pcs.wakesTaken w ((hwake w).mp hw).2, fun c u hu => ?_, fun u hu => ?_, fun u hu => ?_,
    fun u hu => ?_, fun u hu => ?_, fun k => ?_⟩
  · refine hpark u (h.pcs.opLinked c u hu) ?_
    rintro rfl
    have hfree : s.taken (.op u) = false :=
      hu.elim (fun hs => (h.waiters.sender c _ hs).2) fun hr => (h.waiters.receiver c _ hr).2
    rw [World.taken, htaken] at hfree
    cases hfree
  · obtain ⟨hne, hold⟩ := (hwake _).mp hu
    exact hpark u (h.pcs.opWake u hold) fun heq => hne (congrArg Waiter.op heq)
  · show update s.ops t .woken u ≠ .fresh ∧ update s.ops t .woken u ≠ .returned .blocked
    by_cases hne : u = t
    · rw [hne, update_self]
      exact ⟨nofun, nofun⟩
    · rw [hother u hne]
      exact h.pcs.opAcquired u hu
  · by_cases hne : u = t
    · rw [hne]
      exact htaken
    · refine h.pcs.opReported u ?_
      rw [← hother u hne]
      exact hu
  · replace hu : update s.ops t .woken u = .returned .blocked := hu
    by_cases hne : u = t
    · rw [hne, update_self] at hu
      cases hu
    · rw [hother u hne] at hu
      exact h.pcs.opRefused u hu
  · exact (h.pcs.sel k).frame (fun _ hl => hl) fun i =>
      (hwake _).trans ⟨And.right, fun hold => ⟨nofun, hold⟩⟩

lemma WorldInv.wakeSel {i : Nat} (h : WorldInv P s) (hj : s.wakes[j]? = some (.sel k i)) :
    s.Advances P ({ s with wakes := s.wakes.eraseIdx j }.exchangePhase k) := by
  have hwake := mem_eraseIdx_of_nodup h.pcs.wakesNodup hj
  have hmem : (s.selView k).waking i := mem_of_getElem? hj
  have hwin := ((h.pcs.sel k).owed i (.inl hmem)).1
  have hview := (h.pcs.sel k).exchange (by rw [hwin]; nofun) (fun i => .sel k i ∈ s.wakes.eraseIdx j) (s.timer k)
    (fun _ hl => hl) (fun i' hi' => ?_) fun i' hi' => ?_
  · rw [World.exchangePhase_eq]
    refine h.handshake k ?_ (fun k' hk => ?_) (eraseIdx_sublist ..)
    · simp only [World.selView, update_self]
      exact hview
    · refine (h.pcs.sel k').frame (fun _ hl => hl) fun i' =>
        (hwake _).trans ⟨And.right, fun hold => ⟨fun heq => ?_, hold⟩⟩
      exact hk (Waiter.sel.inj heq).1
  · obtain ⟨hne, hold⟩ := (hwake _).mp hi'
    exact hne (congrArg (Waiter.sel k) ((h.pcs.sel k).owed_unique (.inl hmem) (.inl hold)))
  · have heq := (h.pcs.sel k).owed_unique (.inl hmem) (.inr hi')
    subst heq
    refine (h.pcs.sel k).not_waking_of_timer (fun hzero => ?_) hmem
    cases hi'.symm.trans hzero

lemma wakeStep_advances (h : WorldInv P s) (hs : s.wakeStep j = some s') : s.Advances P s' := by
  unfold World.wakeStep at hs
  split at hs
  · cases hs
  · rename_i t hj
    cases hs
    exact h.wakeOp hj
  · rename_i k i hj
    cases hs
    exact h.wakeSel hj

lemma timer_ne_idle {pc : TimerPc} (hidle : s.timer k i ≠ .idle)
    (hj : update (s.timer k) i pc j ≠ .idle) : s.timer k j ≠ .idle := by
  by_cases hne : j = i
  · rw [hne]
    exact hidle
  · rw [update_of_ne hne] at hj
    exact hj

lemma WorldInv.retime (h : WorldInv P s) (pc : TimerPc)
    (hcase : pc ≠ .idle → (P.cases k)[i]? = some .timeout ∧ (s.selView k).MayFire i)
    (hwon : s.timer k i ≠ .won) (hpc : pc ≠ .won) : s.Advances P (s.setTimer k i pc) := by
  have hview := (h.pcs.sel k).retime pc hcase hwon hpc
  refine h.handshake k ?_
  simpa only [World.selView, World.setTimer, World.Linked, update_self] using hview

lemma WorldInv.timeout_wins (h : WorldInv P s) (hfiring : s.timer k i = .firing) (hnone : s.winner k = none) :
    s.Advances P ((s.take (.sel k i)).setTimer k i .won) := by
  have hidle : (s.selView k).timer i ≠ .idle := fun hzero => by cases hfiring.symm.trans hzero
  obtain ⟨hcase, hfire⟩ := (h.pcs.sel k).timer i hidle
  have hhome : P.home (.sel k i) = none := by
    rw [Program.home, hcase]
    rfl
  have hlive : s.live (.sel k i) = true := decide_eq_true hnone
  have htaken : ∀ x, s.taken x → (s.take (.sel k i)).taken x = true := fun x hx =>
    (World.take_taken hlive x).mpr (.inl hx)
  have howed := (h.pcs.sel k).not_owed hnone
  have hview := (h.pcs.sel k).win (s.selView k).linked (s.selView k).waking
    (update (s.timer k) i .won) (fun hfresh => ?_) hnone (List.getElem?_eq_some_iff.mp hcase).1
    (fun _ hl => hl) (fun j hj => timer_ne_idle hidle hj) (fun j hj => absurd (.inl hj) (howed j)) (fun j hj => ?_)
    (.inr (update_self ..))
  · refine ⟨⟨(h.waiters.take_of_home_none hhome hlive).congr rfl rfl ⟨rfl, rfl⟩,
      fun c => h.chans.take (.sel k i) c, ?_⟩, htaken⟩
    refine h.pcs.of_sel rfl rfl (.refl _) (fun _ _ hl => hl) htaken fun k' => ?_
    by_cases hk : k' = k
    · subst hk
      simpa only [World.selView, World.setTimer, World.take, Waiter.claim, World.Linked, update_self] using hview
    · exact (h.pcs.sel k').frame
  · rw [SelView.MayFire, hfresh] at hfire
    exact hfire
  · by_contra hne
    rw [update_of_ne hne] at hj
    exact howed j (.inr hj)

lemma timerStep_advances (h : WorldInv P s) (hs : s.timerStep k i = some s') : s.Advances P s' := by
  unfold World.timerStep at hs
  split at hs
  · cases hs
  · rename_i harmed
    cases hs
    refine h.retime .firing (fun _ => (h.pcs.sel k).timer i fun hzero => ?_) (fun hwon => ?_) nofun
    · cases harmed.symm.trans hzero
    · cases harmed.symm.trans hwon
  · rename_i hfiring
    split at hs
    · rename_i hnone
      cases hs
      exact h.timeout_wins hfiring hnone
    · cases hs
      exact h.retime .idle (absurd rfl) (fun hwon => by cases hfiring.symm.trans hwon) nofun
  · rename_i hwon
    cases hs
    have howed : (s.selView k).Owed i := .inr hwon
    have hidle : (s.selView k).timer i ≠ .idle := fun hzero => by cases hwon.symm.trans hzero
    have hwin := ((h.pcs.sel k).owed i howed).1
    have hview := (h.pcs.sel k).exchange (by rw [hwin]; nofun) (s.selView k).waking
      (update (s.timer k) i .idle) (fun j hj => timer_ne_idle hidle hj) (fun j hj => ?_) fun j hj => ?_
    · rw [World.exchangePhase_eq]
      refine h.handshake k ?_
      simp only [World.selView, World.setTimer, update_self]
      exact hview
    · have heq := (h.pcs.sel k).owed_unique howed (.inl hj)
      subst heq
      exact (h.pcs.sel k).not_waking_of_timer hidle hj
    · by_cases hne : j = i
      · rw [hne, update_self] at hj
        cases hj
      · rw [update_of_ne hne] at hj
        exact hne ((h.pcs.sel k).owed_unique howed (.inr hj))

/-! ### Resuming and finishing -/

lemma resumeStep_advances (h : WorldInv P s) (hs : s.resumeStep k = some s') : s.Advances P s' := by
  obtain ⟨⟨hpc, hpos⟩, heq⟩ := Option.ite_none_right_eq_some.mp hs
  cases heq
  have hok := (h.pcs.sel k).pc
  rw [SelView.PcOk, show (s.selView k).pc = .suspended from hpc] at hok
  obtain ⟨_, hinl, hsent, henq⟩ := hok
  have hres : (s.selView k).phase = .resumed := by
    by_contra hne
    rw [if_neg hne] at hsent
    exact absurd hsent (ne_of_gt hpos)
  rw [if_pos hres] at hsent
  have hview : ({ s.selView k with pc := .finishing 0 } : SelView).Ok (P.cases k) := by
    refine (h.pcs.sel k).move ⟨fun hpark => ?_, (h.pcs.sel k).resumed hres, ?_⟩
      (fun j _ => ⟨Nat.zero_le j, henq⟩) (fun j _ _ => ⟨Nat.zero_le j, henq⟩) Iff.rfl
      (fun _ => trivial) (fun _ => .inr hres) rfl rfl rfl
    · cases hres.symm.trans hpark
    · rw [hinl, hsent]
  refine h.handshake k ?_
  simpa only [World.selView, World.setSel, World.Linked, update_self] using hview

lemma WaiterInv.home_of_linked (h : WaiterInv P s) (hw : s.Linked c w) :
    (∃ d, P.home w = some (c, d)) ∧ s.taken w = false := by
  rcases hw with hs | hr
  · obtain ⟨⟨v, hv⟩, hfree⟩ := h.sender c w hs
    exact ⟨⟨_, hv⟩, hfree⟩
  · obtain ⟨hv, hfree⟩ := h.receiver c w hr
    exact ⟨⟨_, hv⟩, hfree⟩

lemma WaiterInv.not_linked_of_removeReceiver (h : WaiterInv P s) (hhome : P.home w = some (c, .recv))
    (c' : Nat) : ¬ (s.removeReceiver c w).Linked c' w := by
  intro hlink
  rw [World.Linked, World.removeReceiver] at hlink
  by_cases hc : c' = c
  · subst hc
    rw [World.setChan_chan_self] at hlink
    rcases hlink with hs | hr
    · obtain ⟨⟨v, hv⟩, _⟩ := h.sender c' w hs
      rw [hhome] at hv
      cases hv
    · exact ((h.receiversNodup c').mem_erase_iff.mp hr).1 rfl
  · rw [World.setChan_chan_of_ne _ hc] at hlink
    obtain ⟨⟨d, hd⟩, _⟩ := h.home_of_linked hlink
    rw [hhome] at hd
    cases hd
    exact hc rfl

lemma WaiterInv.not_linked_of_removeSender (h : WaiterInv P s) {v : α} (hhome : P.home w = some (c, .send v))
    (c' : Nat) : ¬ (s.removeSender c w).Linked c' w := by
  intro hlink
  rw [World.Linked, World.removeSender] at hlink
  by_cases hc : c' = c
  · subst hc
    rw [World.setChan_chan_self] at hlink
    rcases hlink with hs | hr
    · exact ((h.sendersNodup c').mem_erase_iff.mp hs).1 rfl
    · rw [(h.receiver c' w hr).1] at hhome
      cases hhome
  · rw [World.setChan_chan_of_ne _ hc] at hlink
    obtain ⟨⟨d, hd⟩, _⟩ := h.home_of_linked hlink
    rw [hhome] at hd
    cases hd
    exact hc rfl

structure World.Retracted (P : Program α) (s s' : World α) (k i : Nat) : Prop where
  advances : s.Advances P s'
  sels : s'.sels = s.sels
  enqueued : s'.enqueued = s.enqueued
  unlinked : ∀ c, ¬ s'.Linked c (.sel k i)
  idle : s'.timer k i = .idle

lemma WorldInv.caseRetract (h : WorldInv P s) (hs : s.caseRetract P k i = some s') : World.Retracted P s s' k i := by
  have hself : s.Advances P s := ⟨h, fun _ hx => hx⟩
  unfold World.caseRetract at hs
  split at hs
  · rename_i hcase
    obtain ⟨hnot, heq⟩ := Option.ite_none_left_eq_some.mp hs
    obtain ⟨_, hwon⟩ := not_or.mp hnot
    cases heq
    refine ⟨h.retime .idle (absurd rfl) hwon nofun, rfl, rfl, fun c hlink => ?_, ?_⟩
    · obtain ⟨⟨d, hd⟩, _⟩ := h.waiters.home_of_linked hlink
      exact not_timeout_of_home hd hcase
    · show update s.timer k (update (s.timer k) i .idle) k i = .idle
      rw [update_self, update_self]
  · rename_i hcase
    have hidle : s.timer k i = .idle := by
      by_contra hne
      exact hcase ((h.pcs.sel k).timer i hne).1
    split at hs
    · -- the winner's waiter was popped when it won
      rename_i hwin
      cases hs
      refine ⟨hself, rfl, rfl, fun c hlink => ?_, hidle⟩
      have hfree := (h.waiters.home_of_linked hlink).2
      rw [World.taken, hwin] at hfree
      simp at hfree
    · split at hs
      · rename_i c hhome
        cases hs
        exact ⟨⟨h.unlink (.refl _) erase_sublist, fun _ hx => hx⟩, rfl, rfl,
          h.waiters.not_linked_of_removeReceiver hhome, hidle⟩
      · rename_i c v hhome
        cases hs
        exact ⟨⟨h.unlink erase_sublist (.refl _), fun _ hx => hx⟩, rfl, rfl,
          h.waiters.not_linked_of_removeSender hhome, hidle⟩
      · rename_i hhome
        cases hs
        refine ⟨hself, rfl, rfl, fun c hlink => ?_, hidle⟩
        obtain ⟨⟨d, hd⟩, _⟩ := h.waiters.home_of_linked hlink
        rw [hhome] at hd
        cases hd

lemma WorldInv.finishing (h : WorldInv P s) (hpc : s.sels k = .finishing i) (pc : SelPc) (enqueued : Bool)
    (hrunning : pc = .completed ∨ ∃ j, pc = .finishing j)
    (hlink : ∀ c j, s.Linked c (.sel k j) → i ≤ j → s.enqueued k →
      ({ s.selView k with pc := pc, enqueued := enqueued } : SelView).MayLink j)
    (hfire : ∀ j, s.timer k j ≠ .idle → i ≤ j → s.enqueued k →
      ({ s.selView k with pc := pc, enqueued := enqueued } : SelView).MayFire j) :
    s.Advances P ({ s with enqueued := update s.enqueued k enqueued }.setSel k pc) := by
  have hpc' : (s.selView k).pc = .finishing i := hpc
  have hok := (h.pcs.sel k).pc
  rw [SelView.PcOk, hpc'] at hok
  have hrun : (s.selView k).Running := by
    rw [SelView.Running, hpc']
    trivial
  have hview : ({ s.selView k with pc := pc, enqueued := enqueued } : SelView).Ok (P.cases k) := by
    refine (h.pcs.sel k).move ?_ (fun j hj => ?_) (fun j hj hmay => ?_) Iff.rfl (fun _ => ?_) (fun _ => .inl hrun)
      rfl rfl rfl
    · rcases hrunning with rfl | ⟨j, rfl⟩
      all_goals exact hok
    · have hmay := (h.pcs.sel k).linked j hj
      rw [SelView.MayLink, hpc'] at hmay
      obtain ⟨c, hc⟩ := hj
      exact hlink c j hc hmay.1 hmay.2
    · rw [SelView.MayFire, hpc'] at hmay
      exact hfire j hj hmay.1 hmay.2
    · rcases hrunning with rfl | ⟨j, rfl⟩
      · trivial
      · trivial
  refine h.handshake k ?_
  simpa only [World.selView, World.setSel, World.Linked, update_self] using hview

lemma finishStep_advances (h : WorldInv P s) (hs : s.finishStep P k = some s') : s.Advances P s' := by
  unfold World.finishStep at hs
  split at hs
  · rename_i i hpc
    split at hs
    · -- nothing was queued
      rename_i henq
      cases hs
      have hadv := h.finishing hpc .completed (s.enqueued k) (.inl rfl) (fun _ _ _ _ hq => ?_) fun _ _ _ hq => ?_
      · rw [update_eq_self] at hadv
        exact hadv
      · cases henq.symm.trans hq
      · cases henq.symm.trans hq
    · split at hs
      · obtain ⟨s1, hretract, heq⟩ := Option.map_eq_some_iff.mp hs
        subst heq
        have hr := h.caseRetract hretract
        have hpc1 : s1.sels k = .finishing i := (congrFun hr.sels k).trans hpc
        have hnext : ∀ j, i ≤ j → j ≠ i → i + 1 ≤ j := fun j hle hne => lt_of_le_of_ne hle (Ne.symm hne)
        have hadv := hr.advances.inv.finishing hpc1 (.finishing (i + 1)) (s1.enqueued k) (.inr ⟨_, rfl⟩)
          (fun c j hlink hle hq => ⟨hnext j hle fun heq => hr.unlinked c (heq ▸ hlink), hq⟩)
          fun j hj hle hq => ⟨hnext j hle fun heq => hj (heq ▸ hr.idle), hq⟩
        rw [update_eq_self] at hadv
        exact ⟨hadv.inv, fun x hx => hadv.taken x (hr.advances.taken x hx)⟩
      · -- every case has an index below the end
        rename_i hend
        cases hs
        refine h.finishing hpc .completed false (.inl rfl) (fun c j hlink hle _ => hend ?_) fun j hj hle _ => hend ?_
        · obtain ⟨⟨d, hd⟩, _⟩ := h.waiters.home_of_linked hlink
          exact hle.trans_lt (lt_of_home hd)
        · have hcase := ((h.pcs.sel k).timer j hj).1
          exact hle.trans_lt (List.getElem?_eq_some_iff.mp hcase).1
  · cases hs

end Cio.Chan
