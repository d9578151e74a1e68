import Cio.SelectPhase

/-! The invariant of the whole world, kept by plain operations and by `close`. An attempt on a channel either
is refused, which only drops stale waiters, or has its effect; what its owner does next is the same for a
plain operation and for a case of a selector. -/

namespace Cio.Chan

open Function List

variable {α : Type} {P : Program α} {s s' : World α} {c t k : Nat} {w : Waiter}

structure WorldInv (P : Program α) (s : World α) : Prop where
  waiters : WaiterInv P s
  chans : s.ChansOk P
  pcs : PcInv P s

/-- What every step keeps: the invariant, and that an effect is never taken back. -/
structure World.Advances (P : Program α) (s s' : World α) : Prop where
  inv : WorldInv P s'
  taken : ∀ x, s.taken x = true → s'.taken x = true

lemma WaiterInv.congr (h : WaiterInv P s) (hchan : s'.chan = s.chan) (htaken : s'.taken = s.taken)
    (hslots : s'.slot = s.slot ∧ s'.success = s.success) : WaiterInv P s' := by
  refine h.requeue ?_ id htaken hslots (h.sender 0) (h.receiver 0) (h.sendersNodup 0) (h.receiversNodup 0)
  rw [hchan]
  exact (update_eq_self 0 s.chan).symm

/-! ### Attempts -/

structure World.Refused (P : Program α) (s s' : World α) (c : Nat) (d : Dir α) : Prop where
  inv : WorldInv P s'
  refuses : (s'.chan c).Refuses d
  taken : s'.taken = s.taken
  ops : s'.ops = s.ops
  sels : s'.sels = s.sels

structure World.Effected (P : Program α) (s s' : World α) (w : Waiter) : Prop where
  waiters : WaiterInv P (s'.take w)
  chans : s'.ChansOk P
  pcs : PcInv P s'
  taken : ∀ x, s.taken x = true → (s'.take w).taken x = true
  ops : s'.ops = s.ops
  sels : s'.sels = s.sels

lemma World.Acts.taken_nil {s s' : World α} (h : s.Acts P s' c []) : s'.taken = s.taken := by
  funext x
  rw [Bool.eq_iff_iff, h.taken x]
  simp

lemma WorldInv.fresh_op (h : WorldInv P s) (hfresh : s.ops t = .fresh) : s.Fresh (.op t) := by
  refine ⟨Bool.eq_false_iff.mpr fun hacq => (h.pcs.opAcquired t hacq).1 hfresh, rfl, fun c r hlink => ⟨?_, rfl⟩⟩
  rintro rfl
  have hpark := h.pcs.opLinked c t hlink
  rw [hfresh] at hpark
  cases hpark

lemma WorldInv.not_linked_of_fresh (h : WorldInv P s) (hfresh : s.sels k = .fresh) (c i : Nat) :
    ¬ s.Linked c (.sel k i) := by
  intro hlink
  have hmay := (h.pcs.sel k).linked i ⟨c, hlink⟩
  rw [SelView.MayLink, show (s.selView k).pc = .fresh from hfresh] at hmay
  exact hmay

lemma WorldInv.winner_of_fresh (h : WorldInv P s) (hfresh : s.sels k = .fresh) : s.winner k = none := by
  have hpc := (h.pcs.sel k).pc
  rw [SelView.PcOk, show (s.selView k).pc = .fresh from hfresh] at hpc
  exact hpc.1

lemma WorldInv.fresh_sel (h : WorldInv P s) (hfresh : s.sels k = .fresh) (i : Nat) : s.Fresh (.sel k i) := by
  have hnone := h.winner_of_fresh hfresh
  refine ⟨?_, decide_eq_true hnone, fun c r hlink => ⟨?_, ?_⟩⟩
  · show decide (s.winner k = some i) = false
    rw [hnone]
    rfl
  · rintro rfl
    exact h.not_linked_of_fresh hfresh c i hlink
  · cases r with
    | op => exact decide_eq_true hnone
    | sel k' i' =>
      refine decide_eq_true ((update_of_ne ?_ ..).trans hnone)
      rintro rfl
      exact h.not_linked_of_fresh hfresh c i' hlink

variable {status : OpStatus}

lemma WorldInv.trySend (h : WorldInv P s) (hw : s.Fresh w) {v : α} (hhome : P.home w = some (c, .send v))
    (hop : s.trySendLocked c w v = (status, s')) :
    if status = .blocked then s.Refused P s' c (.send v)
    else s.Effected P (s'.setSuccess w (status = .done)) w := by
  have hacts := trySendLocked_acts h.waiters hw hhome hop
  obtain ⟨hchans, href⟩ := trySendLocked_chans h.chans v hop
  obtain ⟨b, hlock⟩ := trySendLocked_locked h.waiters h.pcs hop
  have hpcs := h.pcs.locked hlock
  split at hacts
  · rename_i hbar
    rw [if_pos hbar]
    exact ⟨⟨h.waiters.acted hacts, hchans, hpcs⟩, href hbar, hacts.taken_nil, hlock.ops, hlock.sels⟩
  · rename_i hbar
    rw [if_neg hbar]
    obtain ⟨A, _, ha⟩ := hacts
    exact ⟨h.waiters.acted ha, hchans, hpcs.of_sel rfl rfl (.refl _) (fun _ _ hl => hl) (fun _ hx => hx) hpcs.sel,
      fun x hx => (ha.taken x).mpr (.inl hx), hlock.ops, hlock.sels⟩

lemma WorldInv.received (h : WorldInv P s) {b : Option Waiter}
    (hacts : if status = .blocked then s.Acts P s' c [] else ∃ A, w ∈ A ∧ s.Acts P (s'.take w) c A)
    (hchans : s'.ChansOk P ∧ (status = .blocked → (s'.chan c).Refuses .recv)) (hlock : s.Locked P s' b) :
    if status = .blocked then s.Refused P s' c .recv else s.Effected P s' w := by
  have hpcs := h.pcs.locked hlock
  split at hacts
  · rename_i hbar
    rw [if_pos hbar]
    exact ⟨⟨h.waiters.acted hacts, hchans.1, hpcs⟩, hchans.2 hbar, hacts.taken_nil, hlock.ops, hlock.sels⟩
  · rename_i hbar
    rw [if_neg hbar]
    obtain ⟨A, _, ha⟩ := hacts
    exact ⟨h.waiters.acted ha, hchans.1, hpcs, fun x hx => (ha.taken x).mpr (.inl hx), hlock.ops, hlock.sels⟩

lemma WorldInv.tryRecv (h : WorldInv P s) (hw : s.Fresh w) (hhome : P.home w = some (c, .recv))
    (hop : s.tryRecvLocked c w = (status, s')) :
    if status = .blocked then s.Refused P s' c .recv else s.Effected P s' w := by
  obtain ⟨l, hring, _⟩ := (h.chans c).fifo
  obtain ⟨b, hlock⟩ := tryRecvLocked_locked h.waiters h.pcs hop
  exact h.received (tryRecvLocked_acts h.waiters hw hhome hring hop) (tryRecvLocked_chans h.chans h.waiters hop) hlock

lemma WorldInv.tryRecvNow (h : WorldInv P s) (hw : s.Fresh w) (hhome : P.home w = some (c, .recv))
    (hop : s.tryRecvNowLocked c w = (status, s')) :
    if status = .blocked then s.Refused P s' c .recv else s.Effected P s' w := by
  obtain ⟨l, hring, _⟩ := (h.chans c).fifo
  obtain ⟨b, hlock⟩ := tryRecvNowLocked_locked h.waiters h.pcs hop
  exact h.received (tryRecvNowLocked_acts h.waiters hw hhome hring hop)
    (tryRecvNowLocked_chans h.chans h.waiters hop) hlock

/-! ### Plain operations -/

variable {s1 : World α}

lemma World.Effected.returns (h : s.Effected P s1 (.op t)) (hfresh : s.ops t = .fresh) (hstat : status ≠ .blocked) :
    s.Advances P ((s1.take (.op t)).setOp t (.returned status)) := by
  have hiff := World.take_taken (s := s1) (w := .op t) rfl
  refine ⟨⟨h.waiters.congr rfl rfl ⟨rfl, rfl⟩, fun c => h.chans.take (.op t) c, ?_⟩, h.taken⟩
  rw [← h.ops] at hfresh
  refine h.pcs.called hfresh rfl rfl (.inr ⟨status, rfl⟩) (fun heq => absurd (OpPc.returned.inj heq) hstat)
    (fun _ _ hl => .inl hl) (fun x hx => (hiff x).mpr (.inl hx)) (fun u => ?_) h.pcs.sel
  refine (hiff (.op u)).trans (or_congr_right ?_)
  exact ⟨fun heq => ⟨Waiter.op.inj heq, status, hstat, rfl⟩, fun hu => congrArg Waiter.op hu.1⟩

variable {d : Dir α}

lemma World.Refused.returns (h : s.Refused P s1 c d) (hfresh : s.ops t = .fresh)
    (hblocking : (P.call t).blocking = false) : s.Advances P (s1.setOp t (.returned .blocked)) := by
  refine ⟨⟨h.inv.waiters.congr rfl rfl ⟨rfl, rfl⟩, h.inv.chans, ?_⟩, fun x hx => (congrFun h.taken x).trans hx⟩
  rw [← h.ops] at hfresh
  refine h.inv.pcs.called hfresh rfl rfl (.inr ⟨_, rfl⟩) (fun _ => hblocking) (fun _ _ hl => .inl hl)
    (fun _ hx => hx) (fun u => ⟨.inl, fun hor => hor.resolve_right ?_⟩) h.inv.pcs.sel
  rintro ⟨_, status, hstat, heq⟩
  exact hstat (OpPc.returned.inj heq).symm

lemma World.Refused.parks (h : s.Refused P s1 c d) (hfresh : s.ops t = .fresh)
    {chan : Nat → Channel α} (hqueue : WaiterInv P { s1 with chan := chan })
    (hchans : ({ s1 with chan := chan } : World α).ChansOk P)
    (hlinks : ∀ c' x, ({ s1 with chan := chan } : World α).Linked c' x → s1.Linked c' x ∨ x = .op t) :
    s.Advances P (({ s1 with chan := chan } : World α).setOp t .parked) := by
  refine ⟨⟨hqueue.congr rfl rfl ⟨rfl, rfl⟩, hchans, ?_⟩, fun x hx => (congrFun h.taken x).trans hx⟩
  rw [← h.ops] at hfresh
  refine h.inv.pcs.called hfresh rfl rfl (.inl rfl) nofun (fun c' u hu => ?_) (fun x hx => hx) (fun u => ?_) fun k => ?_
  · exact (hlinks c' _ hu).imp_right fun heq => ⟨Waiter.op.inj heq, rfl⟩
  · exact ⟨.inl, fun hor => hor.resolve_right fun ⟨_, _, _, heq⟩ => by cases heq⟩
  · refine (h.inv.pcs.sel k).frame fun i hi => ?_
    obtain ⟨c', hc⟩ := hi
    exact ⟨c', (hlinks c' _ hc).resolve_right nofun⟩

lemma World.linked_of_pushSender {c' : Nat} {x : Waiter} (h : (s.pushSender c w).Linked c' x) :
    s.Linked c' x ∨ x = w ∧ c' = c := by
  rw [World.Linked] at h
  by_cases hc : c' = c
  · subst hc
    rw [World.pushSender, World.setChan_chan_self] at h
    rcases h with hs | hr
    · rcases mem_append.mp hs with hs | hs
      · exact .inl (.inl hs)
      · exact .inr ⟨mem_singleton.mp hs, rfl⟩
    · exact .inl (.inr hr)
  · rw [World.pushSender, World.setChan_chan_of_ne _ hc] at h
    exact .inl h

lemma World.linked_of_pushReceiver {c' : Nat} {x : Waiter} (h : (s.pushReceiver c w).Linked c' x) :
    s.Linked c' x ∨ x = w ∧ c' = c := by
  rw [World.Linked] at h
  by_cases hc : c' = c
  · subst hc
    rw [World.pushReceiver, World.setChan_chan_self] at h
    rcases h with hs | hr
    · exact .inl (.inl hs)
    · rcases mem_append.mp hr with hr | hr
      · exact .inl (.inr hr)
      · exact .inr ⟨mem_singleton.mp hr, rfl⟩
  · rw [World.pushReceiver, World.setChan_chan_of_ne _ hc] at h
    exact .inl h

/-- What a plain operation can do in its critical section. -/
inductive World.Called (P : Program α) (s : World α) (t : Nat) : World α → Prop where
  | returned {s1 : World α} {status : OpStatus} (hstatus : status ≠ .blocked)
      (hout : s.Effected P s1 (.op t)) :
      Called P s t ((s1.take (.op t)).setOp t (.returned status))
  | refused {s1 : World α} (hblocking : (P.call t).blocking = false)
      (hout : s.Refused P s1 (P.call t).chan (P.call t).dir) :
      Called P s t (s1.setOp t (.returned .blocked))
  | parkedSender {s1 : World α} {v : α} (hdir : (P.call t).dir = .send v)
      (hout : s.Refused P s1 (P.call t).chan (.send v)) :
      Called P s t ((s1.pushSender (P.call t).chan (.op t)).setOp t .parked)
  | parkedReceiver {s1 : World α} (hdir : (P.call t).dir = .recv)
      (hout : s.Refused P s1 (P.call t).chan .recv) :
      Called P s t ((s1.pushReceiver (P.call t).chan (.op t)).setOp t .parked)

lemma Program.home_op (hdir : (P.call t).dir = d) : P.home (.op t) = some ((P.call t).chan, d) := by
  rw [Program.home, hdir]

section

variable (h : WorldInv P s) (hstep : s.callStep P t = some s')
include h hstep

lemma callStep_called : s.ops t = .fresh ∧ s.Called P t s' := by
  unfold World.callStep at hstep
  split at hstep
  · rename_i hfresh
    refine ⟨hfresh, ?_⟩
    have hw := h.fresh_op hfresh
    dsimp only at hstep
    split at hstep
    · rename_i v hdir
      have hout := h.trySend hw (Program.home_op hdir) (Prod.eta _).symm
      split at hstep
      · rename_i hbar
        rw [if_pos hbar] at hout
        split at hstep
        · cases hstep
          exact .parkedSender hdir hout
        · rename_i hblocking
          cases hstep
          exact .refused (Bool.eq_false_iff.mpr hblocking) (hdir ▸ hout)
      · rename_i hbar
        rw [if_neg hbar] at hout
        cases hstep
        exact .returned hbar hout
    · rename_i hdir
      cases hblocking : (P.call t).blocking with
      | true =>
        simp only [hblocking, ↓reduceIte] at hstep
        have hout := h.tryRecv hw (Program.home_op hdir) (Prod.eta _).symm
        split at hstep
        · rename_i hbar
          rw [if_pos hbar] at hout
          cases hstep
          exact .parkedReceiver hdir hout
        · rename_i hbar
          rw [if_neg hbar] at hout
          cases hstep
          exact .returned hbar hout
      | false =>
        simp only [hblocking, Bool.false_eq_true, ↓reduceIte] at hstep
        have hout := h.tryRecvNow hw (Program.home_op hdir) (Prod.eta _).symm
        split at hstep
        · rename_i hbar
          rw [if_pos hbar] at hout
          cases hstep
          exact .refused hblocking (hdir ▸ hout)
        · rename_i hbar
          rw [if_neg hbar] at hout
          cases hstep
          exact .returned hbar hout
  · cases hstep

lemma callStep_advances : s.Advances P s' := by
  obtain ⟨hfresh, hcall⟩ := callStep_called h hstep
  cases hcall with
  | returned hstat hout => exact hout.returns hfresh hstat
  | refused hblocking hout => exact hout.returns hfresh hblocking
  | parkedSender hdir hout =>
    have hw := hout.inv.fresh_op ((congrFun hout.ops t).trans hfresh)
    refine hout.parks hfresh (hout.inv.waiters.pushSender (Program.home_op hdir) hw.untaken fun hmem => ?_)
      (hout.inv.chans.pushSender hout.refuses _)
      fun c' x hx => (World.linked_of_pushSender hx).imp_right And.left
    exact (hw.apart _ _ (.inl hmem)).1 rfl
  | parkedReceiver hdir hout =>
    have hw := hout.inv.fresh_op ((congrFun hout.ops t).trans hfresh)
    refine hout.parks hfresh (hout.inv.waiters.pushReceiver (Program.home_op hdir) hw.untaken fun hmem => ?_)
      (hout.inv.chans.pushReceiver hout.refuses _)
      fun c' x hx => (World.linked_of_pushReceiver hx).imp_right And.left
    exact (hw.apart _ _ (.inr hmem)).1 rfl

/-- A non-blocking operation gives up only at an open channel that has no room or nothing to take. -/
lemma callStep_refused (hops : s'.ops t = .returned .blocked) :
    (P.call t).blocking = false ∧ (s'.chan (P.call t).chan).Refuses (P.call t).dir := by
  obtain ⟨_, hcall⟩ := callStep_called h hstep
  cases hcall with
  | returned hstat =>
    have heq := (update_self ..).symm.trans hops
    exact absurd (OpPc.returned.inj heq) hstat
  | refused hblocking hout => exact ⟨hblocking, hout.refuses⟩
  | parkedSender | parkedReceiver => cases (update_self ..).symm.trans hops

end

/-! ### Closing -/

lemma WorldInv.unlink (h : WorldInv P s) {senders receivers : List Waiter}
    (hs : senders.Sublist (s.chan c).senders) (hr : receivers.Sublist (s.chan c).receivers) :
    WorldInv P (s.setChan c { s.chan c with senders := senders, receivers := receivers }) := by
  refine ⟨h.waiters.requeue rfl id rfl ⟨rfl, rfl⟩ (fun x hx => h.waiters.sender c x (hs.subset hx))
    (fun x hx => h.waiters.receiver c x (hr.subset hx)) ((h.waiters.sendersNodup c).sublist hs)
    ((h.waiters.receiversNodup c).sublist hr), ?_, ?_⟩
  · exact h.chans.update rfl (fun _ hx => hx) ((h.chans c).shrink (fun _ hx => hx) hs hr _)
  · exact h.pcs.locked (b := none) ⟨linked_of_update rfl hs hr, nofun, (append_nil _).symm, rfl, rfl, rfl,
      rfl, rfl, rfl, rfl, rfl, rfl⟩

structure World.Failing (P : Program α) (s : World α) (c : Nat) (receiver : Bool) (w : Waiter) : Prop where
  untaken : s.taken w = false
  waiting : s.Waiting P w
  home : if receiver then P.home w = some (c, .recv) else ∃ v, P.home w = some (c, .send v)
  empty : receiver = true → s.live w = true → (s.chan c).ring.count = 0

lemma WorldInv.closeOne (h : WorldInv P s) (hshut : (s.chan c).closed) {receiver : Bool}
    (hw : s.Failing P c receiver w) (hlive : s.live w) :
    s.Advances P (s.closeOne c receiver w) ∧ ((s.closeOne c receiver w).chan c).closed ∧
      ∀ b x, x ≠ w → s.Failing P c b x → (s.closeOne c receiver w).Failing P c b x := by
  obtain ⟨hsnd, hrcv⟩ := (h.chans c).closed hshut
  have hset : (s.closeOne c receiver w).chan = update s.chan c
      { s.chan c with observed := (s.chan c).observed ++ [w] } := by
    cases receiver <;> rfl
  have hself : (s.closeOne c receiver w).chan c = { s.chan c with observed := (s.chan c).observed ++ [w] } := by
    rw [hset, update_self]
  have htaken : (s.closeOne c receiver w).taken = (s.take w).taken := by
    cases receiver <;> rfl
  have hlive' : (s.closeOne c receiver w).live = (s.take w).live := by
    cases receiver <;> rfl
  have hmem : w ∈ (s.chan c).observed ++ [w] := mem_append_right _ (mem_singleton_self _)
  have hacts : s.Acts P (s.closeOne c receiver w) c [w] := by
    have hchan : (s.chan c).Acts { s.chan c with observed := (s.chan c).observed ++ [w] } [w] :=
      .of_logs [] [] [w] (.refl _) (.refl _) (append_nil _).symm (append_nil _).symm rfl id
        fun x _ => by simp [hsnd, hrcv]
    cases receiver with
    | true =>
      exact .single hw.untaken hlive hset hchan htaken
        (fun x hx => ⟨update_of_ne hx .., update_of_ne hx ..⟩) hw.home
        (.inr ⟨update_self .., hmem, hshut, hw.empty rfl hlive⟩)
    | false =>
      obtain ⟨v, hv⟩ := hw.home
      exact .single hw.untaken hlive hset hchan htaken
        (fun x hx => ⟨rfl, update_of_ne hx ..⟩) hv (.inr ⟨update_self .., hmem⟩)
  refine ⟨⟨⟨h.waiters.acted hacts, ?_, ?_⟩, fun x hx => (hacts.taken x).mpr (.inl hx)⟩, ?_, fun b x hne hx => ?_⟩
  · refine h.chans.update hset (fun x hx => ?_) ?_
    · rw [hlive'] at hx
      exact World.live_of_take hx
    · rw [hlive']
      exact (h.chans c).shrink (fun x hx => World.live_of_take hx) (.refl _) (.refl _) _
  · exact h.pcs.locked (closeOne_locked receiver hw.waiting hlive hw.untaken)
  · rw [hself]
    exact hshut
  · refine ⟨?_, ?_, hx.home, fun hb hl => ?_⟩
    · exact hacts.taken_eq_false hx.untaken fun hmem => hne (mem_singleton.mp hmem)
    · have hwait := hx.waiting
      cases receiver <;> cases x <;> exact hwait
    · rw [hlive'] at hl
      rw [hself]
      exact hx.empty hb (World.live_of_take hl)

lemma WorldInv.closeWaiters {receiver : Bool} {l : List Waiter} (h : WorldInv P s)
    (hshut : (s.chan c).closed) (hnodup : l.Nodup) (hl : ∀ x ∈ l, s.Failing P c receiver x) :
    s.Advances P (World.closeWaiters c receiver l s) ∧
      ((World.closeWaiters c receiver l s).chan c).closed ∧
      ∀ b x, x ∉ l → s.Failing P c b x → (World.closeWaiters c receiver l s).Failing P c b x := by
  induction l generalizing s with
  | nil => exact ⟨⟨h, fun _ hx => hx⟩, hshut, fun _ _ _ hx => hx⟩
  | cons w rest ih =>
    obtain ⟨hw, hrest⟩ := nodup_cons.mp hnodup
    rw [World.closeWaiters]
    split
    · rename_i hlive
      obtain ⟨hadv, hclosed', hkeep⟩ := h.closeOne hshut (hl w mem_cons_self) hlive
      obtain ⟨hadv', hclosed'', hkeep'⟩ := ih hadv.inv hclosed' hrest fun x hx =>
        hkeep receiver x (fun heq => hw (heq ▸ hx)) (hl x (mem_cons_of_mem _ hx))
      refine ⟨⟨hadv'.inv, fun x hx => hadv'.taken x (hadv.taken x hx)⟩, hclosed'', fun b x hx hf => ?_⟩
      obtain ⟨hne, hnot⟩ := not_or.mp fun hor => hx (mem_cons.mpr hor)
      exact hkeep' b x hnot (hkeep b x hne hf)
    · obtain ⟨hadv', hclosed'', hkeep'⟩ := ih h hshut hrest fun x hx => hl x (mem_cons_of_mem _ hx)
      exact ⟨hadv', hclosed'', fun b x hx hf => hkeep' b x (fun hmem => hx (mem_cons_of_mem _ hmem)) hf⟩

lemma close_advances (h : WorldInv P s) (c : Nat) : s.Advances P (s.close c) := by
  unfold World.close
  dsimp only
  split
  · exact ⟨h, fun _ hx => hx⟩
  · have hself := World.setChan_chan_self s c { s.chan c with closed := true, senders := [], receivers := [] }
    have hempty : WorldInv P (s.setChan c { s.chan c with closed := true, senders := [], receivers := [] }) := by
      refine ⟨h.waiters.requeue rfl (fun _ => rfl) rfl ⟨rfl, rfl⟩ nofun nofun nodup_nil nodup_nil, ?_, ?_⟩
      · exact h.chans.update rfl (fun _ hx => hx)
          ⟨(h.chans c).capacity, (h.chans c).fifo, nofun, nofun, fun _ => ⟨rfl, rfl⟩⟩
      · exact h.pcs.locked (b := none) ⟨linked_of_update rfl (nil_sublist _) (nil_sublist _), nofun,
          (append_nil _).symm, rfl, rfl, rfl, rfl, rfl, rfl, rfl, rfl, rfl⟩
    have hreceiver : ∀ x ∈ (s.chan c).receivers, World.Failing P
        (s.setChan c { s.chan c with closed := true, senders := [], receivers := [] }) c true x := by
      intro x hx
      obtain ⟨hhome, hfree⟩ := h.waiters.receiver c x hx
      refine ⟨hfree, ?_, hhome, fun _ hl => ?_⟩
      · have hwait := h.pcs.waiting h.waiters (.inr hx)
        cases x <;> exact hwait
      · rw [hself]
        exact (h.chans c).receivers x hx hl
    have hsender : ∀ x ∈ (s.chan c).senders, World.Failing P
        (s.setChan c { s.chan c with closed := true, senders := [], receivers := [] }) c false x := by
      intro x hx
      obtain ⟨hhome, hfree⟩ := h.waiters.sender c x hx
      refine ⟨hfree, ?_, hhome, nofun⟩
      have hwait := h.pcs.waiting h.waiters (.inl hx)
      cases x <;> exact hwait
    have hshut : ((s.setChan c { s.chan c with closed := true, senders := [], receivers := [] }).chan
        c).closed = true := by
      rw [hself]
    obtain ⟨hadv, hclosed', hkeep⟩ := hempty.closeWaiters hshut (h.waiters.receiversNodup c) hreceiver
    have hdisjoint : ∀ x ∈ (s.chan c).senders, x ∉ (s.chan c).receivers := by
      intro x hx hmem
      obtain ⟨⟨v, hv⟩, _⟩ := h.waiters.sender c x hx
      rw [(h.waiters.receiver c x hmem).1] at hv
      cases hv
    obtain ⟨hadv', _⟩ := hadv.inv.closeWaiters hclosed' (h.waiters.sendersNodup c) fun x hx =>
      hkeep false x (hdisjoint x hx) (hsender x hx)
    exact ⟨hadv'.inv, fun x hx => hadv'.taken x (hadv.taken x hx)⟩

end Cio.Chan
