import Cio.ChannelActs

/-! The order of values. A live receiver in the queue means an empty ring and a live sender a full one, so
the direct hand-off, the ring and the refill from a blocked sender agree on one order: what was delivered
followed by what the ring holds is what was committed. -/

namespace Cio.Chan

open Function List World

variable {α : Type} {P : Program α} {s s' : World α} {c : Nat} {self : Waiter}

/-- The invariant of one channel; `live` tells which waiters can still be acquired. -/
structure Channel.Ok (live : Waiter → Bool) (capacity : Nat) (ch : Channel α) : Prop where
  capacity : ch.ring.capacity = capacity
  fifo : ∃ l, ch.ring.Holds l ∧ ch.delivered.map Prod.snd ++ l = ch.committed.map Prod.snd
  receivers : ∀ w ∈ ch.receivers, live w = true → ch.ring.count = 0
  senders : ∀ w ∈ ch.senders, live w = true → ch.ring.count = ch.ring.capacity
  closed : ch.closed = true → ch.senders = [] ∧ ch.receivers = []

def World.ChansOk (P : Program α) (s : World α) : Prop := ∀ c, (s.chan c).Ok s.live (P.capacity c)

def Channel.Refuses (ch : Channel α) : Dir α → Prop
  | .send _ => ch.closed = false ∧ ch.ring.count = ch.ring.capacity
  | .recv => ch.closed = false ∧ ch.ring.count = 0

lemma World.live_of_take {w x : Waiter} (h : (s.take w).live x) : s.live x = true := by
  cases x with
  | op => rfl
  | sel k =>
    have hnone : w.claim s.winner k = none := of_decide_eq_true h
    refine decide_eq_true ?_
    cases w with
    | op => exact hnone
    | sel k' =>
      by_cases hk : k = k'
      · rw [hk, Waiter.claim, update_self] at hnone
        cases hnone
      · rw [Waiter.claim, update_of_ne hk] at hnone
        exact hnone

variable {senders : List Waiter} {status : OpStatus}

variable {ch : Channel α}

lemma Channel.Ok.shrink {live live' : Waiter → Bool} {capacity : Nat} (h : ch.Ok live capacity)
    (hlive : ∀ w, live' w → live w) {receivers : List Waiter} (hs : senders.Sublist ch.senders)
    (hr : receivers.Sublist ch.receivers) (observed : List Waiter) :
    ({ ch with senders := senders, receivers := receivers, observed := observed } : Channel α).Ok live'
      capacity := by
  refine ⟨h.capacity, h.fifo, fun w hw hl => h.receivers w (hr.subset hw) (hlive w hl),
    fun w hw hl => h.senders w (hs.subset hw) (hlive w hl), fun hshut => ?_⟩
  obtain ⟨hsnd, hrcv⟩ := h.closed hshut
  rw [hsnd] at hs
  rw [hrcv] at hr
  exact ⟨sublist_nil.mp hs, sublist_nil.mp hr⟩

lemma World.ChansOk.update (h : s.ChansOk P) (hset : s'.chan = update s.chan c ch) (hlive : ∀ w, s'.live w → s.live w)
    (hch : ch.Ok s'.live (P.capacity c)) : s'.ChansOk P := by
  intro c'
  rw [hset]
  by_cases hc : c' = c
  · rw [hc, update_self]
    exact hch
  · rw [update_of_ne hc]
    exact (h c').shrink hlive (.refl _) (.refl _) _

lemma Channel.Ok.open_of_senders {live : Waiter → Bool} {capacity : Nat}
    (h : ch.Ok live capacity) {w : Waiter} (hw : w ∈ ch.senders) : ¬ ch.closed = true := by
  intro hshut
  rw [(h.closed hshut).1] at hw
  cases hw

lemma trySendLocked_chans (h : s.ChansOk P) (v : α) (hop : s.trySendLocked c self v = (status, s')) :
    s'.ChansOk P ∧ (status = .blocked → (s'.chan c).Refuses (.send v)) := by
  obtain ⟨l, hring, hfifo⟩ := (h c).fifo
  unfold trySendLocked at hop
  dsimp only at hop
  split at hop
  · cases hop
    exact ⟨h.update rfl (fun w hw => hw) ((h c).shrink (fun w hw => hw) (.refl _) (.refl _) _), nofun⟩
  · rename_i hshut
    split at hop
    · -- the live receiver means that the ring is empty
      rename_i r rest hfront
      cases hop
      obtain ⟨hlive, dead, hqueue, _⟩ := acquireFront_some hfront
      have hempty := (h c).receivers r (by rw [hqueue]; simp) hlive
      obtain rfl : l = [] := eq_nil_of_length_eq_zero (hring.count.symm.trans hempty)
      refine ⟨h.update rfl (fun w hw => live_of_take hw) ⟨(h c).capacity, ⟨[], hring, ?_⟩, fun _ _ _ => hempty,
        fun w hw hl => (h c).senders w hw (live_of_take hl), fun hc => absurd hc hshut⟩, nofun⟩
      rw [append_nil] at hfifo
      rw [map_append, map_append, hfifo, append_nil]
      rfl
    · rename_i rest hfront
      obtain ⟨rfl, _⟩ := acquireFront_none hfront
      split at hop
      · -- room in the ring means that no sender is live
        rename_i hroom
        cases hop
        refine ⟨h.update rfl (fun w hw => hw) ⟨(h c).capacity, ⟨l ++ [v], hring.put hroom v, ?_⟩, nofun,
          fun w hw hl => ?_, fun hc => absurd hc hshut⟩, nofun⟩
        · rw [map_append, ← append_assoc, hfifo]
          rfl
        · have hfull := (h c).senders w hw hl
          omega
      · cases hop
        refine ⟨h.update rfl (fun w hw => hw) ((h c).shrink (fun w hw => hw) (.refl _) (nil_sublist _) _), fun _ => ?_⟩
        have hle := hring.le
        rw [setChan_chan_self]
        exact ⟨Bool.eq_false_iff.mpr hshut, by dsimp only; omega⟩

lemma takeFront_chans (h : s.ChansOk P) {l : List α} {u : α} (hring : (s.chan c).ring.Holds (u :: l))
    (hfifo : (s.chan c).delivered.map Prod.snd ++ u :: l = (s.chan c).committed.map Prod.snd) (hnil : senders = [])
    (hset : s'.chan = update s.chan c { s.chan c with
      ring := (s.chan c).ring.drop
      delivered := (s.chan c).delivered ++ [(self, u)]
      senders := senders })
    (hlive : s'.live = s.live) : s'.ChansOk P := by
  subst hnil
  have hcount := hring.count
  rw [length_cons] at hcount
  refine h.update hset (by simp [hlive]) ⟨(h c).capacity, ⟨l, hring.drop, ?_⟩, fun w hw hl => ?_, nofun,
    fun hshut => ⟨rfl, ((h c).closed hshut).2⟩⟩
  · rw [map_append, append_assoc]
    exact hfifo
  · rw [hlive] at hl
    have hzero := (h c).receivers w hw hl
    omega

lemma tryRecvLocked_chans (h : s.ChansOk P) (hw : WaiterInv P s) (hop : s.tryRecvLocked c self = (status, s')) :
    s'.ChansOk P ∧ (status = .blocked → (s'.chan c).Refuses .recv) := by
  obtain ⟨l, hring, hfifo⟩ := (h c).fifo
  have hcount := hring.count
  unfold tryRecvLocked at hop
  dsimp only at hop
  split at hop
  · rename_i hpos
    obtain ⟨u, l, rfl⟩ : ∃ u l', l = u :: l' := by
      cases l with
      | nil =>
        rw [length_nil] at hcount
        omega
      | cons u l => exact ⟨u, l, rfl⟩
    rw [takeFront_chan hring, update_self] at hop
    split at hop
    · -- the live sender means that the ring was full, and it is full again
      rename_i w rest hfront
      obtain ⟨hlive, _⟩ := acquireFront_some hfront
      obtain ⟨hlink, hsub, _⟩ := acquireFront_mem hfront (hw.sendersNodup c)
      obtain ⟨v, _, hslot, _⟩ := hw.sender_slot hlink
      have hfull := (h c).senders w hlink hlive
      rw [hslot, labelled_some] at hop
      cases hop
      have hdrop : (s.chan c).ring.drop.count + 1 = (s.chan c).ring.count := Nat.sub_add_cancel hpos
      refine ⟨h.update (setChan_takeFront hring _) (fun x hx => live_of_take hx)
        ⟨(h c).capacity, ⟨l ++ [v], hring.drop.put ?_ v, ?_⟩, fun x hx hl => ?_, fun _ _ _ => ?_,
          fun hc => absurd hc ((h c).open_of_senders hlink)⟩, nofun⟩
      · show (s.chan c).ring.drop.count < (s.chan c).ring.capacity
        omega
      · rw [map_append, map_append, ← hfifo]
        simp
      · have hzero := (h c).receivers x hx (live_of_take hl)
        omega
      · show (s.chan c).ring.drop.count + 1 = (s.chan c).ring.capacity
        omega
    · rename_i rest hfront
      obtain ⟨rfl, _⟩ := acquireFront_none hfront
      cases hop
      exact ⟨takeFront_chans h hring hfifo rfl (setChan_takeFront hring _) rfl, nofun⟩
  · rename_i hzero
    obtain rfl : l = [] := by
      cases l with
      | nil => rfl
      | cons =>
        rw [length_cons] at hcount
        omega
    rw [append_nil] at hfifo
    split at hop
    · rename_i w rest hfront
      obtain ⟨hlink, hsub, _⟩ := acquireFront_mem hfront (hw.sendersNodup c)
      obtain ⟨v, _, hslot, _⟩ := hw.sender_slot hlink
      rw [hslot, labelled_some, labelled_some] at hop
      cases hop
      refine ⟨h.update rfl (fun x hx => live_of_take hx)
        ⟨(h c).capacity, ⟨[], hring, ?_⟩, fun x hx hl => (h c).receivers x hx (live_of_take hl),
          fun x hx hl => (h c).senders x (hsub.subset hx) (live_of_take hl),
          fun hc => absurd hc ((h c).open_of_senders hlink)⟩, nofun⟩
      rw [map_append, map_append, hfifo, append_nil]
      rfl
    · rename_i rest hfront
      obtain ⟨rfl, _⟩ := acquireFront_none hfront
      split at hop
      · cases hop
        exact ⟨h.update rfl (fun x hx => hx) ((h c).shrink (fun x hx => hx) (nil_sublist _) (.refl _) _), nofun⟩
      · rename_i hshut
        cases hop
        refine ⟨h.update rfl (fun x hx => hx) ((h c).shrink (fun x hx => hx) (nil_sublist _) (.refl _) _), fun _ => ?_⟩
        rw [setChan_chan_self]
        exact ⟨Bool.eq_false_iff.mpr hshut, Nat.eq_zero_of_not_pos hzero⟩

lemma tryRecvNowLocked_chans (h : s.ChansOk P) (hw : WaiterInv P s) (hop : s.tryRecvNowLocked c self = (status, s')) :
    s'.ChansOk P ∧ (status = .blocked → (s'.chan c).Refuses .recv) := by
  unfold tryRecvNowLocked at hop
  dsimp only at hop
  split at hop
  · exact tryRecvLocked_chans h hw hop
  · rename_i hshort
    obtain ⟨hcount, hsnd⟩ := not_or.mp hshort
    have hnil : (s.chan c).senders = [] := not_not.mp hsnd
    cases hop
    obtain ⟨l, hring, hfifo⟩ := (h c).fifo
    cases l with
    | nil => exact absurd hring.count hcount
    | cons => exact ⟨takeFront_chans h hring hfifo hnil (takeFront_chan hring) rfl, nofun⟩

/-! ### Queues -/

namespace World.ChansOk

lemma take (h : s.ChansOk P) (w : Waiter) : (s.take w).ChansOk P := fun c =>
  (h c).shrink (fun _ hx => live_of_take hx) (.refl _) (.refl _) _

lemma pushSender (h : s.ChansOk P) {v : α} (hfull : (s.chan c).Refuses (.send v)) (w : Waiter) :
    (s.pushSender c w).ChansOk P := by
  obtain ⟨hopen, hcount⟩ := hfull
  refine h.update rfl (fun _ hx => hx)
    ⟨(h c).capacity, (h c).fifo, (h c).receivers, fun _ _ _ => hcount, fun hshut => ?_⟩
  rw [hopen] at hshut
  cases hshut

lemma pushReceiver (h : s.ChansOk P) (hempty : (s.chan c).Refuses .recv) (w : Waiter) :
    (s.pushReceiver c w).ChansOk P := by
  obtain ⟨hopen, hcount⟩ := hempty
  refine h.update rfl (fun _ hx => hx) ⟨(h c).capacity, (h c).fifo, fun _ _ _ => hcount, (h c).senders, fun hshut => ?_⟩
  rw [hopen] at hshut
  cases hshut

end World.ChansOk

def World.SameRings (s s' : World α) : Prop :=
  ∀ c, (s'.chan c).ring = (s.chan c).ring ∧ (s'.chan c).closed = (s.chan c).closed

lemma World.SameRings.refuses (h : s.SameRings s') {d : Dir α} (hr : (s.chan c).Refuses d) : (s'.chan c).Refuses d := by
  obtain ⟨hring, hshut⟩ := h c
  cases d with
  | send | recv =>
    rw [Channel.Refuses, hring, hshut]
    exact hr

lemma World.SameRings.trans {s2 : World α} (h : s.SameRings s') (h' : s'.SameRings s2) : s.SameRings s2 :=
  fun c => ⟨(h' c).1.trans (h c).1, (h' c).2.trans (h c).2⟩

lemma World.SameRings.of_update {receivers : List Waiter} (hset : s'.chan = update s.chan c
      { s.chan c with senders := senders, receivers := receivers }) : s.SameRings s' := by
  intro c'
  rw [hset]
  by_cases hc : c' = c
  · rw [hc, update_self]
    exact ⟨rfl, rfl⟩
  · rw [update_of_ne hc]
    exact ⟨rfl, rfl⟩

lemma trySendLocked_sameRings {v : α} (hop : s.trySendLocked c self v = (.blocked, s')) : s.SameRings s' := by
  unfold trySendLocked at hop
  dsimp only at hop
  split at hop
  · cases hop
  · split at hop
    · cases hop
    · split at hop
      · cases hop
      · cases hop
        exact .of_update rfl

lemma tryRecvLocked_sameRings (hop : s.tryRecvLocked c self = (.blocked, s')) : s.SameRings s' := by
  unfold tryRecvLocked at hop
  dsimp only at hop
  split at hop
  · split at hop <;> cases hop
  · split at hop
    · cases hop
    · split at hop
      · cases hop
      · cases hop
        exact .of_update rfl

end Cio.Chan
