import Cio.ChannelCore
import Mathlib.Data.List.Nodup

/-! Who acts on a channel. Every waiter acts at most once: it is taken exactly when its effect is in the
log of its own channel, its report agrees with that log, and a waiter that was not taken has its slot
untouched. The queues hold untaken waiters of the right direction, each once. -/

namespace Cio.Chan

open Function List

variable {α : Type}

/-! ### Popping waiters -/

namespace World

variable {live : Waiter → Bool} {l rest : List Waiter}

lemma acquireFront_none (h : acquireFront live l = (none, rest)) : rest = [] ∧ ∀ w ∈ l, live w = false := by
  induction l with
  | nil =>
    cases h
    exact ⟨rfl, nofun⟩
  | cons x xs ih =>
    rw [acquireFront] at h
    split at h
    · cases h
    · rename_i hx
      obtain ⟨hrest, hdead⟩ := ih h
      refine ⟨hrest, fun w hw => ?_⟩
      rcases mem_cons.mp hw with rfl | hw
      · exact Bool.eq_false_iff.mpr hx
      · exact hdead w hw

/-- What is popped before the acquired waiter can no longer be acquired. -/
lemma acquireFront_some {r : Waiter} (h : acquireFront live l = (some r, rest)) :
    live r ∧ ∃ dead, l = dead ++ r :: rest ∧ ∀ w ∈ dead, live w = false := by
  induction l with
  | nil => cases h
  | cons x xs ih =>
    rw [acquireFront] at h
    split at h
    · rename_i hx
      cases h
      exact ⟨hx, [], rfl, nofun⟩
    · rename_i hx
      obtain ⟨hr, dead, rfl, hdead⟩ := ih h
      refine ⟨hr, x :: dead, rfl, fun w hw => ?_⟩
      rcases mem_cons.mp hw with rfl | hw
      · exact Bool.eq_false_iff.mpr hx
      · exact hdead w hw

lemma acquireFront_mem {r : Waiter} (h : acquireFront live l = (some r, rest)) (hnodup : l.Nodup) :
    r ∈ l ∧ rest.Sublist l ∧ r ∉ rest := by
  obtain ⟨_, dead, rfl, _⟩ := acquireFront_some h
  refine ⟨mem_append_right _ mem_cons_self, ?_, ?_⟩
  · exact (sublist_cons_self r rest).trans (sublist_append_right dead _)
  · exact (nodup_cons.mp (nodup_append.mp hnodup).2.1).1

def taken (s : World α) : Waiter → Bool
  | .op t => s.acquired t
  | .sel k i => s.winner k = some i

end World

/-! ### The logs -/

namespace Channel

def acts (ch : Channel α) (w : Waiter) : Nat :=
  (ch.committed.map Prod.fst).count w + (ch.delivered.map Prod.fst).count w + ch.observed.count w

def Drained (ch : Channel α) : Prop := ch.closed = true ∧ ch.ring.count = 0

/-- The waiters of `A` act on the channel, waiters may leave the queues, and nothing else is logged. -/
structure Acts (ch ch' : Channel α) (A : List Waiter) : Prop where
  senders : ch'.senders.Sublist ch.senders
  receivers : ch'.receivers.Sublist ch.receivers
  unlinked : ∀ w ∈ A, w ∉ ch'.senders ∧ w ∉ ch'.receivers
  count : ∀ w, ch'.acts w = ch.acts w + A.count w
  committed : ch.committed ⊆ ch'.committed
  delivered : ch.delivered ⊆ ch'.delivered
  observed : ch.observed ⊆ ch'.observed
  drained : ch.Drained → ch'.Drained

end Channel

/-- What the report of a taken waiter says: a send succeeded and committed or saw the channel closed, a
receive got a delivered value or saw the channel closed and drained. -/
def Channel.Result (ch : Channel α) (w : Waiter) (success : Bool) (slot : Option α) : Dir α → Prop
  | .send v => (success = true ∧ (w, v) ∈ ch.committed) ∨ (success = false ∧ w ∈ ch.observed)
  | .recv =>
    (∃ v, slot = some v ∧ (w, v) ∈ ch.delivered) ∨ (slot = none ∧ w ∈ ch.observed ∧ ch.Drained)

def World.Result (s : World α) (w : Waiter) (c : Nat) (d : Dir α) : Prop :=
  (s.chan c).Result w (s.success w) (s.slot w) d

/-- The step takes the waiters in `A`, on channel `c`, and no others. -/
structure World.Acts (P : Program α) (s s' : World α) (c : Nat) (A : List Waiter) : Prop where
  chan : (s.chan c).Acts (s'.chan c) A
  others : ∀ c', c' ≠ c → s'.chan c' = s.chan c'
  nodup : A.Nodup
  untaken : ∀ w ∈ A, s.taken w = false
  taken : ∀ w, s'.taken w = true ↔ s.taken w = true ∨ w ∈ A
  slots : ∀ w, w ∉ A → s'.slot w = s.slot w ∧ s'.success w = s.success w
  result : ∀ w ∈ A, ∃ d, P.home w = some (c, d) ∧ s'.Result w c d

/-- The queued waiters are untaken, and a taken one acted once. -/
structure WaiterInv (P : Program α) (s : World α) : Prop where
  sender : ∀ c w, w ∈ (s.chan c).senders → (∃ v, P.home w = some (c, .send v)) ∧ s.taken w = false
  receiver : ∀ c w, w ∈ (s.chan c).receivers → P.home w = some (c, .recv) ∧ s.taken w = false
  sendersNodup : ∀ c, (s.chan c).senders.Nodup
  receiversNodup : ∀ c, (s.chan c).receivers.Nodup
  acts : ∀ c w, (s.chan c).acts w =
    if s.taken w = true ∧ (P.home w).map Prod.fst = some c then 1 else 0
  result : ∀ w c d, s.taken w = true → P.home w = some (c, d) → s.Result w c d
  untaken : ∀ w, s.taken w = false → s.slot w = P.slot w ∧ s.success w = false

namespace World.Acts

variable {P : Program α} {s s' : World α} {c : Nat} {A : List Waiter}

lemma chan_acts (h : s.Acts P s' c A) (c' : Nat) : (s.chan c').Acts (s'.chan c') (if c' = c then A else []) := by
  by_cases hc : c' = c
  · rw [if_pos hc, hc]
    exact h.chan
  · rw [if_neg hc, h.others c' hc]
    exact ⟨Sublist.refl _, Sublist.refl _, nofun, fun _ => rfl, Subset.refl _, Subset.refl _, Subset.refl _, id⟩

lemma result_mono (h : s.Acts P s' c A) {w : Waiter} (hw : w ∉ A) {c' : Nat} {d : Dir α}
    (hr : s.Result w c' d) : s'.Result w c' d := by
  obtain ⟨hslot, hsucc⟩ := h.slots w hw
  have hchan := h.chan_acts c'
  cases d with
  | send =>
    rcases hr with ⟨hok, hmem⟩ | ⟨hok, hmem⟩
    · exact .inl ⟨hsucc.trans hok, hchan.committed hmem⟩
    · exact .inr ⟨hsucc.trans hok, hchan.observed hmem⟩
  | recv =>
    rcases hr with ⟨v, hv, hmem⟩ | ⟨hv, hmem, hdrain⟩
    · exact .inl ⟨v, hslot.trans hv, hchan.delivered hmem⟩
    · exact .inr ⟨hslot.trans hv, hchan.observed hmem, hchan.drained hdrain⟩

lemma taken_eq_false (h : s.Acts P s' c A) {w : Waiter} (hs : s.taken w = false) (hw : w ∉ A) : s'.taken w = false := by
  rw [Bool.eq_false_iff]
  intro htaken
  rcases (h.taken w).mp htaken with hold | hmem
  · rw [hs] at hold
    cases hold
  · exact hw hmem

end World.Acts

lemma WaiterInv.acted {P : Program α} {s s' : World α} {c : Nat} {A : List Waiter}
    (h : WaiterInv P s) (ha : s.Acts P s' c A) : WaiterInv P s' := by
  have hleft : ∀ c' w, w ∈ (s'.chan c').senders ∨ w ∈ (s'.chan c').receivers →
      (P.home w).map Prod.fst = some c' → w ∉ A := by
    intro c' w hlink hhome hmem
    obtain ⟨d, hd, _⟩ := ha.result w hmem
    rw [hd] at hhome
    cases hhome
    exact hlink.elim (ha.chan.unlinked w hmem).1 (ha.chan.unlinked w hmem).2
  refine ⟨fun c' w hw => ?_, fun c' w hw => ?_, fun c' => ?_, fun c' => ?_, fun c' w => ?_,
    fun w c' d hw hd => ?_, fun w hw => ?_⟩
  · obtain ⟨⟨v, hv⟩, hfree⟩ := h.sender c' w ((ha.chan_acts c').senders.subset hw)
    refine ⟨⟨v, hv⟩, ha.taken_eq_false hfree (hleft c' w (.inl hw) ?_)⟩
    rw [hv]
    rfl
  · obtain ⟨hv, hfree⟩ := h.receiver c' w ((ha.chan_acts c').receivers.subset hw)
    refine ⟨hv, ha.taken_eq_false hfree (hleft c' w (.inr hw) ?_)⟩
    rw [hv]
    rfl
  · exact (h.sendersNodup c').sublist (ha.chan_acts c').senders
  · exact (h.receiversNodup c').sublist (ha.chan_acts c').receivers
  · rw [(ha.chan_acts c').count w, h.acts c' w]
    by_cases hmem : w ∈ A
    · obtain ⟨d, hd, _⟩ := ha.result w hmem
      have hfree := ha.untaken w hmem
      have htaken : s'.taken w = true := (ha.taken w).mpr (.inr hmem)
      rw [hfree, htaken, hd]
      by_cases hc : c' = c
      · subst hc
        simp [count_eq_one_of_mem ha.nodup hmem]
      · simp [hc, Ne.symm hc]
    · have hcount : (if c' = c then A else []).count w = 0 := by
        split
        · exact count_eq_zero_of_not_mem hmem
        · rfl
      have htaken : s'.taken w = s.taken w := by
        rw [Bool.eq_iff_iff, ha.taken w]
        simp [hmem]
      rw [hcount, htaken, add_zero]
  · by_cases hmem : w ∈ A
    · obtain ⟨d', hd', hres⟩ := ha.result w hmem
      rw [hd] at hd'
      cases hd'
      exact hres
    · exact ha.result_mono hmem (h.result w c' d (((ha.taken w).mp hw).resolve_right hmem) hd)
  · have hmem : w ∉ A := fun hmem => by
      rw [(ha.taken w).mpr (.inr hmem)] at hw
      cases hw
    have hfree : s.taken w = false := by
      rw [Bool.eq_false_iff]
      intro hold
      rw [(ha.taken w).mpr (.inl hold)] at hw
      cases hw
    obtain ⟨hslot, hsucc⟩ := ha.slots w hmem
    rw [hslot, hsucc]
    exact h.untaken w hfree

/-! ### The locked operations -/

namespace World

variable {s : World α}

lemma take_taken {w : Waiter} (hlive : s.live w) (x : Waiter) : (s.take w).taken x ↔ s.taken x ∨ x = w := by
  cases w with
  | op t =>
    cases x with
    | op u =>
      show update s.acquired t true u ↔ s.acquired u ∨ Waiter.op u = .op t
      by_cases hu : u = t
      · rw [hu, update_self]
        simp
      · rw [update_of_ne hu]
        simp [hu]
    | sel => exact ⟨.inl, fun hx => hx.elim id nofun⟩
  | sel k i =>
    have hnone : s.winner k = none := of_decide_eq_true hlive
    cases x with
    | op => exact ⟨.inl, fun hx => hx.elim id nofun⟩
    | sel k' i' =>
      show decide (update s.winner k (some i) k' = some i') ↔
        decide (s.winner k' = some i') ∨ Waiter.sel k' i' = .sel k i
      by_cases hk : k' = k
      · subst hk
        rw [update_self, hnone]
        simp [eq_comm]
      · rw [update_of_ne hk]
        simp [hk]

lemma take_untaken {w x : Waiter} (hlive : s.live w) (hx : (s.take w).taken x = false) : s.taken x = false ∧ x ≠ w := by
  refine ⟨Bool.eq_false_iff.mpr fun hold => ?_, fun heq => ?_⟩
  · rw [(take_taken hlive x).mpr (.inl hold)] at hx
    cases hx
  · rw [(take_taken hlive x).mpr (.inr heq)] at hx
    cases hx

/-- The operation of `w` has not begun: no waiter that may be acquired is one of its own. -/
structure Fresh (s : World α) (w : Waiter) : Prop where
  untaken : s.taken w = false
  live : s.live w = true
  apart : ∀ c r, r ∈ (s.chan c).senders ∨ r ∈ (s.chan c).receivers →
    r ≠ w ∧ (s.take r).live w = true

end World

lemma Channel.Acts.of_logs {ch ch' : Channel α} (C D : List (Waiter × α)) (O : List Waiter)
    (hsnd : ch'.senders.Sublist ch.senders) (hrcv : ch'.receivers.Sublist ch.receivers)
    (hcom : ch'.committed = ch.committed ++ C) (hgave : ch'.delivered = ch.delivered ++ D)
    (hobs : ch'.observed = ch.observed ++ O) (hdrain : ch.Drained → ch'.Drained)
    (hoff : ∀ w ∈ C.map Prod.fst ++ (D.map Prod.fst ++ O), w ∉ ch'.senders ∧ w ∉ ch'.receivers) :
    ch.Acts ch' (C.map Prod.fst ++ (D.map Prod.fst ++ O)) := by
  refine ⟨hsnd, hrcv, hoff, fun w => ?_, ?_, ?_, ?_, hdrain⟩
  · rw [acts, acts, hcom, hgave, hobs, map_append, map_append,
      count_append, count_append, count_append, count_append, count_append]
    omega
  · rw [hcom]
    exact subset_append_left _ _
  · rw [hgave]
    exact subset_append_left _ _
  · rw [hobs]
    exact subset_append_left _ _

/-! ### Queues and cases without a channel -/

section

variable {P : Program α} {s s' : World α} {c : Nat} {w : Waiter}

lemma WaiterInv.requeue (h : WaiterInv P s) {closed : Bool} {senders receivers : List Waiter}
    (hset : s'.chan = update s.chan c
      { s.chan c with closed := closed, senders := senders, receivers := receivers })
    (hshut : (s.chan c).closed → closed) (htaken : s'.taken = s.taken)
    (hslots : s'.slot = s.slot ∧ s'.success = s.success)
    (hsnd : ∀ w ∈ senders, (∃ v, P.home w = some (c, .send v)) ∧ s.taken w = false)
    (hrcv : ∀ w ∈ receivers, P.home w = some (c, .recv) ∧ s.taken w = false)
    (hsendersNodup : senders.Nodup) (hreceiversNodup : receivers.Nodup) : WaiterInv P s' := by
  have hself : s'.chan c = { s.chan c with closed := closed, senders := senders, receivers := receivers } := by
    rw [hset, update_self]
  have hother : ∀ c', c' ≠ c → s'.chan c' = s.chan c' := by
    intro c' hc
    rw [hset, update_of_ne hc]
  refine ⟨fun c' x hx => ?_, fun c' x hx => ?_, fun c' => ?_, fun c' => ?_, fun c' x => ?_,
    fun x c' d hx hd => ?_, fun x hx => ?_⟩
  · rw [htaken]
    by_cases hc : c' = c
    · subst hc
      rw [hself] at hx
      exact hsnd x hx
    · rw [hother c' hc] at hx
      exact h.sender c' x hx
  · rw [htaken]
    by_cases hc : c' = c
    · subst hc
      rw [hself] at hx
      exact hrcv x hx
    · rw [hother c' hc] at hx
      exact h.receiver c' x hx
  · by_cases hc : c' = c
    · rw [hc, hself]
      exact hsendersNodup
    · rw [hother c' hc]
      exact h.sendersNodup c'
  · by_cases hc : c' = c
    · rw [hc, hself]
      exact hreceiversNodup
    · rw [hother c' hc]
      exact h.receiversNodup c'
  · have hacts : (s'.chan c').acts x = (s.chan c').acts x := by
      by_cases hc : c' = c
      · subst hc
        rw [hself]
        rfl
      · rw [hother c' hc]
    rw [hacts, htaken]
    exact h.acts c' x
  · rw [htaken] at hx
    have hold := h.result x c' d hx hd
    rw [World.Result] at hold ⊢
    rw [hslots.1, hslots.2]
    by_cases hc : c' = c
    · subst hc
      rw [hself]
      cases d with
      | send => exact hold
      | recv =>
        rcases hold with hvalue | ⟨hnone, hmem, hdrain⟩
        · exact .inl hvalue
        · exact .inr ⟨hnone, hmem, hshut hdrain.1, hdrain.2⟩
    · rw [hother c' hc]
      exact hold
  · rw [htaken] at hx
    rw [hslots.1, hslots.2]
    exact h.untaken x hx

lemma WaiterInv.pushSender (h : WaiterInv P s) {v : α} (hhome : P.home w = some (c, .send v))
    (hfree : s.taken w = false) (hnot : w ∉ (s.chan c).senders) : WaiterInv P (s.pushSender c w) := by
  refine h.requeue rfl id rfl ⟨rfl, rfl⟩ (fun x hx => ?_) (h.receiver c) ?_ (h.receiversNodup c)
  · rcases mem_append.mp hx with hx | hx
    · exact h.sender c x hx
    · rw [mem_singleton.mp hx]
      exact ⟨⟨v, hhome⟩, hfree⟩
  · exact concat_eq_append ▸ (h.sendersNodup c).concat hnot

lemma WaiterInv.pushReceiver (h : WaiterInv P s) (hhome : P.home w = some (c, .recv)) (hfree : s.taken w = false)
    (hnot : w ∉ (s.chan c).receivers) : WaiterInv P (s.pushReceiver c w) := by
  refine h.requeue rfl id rfl ⟨rfl, rfl⟩ (h.sender c) (fun x hx => ?_) (h.sendersNodup c) ?_
  · rcases mem_append.mp hx with hx | hx
    · exact h.receiver c x hx
    · rw [mem_singleton.mp hx]
      exact ⟨hhome, hfree⟩
  · exact concat_eq_append ▸ (h.receiversNodup c).concat hnot

lemma WaiterInv.take_of_home_none (h : WaiterInv P s) (hhome : P.home w = none)
    (hlive : s.live w) : WaiterInv P (s.take w) := by
  have htaken : ∀ x, (P.home x).isSome → (s.take w).taken x = s.taken x := by
    intro x hx
    rw [Bool.eq_iff_iff, World.take_taken hlive]
    refine ⟨fun hor => hor.resolve_right fun heq => ?_, .inl⟩
    rw [heq, hhome] at hx
    cases hx
  refine ⟨fun c x hx => ?_, fun c x hx => ?_, h.sendersNodup, h.receiversNodup, fun c x => ?_,
    fun x c d hx hd => ?_, fun x hx => h.untaken x (World.take_untaken hlive hx).1⟩
  · obtain ⟨⟨v, hv⟩, hfree⟩ := h.sender c x hx
    rw [htaken x (hv ▸ rfl)]
    exact ⟨⟨v, hv⟩, hfree⟩
  · obtain ⟨hv, hfree⟩ := h.receiver c x hx
    rw [htaken x (hv ▸ rfl)]
    exact ⟨hv, hfree⟩
  · refine (h.acts c x).trans ?_
    cases hx : P.home x with
    | none => simp
    | some => rw [htaken x (hx ▸ rfl)]
  · rw [htaken x (hd ▸ rfl)] at hx
    exact h.result x c d hx hd

end

end Cio.Chan
