import Cio.ChannelFifo
import Cio.SelectView

/-! Who wakes whom. The program counters of the operations agree with the queues and the pending wakes, and
every selector keeps the handshake invariant. A locked operation may acquire one waiter of another party; what
it does to the rest of the world is one relation, and the invariant follows from it. -/

namespace Cio.Chan

open Function List World Option

variable {α : Type} {P : Program α} {s s' : World α} {c k : Nat} {self : Waiter}

namespace World

def Linked (s : World α) (c : Nat) (w : Waiter) : Prop := w ∈ (s.chan c).senders ∨ w ∈ (s.chan c).receivers

def selView (s : World α) (k : Nat) : SelView where
  pc := s.sels k
  phase := s.phase k
  winner := s.winner k
  inlineResumes := s.inlineResumes k
  dispatched := s.dispatched k
  enqueued := s.enqueued k
  timer := s.timer k
  linked i := ∃ c, s.Linked c (.sel k i)
  waking i := .sel k i ∈ s.wakes

def Waiting (P : Program α) (s : World α) : Waiter → Prop
  | .op t => s.ops t = .parked
  | .sel k i => (P.home (.sel k i)).isSome ∧ s.sels k ≠ .fresh

def takeOpt (s : World α) : Option Waiter → World α
  | none => s
  | some w => s.take w

/-- What a locked operation does outside its channel: it may acquire one waiter, which is woken later. -/
structure Locked (P : Program α) (s s' : World α) (b : Option Waiter) : Prop where
  links : ∀ c w, s'.Linked c w → s.Linked c w
  popped : ∀ w, b = some w → s.Waiting P w ∧ s.live w = true ∧ s.taken w = false
  wakes : s'.wakes = s.wakes ++ b.toList
  acquired : s'.acquired = (s.takeOpt b).acquired
  winner : s'.winner = (s.takeOpt b).winner
  ops : s'.ops = s.ops
  sels : s'.sels = s.sels
  phase : s'.phase = s.phase
  timer : s'.timer = s.timer
  enqueued : s'.enqueued = s.enqueued
  counts : s'.inlineResumes = s.inlineResumes ∧ s'.dispatched = s.dispatched

end World

/-! ### All operations and selectors -/

lemma lt_of_home {i : Nat} {x : Nat × Dir α} (h : P.home (.sel k i) = some x) : i < (P.cases k).length := by
  by_contra hge
  rw [Program.home, getElem?_eq_none (Nat.le_of_not_lt hge)] at h
  cases h

lemma not_timeout_of_home {i : Nat} {x : Nat × Dir α} (h : P.home (.sel k i) = some x) :
    (P.cases k)[i]? ≠ some .timeout := by
  intro hcase
  rw [Program.home, hcase] at h
  cases h

structure PcInv (P : Program α) (s : World α) : Prop where
  wakesNodup : s.wakes.Nodup
  wakesTaken : ∀ w ∈ s.wakes, s.taken w = true
  opLinked : ∀ c t, s.Linked c (.op t) → s.ops t = .parked
  opWake : ∀ t, .op t ∈ s.wakes → s.ops t = .parked
  opAcquired : ∀ t, s.acquired t = true → s.ops t ≠ .fresh ∧ s.ops t ≠ .returned .blocked
  opReported : ∀ t, (s.ops t = .woken ∨ ∃ status, status ≠ .blocked ∧ s.ops t = .returned status) →
    s.acquired t = true
  opRefused : ∀ t, s.ops t = .returned .blocked → (P.call t).blocking = false
  sel : ∀ k, (s.selView k).Ok (P.cases k)

namespace World.Locked

variable {b : Option Waiter}

lemma taken_iff (hl : s.Locked P s' b) (x : Waiter) : s'.taken x ↔ s.taken x ∨ b = some x := by
  have htaken : s'.taken x = (s.takeOpt b).taken x := by
    cases x with
    | op t => exact congrFun hl.acquired t
    | sel k i => exact congrArg (fun winner => decide (winner = some i)) (congrFun hl.winner k)
  rw [htaken]
  cases b with
  | none => simp [takeOpt]
  | some w => rw [takeOpt, take_taken (hl.popped w rfl).2.1, some_inj, eq_comm (a := x)]

lemma winner_cases (hl : s.Locked P s' b) (k : Nat) : (s'.winner k = s.winner k ∧ ∀ i, b ≠ some (.sel k i)) ∨
      ∃ i, b = some (.sel k i) ∧ s.winner k = none ∧ s'.winner k = some i := by
  rw [hl.winner]
  cases b with
  | none => exact .inl ⟨rfl, nofun⟩
  | some w =>
    cases w with
    | op => exact .inl ⟨rfl, nofun⟩
    | sel k' i =>
      by_cases hk : k = k'
      · subst hk
        exact .inr ⟨i, rfl, of_decide_eq_true (hl.popped _ rfl).2.1, update_self ..⟩
      · refine .inl ⟨update_of_ne hk .., fun j hj => ?_⟩
        cases hj
        exact hk rfl

end World.Locked

lemma PcInv.locked {b : Option Waiter} (h : PcInv P s) (hl : s.Locked P s' b) : PcInv P s' := by
  have hwake : ∀ w, w ∈ s'.wakes ↔ w ∈ s.wakes ∨ b = some w := by
    intro w
    rw [hl.wakes, mem_append, mem_toList]
  refine ⟨?_, fun w hw => ?_, fun c t hlink => ?_, fun t ht => ?_, fun t ht => ?_, fun t ht => ?_, fun t ht => ?_,
    fun k => ?_⟩
  · rw [hl.wakes]
    cases b with
    | none =>
      rw [toList_none, append_nil]
      exact h.wakesNodup
    | some w =>
      refine nodup_append.mpr ⟨h.wakesNodup, nodup_singleton w, fun x hx y hy heq => ?_⟩
      rw [mem_singleton.mp hy] at heq
      have htaken := h.wakesTaken x hx
      rw [heq, (hl.popped w rfl).2.2] at htaken
      cases htaken
  · rw [hl.taken_iff]
    exact ((hwake w).mp hw).imp_left (h.wakesTaken w)
  · rw [hl.ops]
    exact h.opLinked c t (hl.links c _ hlink)
  · rw [hl.ops]
    rcases (hwake _).mp ht with hold | hnew
    · exact h.opWake t hold
    · exact (hl.popped _ hnew).1
  · rw [hl.ops]
    rcases (hl.taken_iff (.op t)).mp ht with hold | hnew
    · exact h.opAcquired t hold
    · rw [show s.ops t = .parked from (hl.popped _ hnew).1]
      exact ⟨nofun, nofun⟩
  · rw [hl.ops] at ht
    exact (hl.taken_iff (.op t)).mpr (.inl (h.opReported t ht))
  · rw [hl.ops] at ht
    exact h.opRefused t ht
  · have hlinked : ∀ i, (∃ c, s'.Linked c (.sel k i)) → ∃ c, s.Linked c (.sel k i) :=
      fun i ⟨c, hc⟩ => ⟨c, hl.links c _ hc⟩
    rcases hl.winner_cases k with ⟨hsame, hb⟩ | ⟨i, hb, hnone, hset⟩
    · exact (h.sel k).frame hlinked (fun i => (hwake _).trans ⟨fun hor => hor.resolve_right (hb i), .inl⟩)
        (congrFun hl.sels k) (congrFun hl.phase k) hsame (congrFun hl.counts.1 k) (congrFun hl.counts.2 k)
        (congrFun hl.enqueued k) (congrFun hl.timer k)
    · obtain ⟨hhome, hfresh⟩ := (hl.popped _ hb).1
      obtain ⟨y, hy⟩ := isSome_iff_exists.mp hhome
      have howed := (h.sel k).not_owed hnone
      have hwin := (h.sel k).win (fun i => ∃ c, s'.Linked c (.sel k i)) (fun i => .sel k i ∈ s'.wakes)
        (s.timer k) hfresh hnone (lt_of_home hy) hlinked (fun j hj => hj) (fun j hj => ⟨?_, not_timeout_of_home hy⟩)
        (fun j hj => absurd (.inr hj) (howed j)) (.inl ((hwake _).mpr (.inr hb)))
      · rw [selView, hl.sels, hl.phase, hset, hl.counts.1, hl.counts.2, hl.enqueued, hl.timer]
        exact hwin
      · rcases (hwake _).mp hj with hold | hnew
        · exact absurd (.inl hold) (howed j)
        · rw [hb] at hnew
          cases hnew
          rfl

lemma PcInv.of_sel (h : PcInv P s) (hops : s'.ops = s.ops) (hacq : s'.acquired = s.acquired)
    (hwakes : s'.wakes.Sublist s.wakes) (hlinks : ∀ c t, s'.Linked c (.op t) → s.Linked c (.op t))
    (htaken : ∀ w, s.taken w → s'.taken w) (hsel : ∀ k, (s'.selView k).Ok (P.cases k)) : PcInv P s' := by
  refine ⟨h.wakesNodup.sublist hwakes, fun w hw => htaken w (h.wakesTaken w (hwakes.subset hw)),
    fun c t ht => ?_, fun t ht => ?_, fun t ht => ?_, fun t ht => ?_, fun t ht => ?_, hsel⟩
  · rw [hops]
    exact h.opLinked c t (hlinks c t ht)
  · rw [hops]
    exact h.opWake t (hwakes.subset ht)
  · rw [hacq] at ht
    rw [hops]
    exact h.opAcquired t ht
  · rw [hops] at ht
    rw [hacq]
    exact h.opReported t ht
  · rw [hops] at ht
    exact h.opRefused t ht

lemma PcInv.called {t : Nat} {pc : OpPc} (h : PcInv P s) (hfresh : s.ops t = .fresh)
    (hops : s'.ops = update s.ops t pc) (hwakes : s'.wakes = s.wakes)
    (hpc : pc = .parked ∨ ∃ status, pc = .returned status)
    (hbar : pc = .returned .blocked → (P.call t).blocking = false)
    (hlinks : ∀ c u, s'.Linked c (.op u) → s.Linked c (.op u) ∨ u = t ∧ pc = .parked)
    (htaken : ∀ w, s.taken w → s'.taken w)
    (hacq : ∀ u, s'.acquired u ↔ s.acquired u ∨ u = t ∧ ∃ status, status ≠ .blocked ∧ pc = .returned status)
    (hsel : ∀ k, (s'.selView k).Ok (P.cases k)) : PcInv P s' := by
  have hself : s'.ops t = pc := by
    rw [hops, update_self]
  have hother : ∀ u, u ≠ t → s'.ops u = s.ops u := by
    intro u hu
    rw [hops, update_of_ne hu]
  -- the operation was fresh, so nobody could name it before
  have hpark : ∀ u, s.ops u = .parked → s'.ops u = .parked := by
    intro u hu
    rw [hother u fun heq => ?_, hu]
    rw [heq, hfresh] at hu
    cases hu
  refine ⟨hwakes ▸ h.wakesNodup, fun w hw => ?_, fun c u hu => ?_, fun u hu => ?_, fun u hu => ?_,
    fun u hu => ?_, fun u hu => ?_, hsel⟩
  · rw [hwakes] at hw
    exact htaken w (h.wakesTaken w hw)
  · rcases hlinks c u hu with hold | ⟨rfl, rfl⟩
    · exact hpark u (h.opLinked c u hold)
    · exact hself
  · rw [hwakes] at hu
    exact hpark u (h.opWake u hu)
  · rcases (hacq u).mp hu with hold | ⟨rfl, status, hstat, rfl⟩
    · rw [hother u fun heq => (h.opAcquired u hold).1 (heq ▸ hfresh)]
      exact h.opAcquired u hold
    · rw [hself]
      exact ⟨nofun, fun heq => hstat (OpPc.returned.inj heq)⟩
  · rw [hacq]
    by_cases heq : u = t
    · subst heq
      rw [hself] at hu
      rcases hu with rfl | ⟨status, hstat, rfl⟩
      · rcases hpc with hpc | ⟨_, hpc⟩ <;> cases hpc
      · exact .inr ⟨rfl, status, hstat, rfl⟩
    · rw [hother u heq] at hu
      exact .inl (h.opReported u hu)
  · by_cases heq : u = t
    · subst heq
      rw [hself] at hu
      exact hbar hu
    · rw [hother u heq] at hu
      exact h.opRefused u hu

/-! ### The locked operations -/

lemma PcInv.waiting (hp : PcInv P s) (h : WaiterInv P s) {w : Waiter} (hw : s.Linked c w) : s.Waiting P w := by
  cases w with
  | op t => exact hp.opLinked c t hw
  | sel k i =>
    refine ⟨?_, fun hfresh => ?_⟩
    · rcases hw with hs | hr
      · obtain ⟨⟨v, hv⟩, _⟩ := h.sender c _ hs
        rw [hv]
        rfl
      · rw [(h.receiver c _ hr).1]
        rfl
    · have hlink := (hp.sel k).linked i ⟨c, hw⟩
      rw [SelView.MayLink, show (s.selView k).pc = .fresh from hfresh] at hlink
      exact hlink

lemma linked_of_update {ch : Channel α} (hset : s'.chan = update s.chan c ch)
    (hs : ch.senders.Sublist (s.chan c).senders) (hr : ch.receivers.Sublist (s.chan c).receivers)
    (c' : Nat) (w : Waiter) (hw : s'.Linked c' w) : s.Linked c' w := by
  rw [World.Linked, hset] at hw
  by_cases hc : c' = c
  · subst hc
    rw [update_self] at hw
    exact hw.imp (fun hmem => hs.subset hmem) fun hmem => hr.subset hmem
  · rw [update_of_ne hc] at hw
    exact hw

variable {status : OpStatus}

lemma trySendLocked_locked (h : WaiterInv P s) (hp : PcInv P s) {v : α}
    (hop : s.trySendLocked c self v = (status, s')) : ∃ b, s.Locked P s' b := by
  unfold trySendLocked at hop
  dsimp only at hop
  split at hop
  · cases hop
    exact ⟨none, linked_of_update rfl (.refl _) (.refl _), nofun, (append_nil _).symm, rfl, rfl, rfl,
      rfl, rfl, rfl, rfl, rfl, rfl⟩
  · split at hop
    · rename_i r rest hfront
      cases hop
      obtain ⟨hlink, hsub, _⟩ := acquireFront_mem hfront (h.receiversNodup c)
      refine ⟨some r, linked_of_update rfl (.refl _) hsub, fun w hw => ?_, rfl, rfl, rfl, rfl, rfl, rfl,
        rfl, rfl, rfl, rfl⟩
      cases hw
      exact ⟨hp.waiting h (.inr hlink), (acquireFront_some hfront).1, (h.receiver c r hlink).2⟩
    · rename_i rest hfront
      obtain ⟨rfl, _⟩ := acquireFront_none hfront
      split at hop <;> cases hop
      all_goals
        exact ⟨none, linked_of_update rfl (.refl _) (nil_sublist _), nofun, (append_nil _).symm,
          rfl, rfl, rfl, rfl, rfl, rfl, rfl, rfl, rfl⟩

lemma takeFront_linked (c' : Nat) (w : Waiter) (hw : (s.takeFront c self).Linked c' w) : s.Linked c' w := by
  have hset : (s.takeFront c self).chan = update s.chan c { s.chan c with
      ring := (s.chan c).ring.drop
      delivered := (s.chan c).delivered ++ labelled self (s.chan c).ring.front } := rfl
  exact linked_of_update hset (.refl _) (.refl _) c' w hw

lemma tryRecvLocked_locked (h : WaiterInv P s) (hp : PcInv P s)
    (hop : s.tryRecvLocked c self = (status, s')) : ∃ b, s.Locked P s' b := by
  have hacq : ∀ {w : Waiter} {rest : List Waiter}, acquireFront s.live (s.chan c).senders = (some w, rest) →
        rest.Sublist (s.chan c).senders ∧ s.Waiting P w ∧ s.live w ∧ s.taken w = false := by
    intro w rest hfront
    obtain ⟨hlink, hsub, _⟩ := acquireFront_mem hfront (h.sendersNodup c)
    exact ⟨hsub, hp.waiting h (.inl hlink), (acquireFront_some hfront).1, (h.sender c w hlink).2⟩
  have hfirst : (s.takeFront c self).chan c = { s.chan c with
      ring := (s.chan c).ring.drop
      delivered := (s.chan c).delivered ++ labelled self (s.chan c).ring.front } :=
    update_self ..
  unfold tryRecvLocked at hop
  dsimp only at hop
  split at hop
  · rw [hfirst] at hop
    split at hop
    · rename_i w rest hfront
      obtain ⟨hsub, hpopped⟩ := hacq hfront
      cases hop
      refine ⟨some w, fun c' x hx => ?_, fun x hx => ?_, rfl, rfl, rfl, rfl, rfl, rfl, rfl, rfl, rfl, rfl⟩
      · refine takeFront_linked c' x (linked_of_update rfl ?_ ?_ c' x hx)
        · rw [hfirst]
          exact hsub
        · rw [hfirst]
      · cases hx
        exact hpopped
    · rename_i rest hfront
      obtain ⟨rfl, _⟩ := acquireFront_none hfront
      cases hop
      refine ⟨none, fun c' x hx => ?_, nofun, (append_nil _).symm, rfl, rfl, rfl, rfl, rfl, rfl, rfl, rfl, rfl⟩
      refine takeFront_linked c' x (linked_of_update rfl (nil_sublist _) ?_ c' x hx)
      rw [hfirst]
  · split at hop
    · rename_i w rest hfront
      obtain ⟨hsub, hpopped⟩ := hacq hfront
      cases hop
      refine ⟨some w, linked_of_update rfl hsub (.refl _), fun x hx => ?_, rfl, rfl, rfl, rfl, rfl, rfl, rfl,
        rfl, rfl, rfl⟩
      cases hx
      exact hpopped
    · rename_i rest hfront
      obtain ⟨rfl, _⟩ := acquireFront_none hfront
      split at hop <;> cases hop
      all_goals
        exact ⟨none, linked_of_update rfl (nil_sublist _) (.refl _), nofun, (append_nil _).symm,
          rfl, rfl, rfl, rfl, rfl, rfl, rfl, rfl, rfl⟩

lemma tryRecvNowLocked_locked (h : WaiterInv P s) (hp : PcInv P s)
    (hop : s.tryRecvNowLocked c self = (status, s')) : ∃ b, s.Locked P s' b := by
  unfold tryRecvNowLocked at hop
  dsimp only at hop
  split at hop
  · exact tryRecvLocked_locked h hp hop
  · cases hop
    exact ⟨none, takeFront_linked, nofun, (append_nil _).symm, rfl, rfl, rfl, rfl, rfl, rfl, rfl, rfl, rfl⟩

lemma closeOne_locked (receiver : Bool) {w : Waiter} (hwait : s.Waiting P w) (hlive : s.live w)
    (hfree : s.taken w = false) : s.Locked P (s.closeOne c receiver w) (some w) := by
  refine ⟨?_, fun x hx => ?_, ?_, ?_, ?_, ?_, ?_, ?_, ?_, ?_, ?_⟩
  · cases receiver <;> exact linked_of_update rfl (.refl _) (.refl _)
  · cases hx
    exact ⟨hwait, hlive, hfree⟩
  all_goals
    cases receiver
    all_goals first | rfl | exact ⟨rfl, rfl⟩

end Cio.Chan
