import Cio.ChannelWaiters

/-! The locked operations act as the logs say. An operation that is not blocked takes its own waiter and
at most one waiter of a queue, `close` takes the waiters it fails; each of them gets one entry in the log of
the channel and a report that agrees with it. -/

namespace Cio.Chan

open Function List World

variable {α : Type} {P : Program α} {s s' : World α} {c : Nat} {self r : Waiter} {A : List Waiter}

namespace World.Acts

variable {ch : Channel α}

lemma single (hfree : s.taken self = false) (hlive : s.live self) (hset : s'.chan = update s.chan c ch)
    (hchan : (s.chan c).Acts ch [self]) (htaken : s'.taken = (s.take self).taken)
    (hslots : ∀ x, x ≠ self → s'.slot x = s.slot x ∧ s'.success x = s.success x)
    {d : Dir α} (hhome : P.home self = some (c, d))
    (hres : ch.Result self (s'.success self) (s'.slot self) d) : s.Acts P s' c [self] := by
  refine ⟨?_, fun c' hc => ?_, nodup_singleton _, fun w hw => ?_, fun w => ?_, fun w hw => ?_, fun w hw => ?_⟩
  · rw [hset, update_self]
    exact hchan
  · rw [hset, update_of_ne hc]
  · rw [mem_singleton.mp hw]
    exact hfree
  · rw [htaken, take_taken hlive, mem_singleton]
  · exact hslots w fun heq => hw (mem_singleton.mpr heq)
  · rw [mem_singleton.mp hw]
    refine ⟨d, hhome, ?_⟩
    rw [World.Result, hset, update_self]
    exact hres

lemma pair (hself : s.Fresh self) (hlink : r ∈ (s.chan c).senders ∨ r ∈ (s.chan c).receivers) (hlive : s.live r)
    (hr : s.taken r = false) (hmem : ∀ x, x ∈ A ↔ x = self ∨ x = r) (hnodup : A.Nodup)
    (hset : s'.chan = update s.chan c ch) (hchan : (s.chan c).Acts ch A)
    (htaken : s'.taken = ((s.take r).take self).taken)
    (hslots : ∀ x, x ≠ self → x ≠ r → s'.slot x = s.slot x ∧ s'.success x = s.success x) {d d' : Dir α}
    (hhome : P.home self = some (c, d)) (hres : ch.Result self (s'.success self) (s'.slot self) d)
    (hhome' : P.home r = some (c, d')) (hresult' : ch.Result r (s'.success r) (s'.slot r) d') : s.Acts P s' c A := by
  refine ⟨?_, fun c' hc => ?_, hnodup, fun w hw => ?_, fun w => ?_, fun w hw => ?_, fun w hw => ?_⟩
  · rw [hset, update_self]
    exact hchan
  · rw [hset, update_of_ne hc]
  · rcases (hmem w).mp hw with rfl | rfl
    · exact hself.untaken
    · exact hr
  · rw [htaken, take_taken (hself.apart c r hlink).2, take_taken hlive, hmem, or_assoc]
    exact or_congr_right or_comm
  · exact hslots w (fun heq => hw ((hmem w).mpr (.inl heq))) fun heq => hw ((hmem w).mpr (.inr heq))
  · rcases (hmem w).mp hw with rfl | rfl
    · refine ⟨d, hhome, ?_⟩
      rw [World.Result, hset, update_self]
      exact hres
    · refine ⟨d', hhome', ?_⟩
      rw [World.Result, hset, update_self]
      exact hresult'

lemma trim (hset : s'.chan = update s.chan c ch) (hchan : (s.chan c).Acts ch []) (htaken : s'.taken = s.taken)
    (hslots : s'.slot = s.slot ∧ s'.success = s.success) : s.Acts P s' c [] := by
  refine ⟨?_, fun c' hc => ?_, nodup_nil, nofun, fun w => ?_, fun w _ => ?_, nofun⟩
  · rw [hset, update_self]
    exact hchan
  · rw [hset, update_of_ne hc]
  · rw [htaken]
    simp
  · rw [hslots.1, hslots.2]
    exact ⟨rfl, rfl⟩

end World.Acts

/-! ### Sends -/

/-- The state in which the send of `self` has completed. -/
def World.sent (s : World α) (self : Waiter) (status : OpStatus) : World α :=
  (s.setSuccess self (status = .done)).take self

variable {status : OpStatus}

lemma World.Fresh.off (hself : s.Fresh self) (c : Nat) : self ∉ (s.chan c).senders ∧ self ∉ (s.chan c).receivers :=
  ⟨fun hmem => (hself.apart c self (.inl hmem)).1 rfl, fun hmem => (hself.apart c self (.inr hmem)).1 rfl⟩

lemma trySendLocked_acts (h : WaiterInv P s) (hself : s.Fresh self) {v : α}
    (hhome : P.home self = some (c, .send v)) (hop : s.trySendLocked c self v = (status, s')) :
    if status = .blocked then s.Acts P s' c []
    else ∃ A, self ∈ A ∧ s.Acts P (s'.sent self status) c A := by
  have hoff := hself.off c
  unfold trySendLocked at hop
  dsimp only at hop
  split at hop
  · -- closed
    rename_i hshut
    cases hop
    rw [if_neg (by nofun)]
    refine ⟨[self], mem_singleton_self _, .single hself.untaken hself.live rfl
      (.of_logs [] [] [self] (.refl _) (.refl _) (append_nil _).symm (append_nil _).symm rfl
        id fun w hw => ?_) rfl (fun x hx => ⟨rfl, update_of_ne hx ..⟩) hhome (.inr ⟨?_, ?_⟩)⟩
    · rw [mem_singleton.mp hw]
      exact hoff
    · exact update_self ..
    · exact mem_append_right _ (mem_singleton_self _)
  · rename_i hshut
    have hopen : ∀ ch : Channel α, (s.chan c).Drained → ch.Drained := fun _ hd => absurd hd.1 hshut
    split at hop
    · -- a waiting receiver takes the value
      rename_i r rest hfront
      cases hop
      rw [if_neg (by nofun)]
      obtain ⟨hlink, hsub, hnot⟩ := acquireFront_mem hfront (h.receiversNodup c)
      obtain ⟨hr, hfree⟩ := h.receiver c r hlink
      have hne := (hself.apart c r (.inr hlink)).1
      refine ⟨[self, r], mem_cons_self, .pair hself (.inr hlink) (acquireFront_some hfront).1
        hfree (fun x => by simp) (by simp [Ne.symm hne]) rfl
        (.of_logs [(self, v)] [(r, v)] [] (.refl _) hsub rfl rfl (append_nil _).symm (hopen _)
          fun w hw => ?_) rfl (fun x hx hxr => ⟨?_, ?_⟩) hhome (.inl ⟨?_, ?_⟩) hr (.inl ⟨v, ?_, ?_⟩)⟩
      · rcases mem_cons.mp hw with rfl | hw
        · exact ⟨hoff.1, fun hmem => hoff.2 (hsub.subset hmem)⟩
        · rw [mem_singleton.mp hw]
          refine ⟨fun hmem => ?_, hnot⟩
          obtain ⟨⟨u, hu⟩, _⟩ := h.sender c r hmem
          rw [hr] at hu
          cases hu
      · exact (update_of_ne hxr ..).trans (update_of_ne hx ..)
      · exact (update_of_ne hx ..).trans (update_of_ne hxr ..)
      · exact update_self ..
      · exact mem_append_right _ (mem_singleton_self _)
      · exact update_self ..
      · exact mem_append_right _ (mem_singleton_self _)
    · rename_i rest hfront
      obtain ⟨rfl, _⟩ := acquireFront_none hfront
      split at hop
      · -- the ring has room
        cases hop
        rw [if_neg (by nofun)]
        refine ⟨[self], mem_singleton_self _, .single hself.untaken hself.live rfl
          (.of_logs [(self, v)] [] [] (.refl _) (nil_sublist _) rfl (append_nil _).symm
            (append_nil _).symm (hopen _) fun w hw => ?_) rfl
          (fun x hx => ⟨update_of_ne hx .., update_of_ne hx ..⟩) hhome (.inl ⟨?_, ?_⟩)⟩
        · rw [mem_singleton.mp hw]
          exact ⟨hoff.1, not_mem_nil⟩
        · exact update_self ..
        · exact mem_append_right _ (mem_singleton_self _)
      · cases hop
        rw [if_pos rfl]
        exact .trim rfl (.of_logs [] [] [] (.refl _) (nil_sublist _) (append_nil _).symm
          (append_nil _).symm (append_nil _).symm (hopen _) nofun) rfl ⟨rfl, rfl⟩

/-! ### Receives -/

lemma labelled_some (w : Waiter) (v : α) : labelled w (some v) = [(w, v)] := rfl

lemma WaiterInv.sender_slot (h : WaiterInv P s) (hmem : r ∈ (s.chan c).senders) :
    ∃ v, P.home r = some (c, .send v) ∧ s.slot r = some v ∧ s.taken r = false := by
  obtain ⟨⟨v, hv⟩, hfree⟩ := h.sender c r hmem
  refine ⟨v, hv, ?_, hfree⟩
  rw [(h.untaken r hfree).1, Program.slot, hv]

variable {l : List α} {u : α}

lemma takeFront_chan (hring : (s.chan c).ring.Holds (u :: l)) :
    (s.takeFront c self).chan = update s.chan c { s.chan c with
      ring := (s.chan c).ring.drop
      delivered := (s.chan c).delivered ++ [(self, u)] } := by
  rw [takeFront]
  rw [hring.front]
  rfl

lemma setChan_takeFront (hring : (s.chan c).ring.Holds (u :: l))
    (ch : Channel α) : update (s.takeFront c self).chan c ch = update s.chan c ch := by
  rw [takeFront_chan hring, update_idem]

lemma takeFront_acts (hself : s.Fresh self) (hhome : P.home self = some (c, .recv))
    (hring : (s.chan c).ring.Holds (u :: l)) {senders : List Waiter} (hsub : senders.Sublist (s.chan c).senders)
    (hset : s'.chan = update s.chan c { s.chan c with
      ring := (s.chan c).ring.drop
      delivered := (s.chan c).delivered ++ [(self, u)]
      senders := senders })
    (htaken : s'.taken = (s.take self).taken) (hslot : s'.slot = update s.slot self (some u))
    (hsucc : s'.success = s.success) : s.Acts P s' c [self] := by
  have hcount := hring.count
  rw [length_cons] at hcount
  refine .single hself.untaken hself.live hset (.of_logs [] [(self, u)] [] hsub (.refl _) (append_nil _).symm rfl
    (append_nil _).symm (fun hd => ?_) fun w hw => ?_) htaken (fun x hx => ⟨?_, ?_⟩) hhome
    (.inl ⟨u, ?_, ?_⟩)
  · have hzero := hd.2
    omega
  · rw [mem_singleton.mp hw]
    exact ⟨fun hmem => (hself.off c).1 (hsub.subset hmem), (hself.off c).2⟩
  · rw [hslot, update_of_ne hx]
  · rw [hsucc]
  · rw [hslot, update_self]
  · exact mem_append_right _ (mem_singleton_self _)

lemma tryRecvLocked_acts (h : WaiterInv P s) (hself : s.Fresh self) (hhome : P.home self = some (c, .recv))
    (hring : (s.chan c).ring.Holds l) (hop : s.tryRecvLocked c self = (status, s')) :
    if status = .blocked then s.Acts P s' c []
    else ∃ A, self ∈ A ∧ s.Acts P (s'.take self) c A := by
  have hoff := hself.off c
  have hcount := hring.count
  -- what the acquired sender contributes in both branches
  have hacq : ∀ {w : Waiter} {rest : List Waiter}, acquireFront s.live (s.chan c).senders = (some w, rest) →
        ∃ v, w ∈ (s.chan c).senders ∧ rest.Sublist (s.chan c).senders ∧ w ∉ rest ∧ w ≠ self ∧
          P.home w = some (c, .send v) ∧ s.slot w = some v ∧ s.taken w = false ∧ s.live w ∧
          w ∉ (s.chan c).receivers := by
    intro w rest hfront
    obtain ⟨hlink, hsub, hnot⟩ := acquireFront_mem hfront (h.sendersNodup c)
    obtain ⟨v, hv, hslot, hfree⟩ := h.sender_slot hlink
    refine ⟨v, hlink, hsub, hnot, (hself.apart c w (.inl hlink)).1, hv, hslot, hfree,
      (acquireFront_some hfront).1, fun hmem => ?_⟩
    rw [(h.receiver c w hmem).1] at hv
    cases hv
  unfold tryRecvLocked at hop
  dsimp only at hop
  split at hop
  · obtain ⟨u, l, rfl⟩ : ∃ u l', l = u :: l' := by
      cases l with
      | nil =>
        rw [length_nil] at hcount
        omega
      | cons u l => exact ⟨u, l, rfl⟩
    rw [takeFront_chan hring, update_self] at hop
    split at hop
    · -- a blocked sender refills the ring
      rename_i w rest hfront
      obtain ⟨v, hlink, hsub, hnot, hne, hv, hslot, hfree, hlive, hrecv⟩ := hacq hfront
      rw [hslot, labelled_some] at hop
      cases hop
      rw [if_neg (by nofun)]
      refine ⟨[w, self], mem_cons_of_mem _ (mem_singleton_self _), .pair hself (.inl hlink)
        hlive hfree (fun x => by simp [or_comm]) (by simp [hne]) (setChan_takeFront hring _)
        (.of_logs [(w, v)] [(self, u)] [] hsub (.refl _) rfl rfl (append_nil _).symm
          (fun hd => ?_) fun x hx => ?_) rfl (fun x hx hxw => ⟨?_, ?_⟩) hhome (.inl ⟨u, ?_, ?_⟩) hv
        (.inl ⟨?_, ?_⟩)⟩
      · have hzero := hd.2
        omega
      · rcases mem_cons.mp hx with rfl | hx
        · exact ⟨hnot, hrecv⟩
        · rw [mem_singleton.mp hx]
          exact ⟨fun hmem => hoff.1 (hsub.subset hmem), hoff.2⟩
      · exact (update_of_ne hxw ..).trans (update_of_ne hx ..)
      · exact update_of_ne hxw ..
      · refine (update_of_ne hne.symm ..).trans ?_
        rw [← hring.front]
        exact update_self ..
      · exact mem_append_right _ (mem_singleton_self _)
      · exact update_self ..
      · exact mem_append_right _ (mem_singleton_self _)
    · rename_i rest hfront
      obtain ⟨rfl, _⟩ := acquireFront_none hfront
      cases hop
      rw [if_neg (by nofun)]
      refine ⟨[self], mem_singleton_self _,
        takeFront_acts hself hhome hring (nil_sublist _) (setChan_takeFront hring _) rfl ?_ rfl⟩
      show update s.slot self (s.chan c).ring.front = _
      rw [hring.front]
  · rename_i hzero
    split at hop
    · -- the value goes from the blocked sender to the receiver
      rename_i w rest hfront
      obtain ⟨v, hlink, hsub, hnot, hne, hv, hslot, hfree, hlive, hrecv⟩ := hacq hfront
      rw [hslot, labelled_some, labelled_some] at hop
      cases hop
      rw [if_neg (by nofun)]
      refine ⟨[w, self], mem_cons_of_mem _ (mem_singleton_self _), .pair hself (.inl hlink)
        hlive hfree (fun x => by simp [or_comm]) (by simp [hne]) rfl
        (.of_logs [(w, v)] [(self, v)] [] hsub (.refl _) rfl rfl (append_nil _).symm
          id fun x hx => ?_) rfl (fun x hx hxw => ⟨?_, ?_⟩) hhome (.inl ⟨v, ?_, ?_⟩) hv
        (.inl ⟨?_, ?_⟩)⟩
      · rcases mem_cons.mp hx with rfl | hx
        · exact ⟨hnot, hrecv⟩
        · rw [mem_singleton.mp hx]
          exact ⟨fun hmem => hoff.1 (hsub.subset hmem), hoff.2⟩
      · exact (update_of_ne hxw ..).trans (update_of_ne hx ..)
      · exact update_of_ne hxw ..
      · exact (update_of_ne hne.symm ..).trans (update_self ..)
      · exact mem_append_right _ (mem_singleton_self _)
      · exact update_self ..
      · exact mem_append_right _ (mem_singleton_self _)
    · rename_i rest hfront
      obtain ⟨rfl, _⟩ := acquireFront_none hfront
      split at hop
      · -- closed and drained
        rename_i hshut
        cases hop
        rw [if_neg (by nofun)]
        refine ⟨[self], mem_singleton_self _, .single hself.untaken hself.live rfl
          (.of_logs [] [] [self] (nil_sublist _) (.refl _) (append_nil _).symm
            (append_nil _).symm rfl id fun w hw => ?_) rfl
          (fun x hx => ⟨update_of_ne hx .., rfl⟩) hhome (.inr ⟨?_, ?_, hshut, ?_⟩)⟩
        · rw [mem_singleton.mp hw]
          exact ⟨not_mem_nil, hoff.2⟩
        · exact update_self ..
        · exact mem_append_right _ (mem_singleton_self _)
        · exact Nat.eq_zero_of_not_pos hzero
      · cases hop
        rw [if_pos rfl]
        exact .trim rfl (.of_logs [] [] [] (nil_sublist _) (.refl _) (append_nil _).symm
          (append_nil _).symm (append_nil _).symm id nofun) rfl ⟨rfl, rfl⟩

lemma tryRecvNowLocked_acts (h : WaiterInv P s) (hself : s.Fresh self) (hhome : P.home self = some (c, .recv))
    (hring : (s.chan c).ring.Holds l) (hop : s.tryRecvNowLocked c self = (status, s')) :
    if status = .blocked then s.Acts P s' c []
    else ∃ A, self ∈ A ∧ s.Acts P (s'.take self) c A := by
  unfold tryRecvNowLocked at hop
  dsimp only at hop
  split at hop
  · exact tryRecvLocked_acts h hself hhome hring hop
  · rename_i hshort
    obtain ⟨hcount, hsenders⟩ := not_or.mp hshort
    cases hop
    rw [if_neg (by nofun)]
    cases l with
    | nil => exact absurd hring.count hcount
    | cons =>
      refine ⟨[self], mem_singleton_self _,
        takeFront_acts hself hhome hring (.refl _) (takeFront_chan hring) rfl ?_ rfl⟩
      show update s.slot self (s.chan c).ring.front = _
      rw [hring.front]

end Cio.Chan
