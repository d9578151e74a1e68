import Cio.SlotProtocol

/-! Successful completions and edges. `unblock_impl` records whatever finds an idle slot as an edge, a
deadline expiry or a cancellation included, and a later awaiter takes the record for readiness. As long
as these error completions never find the slot of their direction idle, every successful completion has
an edge of its own. -/

namespace Cio.Reactor.Slot

open Function State List IoDesc

def Caller.expires : Caller → Bool
  | .onDeadline _ _ | .cancelWaiters | .setDeadline _ _ => true
  | .edge _ _ | .detach => false

/-- The step exchanges an idle slot on behalf of a deadline expiry or a cancellation. -/
def expiryFindsIdle (s : State) : Act → Bool
  | .call i _ =>
    match s.calls[i]? with
    | some (.unblock caller dir _ (.cas .idle)) => caller.expires && s.desc.slot dir == .idle
    | _ => false
  | _ => false

/-- No deadline expiry and no cancellation finds its slot idle. -/
def ExpiriesFindWaiters (s : State) (act : Act) : Prop := expiryFindsIdle s act = false

instance (s : State) (act : Act) : Decidable (ExpiriesFindWaiters s act) :=
  inferInstanceAs (Decidable (_ = false))

/-- Between two successful completions of a direction, and before the first, an edge was dispatched. -/
structure EdgesEarned (s : State) (d : Dir) : Prop where
  apart : (s.successes d).Pairwise (· > ·)
  pos : ∀ n ∈ s.successes d, 0 < n

/-- The awaiter that left the slot last has an edge that no success has used. -/
def Due (s : State) (d : Dir) : Prop := 0 < s.left d ∧ ∀ n ∈ s.successes d, n < s.left d

/-- A recorded edge is a new one, and so is the edge of whoever is on the way to a success. -/
structure Earned (s : State) (d : Dir) : Prop where
  earned : EdgesEarned s d
  bound : ∀ n ∈ s.successes d, n ≤ s.left d
  ready : s.desc.slot d = .ready → s.desc.closing = true ∨ s.left d < s.edges d
  settled : s.settled d → Due s d
  grip : ∀ i g, s.grip i d = some g → g.err = none → Due s d

variable {s : State} {d : Dir}

namespace Earned

variable {t : State}

lemma of_same (h : Earned s d) (hleft : t.left d = s.left d) (hedges : t.edges d = s.edges d)
    (hsucc : t.successes d = s.successes d) (hslot : t.desc.slot d = .ready → s.desc.slot d = .ready)
    (hend : s.desc.closing → t.desc.closing)
    (hsettled : t.settled d → s.settled d ∨ ∃ i g, s.grip i d = some g ∧ g.err = none)
    (hgrip : ∀ j g, t.grip j d = some g → g.err = none → ∃ i g', s.grip i d = some g' ∧ g'.err = none) :
    Earned t d := by
  have hdue : Due s d → Due t d := by
    intro hs
    rw [Due, hleft, hsucc]
    exact hs
  refine ⟨⟨?_, ?_⟩, ?_, fun hready => ?_, fun hs => hdue ?_, fun j g hg herr => hdue ?_⟩
  · rw [hsucc]
    exact h.earned.apart
  · rw [hsucc]
    exact h.earned.pos
  · rw [hsucc, hleft]
    exact h.bound
  · rw [hleft, hedges]
    exact (h.ready (hslot hready)).imp hend id
  · rcases hsettled hs with hold | ⟨i, g, hg, herr⟩
    · exact h.settled hold
    · exact h.grip i g hg herr
  · obtain ⟨i, g', hg', herr'⟩ := hgrip j g hg herr
    exact h.grip i g' hg' herr'

end Earned

lemma settled_of_eq {s t : State} (h : t.settled d) (haw : t.awaiter d = s.awaiter d)
    (hmem : ∀ a, (s.awaiter d).addr = some a → (t.mem a).err = (s.mem a).err) : s.settled d := by
  unfold settled at h ⊢
  rw [haw] at h
  cases hpc : s.awaiter d with
  | resume a =>
    rw [hpc] at h hmem
    exact (hmem a rfl).symm.trans h
  | leave a err =>
    rw [hpc] at h
    cases err <;> exact h
  | idle | enter | check | load | consume | publish | parked | recheck =>
    rw [hpc] at h
    exact h

variable {dir : Dir} {a : Addr} {caller : Caller} {i : Nat} {rest : List Dir}

lemma settled_of_ne {s t : State} {pc : AwaitPc} (h : t.settled d) (hd : d ≠ dir)
    (haw : t.awaiter = update s.awaiter dir pc)
    (hmem : ∀ a, (s.awaiter d).addr = some a → (t.mem a).err = (s.mem a).err) : s.settled d :=
  settled_of_eq h (by rw [haw, update_of_ne hd]) hmem

lemma not_settled_of_parked (hpc : s.awaiter d = .parked a) : ¬ s.settled d := by
  rw [settled, hpc]
  exact id

attribute [local simp] settled consume setAwaiter leaveSlot setSlot
  settled_setAwaiter State.countEdge State.take State.setCall State.log State.publish

section

variable (hkept : Kept s) (h : Earned s d)

include hkept h

lemma consume_earned
    (hpc : s.awaiter dir = .consume a) (hslot : s.desc.slot dir = .ready) : Earned (s.consume dir a) d := by
  by_cases hd : d = dir
  · subst hd
    -- An admitted task finds the descriptor open, so the recorded edge is a new one.
    have hopen := hkept.locked.admitted d (hpc ▸ rfl)
    have hnew : s.left d < s.edges d := by
      rcases h.ready hslot with hend | hlt
      · rw [hopen] at hend
        cases hend
      · exact hlt
    have hleft : (s.consume d a).left d = s.edges d := by
      simp
    have hdue : Due (s.consume d a) d := by
      refine ⟨hleft ▸ Nat.zero_lt_of_lt hnew, fun n hn => ?_⟩
      rw [hleft]
      exact lt_of_le_of_lt (h.bound n hn) hnew
    refine ⟨⟨h.earned.apart, h.earned.pos⟩, fun n hn => (hdue.2 n hn).le, fun hready => ?_, fun _ => hdue,
      fun _ _ _ _ => hdue⟩
    simp at hready
  · refine h.of_same ?_ rfl rfl ?_ id ?_ fun j g hg herr => ⟨j, g, hg, herr⟩
    · simp [hd]
    · simp [hd]
    · exact fun hs => .inl (settled_of_ne hs hd rfl fun b _ => rfl)

lemma finish_earned {err : Option Error} (hpc : s.awaiter dir = .resume a ∨ ∃ stage, s.awaiter dir = .recheck a stage)
    (hsettled : err = none → s.settled dir) : Earned (s.finish dir err) d := by
  have hnot : ∀ b, s.awaiter dir ≠ .parked b := by
    rcases hpc with hpc | ⟨stage, hpc⟩ <;> simp [hpc]
  unfold finish
  split
  · rename_i herr
    by_cases hd : d = dir
    · subst hd
      have hdue := h.settled (hsettled herr)
      have hgrip := ((hkept.station d).eq_away hnot).2.1
      refine ⟨⟨?_, ?_⟩, ?_, h.ready, ?_, fun i g hg => ?_⟩
      · simp only [update_self, pairwise_cons]
        exact ⟨hdue.2, h.earned.apart⟩
      · intro n hn
        simp only [update_self, mem_cons] at hn
        rcases hn with rfl | hold
        · exact hdue.1
        · exact h.earned.pos n hold
      · intro n hn
        simp only [update_self, mem_cons] at hn
        rcases hn with rfl | hold
        · exact le_rfl
        · exact h.bound n hold
      · intro hs
        simp at hs
      · exact absurd ((hgrip i).symm.trans hg) (by simp)
    · refine h.of_same rfl rfl ?_ id id ?_ fun j g hg herr => ⟨j, g, hg, herr⟩
      · simp [hd]
      · exact fun hs => .inl (settled_of_ne hs hd rfl fun b _ => rfl)
  · refine h.of_same rfl rfl rfl id id (fun hs => ?_) fun j g hg herr => ⟨j, g, hg, herr⟩
    by_cases hd : d = dir
    · subst hd
      simp at hs
    · exact .inl (settled_of_ne hs hd rfl fun b _ => rfl)

lemma record_earned {spurious : Bool} {c : Call} (hcond : ExpiriesFindWaiters s (.call i spurious))
    (hc : s.calls[i]? = some c) (hfree : ∀ d, c.grip d = none)
    (hslot : s.desc.slot dir = .ready ∨ s.desc.slot dir = .idle ∧ c = .unblock caller dir rest (.cas .idle)) :
    Earned (((s.setSlot dir .ready).countEdge caller dir).afterUnblock i caller rest) d := by
  have haside := afterUnblock_aside ((s.setSlot dir .ready).countEdge caller dir) i caller rest
  have hgrip := grip_afterUnblock (t := (s.setSlot dir .ready).countEdge caller dir) hc hfree rfl caller rest
  generalize ((s.setSlot dir .ready).countEdge caller dir).afterUnblock i caller rest = t at haside hgrip ⊢
  have hleft : t.left = s.left := haside.left
  have hsucc : t.successes = s.successes := haside.successes
  have hsettled : t.settled d → s.settled d := fun hs =>
    settled_of_eq hs (haside.awaiter ▸ rfl) fun b _ => by rw [haside.mem]; rfl
  by_cases hd : d = dir
  · subst hd
    have hedges : t.edges d = s.edges d + if caller.err = none then 1 else 0 := by
      rw [haside.edges]
      simp
    have hdue : Due s d → Due t d := by
      rw [Due, Due, hleft, hsucc]
      exact id
    refine ⟨⟨?_, ?_⟩, ?_, fun _ => ?_, fun hs => hdue (h.settled (hsettled hs)), fun j g hg herr => ?_⟩
    · rw [hsucc]
      exact h.earned.apart
    · rw [hsucc]
      exact h.earned.pos
    · rw [hsucc, hleft]
      exact h.bound
    · rw [hleft, hedges]
      rcases hslot with hready | ⟨hidle, rfl⟩
      · exact (h.ready hready).imp haside.closing fun hlt => Nat.lt_add_right _ hlt
      · -- Only an edge or `detach` finds the slot idle here.
        have hexpires : caller.expires = false := by
          simpa [ExpiriesFindWaiters, expiryFindsIdle, hc, hidle] using hcond
        cases caller with
        | edge => exact .inr (Nat.lt_succ_of_le (hkept.counted d).left_le)
        | detach => exact .inl (haside.closing (hkept.swept.closing _ (mem_of_getElem? hc) rfl))
        | onDeadline | cancelWaiters | setDeadline => cases hexpires
    · rw [hgrip] at hg
      exact hdue (h.grip j g hg herr)
  · refine h.of_same (by rw [hleft]) ?_ (by rw [hsucc]) ?_ haside.closing
      (fun hs => .inl (hsettled hs)) fun j g hg herr => ⟨j, g, (hgrip j d).symm.trans hg, herr⟩
    · rw [haside.edges]
      simp [hd]
    · rw [haside.slot]
      simp [hd]

lemma take_earned {c : Call} (hc : s.calls[i]? = some c) (hfree : ∀ d, c.grip d = none)
    (hslot : s.desc.slot dir = .waiter a) : Earned (s.take i caller dir rest a) d := by
  have hpark := ((hkept.station dir).eq_waiting hslot).1
  by_cases hd : d = dir
  · subst hd
    have hleft : (s.take i caller d rest a).left d = s.edges d + if caller.err = none then 1 else 0 := by
      simp
    have hle := (hkept.counted d).left_le
    refine ⟨⟨h.earned.apart, h.earned.pos⟩, fun n hn => ?_, fun hready => ?_, fun hs => ?_, fun j g hg herr => ?_⟩
    · rw [hleft]
      have hbound := h.bound n hn
      omega
    · simp at hready
    · exact absurd hs (not_settled_of_parked hpark)
    · have hgrip : (s.take i caller d rest a).grip j d =
          if j = i then some ⟨a, false, caller.err⟩ else s.grip j d := by
        refine (grip_setCall (by exact hc) _ j d).trans ?_
        simp only [Call.grip, if_pos]
        rfl
      rw [hgrip] at hg
      split at hg
      · cases hg
        refine ⟨?_, fun n hn => ?_⟩
        · rw [hleft, if_pos herr]
          omega
        · rw [hleft, if_pos herr]
          have hbound := h.bound n hn
          omega
      · rw [((hkept.station d).eq_waiting hslot).2.1 j] at hg
        cases hg
  · refine h.of_same ?_ ?_ rfl ?_ id (fun hs => .inl (settled_of_eq hs rfl fun b _ => rfl))
      fun j g hg herr => ⟨j, g, ?_, herr⟩
    · simp [hd]
    · simp [hd]
    · simp [hd]
    · exact (grip_setCall_of_ne (by exact hc) (hfree d) hd j).symm.trans hg

lemma write_earned (hc : s.calls[i]? = some (.unblock caller dir rest (.write a))) :
    Earned (((s.setErr a caller.err).log (s.mem a).handle .written).setCall i
      (.unblock caller dir rest (.dispatch a))) d := by
  have hheld : s.grip i dir = some ⟨a, false, caller.err⟩ := by
    rw [grip_of_getElem hc]
    simp only [Call.grip, if_pos]
  have hpark := ((hkept.station dir).eq_held hheld).1
  refine h.of_same rfl rfl rfl id id (fun hs => .inl ?_) fun j g hg herr => ?_
  · -- The task whose result is written is parked, so it is not the one that has left.
    by_cases hd : d = dir
    · subst hd
      exact absurd hs (not_settled_of_parked hpark)
    · refine settled_of_eq hs rfl fun b hb => ?_
      have hne : b ≠ a := hkept.addressed.ne d dir hb (hpark ▸ rfl) hd
      simp [hne]
  · by_cases hd : d = dir
    · subst hd
      rw [grip_setCall (by exact hc)] at hg
      split at hg
      · simp only [Call.grip, if_pos, Option.some.injEq] at hg
        subst hg
        exact ⟨i, _, hheld, herr⟩
      · exact ⟨j, g, hg, herr⟩
    · rw [grip_setCall_of_ne (by exact hc) (grip_unblock_of_ne hd caller rest _) hd] at hg
      exact ⟨j, g, hg, herr⟩

lemma dispatch_earned (hc : s.calls[i]? = some (.unblock caller dir rest (.dispatch a))) :
    Earned ((s.dispatch a).afterUnblock i caller rest) d := by
  have hheld : s.grip i dir = some ⟨a, true, caller.err⟩ := by
    rw [grip_of_getElem hc]
    simp only [Call.grip, if_pos]
  obtain ⟨hpark, _, _, hwritten, _⟩ := (hkept.station dir).eq_held hheld
  have hhand : (s.mem a).handle = dir := hkept.addressed dir a (hpark ▸ rfl)
  have haside := afterUnblock_aside (s.dispatch a) i caller rest
  refine h.of_same (haside.left ▸ rfl) (haside.edges ▸ rfl) (haside.successes ▸ rfl)
    (haside.slot ▸ id) haside.closing (fun hs => ?_) fun j g hg herr => ⟨j, g, ?_, herr⟩
  · by_cases hd : d = dir
    · subst hd
      have hs' : (s.dispatch a).settled d := settled_of_eq hs (by rw [haside.awaiter]) (by simp [haside.mem])
      rw [dispatch, hhand, settled_setAwaiter] at hs'
      exact .inr ⟨i, _, hheld, (hwritten rfl).symm.trans hs'⟩
    · have hwoken : ((s.dispatch a).afterUnblock i caller rest).awaiter = update s.awaiter dir (.resume a) := by
        rw [haside.awaiter, dispatch, hhand]
        rfl
      exact .inl (settled_of_ne hs hd hwoken fun b _ => by rw [haside.mem]; rfl)
  · have hset := grip_setCall (by exact hc) (caller.after rest) j d
    rw [grip_after] at hset
    rw [grip, afterUnblock_calls] at hg
    have hg' := hset.symm.trans hg
    split at hg'
    · cases hg'
    · exact hg'

end

lemma Effect.earned {s t : State} {act : Act} (he : Effect s act t) (hkept : Kept s)
    (hcond : ExpiriesFindWaiters s act) (h : Earned s d) : Earned t d := by
  cases he with
  | quiet haside hgrip =>
    refine h.of_same (by rw [haside.left]) (by rw [haside.edges]) (by rw [haside.successes])
      (haside.slot ▸ id) haside.closing (fun hs => .inl ?_)
      fun j g hg herr => ⟨j, g, (hgrip j d).symm.trans hg, herr⟩
    exact settled_of_eq hs (by rw [haside.awaiter]) (by simp [haside.mem])
  | await dir a hidle hun =>
    refine h.of_same rfl rfl rfl id id (fun hs => .inl ?_) fun j g hg herr => ⟨j, g, hg, herr⟩
    by_cases hd : d = dir
    · subst hd
      simp at hs
    · refine settled_of_ne hs hd rfl fun b hb => ?_
      have hne := ne_of_unused hun hb
      simp [hne]
  | move dir a pc lock hbefore hpark hafter hparked' hsettled =>
    refine h.of_same rfl rfl rfl id id (fun hs => .inl ?_) fun j g hg herr => ⟨j, g, hg, herr⟩
    by_cases hd : d = dir
    · subst hd
      exact hsettled hs
    · exact settled_of_ne hs hd rfl fun b _ => rfl
  | leave dir a err hpc =>
    refine h.of_same rfl rfl rfl id id (fun hs => .inl ?_) fun j g hg herr => ⟨j, g, hg, herr⟩
    by_cases hd : d = dir
    · subst hd
      rw [settled_setAwaiter] at hs
      rw [settled, hpc]
      cases err with
      | none => trivial
      | some => simp at hs
    · refine settled_of_ne hs hd rfl fun b hb => ?_
      have hne : b ≠ a := hkept.addressed.ne d dir hb (hpc ▸ rfl) hd
      simp [hne]
  | publish dir =>
    refine h.of_same rfl rfl rfl (fun hready => ?_) id (fun hs => .inl ?_) fun j g hg herr => ⟨j, g, hg, herr⟩
    · by_cases hd : d = dir
      · subst hd
        simp at hready
      · simpa [hd] using hready
    · by_cases hd : d = dir
      · subst hd
        simp at hs
      · exact settled_of_ne hs hd rfl fun b _ => rfl
  | consume dir a hpc hslot => exact consume_earned hkept h hpc hslot
  | finish dir err a hpc hsettled => exact finish_earned hkept h hpc hsettled
  | record i spurious c caller dir rest hc hfree hslot => exact record_earned hkept h hcond hc hfree hslot
  | take i c caller dir rest a hc hfree hslot => exact take_earned hkept h hc hfree hslot
  | write i caller dir rest a hc => exact write_earned hkept h hc
  | dispatch i caller dir rest a hc => exact dispatch_earned hkept h hc

lemma slotSystem_earned (hs : slotSystem.ReachableVia ExpiriesFindWaiters s) (d : Dir) : Earned s d := by
  induction hs with
  | start hinit =>
    obtain ⟨node, fd, env, rfl⟩ := hinit
    refine ⟨⟨Pairwise.nil, ?_⟩, ?_, ?_, ?_, ?_⟩
    · exact nofun
    · exact nofun
    · exact nofun
    · exact fun hs => hs.elim
    · exact nofun
  | next hs hcond hst ih => exact (slotStep_effect hst).earned (slotSystem_kept hs) hcond ih

/-- **Every success has an edge of its own**, in every run in which no deadline expiry and no cancellation
finds the slot of its direction idle. -/
theorem successes_have_edges {s : State} (hs : slotSystem.ReachableVia ExpiriesFindWaiters s) (d : Dir) :
    EdgesEarned s d :=
  (slotSystem_earned hs d).earned

/-- A deadline in the past is set while a task waits, so it finds the task; the deadline is cleared, and the
next await succeeds with the edge that comes. -/
theorem successes_have_edges_expired : ∃ s, slotSystem.ReachableVia ExpiriesFindWaiters s ∧
    s.successes .read = [1] ∧ EdgesEarned s .read := by
  obtain ⟨s, hs, hp⟩ := slotSystem.reachableVia_of_run ExpiriesFindWaiters
    { desc := attachFields {} 3, env := ⟨5, false, fun _ => false⟩ }
    (.await .read 0 :: replicate 7 (.awaiter .read false) ++ [.unlockParked, .setDeadline .read 1] ++
      replicate 9 (.call 0 false) ++ [.awaiter .read false, .setDeadline .read 0] ++
      replicate 4 (.call 1 false) ++ .await .read 0 :: replicate 7 (.awaiter .read false) ++
      [.unlockParked, .edge true false] ++ replicate 5 (.call 2 false) ++
      replicate 5 (.awaiter .read false))
    (fun s => s.successes .read = [1]) ⟨{}, 3, _, rfl⟩ (by decide +kernel)
  exact ⟨s, hs, hp, successes_have_edges hs .read⟩

/-- A deadline in the past is set while nobody waits and then cleared: the next await succeeds without
any edge. -/
theorem success_without_edge : ¬ ∀ s, slotSystem.Reachable s → ∀ d, EdgesEarned s d := by
  intro hall
  obtain ⟨s, hs, hp⟩ := slotSystem.reachable_of_run
    { desc := attachFields {} 3, env := ⟨5, false, fun _ => false⟩ }
    (.setDeadline .read 1 :: replicate 7 (.call 0 false) ++ .setDeadline .read 0 ::
      replicate 4 (.call 1 false) ++ .await .read 0 :: replicate 13 (.awaiter .read false))
    (fun s => s.successes .read = [0]) ⟨{}, 3, _, rfl⟩ (by decide +kernel)
  have hzero := (hall s hs .read).pos 0 (hp ▸ mem_cons_self)
  exact absurd hzero (lt_irrefl 0)

end Cio.Reactor.Slot
