import Cio.SlotSweep

/-! The slot protocol holds. A published wait is in its slot, in the grip of exactly one call, or done; a
task that is admitted to a slot keeps `detach` from closing the descriptor until it has parked; and an
edge that finds no waiter stays recorded until an awaiter leaves with it. -/

namespace Cio.Reactor.Slot

open Function State List

/-! ### Waits belong to their tasks -/

/-- The `IoWait` of an awaiting task names that task. -/
def Addressed (s : State) : Prop := ∀ d a, (s.awaiter d).addr = some a → (s.mem a).handle = d

variable {s t : State} {d dir : Dir} {a : Addr} {i : Nat} {caller : Caller} {rest : List Dir} {act : Act}

lemma Addressed.setAwaiter (h : Addressed s) {pc : AwaitPc}
    (hpc : ∀ a, pc.addr = some a → (s.mem a).handle = dir) : Addressed (s.setAwaiter dir pc) := by
  intro d a ha
  by_cases hd : d = dir
  · subst hd
    rw [setAwaiter_awaiter, update_self] at ha
    exact hpc a ha
  · rw [setAwaiter_awaiter, update_of_ne hd] at ha
    exact h d a ha

lemma Addressed.of_same (h : Addressed s) (haw : t.awaiter = s.awaiter)
    (hmem : ∀ a, (t.mem a).handle = (s.mem a).handle) : Addressed t := by
  intro d a ha
  rw [hmem]
  rw [haw] at ha
  exact h d a ha

lemma Addressed.ne (h : Addressed s) (d d' : Dir) {b : Addr}
    (ha : (s.awaiter d).addr = some a) (hb : (s.awaiter d').addr = some b) (hd : d ≠ d') : a ≠ b := by
  rintro rfl
  exact hd ((h d a ha).symm.trans (h d' a hb))

lemma ne_of_unused {b : Addr} (ha : s.unused a) (hb : (s.awaiter d).addr = some b) : b ≠ a := by
  rintro rfl
  cases d <;> simp [unused, hb] at ha

lemma setErr_handle (s : State) (a b : Addr) (err : Option Error) :
    ((s.setErr a err).mem b).handle = (s.mem b).handle := by
  by_cases hb : b = a
  · subst hb
    rw [setErr_mem, update_self]
  · rw [setErr_mem, update_of_ne hb]

lemma Effect.addressed (he : Effect s act t) (h : Addressed s) : Addressed t := by
  cases he with
  | quiet haside => exact h.of_same haside.awaiter fun a => by rw [haside.mem]
  | await dir a hidle hun =>
    refine Addressed.setAwaiter (fun d b hb => ?_) fun b hb => ?_
    · have hne := ne_of_unused hun hb
      simpa [hne] using h d b hb
    · cases hb
      simp
  | move dir a pc lock hpre hpark hafter =>
    refine (h.of_same rfl fun a => rfl).setAwaiter fun b hb => ?_
    rw [hafter] at hb
    cases hb
    exact h dir a hpre
  | leave dir a err hpc =>
    have hset : Addressed { s.setErr a err with lock := none } := h.of_same rfl fun b => setErr_handle s a b err
    refine hset.setAwaiter fun b hb => ?_
    cases hb
    exact (setErr_handle s a a err).trans (h dir a (hpc ▸ rfl))
  | publish dir a hpc | consume dir a hpc =>
    exact h.setAwaiter fun b hb => by
      cases hb
      exact h dir a (hpc ▸ rfl)
  | finish =>
    unfold State.finish
    split
    all_goals exact h.setAwaiter fun b hb => by cases hb
  | record i spurious c caller dir rest =>
    have haside := afterUnblock_aside ((s.setSlot dir .ready).countEdge caller dir) i caller rest
    exact h.of_same haside.awaiter fun a => by rw [haside.mem]; rfl
  | take => exact h.of_same rfl fun b => rfl
  | write i caller dir rest a => exact h.of_same rfl fun b => setErr_handle s a b _
  | dispatch i caller dir rest a =>
    have haside := afterUnblock_aside (s.dispatch a) i caller rest
    refine Addressed.of_same ?_ haside.awaiter fun b => by rw [haside.mem]
    exact (h.of_same rfl fun b => rfl).setAwaiter fun b hb => by cases hb; rfl

/-! ### Where a published wait is -/

/-- The station of a direction's newest wait: nobody is parked, the wait is in the slot, or one call
has it in its grip. -/
inductive Station (s : State) (d : Dir) : Prop where
  | away (hpc : ∀ a, s.awaiter d ≠ .parked a) (hslot : ∀ a, s.desc.slot d ≠ .waiter a)
      (hgrip : ∀ j, s.grip j d = none) (hlives : ∀ life ∈ s.lives d, life = wholeLife)
  | waiting (a : Addr) (prior : List (List WaitEvent)) (hpc : s.awaiter d = .parked a)
      (hslot : s.desc.slot d = .waiter a) (hgrip : ∀ j, s.grip j d = none)
      (hlives : s.lives d = [.published] :: prior) (hprior : ∀ life ∈ prior, life = wholeLife)
  | held (g : Grip) (i : Nat) (prior : List (List WaitEvent)) (hpc : s.awaiter d = .parked g.addr)
      (hslot : ∀ a, s.desc.slot d ≠ .waiter a) (hgrip : s.grip i d = some g)
      (hothers : ∀ j, j ≠ i → s.grip j d = none)
      (herr : g.written = true → (s.mem g.addr).err = g.err)
      (hlives : s.lives d =
        (if g.written then [.published, .taken, .written] else [.published, .taken]) :: prior)
      (hprior : ∀ life ∈ prior, life = wholeLife)

lemma Station.frame (h : Station s d) (hpc : ∀ a, t.awaiter d = .parked a ↔ s.awaiter d = .parked a)
    (hslot : ∀ a, t.desc.slot d = .waiter a ↔ s.desc.slot d = .waiter a) (hgrip : ∀ j, t.grip j d = s.grip j d)
    (hmem : ∀ a, s.awaiter d = .parked a → (t.mem a).err = (s.mem a).err)
    (hlives : t.lives d = s.lives d) : Station t d := by
  cases h with
  | away hpc' hslot' hgrip' hlives' =>
    refine .away (fun a ha => hpc' a ((hpc a).mp ha)) (fun a ha => hslot' a ((hslot a).mp ha))
      (fun j => (hgrip j).trans (hgrip' j)) ?_
    rw [hlives]
    exact hlives'
  | waiting a prior hpc' hslot' hgrip' hlives' hprior =>
    exact .waiting a prior ((hpc a).mpr hpc') ((hslot a).mpr hslot')
      (fun j => (hgrip j).trans (hgrip' j)) (hlives.trans hlives') hprior
  | held g i prior hpc' hslot' hgrip' hoth herr hlives' hprior =>
    exact .held g i prior ((hpc g.addr).mpr hpc') (fun a ha => hslot' a ((hslot a).mp ha))
      ((hgrip i).trans hgrip') (fun j hj => (hgrip j).trans (hoth j hj))
      (fun hw => (hmem g.addr hpc').trans (herr hw)) (hlives.trans hlives') hprior

lemma Station.of_setAwaiter {pc : AwaitPc} (h : Station s d) (hpc : ∀ a, s.awaiter dir ≠ .parked a)
    (hpc' : ∀ a, pc ≠ .parked a) (haw : t.awaiter = update s.awaiter dir pc) (hslot : t.desc.slot = s.desc.slot)
    (hcalls : t.calls = s.calls) (hmem : ∀ a, s.awaiter d = .parked a → (t.mem a).err = (s.mem a).err)
    (hlives : t.lives = s.lives) : Station t d := by
  refine h.frame (fun a => ?_) (fun a => by rw [hslot]) (fun j => by rw [grip, hcalls, grip])
    hmem (by rw [hlives])
  rw [haw]
  by_cases hd : d = dir
  · subst hd
    rw [update_self]
    exact ⟨fun ha => absurd ha (hpc' a), fun ha => absurd ha (hpc a)⟩
  · rw [update_of_ne hd]

lemma Station.eq_waiting (h : Station s d) (hslot : s.desc.slot d = .waiter a) :
    s.awaiter d = .parked a ∧ (∀ j, s.grip j d = none) ∧
      ∃ prior, s.lives d = [.published] :: prior ∧ ∀ life ∈ prior, life = wholeLife := by
  cases h with
  | away hpc' hslot' | held g i prior hpc' hslot' => exact absurd hslot (hslot' a)
  | waiting a' prior hpc' hslot' hgrip' hlives' hprior =>
    rw [hslot] at hslot'
    cases hslot'
    exact ⟨hpc', hgrip', prior, hlives', hprior⟩

lemma Station.eq_held (h : Station s d) {g : Grip} (hgrip : s.grip i d = some g) :
    s.awaiter d = .parked g.addr ∧ (∀ a, s.desc.slot d ≠ .waiter a) ∧
      (∀ j, j ≠ i → s.grip j d = none) ∧ (g.written → (s.mem g.addr).err = g.err) ∧
      ∃ prior, s.lives d =
        (if g.written then [.published, .taken, .written] else [.published, .taken]) :: prior ∧
        ∀ life ∈ prior, life = wholeLife := by
  cases h with
  | away hpc' hslot' hgrip' | waiting a' prior hpc' hslot' hgrip' =>
    rw [hgrip' i] at hgrip
    cases hgrip
  | held g' i' prior hpc' hslot' hgrip' hoth herr hlives' hprior =>
    have hi : i = i' := by
      by_contra hne
      rw [hoth i hne] at hgrip
      cases hgrip
    subst hi
    rw [hgrip] at hgrip'
    cases hgrip'
    exact ⟨hpc', hslot', hoth, herr, prior, hlives', hprior⟩

lemma Station.eq_away (h : Station s d) (hpc : ∀ a, s.awaiter d ≠ .parked a) :
    (∀ a, s.desc.slot d ≠ .waiter a) ∧ (∀ j, s.grip j d = none) ∧
      ∀ life ∈ s.lives d, life = wholeLife := by
  cases h with
  | away hpc' hslot' hgrip' hlives' => exact ⟨hslot', hgrip', hlives'⟩
  | waiting a' prior hpc' => exact absurd hpc' (hpc a')
  | held g i prior hpc' => exact absurd hpc' (hpc g.addr)

lemma grip_unblock_of_ne (hd : d ≠ dir) (caller : Caller) (rest : List Dir)
    (pc : UnblockPc) : (Call.unblock caller dir rest pc).grip d = none := by
  cases pc <;> simp [Call.grip, Ne.symm hd]

lemma grip_setCall_of_ne {c : Call} {pc : UnblockPc} (hc : s.calls[i]? = some c) (hcd : c.grip d = none)
    (hd : d ≠ dir) (j : Nat) : (s.setCall i (.unblock caller dir rest pc)).grip j d = s.grip j d := by
  rw [grip_setCall hc, grip_unblock_of_ne hd]
  split
  · rename_i hj
    rw [hj, grip_of_getElem hc, hcd]
  · rfl

attribute [local simp] setAwaiter setErr publish consume leaveSlot setSlot
  State.take State.setCall State.log State.countEdge State.dispatch

lemma publish_station (h : ∀ d, Station s d)
    (hpc : s.awaiter dir = .publish a) (d : Dir) : Station (s.publish dir a) d := by
  by_cases hd : d = dir
  · subst hd
    obtain ⟨_, hgrip, hlives⟩ := (h d).eq_away (by simp [hpc])
    exact .waiting a (s.lives d) (by simp) (by simp) hgrip (by simp) hlives
  · exact (h d).frame (fun b => by simp [hd]) (fun b => by simp [hd]) (fun j => rfl) (fun b _ => rfl) (by simp [hd])

lemma consume_station (h : ∀ d, Station s d)
    (hpc : s.awaiter dir = .consume a) (d : Dir) : Station (s.consume dir a) d := by
  by_cases hd : d = dir
  · subst hd
    obtain ⟨_, hgrip, hlives⟩ := (h d).eq_away (by simp [hpc])
    exact .away (by simp) (by simp) hgrip hlives
  · exact (h d).frame (fun b => by simp [hd]) (fun b => by simp [hd]) (fun j => rfl) (fun b _ => rfl) rfl

lemma take_station {c : Call} (haddr : Addressed s) (h : ∀ d, Station s d) (hc : s.calls[i]? = some c)
    (hfree : ∀ d, c.grip d = none) (hslot : s.desc.slot dir = .waiter a) (d : Dir) :
    Station (s.take i caller dir rest a) d := by
  obtain ⟨hpc, hgrip, prior, hlives, hprior⟩ := (h dir).eq_waiting hslot
  have hhand : (s.mem a).handle = dir := haddr dir a (hpc ▸ rfl)
  by_cases hd : d = dir
  · subst hd
    have hgrip' : ∀ j, (s.take i caller d rest a).grip j d =
        if j = i then some ⟨a, false, caller.err⟩ else s.grip j d := by
      intro j
      refine (grip_setCall (by exact hc) _ j d).trans ?_
      simp only [Call.grip, if_pos]
      rfl
    refine .held ⟨a, false, caller.err⟩ i prior hpc ?_ ((hgrip' i).trans (if_pos rfl))
      (fun j hj => (hgrip' j).trans ((if_neg hj).trans (hgrip j))) (by simp) ?_ hprior
    · intro b hb
      simp at hb
    · simp [hhand, hlives, record]
  · refine (h d).frame (fun b => Iff.rfl) (fun b => ?_) (fun j => ?_) (fun b _ => rfl) ?_
    · simp [hd]
    · exact (grip_setCall_of_ne (by exact hc) (hfree d) hd j).trans rfl
    · simp [hhand, hd]

lemma write_station (haddr : Addressed s) (h : ∀ d, Station s d)
    (hc : s.calls[i]? = some (.unblock caller dir rest (.write a))) (d : Dir) :
    Station (((s.setErr a caller.err).log (s.mem a).handle .written).setCall i
      (.unblock caller dir rest (.dispatch a))) d := by
  have hgrip : s.grip i dir = some ⟨a, false, caller.err⟩ := by
    rw [grip_of_getElem hc]
    simp only [Call.grip, if_pos]
  obtain ⟨hpc, hslot, hoth, _, prior, hlives, hprior⟩ := (h dir).eq_held hgrip
  have hhand : (s.mem a).handle = dir := haddr dir a (hpc ▸ rfl)
  by_cases hd : d = dir
  · subst hd
    have hgrip' : ∀ j, (((s.setErr a caller.err).log (s.mem a).handle .written).setCall i
        (.unblock caller d rest (.dispatch a))).grip j d =
        if j = i then some ⟨a, true, caller.err⟩ else s.grip j d := by
      intro j
      refine (grip_setCall (by exact hc) _ j d).trans ?_
      simp only [Call.grip, if_pos]
      rfl
    refine .held ⟨a, true, caller.err⟩ i prior hpc hslot ((hgrip' i).trans (if_pos rfl))
      (fun j hj => (hgrip' j).trans ((if_neg hj).trans (hoth j hj))) (fun _ => ?_) ?_ hprior
    · simp
    · simp [hhand, hlives, record]
  · refine (h d).frame (fun b => Iff.rfl) (fun b => Iff.rfl) (fun j => ?_) (fun b hb => ?_) ?_
    · exact (grip_setCall_of_ne (by exact hc) (grip_unblock_of_ne hd caller rest _) hd j).trans rfl
    · have hne : b ≠ a := haddr.ne d dir (hb ▸ rfl) (hpc ▸ rfl) hd
      simp [hne]
    · simp [hhand, hd]

lemma dispatch_station (haddr : Addressed s) (h : ∀ d, Station s d)
    (hc : s.calls[i]? = some (.unblock caller dir rest (.dispatch a))) (d : Dir) :
    Station ((s.dispatch a).afterUnblock i caller rest) d := by
  have hgrip : s.grip i dir = some ⟨a, true, caller.err⟩ := by
    rw [grip_of_getElem hc]
    simp only [Call.grip, if_pos]
  obtain ⟨hpc, hslot, hoth, _, prior, hlives, hprior⟩ := (h dir).eq_held hgrip
  have hhand : (s.mem a).handle = dir := haddr dir a (hpc ▸ rfl)
  have haside := afterUnblock_aside (s.dispatch a) i caller rest
  have hgrip' : ∀ j d, ((s.dispatch a).afterUnblock i caller rest).grip j d =
      if j = i then none else s.grip j d := by
    intro j d
    have hset := grip_setCall (by exact hc) (caller.after rest) j d
    rw [grip_after] at hset
    rw [grip, afterUnblock_calls]
    exact hset
  by_cases hd : d = dir
  · subst hd
    refine .away (fun b hb => ?_) (fun b hb => ?_) (fun j => ?_) fun life hlife => ?_
    · rw [haside.awaiter] at hb
      simp [hhand] at hb
    · rw [haside.slot] at hb
      exact hslot b hb
    · rw [hgrip']
      split
      · rfl
      · rename_i hj
        exact hoth j hj
    · rw [haside.lives] at hlife
      simp only [dispatch, setAwaiter, log, hhand, update_self, hlives, record, if_pos, mem_cons] at hlife
      rcases hlife with rfl | hlife
      · rfl
      · exact hprior life hlife
  · refine (h d).frame (fun b => ?_) (fun b => ?_) (fun j => ?_) (fun b _ => ?_) ?_
    · rw [haside.awaiter]
      simp [hhand, hd]
    · rw [haside.slot]
      rfl
    · rw [hgrip']
      split
      · rename_i hj
        rw [hj, State.grip_of_getElem hc, grip_unblock_of_ne hd]
      · rfl
    · rw [haside.mem]
      rfl
    · rw [haside.lives]
      simp [hhand, hd]

lemma Effect.station (he : Effect s act t) (haddr : Addressed s) (h : ∀ d, Station s d) (d : Dir) : Station t d := by
  cases he with
  | quiet haside hgrip =>
    exact (h d).frame (fun a => by rw [haside.awaiter]) (fun a => by rw [haside.slot])
      (fun j => hgrip j d) (fun a _ => by rw [haside.mem]) (by rw [haside.lives])
  | await dir a hidle hun =>
    refine (h d).of_setAwaiter (by simp [hidle]) (by simp) rfl rfl rfl (fun b hb => ?_) rfl
    have hne : b ≠ a := ne_of_unused hun (by rw [hb]; rfl)
    simp [hne]
  | move dir a pc lock hpre hpark hafter hparked' =>
    refine (h d).of_setAwaiter (fun b hb => ?_) (fun b hb => ?_) rfl rfl rfl (fun b _ => rfl) rfl
    · rw [hb] at hpre
      cases hpre
      exact hpark hb
    · rw [hb] at hafter
      cases hafter
      exact hparked' hb
  | leave dir a err hpc =>
    refine (h d).of_setAwaiter (by simp [hpc]) (by simp) rfl rfl rfl (fun b hb => ?_) rfl
    have hd : d ≠ dir := by
      rintro rfl
      rw [hpc] at hb
      cases hb
    have hne : b ≠ a := haddr.ne d dir (hb ▸ rfl) (hpc ▸ rfl) hd
    simp [hne]
  | publish dir a hpc => exact publish_station h hpc d
  | consume dir a hpc => exact consume_station h hpc d
  | finish dir err a hpc =>
    have hnot : ∀ b, s.awaiter dir ≠ .parked b := by
      rcases hpc with hpc | ⟨stage, hpc⟩ <;> simp [hpc]
    unfold State.finish
    split
    all_goals exact (h d).of_setAwaiter hnot (by simp) rfl rfl rfl (fun b _ => rfl) rfl
  | record i spurious c caller dir rest hc hfree hslot =>
    have haside := afterUnblock_aside ((s.setSlot dir .ready).countEdge caller dir) i caller rest
    refine (h d).frame (fun b => by rw [haside.awaiter]; rfl) (fun b => ?_)
      (fun j => grip_afterUnblock hc hfree (by rfl) caller rest j d) (fun b _ => by rw [haside.mem]; rfl)
      (haside.lives ▸ rfl)
    rw [haside.slot]
    by_cases hd : d = dir
    · subst hd
      rcases hslot with hslot | ⟨hslot, _⟩ <;> simp [hslot]
    · simp [hd]
  | take i c caller dir rest a hc hfree hslot => exact take_station haddr h hc hfree hslot d
  | write i caller dir rest a hc => exact write_station haddr h hc d
  | dispatch i caller dir rest a hc => exact dispatch_station haddr h hc d

/-! ### Edges are recorded or delivered -/

/-- Unless an edge is recorded, no edge came after the last awaiter left. -/
structure Counted (s : State) (d : Dir) : Prop where
  left_le : s.left d ≤ s.edges d
  served : s.desc.slot d ≠ .ready → s.edges d ≤ s.left d

lemma Counted.of_same (h : Counted s d) (hleft : t.left d = s.left d) (hedges : t.edges d = s.edges d)
    (hslot : t.desc.slot d ≠ .ready → s.desc.slot d ≠ .ready) : Counted t d := by
  refine ⟨?_, fun ht => ?_⟩
  · rw [hleft, hedges]
    exact h.left_le
  · rw [hleft, hedges]
    exact h.served (hslot ht)

lemma Effect.counted (he : Effect s act t) (h : Counted s d) : Counted t d := by
  cases he with
  | quiet haside => exact h.of_same (by rw [haside.left]) (by rw [haside.edges]) (haside.slot ▸ id)
  | await | move | leave | write => exact h.of_same rfl rfl id
  | publish dir a hpc hslot =>
    refine h.of_same rfl rfl fun ht => ?_
    by_cases hd : d = dir
    · subst hd
      simp [hslot]
    · simpa [hd] using ht
  | consume dir =>
    by_cases hd : d = dir
    · subst hd
      refine ⟨?_, fun _ => ?_⟩ <;> simp
    · refine h.of_same ?_ rfl fun ht => ?_
      · simp [hd]
      · simpa [hd] using ht
  | finish =>
    unfold State.finish
    split <;> exact h.of_same rfl rfl id
  | record i spurious c caller dir rest =>
    have haside := afterUnblock_aside ((s.setSlot dir .ready).countEdge caller dir) i caller rest
    by_cases hd : d = dir
    · subst hd
      refine ⟨?_, fun ht => absurd ?_ ht⟩
      · rw [haside.left, haside.edges]
        simp only [countEdge, setSlot, update_self]
        have hle := h.left_le
        omega
      · rw [haside.slot]
        simp
    · refine h.of_same (haside.left ▸ rfl) ?_ ?_
      · rw [haside.edges]
        simp [hd]
      · rw [haside.slot]
        simp [hd]
  | take i c caller dir =>
    by_cases hd : d = dir
    · subst hd
      refine ⟨?_, fun _ => ?_⟩ <;>
        simp
    · refine h.of_same ?_ ?_ fun ht => ?_
      · simp [hd]
      · simp [hd]
      · simpa [hd] using ht
  | dispatch i caller dir rest a =>
    have haside := afterUnblock_aside (s.dispatch a) i caller rest
    exact h.of_same (haside.left ▸ rfl) (haside.edges ▸ rfl) (haside.slot ▸ id)

/-! ### The protocol -/

structure Kept (s : State) : Prop where
  addressed : Addressed s
  station : ∀ d, Station s d
  locked : Locked s
  swept : Swept s
  counted : ∀ d, Counted s d

lemma slotSystem_kept {C : State → Act → Prop} (hs : slotSystem.ReachableVia C s) : Kept s := by
  refine hs.invariant ?_ ?_
  · rintro s ⟨d, fd, env, rfl⟩
    refine ⟨nofun, fun d => ?_, ⟨fun p hp => ?_, nofun⟩, ⟨nofun, nofun⟩, fun d => ⟨le_rfl, fun _ => le_rfl⟩⟩
    · exact .away nofun nofun (fun j => rfl) nofun
    · cases p with
      | awaiter => cases hp
      | suspender => exact hp.elim
      | call =>
        obtain ⟨c, hc, _⟩ := hp
        cases hc
  · intro s act t h _ hst
    have heff := slotStep_effect hst
    exact ⟨heff.addressed h.addressed, heff.station h.addressed h.station,
      slotStep_locked h.locked hst, slotStep_swept h.locked h.swept hst,
      fun d => heff.counted (h.counted d)⟩

def State.detached (s : State) : Prop := .returned .detach ∈ s.calls

/-- The slot protocol. Each published wait goes through its life in order; until that life is whole the wait
is in the slot of its parked task, or in the grip of exactly one call, which is never blocked and has
written its result before it dispatches the task. A task is in a slot only if no edge came after the last
awaiter left, and after `detach` no task is in a slot and nothing is left undone once the calls return. -/
structure SlotSafe (s : State) : Prop where
  ordered : ∀ d, ∀ life ∈ s.lives d, life <+: wholeLife
  earlier : ∀ d, ∀ life ∈ (s.lives d).tail, life = wholeLife
  placed : ∀ d, ∀ life ∈ s.lives d, life = wholeLife ∨
    (∃ a, life = [.published] ∧ s.desc.slot d = .waiter a ∧ s.awaiter d = .parked a) ∨
    ∃ i g, s.grip i d = some g ∧ s.awaiter d = .parked g.addr ∧
      life = if g.written then [.published, .taken, .written] else [.published, .taken]
  alone : ∀ d i j g g', s.grip i d = some g → s.grip j d = some g' → i = j
  exclusive : ∀ d i g a, s.grip i d = some g → s.desc.slot d ≠ .waiter a
  result : ∀ d i g, s.grip i d = some g → g.written = true → (s.mem g.addr).err = g.err
  progress : ∀ d i g spurious, s.grip i d = some g → (slotStep s (.call i spurious)).isSome
  served : ∀ d a, s.desc.slot d = .waiter a → s.edges d = s.left d
  closed : s.detached → ∀ d a, s.desc.slot d ≠ .waiter a
  settled : s.detached → (∀ c ∈ s.calls, ∃ caller, c = .returned caller) →
    ∀ d, ∀ life ∈ s.lives d, life = wholeLife

lemma isSome_of_grip {g : Grip} (h : s.grip i d = some g)
    (spurious : Bool) : (slotStep s (.call i spurious)).isSome := by
  obtain ⟨c, hc, hg⟩ := Option.bind_eq_some_iff.mp h
  rw [slotStep, hc]
  cases c with
  | unblock => rfl
  | enter | disarm | store | commit
  | teardown | unlock | returned => cases hg

lemma Kept.placed (h : Kept s) (d : Dir) {life : List WaitEvent} (hlife : life ∈ s.lives d) : life = wholeLife ∨
      (∃ a, life = [.published] ∧ s.desc.slot d = .waiter a ∧ s.awaiter d = .parked a) ∨
      ∃ i g, s.grip i d = some g ∧ s.awaiter d = .parked g.addr ∧
        life = if g.written then [.published, .taken, .written] else [.published, .taken] := by
  cases h.station d with
  | away hpc hslot hgrip hlives => exact .inl (hlives life hlife)
  | waiting a prior hpc hslot hgrip hlives hprior =>
    rw [hlives, mem_cons] at hlife
    rcases hlife with rfl | hold
    · exact .inr (.inl ⟨a, rfl, hslot, hpc⟩)
    · exact .inl (hprior life hold)
  | held g i prior hpc hslot hgrip hoth herr hlives hprior =>
    rw [hlives, mem_cons] at hlife
    rcases hlife with rfl | hold
    · exact .inr (.inr ⟨i, g, hgrip, hpc, rfl⟩)
    · exact .inl (hprior life hold)

lemma Kept.earlier (h : Kept s) (d : Dir) {life : List WaitEvent}
    (hlife : life ∈ (s.lives d).tail) : life = wholeLife := by
  cases h.station d with
  | away hpc hslot hgrip hlives => exact hlives life (mem_of_mem_tail hlife)
  | waiting a prior hpc hslot hgrip hlives hprior | held g i prior hpc hslot hgrip hoth herr hlives hprior =>
    rw [hlives] at hlife
    exact hprior life hlife

/-- **The readiness slot protocol**, for every interleaving on one descriptor incarnation. -/
theorem slot_protocol {s : State} (hs : slotSystem.Reachable s) : SlotSafe s := by
  have h := slotSystem_kept hs
  have hshut : s.detached → ∀ d a, s.desc.slot d ≠ .waiter a :=
    fun hdetached d a => h.swept.empty _ hdetached d rfl a
  refine ⟨fun d life hlife => ?_, fun d life hlife => h.earlier d hlife, fun d life hlife => h.placed d hlife,
    fun d i j g g' hi hj => ?_, fun d i g a hi => ?_, fun d i g hi => ?_, fun d i g spurious hi => ?_,
    fun d a ha => ?_, hshut, fun hdetached hcalls d life hlife => ?_⟩
  · rcases h.placed d hlife with rfl | ⟨a, rfl, _⟩ | ⟨i, g, _, _, rfl⟩
    · exact List.prefix_rfl
    · decide
    · cases g.written <;> decide
  · by_contra hne
    obtain ⟨_, _, hoth, _⟩ := (h.station d).eq_held hj
    rw [hoth i hne] at hi
    cases hi
  · exact ((h.station d).eq_held hi).2.1 a
  · exact ((h.station d).eq_held hi).2.2.2.1
  · exact isSome_of_grip hi spurious
  · exact le_antisymm ((h.counted d).served (by simp [ha])) (h.counted d).left_le
  · rcases h.placed d hlife with rfl | ⟨a, _, ha, _⟩ | ⟨i, g, hgrip, _⟩
    · rfl
    · exact absurd ha (hshut hdetached d a)
    · obtain ⟨c, hc, hg⟩ := Option.bind_eq_some_iff.mp hgrip
      obtain ⟨caller, rfl⟩ := hcalls c (mem_of_getElem? hc)
      cases hg

theorem slot_protocol_edge : ∃ s, slotSystem.Reachable s ∧ s.lives .read = [wholeLife] ∧ SlotSafe s := by
  obtain ⟨s, hs, hp⟩ := slotSystem.reachable_of_run
    { desc := IoDesc.attachFields {} 3, env := ⟨0, false, fun _ => false⟩ }
    [.await .read 0, .awaiter .read false, .awaiter .read false, .awaiter .read false,
      .awaiter .read false, .awaiter .read false, .awaiter .read false, .awaiter .read false,
      .unlockParked, .edge true false, .call 0 false, .call 0 false, .call 0 false, .call 0 false,
      .call 0 false]
    (fun s => s.lives .read = [wholeLife]) ⟨{}, 3, _, rfl⟩ (by decide +kernel)
  exact ⟨s, hs, hp, slot_protocol hs⟩

end Cio.Reactor.Slot
