import Cio.SlabBalance

/-! The slab is safe. A pinned node is not recycled, so a token that passes the check after its pin belongs
to the incarnation it modifies; an incarnation that is found open after the generation matched still has its
owner's reference. -/

namespace Cio.Reactor.Slab

open CallPool WrapCounter Function List Party OwnerPc IoDesc

/-! ### Tokens -/

def OwnerPc.published : OwnerPc → Bool
  | .attached | .detaching _ | .gone => true
  | .vacant | .allocated | .opened | .failed => false

/-- The owner has published `closing` or, once the node was recycled and until it is attached again,
`free_desc` has. -/
def Node.shut (node : Node) : Bool :=
  match node.owner with
  | .detaching _ | .gone => true
  | .vacant | .allocated => decide (0 < node.inc)
  | .opened | .failed | .attached => false

def Party.token? : Party → Option Token
  | .check tok _ | .load tok _ | .cas tok _ _ | .recheck tok _ | .recheckClosing tok _ | .unblock tok _
  | .acquire tok _ => some tok
  | .holds _ | .release _ | .free _ | .push _ | .returned => none

/-- The token of a `dispatch` that has pinned its node and found the generation right. -/
def Party.pinned : Party → Option Token
  | .recheckClosing tok _ | .unblock tok _ => some tok
  | _ => none

structure Token.Known (s : State) (tok : Token) : Prop where
  generation : tok.generation = word tok.inc
  le : tok.inc ≤ (s.nodes tok.node).inc
  published : tok.inc = (s.nodes tok.node).inc → (s.nodes tok.node).owner.published = true

/-- Generations count incarnations, and a pinned node keeps its own. -/
structure Tracked (s : State) : Prop where
  generation : ∀ n, (s.nodes n).desc.generation = word (s.nodes n).inc
  closing : ∀ n, (s.nodes n).shut = true → (s.nodes n).desc.closing = true
  token : ∀ p ∈ s.parties, ∀ tok ∈ p.token?, tok.Known s
  pinned : ∀ p ∈ s.parties, ∀ tok ∈ p.pinned, (s.nodes tok.node).inc = tok.inc
  loaded : ∀ p ∈ s.parties, ∀ tok dirs refs, p = .cas tok dirs refs → 0 < refs

variable {s t : State} {q p : Party} {i m n : Nat} {tok : Token} {refuse : Bool}

lemma Tracked.inc_eq (h : Tracked s) (hknown : tok.Known s) (hfresh : (s.nodes tok.node).inc < tok.inc + 2 ^ 32)
    (hgen : (s.nodes tok.node).desc.generation = tok.generation) : (s.nodes tok.node).inc = tok.inc := by
  rw [h.generation, hknown.generation] at hgen
  have hle := hknown.le
  exact eq_of_word_eq hle (by omega) hgen

structure SameIncarnations (s t : State) : Prop where
  inc : ∀ n, (t.nodes n).inc = (s.nodes n).inc
  generation : ∀ n, (t.nodes n).desc.generation = (s.nodes n).desc.generation
  published : ∀ n, (s.nodes n).owner.published = true → (t.nodes n).owner.published = true
  closing : ∀ n, (t.nodes n).shut = true → (t.nodes n).desc.closing = true

lemma SameIncarnations.known (h : SameIncarnations s t) (hk : tok.Known s) : tok.Known t := by
  refine ⟨hk.generation, ?_, fun heq => ?_⟩
  · rw [h.inc]
    exact hk.le
  · rw [h.inc] at heq
    exact h.published _ (hk.published heq)

lemma Tracked.of_same (h : Tracked s) (hsame : SameIncarnations s t) (hps : ∀ p ∈ t.parties, p ∈ s.parties ∨ p = q)
    (htoken : ∀ tok ∈ q.token?, tok.Known s) (hpin : ∀ tok ∈ q.pinned, (s.nodes tok.node).inc = tok.inc)
    (hload : ∀ tok dirs refs, q = .cas tok dirs refs → 0 < refs) : Tracked t := by
  refine ⟨fun n => ?_, hsame.closing, fun p hp tok htok => hsame.known ?_, fun p hp tok htok => ?_, fun p hp => ?_⟩
  · rw [hsame.generation, hsame.inc]
    exact h.generation n
  · rcases hps p hp with hold | rfl
    · exact h.token p hold tok htok
    · exact htoken tok htok
  · rw [hsame.inc]
    rcases hps p hp with hold | rfl
    · exact h.pinned p hold tok htok
    · exact hpin tok htok
  · rcases hps p hp with hold | rfl
    · exact h.loaded p hold
    · exact hload

lemma Tracked.same (h : Tracked s) (hnodes : t.nodes = s.nodes) : SameIncarnations s t := by
  refine ⟨fun n => ?_, fun n => ?_, fun n => ?_, fun n => ?_⟩ <;> rw [hnodes]
  · exact id
  · exact h.closing n

lemma Tracked.update (h : Tracked s) (node : Node) (hnodes : t.nodes = update s.nodes m node)
    (hinc : node.inc = (s.nodes m).inc) (hgen : node.desc.generation = (s.nodes m).desc.generation)
    (hpub : (s.nodes m).owner.published → node.owner.published) (hend : node.shut → node.desc.closing) :
    SameIncarnations s t := by
  refine ⟨fun n => ?_, fun n => ?_, fun n => ?_, fun n => ?_⟩ <;> rw [hnodes] <;> by_cases hn : n = m
  · subst hn
    rw [update_self, hinc]
  · rw [update_of_ne hn]
  · subst hn
    rw [update_self, hgen]
  · rw [update_of_ne hn]
  · subst hn
    rw [update_self]
    exact hpub
  · rw [update_of_ne hn]
    exact id
  · subst hn
    rw [update_self]
    exact hend
  · rw [update_of_ne hn]
    exact h.closing n

lemma mem_setParty (hps : t.parties = s.parties.set i q) : ∀ p ∈ t.parties, p ∈ s.parties ∨ p = q := by
  intro p hp
  rw [hps] at hp
  exact mem_or_eq_of_mem_set hp

lemma mem_start (hps : t.parties = s.parties ++ [q]) : ∀ p ∈ t.parties, p ∈ s.parties ∨ p = q := by
  intro p hp
  rw [hps, mem_append, mem_singleton] at hp
  exact hp

lemma acquired_generation (d : IoDesc Nat Unit) (i : Nat) (dir : Option Dir) :
    (State.acquired d i dir).generation = d.generation ∧ (State.acquired d i dir).closing = d.closing := by
  cases dir with
  | none => exact ⟨rfl, rfl⟩
  | some =>
    rw [State.acquired, suspendSlot]
    split <;> exact ⟨rfl, rfl⟩

attribute [local simp] published State.setParty State.setNode State.unbuilt spare

lemma free_tracked (hbal : ∀ n, Balanced s n) (h : Tracked s) (hp : s.parties[i]? = some (.free m))
    (hs : s.partyStep i refuse (.free m) = some t) : Tracked t := by
  have hmem := mem_of_getElem? hp
  have hfree : (free m).freeOn m = 1 := if_pos rfl
  have hle := le_weight (freeOn m) hmem
  obtain ⟨hgone, hidle⟩ := (hbal m).gone_of_free (by omega)
  rw [State.partyStep, Option.some.injEq] at hs
  have hps : ∀ p ∈ t.parties, p ∈ s.parties ∨ p = .push m := mem_setParty (by rw [← hs]; rfl)
  have hself : t.nodes m = { s.nodes m with
      desc := (s.nodes m).desc.freeFields, owner := .vacant, inc := (s.nodes m).inc + 1 } := by
    rw [← hs]
    simp [hgone]
  have hother : ∀ n, n ≠ m → t.nodes n = s.nodes n := fun n hn => by
    rw [← hs]
    exact setNode_of_ne s hn _
  refine ⟨fun n => ?_, fun n => ?_, fun p hp tok htok => ?_, fun p hp tok htok => ?_, fun p hp => ?_⟩
  · by_cases hn : n = m
    · subst hn
      rw [hself]
      have hword := word_add (s.nodes n).inc 1
      rw [← h.generation] at hword
      exact hword
    · rw [hother n hn]
      exact h.generation n
  · by_cases hn : n = m
    · subst hn
      rw [hself]
      exact fun _ => rfl
    · rw [hother n hn]
      exact h.closing n
  · rcases hps p hp with hold | rfl
    · have hknown := h.token p hold tok htok
      have hinc := hknown.le
      by_cases hn : tok.node = m
      · refine ⟨hknown.generation, ?_, fun heq => ?_⟩
        · rw [hn, hself]
          rw [hn] at hinc
          exact Nat.le_succ_of_le hinc
        · rw [hn, hself] at heq
          rw [hn] at hinc
          exact absurd heq (Nat.ne_of_lt (Nat.lt_succ_of_le hinc))
      · refine ⟨hknown.generation, ?_, fun heq => ?_⟩
        · rw [hother _ hn]
          exact hinc
        · rw [hother _ hn] at heq ⊢
          exact hknown.published heq
    · cases htok
  · rcases hps p hp with hold | rfl
    · by_cases hn : tok.node = m
      · -- The pin is a reference, and a node that is recycled has none.
        have href := le_weight (refOn m) hold
        have hone : p.refOn m = 1 := by
          cases p <;> simp_all [pinned, refOn]
        have hrefs := (hbal m).refs
        omega
      · rw [hother _ hn]
        exact h.pinned p hold tok htok
    · cases htok
  · rcases hps p hp with hold | rfl
    · exact h.loaded p hold
    · exact fun tok dirs refs hcas => (by cases hcas)

lemma partyStep_tracked (hbal : ∀ n, Balanced s n) (h : Tracked s) (hp : s.parties[i]? = some p)
    (hfresh : ∀ tok ∈ p.dispatched, (s.nodes tok.node).inc < tok.inc + 2 ^ 32)
    (hs : s.partyStep i refuse p = some t) : Tracked t := by
  have hmem := mem_of_getElem? hp
  have htoken := h.token p hmem
  have hpin := h.pinned p hmem
  have hret : Tracked (s.setParty i .returned) :=
    h.of_same (h.same rfl) (mem_setParty rfl) (by simp [token?]) (by simp [pinned]) (by simp)
  have hrel : ∀ n, Tracked (s.setParty i (.release n)) := fun n =>
    h.of_same (h.same rfl) (mem_setParty rfl) (by simp [token?]) (by simp [pinned]) (by simp)
  cases p with
  | check =>
    cases hs
    split
    · exact h.of_same (h.same rfl) (mem_setParty rfl) htoken (by simp [pinned]) (by simp)
    · exact hret
  | load tok dirs =>
    cases hs
    split
    · exact hret
    · rename_i hrefs
      refine h.of_same (h.same rfl) (mem_setParty rfl) htoken (by simp [pinned]) ?_
      rintro _ _ _ ⟨rfl, rfl, rfl⟩
      exact Nat.pos_of_ne_zero (not_or.mp hrefs).1
  | cas tok =>
    simp only [State.partyStep] at hs
    split at hs <;> cases hs
    · exact h.of_same (h.update _ rfl rfl rfl id (h.closing tok.node)) (mem_setParty rfl) htoken
        (by simp [pinned]) (by simp)
    · exact h.of_same (h.same rfl) (mem_setParty rfl) htoken (by simp [pinned]) (by simp)
  | recheck tok dirs =>
    cases hs
    split
    · rename_i hgen
      refine h.of_same (h.same rfl) (mem_setParty rfl) htoken ?_ (by simp)
      rintro _ ⟨rfl⟩
      exact h.inc_eq (htoken tok rfl) (hfresh tok rfl) hgen
    · exact hrel tok.node
  | recheckClosing tok =>
    cases hs
    split
    · exact hrel tok.node
    · exact h.of_same (h.same rfl) (mem_setParty rfl) htoken hpin (by simp)
  | unblock tok dirs =>
    cases dirs with
    | nil =>
      cases hs
      exact hrel tok.node
    | cons dir =>
      cases hs
      refine h.of_same (h.update _ rfl rfl ?_ id fun hclosed => ?_) (mem_setParty rfl) htoken hpin (by simp)
      · simp only [unblock_frame]
      · simp only [unblock_frame]
        exact h.closing tok.node hclosed
  | acquire tok dir =>
    simp only [State.partyStep] at hs
    split at hs <;> cases hs
    · obtain ⟨hgen, hend⟩ := acquired_generation (s.nodes tok.node).desc i dir
      refine h.of_same (h.update _ rfl rfl hgen id fun hclosed => ?_) (mem_setParty rfl)
        (by simp [token?]) (by simp [pinned]) (by simp)
      exact hend.trans (h.closing tok.node hclosed)
    · exact hret
  | holds m =>
    cases hs
    exact hrel m
  | release m =>
    cases hs
    have hkept := h.update (t := s.setNode m { s.nodes m with
      desc := { (s.nodes m).desc with refs := (s.nodes m).desc.refs - 1 } }) _ rfl rfl rfl id (h.closing m)
    split
    all_goals
      exact h.of_same { hkept with } (mem_setParty rfl) (by simp [token?]) (by simp [pinned]) (by simp)
  | free => exact free_tracked hbal h hp hs
  | push =>
    cases hs
    exact h.of_same (h.same rfl) (mem_setParty rfl) (by simp [token?]) (by simp [pinned]) (by simp)
  | returned => cases hs

lemma ownerStep_tracked (h : Tracked s) {fd : Int} {ok : Bool} (hs : s.ownerStep m fd ok = some t) : Tracked t := by
  have hsame : ∀ u : State, SameIncarnations s u → u.parties = s.parties → Tracked u := fun u hu hps =>
    h.of_same hu (q := .returned) (fun p hp => .inl (hps ▸ hp)) (by simp [token?])
      (by simp [pinned]) (by simp)
  have hrel : ∀ u : State, SameIncarnations s u → u.parties = s.parties ++ [.release m] → Tracked u :=
    fun u hu hps => h.of_same hu (mem_start hps) (by simp [token?]) (by simp [pinned])
      (by simp)
  simp only [State.ownerStep] at hs
  split at hs
  · cases hs
  · cases hs
  · rename_i howner
    cases hs
    exact hsame _ (h.update _ rfl rfl rfl (by simp [howner]) (by simp [Node.shut])) rfl
  · rename_i howner
    cases hs
    refine hsame _ (h.update _ rfl rfl rfl (by simp [howner]) ?_) rfl
    cases ok <;> simp [Node.shut]
  · rename_i howner
    cases hs
    refine hrel _ (h.update { s.nodes m with
      desc := { (s.nodes m).desc with closing := true }, owner := .gone } ?_ rfl rfl (fun _ => rfl)
        fun _ => rfl) rfl
    simp [State.releaseOwner, State.start]
  · rename_i howner
    cases hs
    exact hsame _ (h.update _ rfl rfl rfl (fun _ => rfl) fun _ => rfl) rfl
  · rename_i dir rest howner
    cases hs
    have hend := h.closing m (by rw [Node.shut, howner])
    refine hsame _ (h.update _ rfl rfl ?_ (fun _ => rfl) fun _ => ?_) rfl
    · simp only [unblock_frame]
    · simp only [unblock_frame]
      exact hend
  · rename_i howner
    cases hs
    have hend := h.closing m (by rw [Node.shut, howner])
    exact hrel _ (h.update _ rfl rfl rfl (fun _ => rfl) fun _ => hend) rfl

/-! ### The invariant -/

lemma attach_tracked (hbal : ∀ n, Balanced s n) (h : Tracked s) {memory : Bool}
    (hs : slabStep s (.attach memory) = some t) : Tracked t := by
  obtain ⟨⟨m, u⟩, halloc, rfl⟩ := Option.map_eq_some_iff.mp hs
  obtain ⟨hvac, -⟩ := allocDesc_vacant hbal halloc
  obtain ⟨hnodes, hps, -⟩ := allocDesc_spec halloc
  refine h.of_same (q := .returned) (h.update (m := m) { u.nodes m with owner := .allocated } ?_
    ?_ ?_ ?_ ?_) (fun p hp => .inl (hps ▸ hp)) ?_ ?_ ?_
  · rw [← hnodes]
    rfl
  · rw [hnodes]
  · rw [hnodes]
  · rw [hvac]
    exact fun hpub => nomatch hpub
  · intro hshut
    rw [hnodes] at hshut ⊢
    refine h.closing m ?_
    rw [Node.shut, hvac]
    exact hshut
  · simp [token?]
  · simp [pinned]
  · simp

lemma start_tracked (h : Tracked s) (htok : q.token? = some (s.token n)) (hpin : q.pinned = none)
    (hload : ∀ tok dirs refs, q ≠ .cas tok dirs refs) (howner : (s.nodes n).owner.published) : Tracked (s.start q) := by
  refine h.of_same (h.same rfl) (mem_start rfl) (fun tok hmem => ?_) (by simp [hpin])
    fun tok dirs refs hq => absurd hq (hload tok dirs refs)
  rw [htok, Option.mem_some_iff] at hmem
  subst hmem
  exact ⟨h.generation n, le_refl _, fun _ => howner⟩

lemma start_balanced (h : ∀ n, Balanced s n) (href : ∀ n, q.refOn n = 0)
    (hfree : ∀ n, q.freeOn n = 0) (hpush : ∀ n, q.pushOn n = 0) (n : Nat) : Balanced (s.start q) n :=
  (h n).frame (Moved.of_start q rfl) rfl rfl rfl (href n).symm (hfree n).symm (hpush n).symm

/-- An acquisition that does not find `closing` finds a reference: a node it knows and that has none is
about to be recycled, or was. -/
lemma refs_pos_of_acquire (hbal : ∀ n, Balanced s n) (h : Tracked s) (hknown : tok.Known s)
    (hopen : (s.nodes tok.node).desc.closing = false) : 0 < (s.nodes tok.node).desc.refs := by
  have hshut : (s.nodes tok.node).shut = false := by
    rw [Bool.eq_false_iff]
    intro hshut
    rw [h.closing tok.node hshut] at hopen
    cases hopen
  have hrefs := (hbal tok.node).refs
  have hunattached : (s.nodes tok.node).owner.published = false → 0 < (s.nodes tok.node).inc := by
    intro hpub
    refine Nat.pos_of_ne_zero fun hzero => ?_
    have hle := hknown.le
    rw [hknown.published (by omega)] at hpub
    cases hpub
  cases howner : (s.nodes tok.node).owner with
  | opened | failed | attached | detaching =>
    rw [howner] at hrefs
    simp only [OwnerPc.refs] at hrefs
    omega
  | vacant | allocated =>
    rw [Node.shut, howner, decide_eq_false_iff_not] at hshut
    exact absurd (hunattached (howner ▸ rfl)) hshut
  | gone =>
    rw [Node.shut, howner] at hshut
    cases hshut

structure Kept (s : State) : Prop where
  balanced : ∀ n, Balanced s n
  tracked : Tracked s

lemma kept_init : Kept {} := by
  refine ⟨fun n => ⟨rfl, ?_, ?_⟩, ⟨fun n => rfl, fun n hclosed => ?_, ?_, ?_, ?_⟩⟩
  · simp [idle, custody, weight]
  · simp [weight]
  · cases hclosed
  all_goals simp

lemma slabStep_kept {act : Act} (h : Kept s) (hfresh : TokensFresh s act) (hs : slabStep s act = some t) : Kept t := by
  cases act with simp only [slabStep] at hs
  | attach => exact ⟨attach_balanced h.balanced hs, attach_tracked h.balanced h.tracked hs⟩
  | owner => exact ⟨ownerStep_balanced h.balanced hs, ownerStep_tracked h.tracked hs⟩
  | capture n dir =>
    split at hs <;> cases hs
    rename_i howner
    refine ⟨start_balanced h.balanced (fun _ => rfl) (fun _ => rfl) fun _ => rfl,
      start_tracked h.tracked rfl rfl (by simp) ?_⟩
    rw [howner]
    rfl
  | event n dirs =>
    split at hs <;> cases hs
    rename_i howner
    refine ⟨start_balanced h.balanced (fun _ => rfl) (fun _ => rfl) fun _ => rfl,
      start_tracked h.tracked rfl rfl (by simp) ?_⟩
    cases hpc : (s.nodes n).owner <;> rw [hpc] at howner <;> first | rfl | cases howner
  | party i refuse =>
    split at hs
    · rename_i p hp
      have hmem := mem_of_getElem? hp
      refine ⟨partyStep_balanced h.balanced hp hs (h.tracked.loaded p hmem) ?_,
        partyStep_tracked h.balanced h.tracked hp (hfresh p hmem) hs⟩
      rintro tok dir rfl
      exact refs_pos_of_acquire h.balanced h.tracked (h.tracked.token _ hmem tok rfl)
    · cases hs

lemma kept_of_reachable (hs : slabSystem.ReachableVia TokensFresh s) : Kept s := by
  refine hs.invariant ?_ ?_
  · rintro _ rfl
    exact kept_init
  · intro s act t h hfresh hst
    exact slabStep_kept h hfresh hst

/-! ### Safety -/

lemma dispatch_slots (htok : p.dispatched = some tok) (hs : s.partyStep i refuse p = some t)
    (hslot : (t.nodes n).desc.slot ≠ (s.nodes n).desc.slot) : n = tok.node ∧ p.pinned = some tok := by
  cases p with
  | check | load | recheck | recheckClosing =>
    cases hs
    exact absurd rfl hslot
  | cas tok' =>
    simp only [State.partyStep] at hs
    split at hs <;> cases hs
    · refine absurd ?_ hslot
      by_cases hn : n = tok'.node
      · subst hn
        simp
      · exact congrArg (fun node : Node => node.desc.slot) (setNode_of_ne s hn _)
    · exact absurd rfl hslot
  | unblock tok' dirs =>
    cases htok
    refine ⟨?_, rfl⟩
    by_contra hn
    cases dirs with
    | nil =>
      cases hs
      exact hslot rfl
    | cons =>
      cases hs
      exact hslot (congrArg (fun node : Node => node.desc.slot) (setNode_of_ne s hn _))
  | acquire | holds | release | free | push | returned => cases htok

/-- The slab is safe. A `dispatch` changes waiter slots only of the node its token names and only in the
incarnation the token was made for; the free list holds no node twice and no node with references;
`alloc_desc` returns a node that nobody has attached and nobody refers to; and a reference that is given up
is there. -/
structure SlabSafe (s : State) : Prop where
  dispatch : ∀ i p tok refuse t n, s.parties[i]? = some p → p.dispatched = some tok →
    slabStep s (.party i refuse) = some t → (t.nodes n).desc.slot ≠ (s.nodes n).desc.slot →
    n = tok.node ∧ (s.nodes n).inc = tok.inc
  nodup : s.freeList.Nodup
  spare : ∀ n ∈ s.freeList, (s.nodes n).desc.refs = 0
  alloc : ∀ memory n t, s.allocDesc memory = some (n, t) →
    (s.nodes n).owner = .vacant ∧ (s.nodes n).desc.refs = 0 ∧ ∀ p ∈ s.parties, p.refOn n = 0
  release : ∀ n, .release n ∈ s.parties → 0 < (s.nodes n).desc.refs

lemma Balanced.refOn_le (h : Balanced s n) (hp : p ∈ s.parties) : p.refOn n ≤ (s.nodes n).desc.refs := by
  have hrefs := h.refs
  have hle := le_weight (refOn n) hp
  omega

lemma Kept.safe (h : Kept s) : SlabSafe s where
  dispatch i p tok refuse t n hp htok hs hslot := by
    rw [slabStep, hp] at hs
    obtain ⟨hn, hpin⟩ := dispatch_slots htok hs hslot
    subst hn
    exact ⟨rfl, h.tracked.pinned p (mem_of_getElem? hp) tok hpin⟩
  nodup := by
    refine nodup_iff_count_le_one.mpr fun n => ?_
    have hspare := (h.balanced n).spare
    have hle : (s.nodes n).owner.spare ≤ 1 := by cases (s.nodes n).owner <;> simp
    omega
  spare n hn := ((h.balanced n).vacant_of_mem hn).2
  alloc memory n t halloc := by
    obtain ⟨hvac, hrefs⟩ := allocDesc_vacant h.balanced halloc
    refine ⟨hvac, hrefs, fun p hp => ?_⟩
    have hle := (h.balanced n).refOn_le hp
    omega
  release n hn := by
    have hle := (h.balanced n).refOn_le hn
    have hone : (release n).refOn n = 1 := if_pos rfl
    omega

end Cio.Reactor.Slab
