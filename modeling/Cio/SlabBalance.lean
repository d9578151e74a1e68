import Cio.SlabModel
import Mathlib.Data.List.Nodup

/-! The books of the slab. The reference count of a node is the number of its holders; a node without
references is in exactly one place, and a node is on the free list only after its recycling is complete.
Every step of an owner or a party keeps the books. -/

namespace Cio.Reactor.Slab

open CallPool Function List Party OwnerPc IoDesc

/-! ### Where references and nodes are -/

def OwnerPc.refs : OwnerPc → Nat
  | .opened | .failed | .attached | .detaching _ => 1
  | .vacant | .allocated | .gone => 0

def OwnerPc.custody : OwnerPc → Nat
  | .allocated => 1
  | .vacant | .opened | .failed | .attached | .detaching _ | .gone => 0

def OwnerPc.spare : OwnerPc → Nat
  | .vacant => 1
  | .allocated | .opened | .failed | .attached | .detaching _ | .gone => 0

namespace Party

def refOn (n : Nat) : Party → Nat
  | .recheck tok _ | .recheckClosing tok _ | .unblock tok _ => if tok.node = n then 1 else 0
  | .holds m | .release m => if m = n then 1 else 0
  | .check _ _ | .load _ _ | .cas _ _ _ | .acquire _ _ | .free _ | .push _ | .returned => 0

def freeOn (n : Nat) : Party → Nat
  | .free m => if m = n then 1 else 0
  | _ => 0

def pushOn (n : Nat) : Party → Nat
  | .push m => if m = n then 1 else 0
  | _ => 0

def home : Party → Option Nat
  | .check tok _ | .load tok _ | .cas tok _ _ | .recheck tok _ | .recheckClosing tok _ | .unblock tok _
  | .acquire tok _ => some tok.node
  | .holds m | .release m | .free m | .push m => some m
  | .returned => none

lemma zero_of_ne {p : Party} {m n : Nat} (hp : ∀ k ∈ p.home, k = m) (hn : n ≠ m) :
    p.refOn n = 0 ∧ p.freeOn n = 0 ∧ p.pushOn n = 0 := by
  cases p <;> simp_all [home, refOn, freeOn, pushOn, Ne.symm hn]

end Party

def State.unbuilt (s : State) (n : Nat) : Nat := if s.chunks * kChunkSize ≤ n then 1 else 0

def idle (refs : Nat) : Nat := if refs = 0 then 1 else 0

/-- The books of one node: its references, where it is when it has none, and where it is when it is
spare. -/
structure Balanced (s : State) (n : Nat) : Prop where
  refs : (s.nodes n).desc.refs = (s.nodes n).owner.refs + weight (refOn n) s.parties
  custody : s.freeList.count n + (s.nodes n).owner.custody + weight (freeOn n) s.parties +
    weight (pushOn n) s.parties + s.unbuilt n = idle (s.nodes n).desc.refs
  spare : s.freeList.count n + weight (pushOn n) s.parties + s.unbuilt n =
    (s.nodes n).owner.spare

/-- The parties changed by one that was at `p` and is at `q`. -/
def Moved (s t : State) (p q : Party) : Prop :=
  ∀ f : Party → Nat, f .returned = 0 → weight f t.parties + f p = weight f s.parties + f q

variable {s t : State} {p q : Party} {n m i : Nat} {memory : Bool}

lemma Moved.of_set (hp : s.parties[i]? = some p) (q : Party) (hps : t.parties = s.parties.set i q) : Moved s t p q := by
  intro f _
  rw [hps]
  exact weight_set f hp q

lemma Moved.of_start (q : Party) (hps : t.parties = s.parties ++ [q]) : Moved s t .returned q := by
  intro f hf
  rw [hps, weight_concat, hf, add_zero]

lemma Moved.of_same (hps : t.parties = s.parties) : Moved s t .returned .returned := by
  intro f _
  rw [hps]

lemma Balanced.of_moved (h : Balanced s n) (hmoved : Moved s t p q)
    (hrefs : (t.nodes n).desc.refs + p.refOn n + (s.nodes n).owner.refs =
      (s.nodes n).desc.refs + q.refOn n + (t.nodes n).owner.refs)
    (hcust : t.freeList.count n + (t.nodes n).owner.custody + q.freeOn n + q.pushOn n + t.unbuilt n +
        idle (s.nodes n).desc.refs =
      s.freeList.count n + (s.nodes n).owner.custody + p.freeOn n + p.pushOn n + s.unbuilt n +
        idle (t.nodes n).desc.refs)
    (hspare : t.freeList.count n + q.pushOn n + t.unbuilt n + (s.nodes n).owner.spare =
      s.freeList.count n + p.pushOn n + s.unbuilt n + (t.nodes n).owner.spare) : Balanced t n := by
  have hr := hmoved (refOn n) rfl
  have hf := hmoved (freeOn n) rfl
  have hp := hmoved (pushOn n) rfl
  obtain ⟨h1, h2, h3⟩ := h
  exact ⟨by omega, by omega, by omega⟩

lemma Balanced.frame (h : Balanced s n) (hmoved : Moved s t p q) (hnode : t.nodes n = s.nodes n)
    (hlist : t.freeList.count n = s.freeList.count n) (hchk : t.chunks = s.chunks) (href : p.refOn n = q.refOn n)
    (hfree : p.freeOn n = q.freeOn n) (hpush : p.pushOn n = q.pushOn n) : Balanced t n := by
  have hraw : t.unbuilt n = s.unbuilt n := by rw [State.unbuilt, State.unbuilt, hchk]
  refine h.of_moved hmoved ?_ ?_ ?_
  all_goals
    rw [hnode]
    omega

lemma idle_of_pos {refs : Nat} (h : 0 < refs) : idle refs = 0 := if_neg (by omega)

lemma Balanced.vacant_of_mem (h : Balanced s n) (hn : n ∈ s.freeList) :
    (s.nodes n).owner = .vacant ∧ (s.nodes n).desc.refs = 0 := by
  have hcount := count_pos_iff.mpr hn
  have hspare := h.spare
  have hcust := h.custody
  constructor
  · cases howner : (s.nodes n).owner with
    | vacant => rfl
    | allocated | opened | failed | attached | detaching | gone =>
      rw [howner] at hspare
      simp only [OwnerPc.spare] at hspare
      omega
  · by_contra hrefs
    rw [idle_of_pos (Nat.pos_of_ne_zero hrefs)] at hcust
    omega

lemma Balanced.gone_of_free (h : Balanced s n) (hfree : 0 < weight (freeOn n) s.parties) :
    (s.nodes n).owner = .gone ∧ (s.nodes n).desc.refs = 0 := by
  have hspare := h.spare
  have hcust := h.custody
  have hidle : (s.nodes n).desc.refs = 0 := by
    by_contra hrefs
    rw [idle_of_pos (Nat.pos_of_ne_zero hrefs)] at hcust
    omega
  have hrefs := h.refs
  rw [hidle] at hrefs hcust
  refine ⟨?_, hidle⟩
  have hone : idle 0 = 1 := rfl
  cases howner : (s.nodes n).owner with
  | gone => rfl
  | vacant | allocated | opened | failed | attached | detaching =>
    rw [howner] at hspare hcust hrefs
    simp only [OwnerPc.spare, OwnerPc.custody, OwnerPc.refs] at hspare hcust hrefs
    omega

/-! ### Steps keep the books -/

attribute [local simp] OwnerPc.refs OwnerPc.custody OwnerPc.spare Party.refOn Party.freeOn Party.pushOn
  State.setNode home freeFields attachFields

lemma setNode_self (s : State) (n : Nat) (node : Node) : (s.setNode n node).nodes n = node := by
  simp

lemma setNode_of_ne (s : State) (hm : m ≠ n) (node : Node) : (s.setNode n node).nodes m = s.nodes m := by
  simp [hm]

section

variable (h : ∀ n, Balanced s n)
include h

lemma Balanced.of_step (m : Nat) (hmoved : Moved s t p q) (hnodes : ∀ n, n ≠ m → t.nodes n = s.nodes n)
    (hlist : ∀ n, n ≠ m → t.freeList.count n = s.freeList.count n) (hchk : t.chunks = s.chunks)
    (hp : ∀ k ∈ p.home, k = m) (hq : ∀ k ∈ q.home, k = m) (hm : Balanced t m) (n : Nat) : Balanced t n := by
  by_cases hn : n = m
  · exact hn ▸ hm
  · obtain ⟨hp1, hp2, hp3⟩ := zero_of_ne hp hn
    obtain ⟨hq1, hq2, hq3⟩ := zero_of_ne hq hn
    exact (h n).frame hmoved (hnodes n hn) (hlist n hn) hchk (hp1.trans hq1.symm) (hp2.trans hq2.symm)
      (hp3.trans hq3.symm)

lemma Balanced.of_setParty (hp : s.parties[i]? = some p) (href : ∀ n, p.refOn n = q.refOn n)
    (hfree : ∀ n, p.freeOn n = q.freeOn n) (hpush : ∀ n, p.pushOn n = q.pushOn n) (n : Nat) :
    Balanced (s.setParty i q) n :=
  (h n).frame (.of_set hp q rfl) rfl rfl rfl (href n) (hfree n) (hpush n)

lemma Balanced.of_setNode (m : Nat) {node : Node} (hparty : s.parties[i]? = some p)
    (hp : ∀ k ∈ p.home, k = m) (hq : ∀ k ∈ q.home, k = m)
    (hrefs : node.desc.refs + p.refOn m + (s.nodes m).owner.refs =
      (s.nodes m).desc.refs + q.refOn m + node.owner.refs)
    (hcust : node.owner.custody + q.freeOn m + q.pushOn m + idle (s.nodes m).desc.refs =
      (s.nodes m).owner.custody + p.freeOn m + p.pushOn m + idle node.desc.refs)
    (hspare : q.pushOn m + (s.nodes m).owner.spare = p.pushOn m + node.owner.spare) (n : Nat) :
    Balanced ((s.setNode m node).setParty i q) n := by
  have hmoved : Moved s ((s.setNode m node).setParty i q) p q := .of_set hparty q rfl
  have hself : ((s.setNode m node).setParty i q).nodes m = node := setNode_self s m node
  have hraw : ((s.setNode m node).setParty i q).unbuilt m = s.unbuilt m := rfl
  have hlist : ((s.setNode m node).setParty i q).freeList = s.freeList := rfl
  refine .of_step h m hmoved (fun n hn => setNode_of_ne s hn node) (fun _ _ => rfl) rfl hp hq ?_ n
  refine (h m).of_moved hmoved ?_ ?_ ?_
  · rw [hself]
    exact hrefs
  · rw [hself, hraw, hlist]
    omega
  · rw [hself, hraw, hlist]
    omega

lemma partyStep_balanced {refuse : Bool} (hp : s.parties[i]? = some p) (hs : s.partyStep i refuse p = some t)
    (hcas : ∀ tok dirs refs, p = .cas tok dirs refs → 0 < refs)
    (hacquire : ∀ tok dir, p = .acquire tok dir → (s.nodes tok.node).desc.closing = false →
      0 < (s.nodes tok.node).desc.refs) (n : Nat) :
    Balanced t n := by
  have hmem := mem_of_getElem? hp
  cases p with
  | check | load | recheck | recheckClosing =>
    cases hs
    refine .of_setParty h hp (fun n => ?_) (fun n => ?_) (fun n => ?_) n <;> split <;> rfl
  | cas tok dirs refs =>
    have hpos := hcas tok dirs refs rfl
    simp only [State.partyStep] at hs
    split at hs <;> cases hs
    · rename_i hread
      refine .of_setNode h tok.node hp (by simp) (by simp) ?_ ?_ (by rfl) n
      · simp only [Party.refOn, if_true, hread.1]
      · rw [hread.1, idle_of_pos hpos, idle_of_pos (Nat.succ_pos refs)]
        rfl
    · refine .of_setParty h hp (fun n => ?_) (fun n => ?_) (fun n => ?_) n <;> rfl
  | unblock tok dirs =>
    cases dirs with
    | nil =>
      cases hs
      refine .of_setParty h hp (fun n => ?_) (fun n => ?_) (fun n => ?_) n <;> rfl
    | cons =>
      cases hs
      refine .of_setNode h tok.node hp (by simp) (by simp) ?_ ?_ (by rfl) n
      all_goals
        simp only [IoDesc.unblock_frame]
        rfl
  | acquire tok dir =>
    have hpos := hacquire tok dir rfl
    simp only [State.partyStep] at hs
    split at hs <;> cases hs
    · rename_i hopen
      refine .of_setNode h tok.node hp (by simp) (by simp) ?_ ?_ (by rfl) n
      · simp only [Party.refOn, if_true]
      · rw [idle_of_pos (hpos hopen.2.1), idle_of_pos (Nat.succ_pos _)]
        rfl
    · refine .of_setParty h hp (fun n => ?_) (fun n => ?_) (fun n => ?_) n <;> rfl
  | holds =>
    cases hs
    refine .of_setParty h hp (fun n => ?_) (fun n => ?_) (fun n => ?_) n <;> rfl
  | release m =>
    cases hs
    have href : (Party.release m).refOn m = 1 := if_pos rfl
    have hzero : (Party.free m).refOn m = 0 := rfl
    have hrefs := (h m).refs
    have hle := le_weight (Party.refOn m) hmem
    split
    · rename_i hone
      refine .of_setNode h m hp (by simp) (by simp) ?_ ?_ (by rfl) n
      · rw [href, hzero]
        dsimp only
        omega
      · rw [hone]
        simp [idle]
    · rename_i hmore
      have hpos : 0 < (s.nodes m).desc.refs - 1 := by omega
      refine .of_setNode h m hp (by simp) (by simp) ?_ ?_ (by rfl) n
      · rw [href]
        change (s.nodes m).desc.refs - 1 + 1 + (s.nodes m).owner.refs =
          (s.nodes m).desc.refs + 0 + (s.nodes m).owner.refs
        omega
      · rw [idle_of_pos (by omega : 0 < (s.nodes m).desc.refs), idle_of_pos hpos]
        rfl
  | free m =>
    cases hs
    have hfree : (Party.free m).freeOn m = 1 := if_pos rfl
    have hle := le_weight (Party.freeOn m) hmem
    obtain ⟨hgone, hidle⟩ := (h m).gone_of_free (by omega)
    refine .of_setNode h m hp (by simp) (by simp) ?_ ?_ ?_ n
    all_goals simp [hgone]
  | push m =>
    rw [State.partyStep, Option.some.injEq] at hs
    have hps : t.parties = s.parties.set i .returned := by rw [← hs]; rfl
    have hnodes : t.nodes = s.nodes := by rw [← hs]; rfl
    have hlist : t.freeList = m :: s.freeList := by rw [← hs]; rfl
    have hchk : t.chunks = s.chunks := by rw [← hs]; rfl
    have hraw : t.unbuilt m = s.unbuilt m := by rw [State.unbuilt, State.unbuilt, hchk]
    have hpush : (Party.push m).pushOn m = 1 := if_pos rfl
    have hmoved : Moved s t (.push m) .returned := .of_set hp .returned hps
    refine .of_step h m hmoved (fun n _ => by rw [hnodes]) (fun n hn => ?_) hchk (by simp)
      (by simp) ?_ n
    · rw [hlist]
      exact count_cons_of_ne (Ne.symm hn)
    · refine (h m).of_moved hmoved (hnodes ▸ rfl) ?_ ?_
      · rw [hlist, count_cons_self, hnodes, hraw, hpush]
        simp only [Party.freeOn, Party.pushOn]
        omega
      · rw [hlist, count_cons_self, hnodes, hraw, hpush]
        simp only [Party.pushOn]
  | returned => cases hs

lemma Balanced.of_owner (m : Nat) {node : Node}
    (hmoved : Moved s t .returned q) (hnodes : t.nodes = update s.nodes m node)
    (hlist : t.freeList = s.freeList) (hchk : t.chunks = s.chunks) (hq : ∀ k ∈ q.home, k = m)
    (hrefs : node.desc.refs + (s.nodes m).owner.refs = (s.nodes m).desc.refs + q.refOn m + node.owner.refs)
    (hcust : node.owner.custody + q.freeOn m + q.pushOn m + idle (s.nodes m).desc.refs =
      (s.nodes m).owner.custody + idle node.desc.refs)
    (hspare : q.pushOn m + (s.nodes m).owner.spare = node.owner.spare) (n : Nat) : Balanced t n := by
  have hself : t.nodes m = node := by rw [hnodes, update_self]
  have hraw : t.unbuilt m = s.unbuilt m := by rw [State.unbuilt, State.unbuilt, hchk]
  have hfree : Party.returned.freeOn m = 0 := rfl
  have hpush : Party.returned.pushOn m = 0 := rfl
  refine .of_step h m hmoved (fun n hn => ?_) (fun n _ => by rw [hlist]) hchk (by simp) hq ?_ n
  · rw [hnodes, update_of_ne hn]
  · refine (h m).of_moved hmoved ?_ ?_ ?_
    · rw [hself]
      exact hrefs
    · rw [hself, hraw, hlist]
      omega
    · rw [hself, hraw, hlist]
      omega

lemma ownerStep_balanced {fd : Int} {ok : Bool} (hs : s.ownerStep m fd ok = some t) (n : Nat) : Balanced t n := by
  simp only [State.ownerStep] at hs
  split at hs
  · cases hs
  · cases hs
  · rename_i howner
    cases hs
    have hrefs := (h m).refs
    have hcust := (h m).custody
    rw [howner] at hrefs hcust
    have hidle : (s.nodes m).desc.refs = 0 := by
      by_contra hne
      rw [idle_of_pos (Nat.pos_of_ne_zero hne)] at hcust
      simp at hcust
    refine .of_owner h m (.of_same (by rfl)) (by rfl) (by rfl) (by rfl) (by simp) ?_ ?_ ?_ n
    · simp [howner, hidle]
    · simp [howner, hidle, idle]
    · simp [howner]
  · rename_i howner
    cases hs
    refine .of_owner h m (.of_same (by rfl)) (by rfl) (by rfl) (by rfl) (by simp) ?_ ?_ ?_ n
    all_goals cases ok <;> simp [howner]
  · rename_i howner
    cases hs
    have hnodes : ((s.setNode m { s.nodes m with
          desc := { (s.nodes m).desc with closing := true } }).releaseOwner m).nodes =
        update s.nodes m { s.nodes m with
          desc := { (s.nodes m).desc with closing := true }, owner := .gone } := by
      simp [State.releaseOwner, State.start]
    refine .of_owner h m (.of_start (.release m) (by rfl)) hnodes (by rfl) (by rfl) (by simp) ?_ ?_ ?_ n
    all_goals simp [howner]
  · rename_i howner
    cases hs
    refine .of_owner h m (.of_same (by rfl)) (by rfl) (by rfl) (by rfl) (by simp) ?_ ?_ ?_ n
    all_goals simp [howner]
  · rename_i dir rest howner
    cases hs
    refine .of_owner h m (.of_same (by rfl)) (by rfl) (by rfl) (by rfl) (by simp) ?_ ?_ ?_ n
    all_goals simp [howner]
  · rename_i howner
    cases hs
    refine .of_owner h m (.of_start (.release m) (by rfl)) (by rfl) (by rfl) (by rfl) (by simp) ?_ ?_ ?_ n
    all_goals simp [howner]

end

/-! ### Handing out nodes -/

lemma allocDesc_vacant {u : State} (h : ∀ n, Balanced s n) (halloc : s.allocDesc memory = some (m, u)) :
    (s.nodes m).owner = .vacant ∧ (s.nodes m).desc.refs = 0 := by
  unfold State.allocDesc at halloc
  split at halloc
  · rename_i first rest hlist
    cases halloc
    exact (h m).vacant_of_mem (hlist ▸ mem_cons_self)
  · split at halloc <;> cases halloc
    have hspare := (h (s.chunks * kChunkSize)).spare
    have hcust := (h (s.chunks * kChunkSize)).custody
    have hraw : s.unbuilt (s.chunks * kChunkSize) = 1 := if_pos le_rfl
    constructor
    · cases howner : (s.nodes (s.chunks * kChunkSize)).owner with
      | vacant => rfl
      | allocated | opened | failed | attached | detaching | gone =>
        rw [howner] at hspare
        simp only [spare] at hspare
        omega
    · by_contra hrefs
      rw [idle_of_pos (Nat.pos_of_ne_zero hrefs)] at hcust
      omega

lemma allocDesc_spec {u : State} (halloc : s.allocDesc memory = some (m, u)) :
    u.nodes = s.nodes ∧ u.parties = s.parties ∧
      ∀ n, u.freeList.count n + u.unbuilt n + (if n = m then 1 else 0) = s.freeList.count n + s.unbuilt n := by
  unfold State.allocDesc at halloc
  split at halloc
  · rename_i first rest hlist
    cases halloc
    refine ⟨rfl, rfl, fun n => ?_⟩
    have hraw : State.unbuilt { s with freeList := rest } n = s.unbuilt n := rfl
    rw [hlist, hraw, count_cons]
    by_cases hn : n = m
    · subst hn
      simp
      omega
    · simp [hn, Ne.symm hn]
  · rename_i hlist
    split at halloc <;> cases halloc
    refine ⟨rfl, rfl, fun n => ?_⟩
    rw [hlist, count_nil]
    simp only [State.unbuilt]
    have hsize : (s.chunks + 1) * kChunkSize = s.chunks * kChunkSize + kChunkSize := Nat.succ_mul _ _
    have hchunk : kChunkSize = 512 := rfl
    rw [hsize]
    generalize s.chunks * kChunkSize = base
    have hcount : (range' (base + 1) (kChunkSize - 1)).count n =
        if base + 1 ≤ n ∧ n < base + kChunkSize then 1 else 0 := by
      split
      · rename_i hn
        refine count_eq_one_of_mem nodup_range' (mem_range'_1.mpr ?_)
        omega
      · rename_i hn
        refine count_eq_zero.mpr fun hmem => hn ?_
        have hrange := mem_range'_1.mp hmem
        omega
    rw [hcount]
    split_ifs <;> omega

lemma attach_balanced (h : ∀ n, Balanced s n) (hs : slabStep s (.attach memory) = some t) (n : Nat) : Balanced t n := by
  obtain ⟨⟨m, u⟩, halloc, rfl⟩ := Option.map_eq_some_iff.mp hs
  obtain ⟨hvac, hidle⟩ := allocDesc_vacant h halloc
  obtain ⟨hnodes, hps, hplace⟩ := allocDesc_spec halloc
  have hn := hplace n
  have hmoved : Moved s (u.setNode m { u.nodes m with owner := .allocated }) .returned .returned := .of_same hps
  have hraw : (u.setNode m { u.nodes m with owner := .allocated }).unbuilt n = u.unbuilt n := rfl
  have hlist : (u.setNode m { u.nodes m with owner := .allocated }).freeList = u.freeList := rfl
  by_cases hnm : n = m
  · subst hnm
    have hself : (u.setNode n { u.nodes n with owner := .allocated }).nodes n =
        { s.nodes n with owner := .allocated } := by rw [setNode_self, hnodes]
    rw [if_pos rfl] at hn
    refine (h n).of_moved hmoved ?_ ?_ ?_
    · rw [hself, hvac]
      rfl
    · rw [hself, hvac, hraw, hlist]
      simp only [custody, freeOn, pushOn]
      omega
    · rw [hself, hvac, hraw, hlist]
      simp only [spare, pushOn]
      omega
  · have hother : (u.setNode m { u.nodes m with owner := .allocated }).nodes n = s.nodes n := by
      rw [setNode_of_ne u hnm, hnodes]
    rw [if_neg hnm] at hn
    refine (h n).of_moved hmoved ?_ ?_ ?_
    · rw [hother]
    · rw [hother, hraw, hlist]
      omega
    · rw [hother, hraw, hlist]
      omega

end Cio.Reactor.Slab
