import Cio.SchedulerCount

/-! No wakeup is lost while the global queue stays below `2 ^ 32` frames. A worker past its idle
publication still has its idle bit, or it has a token, or a producer is waking it; and a non-zero size
leaves some worker alert or some producer at the start of its scan. A producer that finishes its scan
without a claim has seen a clear idle bit, whose worker is alert. -/

namespace Cio.Sched

open Transition CallPool WrapCounter Function ParkState CallPc Option Nat Bool WordSet

/-! ### What a step can see of one worker -/

/-- The call has claimed `w` and has not delivered the wake yet. -/
def CallPc.waking (w : Nat) : CallPc → Bool
  | .exchange v _ | .write v _ => v = w
  | _ => false

def CallPc.writing (w : Nat) : CallPc → Bool
  | .write v _ => v = w
  | _ => false

def CallPc.directed (w : Nat) : CallPc → Bool
  | .clearIdle v => v = w
  | _ => false

/-- The call has added its frames and has not passed the first word of its scan. -/
def CallPc.starting : CallPc → Bool
  | .claimLoad _ pos _ | .claimCas _ pos _ _ => pos = 0
  | _ => false

def WorkerPc.parking : WorkerPc → Bool
  | .checkLocal | .checkInbox | .checkGlobal | .checkRest => true
  | .enterPoll blocking | .inPoll blocking => blocking
  | _ => false

def WorkerPc.pastInbox : WorkerPc → Bool
  | .checkGlobal | .checkRest => true
  | .enterPoll blocking | .inPoll blocking => blocking
  | _ => false

def WorkerPc.pastGlobal : WorkerPc → Bool
  | .checkRest => true
  | .enterPoll blocking | .inPoll blocking => blocking
  | _ => false

def WorkerPc.draining : WorkerPc → Bool
  | .drain _ | .resetPending _ => true
  | _ => false

variable {more pos start : Nat} {pc : WorkerPc}

lemma WorkerPc.parking_of_pastInbox (h : pc.pastInbox) : pc.parking = true := by
  cases pc <;> first | exact h | rfl

lemma WorkerPc.parking_of_pastGlobal (h : pc.pastGlobal) : pc.parking = true := by
  cases pc <;> first | exact h | rfl

lemma WorkerPc.not_draining_of_parking (h : pc.parking) : pc.draining = false := by
  cases pc <;> first | rfl | cases h

structure WorkerView where
  pc : WorkerPc
  tokens : Nat
  pending : Bool
  idle : Bool
  published : Bool
  waking : Prop
  writing : Prop
  directed : Prop

def ParkState.view (s : ParkState) (w : Nat) : WorkerView where
  pc := s.worker w
  tokens := s.tokens w
  pending := s.wakePending w
  idle := test s.idle w
  published := (s.inbox w).published
  waking := ∃ pc ∈ s.calls, pc.waking w = true
  writing := ∃ pc ∈ s.calls, pc.writing w = true
  directed := ∃ pc ∈ s.calls, pc.directed w = true

namespace WorkerView

def Roused (v : WorkerView) : Prop := 0 < v.tokens ∨ v.waking

def Alert (v : WorkerView) : Prop := v.pc.pastGlobal = false ∨ v.Roused

/-- A set flag stands for a token, a writer or an owner that is about to reset it; a worker that gave
up its idle bit while parking is roused; an item in the inbox of a worker that saw it empty comes with
a wake. -/
structure Ok (v : WorkerView) : Prop where
  flag : v.pending = true → 0 < v.tokens ∨ v.writing ∨ v.pc.draining = true
  idle : v.pc.parking = true → v.idle = true ∨ v.Roused
  inbox : v.pc.pastInbox = true → v.published = true → v.Roused ∨ v.directed

lemma Ok.alert {v : WorkerView} (h : v.Ok) (hidle : v.idle = false) : v.Alert := by
  cases hpc : v.pc.pastGlobal with
  | false => exact .inl hpc
  | true =>
    rcases h.idle (WorkerPc.parking_of_pastGlobal hpc) with hset | hroused
    · rw [hidle] at hset
      cases hset
    · exact .inr hroused

structure Follows (v v' : WorkerView) : Prop where
  pc : v'.pc = v.pc
  pending : v'.pending = true → v.pending = true ∨ v'.writing
  flag : 0 < v.tokens ∨ v.writing → 0 < v'.tokens ∨ v'.writing
  idle : v.idle = true → v'.idle = true ∨ v'.Roused
  roused : v.pc.parking = true → v.Roused → v'.Roused
  published : v'.published = true → v.published = true ∨ v'.directed
  directed : v.pc.parking = true → v.directed → v'.Roused ∨ v'.directed

namespace Follows

variable {v v' : WorkerView}

lemma ok (hf : v.Follows v') (h : v.Ok) : v'.Ok := by
  refine ⟨fun hpend => ?_, fun hpc => ?_, fun hpc hpublished => ?_⟩
  · rcases hf.pending hpend with hold | hwrite
    · rcases h.flag hold with htok | hwrite | hdraining
      · exact (hf.flag (.inl htok)).imp_right .inl
      · exact (hf.flag (.inr hwrite)).imp_right .inl
      · exact .inr (.inr (by rwa [hf.pc]))
    · exact .inr (.inl hwrite)
  · rw [hf.pc] at hpc
    rcases h.idle hpc with hidle | hroused
    · exact hf.idle hidle
    · exact .inr (hf.roused hpc hroused)
  · rw [hf.pc] at hpc
    have hparking := WorkerPc.parking_of_pastInbox hpc
    rcases hf.published hpublished with hold | hdir
    · rcases h.inbox hpc hold with hroused | hdir
      · exact .inl (hf.roused hparking hroused)
      · exact hf.directed hparking hdir
    · exact .inr hdir

lemma alert (hf : v.Follows v') (h : v.Alert) : v'.Alert := by
  rw [Alert, hf.pc]
  cases hpc : v.pc.pastGlobal with
  | false => exact .inl rfl
  | true =>
    rcases h with hpast | hroused
    · rw [hpc] at hpast
      cases hpast
    · exact .inr (hf.roused (WorkerPc.parking_of_pastGlobal hpc) hroused)

end Follows

end WorkerView

/-! ### The invariant -/

def CallPc.ClaimOk (workers : Nat) : CallPc → Prop
  | .claimCas start pos _ observed =>
    ∃ word allowed, claimWord workers start pos = some (word, allowed) ∧
      observed &&& allowed ≠ 0
  | _ => True

/-- A queued item has a worker or a call that will see it. -/
structure WakeInv (n : Workers) (s : ParkState) : Prop where
  views : ∀ w, w < n.count → (s.view w).Ok
  served : s.size ≠ 0 →
    (∃ w, w < n.count ∧ (s.view w).Alert) ∨ ∃ pc ∈ s.calls, pc.starting = true
  spare : ∀ w, n.count ≤ w → s.worker w = .running ∧ test s.idle w = false
  claims : ∀ pc ∈ s.calls, pc.ClaimOk n.count

lemma WakeInv.noLostWakeup {s : ParkState} {taken : Nat} (h : WakeInv n s)
    (hc : CountInv s taken) : NoLostWakeup n s := by
  refine ⟨fun hqueued hbar => ?_, fun w hw hbar hpublished => ?_⟩
  · by_cases hcalls : ∃ pc ∈ s.calls, pc.published
    · exact .inr hcalls
    have hquiet : ∀ pc ∈ s.calls, pc.published = false := by
      intro pc hpc
      rw [eq_false_iff]
      exact fun hpub => hcalls ⟨pc, hpc, hpub⟩
    have hsum : weight uncounted s.calls = 0 := by
      refine weight_eq_zero fun pc hpc => ?_
      have hpub := hquiet pc hpc
      cases pc <;> first | rfl | cases hpub
    have hsize : s.size ≠ 0 := by
      intro hzero
      have hcount := hc.count
      have hfits := hc.fits
      have hfree : s.mutex = none := by
        cases hmutex : s.mutex with
        | none => rfl
        | some w =>
          obtain ⟨k, hk⟩ := hc.held w hmutex
          rcases lt_or_ge w n.count with hw | hw
          · rw [show s.worker w = .inPoll true from hbar w hw] at hk
            cases hk
          · rw [(h.spare w hw).1] at hk
            cases hk
      rw [hzero, hsum, hc.free hfree, add_zero] at hcount
      have hlength := eq_of_word_eq (zero_le s.queued) (by omega) hcount.symm
      omega
    rcases h.served hsize with ⟨w, hw, halert⟩ | ⟨pc, hpc, hstart⟩
    · have hpc : s.worker w = .inPoll true := hbar w hw
      rcases halert with hpast | htok | ⟨pc, hmem, hwaking⟩
      · rw [view, hpc] at hpast
        cases hpast
      · exact .inl ⟨w, hw, htok⟩
      · have hpub := hquiet pc hmem
        cases pc <;> first | cases hwaking | cases hpub
    · have hpub := hquiet pc hpc
      cases pc <;> first | cases hstart | cases hpub
  · have hpc : s.worker w = .inPoll true := hbar
    have hpast : (s.view w).pc.pastInbox = true := by
      rw [view, hpc]
      rfl
    rcases (h.views w hw).inbox hpast hpublished with (htok | ⟨pc, hmem, hwaking⟩) | ⟨pc, hmem, hdir⟩
    · exact .inl htok
    · refine .inr ⟨pc, hmem, ?_⟩
      cases pc <;> first | exact hwaking | cases hwaking
    · refine .inr ⟨pc, hmem, ?_⟩
      cases pc <;> first | exact hdir | cases hdir

/-! ### Calls -/

section Calls

variable {n : Workers} {s t : ParkState} {i : Nat} {x y : CallPc}

lemma WakeInv.of_call (h : WakeInv n s) (hx : s.calls[i]? = some x) (hcalls : t.calls = s.calls.set i y)
    (hsize : t.size = s.size ∨ y.starting) (hwk : t.worker = s.worker)
    (hview : ∀ w, w < n.count → (s.view w).Follows (t.view w)) (hspare : ∀ w, test t.idle w → test s.idle w)
    (hclaim : y.ClaimOk n.count) (hstart : x.starting → y.starting ∨ ∃ w, w < n.count ∧ (t.view w).Alert) :
    WakeInv n t := by
  refine ⟨fun w hw => (hview w hw).ok (h.views w hw), fun hne => ?_, fun w hw => ?_, fun pc hpc => ?_⟩
  · rw [hcalls]
    rcases hsize with hsize | hy
    swap
    · exact .inr (exists_set_self hx hy)
    rw [hsize] at hne
    rcases h.served hne with ⟨w, hw, halert⟩ | hstarting
    · exact .inl ⟨w, hw, (hview w hw).alert halert⟩
    · rcases exists_set_or hx hstarting y with hset | hself
      · exact .inr hset
      · rcases hstart hself with hy | halert
        · exact .inr (exists_set_self hx hy)
        · exact .inl halert
  · obtain ⟨hrun, hclear⟩ := h.spare w hw
    refine ⟨hwk ▸ hrun, ?_⟩
    rw [eq_false_iff]
    intro htest
    rw [hspare w htest] at hclear
    cases hclear
  · rw [hcalls] at hpc
    exact forall_set h.claims hclaim i pc hpc

lemma exists_set_of_not {Q : CallPc → Bool} (hx : s.calls[i]? = some x) (hcalls : t.calls = s.calls.set i y)
    (hnot : Q x = false) (h : ∃ pc ∈ s.calls, Q pc) : ∃ pc ∈ t.calls, Q pc = true := by
  rw [hcalls]
  rcases exists_set_or hx h y with hset | hq
  · exact hset
  · rw [hnot] at hq
    cases hq

lemma CallPc.waking_of_not_wakes (h : x.wakes w = false) :
    x.waking w = false ∧ x.writing w = false ∧ x.directed w = false := by
  cases x <;> first | exact ⟨rfl, rfl, rfl⟩ | exact ⟨h, h, rfl⟩ | exact ⟨h, rfl, rfl⟩ | exact ⟨rfl, rfl, h⟩

lemma follows_of_quiet (hx : s.calls[i]? = some x) (hcalls : t.calls = s.calls.set i y) (hquiet : x.wakes w = false)
    (hpc : t.worker w = s.worker w) (htok : t.tokens w = s.tokens w) (hpend : t.wakePending w = s.wakePending w)
    (hidle : test s.idle w → test t.idle w ∨ (t.view w).Roused)
    (hinbox : (t.inbox w).published → (s.inbox w).published ∨ (t.view w).directed) : (s.view w).Follows (t.view w) := by
  obtain ⟨hwaking, hwrite, hdir⟩ := waking_of_not_wakes hquiet
  refine ⟨hpc, fun h => .inl (hpend.symm.trans h), fun h => ?_, hidle, fun _ h => ?_, hinbox, fun _ h => ?_⟩
  · exact h.imp (·.trans_eq htok.symm) (exists_set_of_not hx hcalls hwrite)
  · exact h.imp (·.trans_eq htok.symm) (exists_set_of_not hx hcalls hwaking)
  · exact .inr (exists_set_of_not hx hcalls hdir h)

/-- A call that changes nothing but its own program counter and touches no worker. -/
structure Quiet (n : Workers) (s t : ParkState) (i : Nat) (x y : CallPc) : Prop where
  calls : t.calls = s.calls.set i y := by rfl
  quiet : ∀ w, x.wakes w = false := by exact fun _ => rfl
  claim : y.ClaimOk n.count := by trivial
  start : x.starting = true → y.starting = true ∨ ∃ w, w < n.count ∧ test s.idle w = false := by rintro ⟨⟩
  size : t.size = s.size ∨ y.starting = true := by exact .inl rfl
  worker : t.worker = s.worker := by rfl
  tokens : t.tokens = s.tokens := by rfl
  wakePending : t.wakePending = s.wakePending := by rfl
  idle : t.idle = s.idle := by rfl
  inbox : ∀ w, (t.inbox w).published = (s.inbox w).published := by exact fun _ => rfl

lemma WakeInv.of_quiet_call (h : WakeInv n s) (hx : s.calls[i]? = some x) (hq : Quiet n s t i x y) : WakeInv n t := by
  have hview : ∀ w, (s.view w).Follows (t.view w) := fun w =>
    follows_of_quiet hx hq.calls (hq.quiet w) (congrFun hq.worker w) (congrFun hq.tokens w)
      (congrFun hq.wakePending w) (fun htest => .inl (by rwa [hq.idle]))
      (fun hpub => .inl (by rwa [← hq.inbox w]))
  refine h.of_call hx hq.calls hq.size hq.worker (fun w _ => hview w) (by simp [hq.idle]) hq.claim fun hx => ?_
  rcases hq.start hx with hy | ⟨w, hw, hclear⟩
  · exact .inl hy
  · exact .inr ⟨w, hw, (hview w).alert ((h.views w hw).alert hclear)⟩

lemma afterWake_claimOk (more : Nat) : (afterWake more).ClaimOk n.count := by
  rw [afterWake]
  split <;> trivial

lemma claimNext_claimOk {word : Nat} {observed allowed : BitVec 64}
    (hword : claimWord n.count start pos = some (word, allowed)) :
    (claimNext start pos more observed allowed).ClaimOk n.count := by
  rw [claimNext]
  split
  · trivial
  · rename_i hne
    exact ⟨word, allowed, hword, hne⟩

lemma claimNext_starting {word : Nat} {allowed : BitVec 64}
    (hword : claimWord n.count start pos = some (word, allowed)) (hpos : pos = 0) :
    (claimNext start pos more (s.idle word) allowed).starting ∨
      ∃ w, w < n.count ∧ test s.idle w = false := by
  rw [claimNext]
  split
  · rename_i hzero
    refine .inr ⟨start % n.count, mod_lt _ n.pos, ?_⟩
    rw [claimWord, if_pos hpos] at hword
    cases hword
    refine getLsbD_of_and_eq_zero hzero ?_
    have hlt : start % n.count % 64 < 64 := mod_lt _ (by decide)
    rw [BitVec.getLsbD_shiftLeft, BitVec.getLsbD_allOnes]
    simp [hlt]
  · exact .inl (decide_eq_true hpos)

lemma WakeInv.claimed (h : WakeInv n s) (more : Nat) (hx : s.calls[i]? = some x)
    (hw : w < n.count) (hquiet : ∀ v, x.waking v = false ∧ x.writing v = false) (hdir : ∀ v, x.directed v → v = w) :
    WakeInv n ({ s with idle := erase s.idle w }.setCall i (.exchange w more)) := by
  have hroused : (({ s with idle := erase s.idle w }.setCall i (.exchange w more)).view w).Roused :=
    .inr (exists_set_self hx (decide_eq_true rfl))
  refine h.of_call hx rfl (.inl rfl) rfl (fun v _ => ⟨rfl, .inl, fun hflag => ?_, fun hidle => ?_,
    fun _ hold => ?_, .inl, fun _ hold => ?_⟩) (fun v => test_of_test_erase) trivial
    fun _ => .inr ⟨w, hw, .inr hroused⟩
  · exact hflag.imp_right (exists_set_of_not hx rfl (hquiet v).2)
  · by_cases hv : v = w
    · exact .inr (hv ▸ hroused)
    · exact .inl ((test_erase_of_ne s.idle hv).trans hidle)
  · exact hold.imp_right (exists_set_of_not hx rfl (hquiet v).1)
  · rcases exists_set_or hx hold (.exchange w more) with hset | hself
    · exact .inr hset
    · exact .inl (hdir v hself ▸ hroused)

lemma CallPc.waking_of_writing (h : x.writing w) : x.waking w = true := by
  cases x <;> first | exact h | cases h

section

variable (h : WakeInv n s)
include h

lemma WakeInv.coalesced (hx : s.calls[i]? = some (.exchange w more)) (hpend : s.wakePending w)
    (hclaim : y.ClaimOk n.count) : WakeInv n (s.setCall i y) := by
  refine h.of_call hx rfl (.inl rfl) rfl (fun v hv => ⟨rfl, .inl, fun hflag => ?_, .inl,
    fun hparking hold => ?_, .inl, fun _ hold => ?_⟩) (fun v => id) hclaim nofun
  · exact hflag.imp_right (exists_set_of_not hx rfl rfl)
  · rcases hold with htok | hwaking
    · exact .inl htok
    rcases exists_set_or hx hwaking y with hset | hself
    · exact .inr hset
    obtain rfl : w = v := of_decide_eq_true hself
    rcases (h.views w hv).flag hpend with htok | hwrite | hdraining
    · exact .inl htok
    · obtain ⟨pc, hmem, hpc⟩ := exists_set_of_not (t := s.setCall i y) hx rfl rfl hwrite
      exact .inr ⟨pc, hmem, waking_of_writing hpc⟩
    · rw [WorkerPc.not_draining_of_parking hparking] at hdraining
      cases hdraining
  · exact .inr (exists_set_of_not hx rfl rfl hold)

lemma WakeInv.won (hx : s.calls[i]? = some (.exchange w more)) :
    WakeInv n ({ s with wakePending := update s.wakePending w true }.setCall i
      (.write w more)) := by
  refine h.of_call hx rfl (.inl rfl) rfl (fun v _ => ⟨rfl, fun hpend => ?_, fun hflag => ?_, .inl,
    fun _ hold => ?_, .inl, fun _ hold => ?_⟩) (fun v => id) trivial nofun
  · by_cases hv : v = w
    · exact .inr (exists_set_self hx (decide_eq_true hv.symm))
    · have hold : update s.wakePending w true v = true := hpend
      rw [update_of_ne hv] at hold
      exact .inl hold
  · exact hflag.imp_right (exists_set_of_not hx rfl rfl)
  · exact hold.imp_right fun hwaking => exists_set hx hwaking id
  · exact .inr (exists_set_of_not hx rfl rfl hold)

lemma WakeInv.delivered (hx : s.calls[i]? = some (.write w more))
    (hclaim : y.ClaimOk n.count) (tokens : Nat → Nat) (hw : 0 < tokens w)
    (hother : ∀ v, s.tokens v ≤ tokens v) : WakeInv n ({ s with tokens := tokens }.setCall i y) := by
  have htoken : ∀ v, 0 < s.tokens v → 0 < tokens v := fun v hv => lt_of_lt_of_le hv (hother v)
  refine h.of_call hx rfl (.inl rfl) rfl (fun v _ => ⟨rfl, .inl, fun hflag => ?_, .inl,
    fun _ hold => ?_, .inl, fun _ hold => ?_⟩) (fun v => id) hclaim nofun
  · rcases hflag with htok | hwrite
    · exact .inl (htoken v htok)
    · rcases exists_set_or hx hwrite y with hset | hself
      · exact .inr hset
      · exact .inl (of_decide_eq_true hself ▸ hw)
  · rcases hold with htok | hwaking
    · exact .inl (htoken v htok)
    · rcases exists_set_or hx hwaking y with hset | hself
      · exact .inr hset
      · exact .inl (of_decide_eq_true hself ▸ hw)
  · exact .inr (exists_set_of_not hx rfl rfl hold)

lemma WakeInv.claimCas {observed : BitVec 64} (hx : s.calls[i]? = some (.claimCas start pos more observed)) :
    WakeInv n (s.claimCas n.count i start pos more observed) := by
  obtain ⟨word, allowed, hword, hne⟩ := h.claims _ (List.mem_of_getElem? hx)
  rw [ParkState.claimCas, hword]
  dsimp only
  by_cases hobs : s.idle word = observed
  · have hsel := lowest_lt hne
    have hbit := getLsbD_lowest hne
    rw [BitVec.getLsbD_and, and_eq_true] at hbit
    have htest : test s.idle (word * 64 + lowest (observed &&& allowed)) = true := by
      rw [test_word_mul_add _ _ hsel, hobs]
      exact hbit.1
    have hlt : word * 64 + lowest (observed &&& allowed) < n.count := by
      by_contra hge
      rw [(h.spare _ (Nat.le_of_not_lt hge)).2] at htest
      cases htest
    rw [if_pos hobs, if_pos hlt]
    have hclaimed := h.claimed more hx hlt (fun _ => ⟨rfl, rfl⟩) nofun
    rw [erase_word_mul_add _ _ hsel, hobs] at hclaimed
    exact hclaimed
  · rw [if_neg hobs]
    exact h.of_quiet_call hx
      { claim := claimNext_claimOk hword, start := fun hstart => claimNext_starting hword (of_decide_eq_true hstart) }

lemma WakeInv.claimLoad (hx : s.calls[i]? = some (.claimLoad start pos more)) :
    WakeInv n (s.claimLoad n.count i start pos more) := by
  rw [ParkState.claimLoad]
  split
  · rename_i hnone
    refine h.of_quiet_call hx { start := fun hstart => ?_ }
    rw [claimWord, if_pos (of_decide_eq_true hstart)] at hnone
    cases hnone
  · rename_i word allowed hword
    exact h.of_quiet_call hx
      { claim := claimNext_claimOk hword, start := fun hstart => claimNext_starting hword (of_decide_eq_true hstart) }

lemma WakeInv.inboxPublish {target : Nat} {pos : UInt64} (hx : s.calls[i]? = some (.inboxPublish target pos)) :
    WakeInv n ((s.setInbox target ((s.inbox target).store pos (pos + 1))).setCall i
      (.clearIdle target)) := by
  refine h.of_call hx rfl (.inl rfl) rfl (fun w _ => ?_) (fun w => id) trivial nofun
  refine follows_of_quiet hx rfl rfl rfl rfl rfl .inl fun hpublished => ?_
  by_cases hw : w = target
  · exact .inr (exists_set_self hx (decide_eq_true hw.symm))
  · have hold : (update s.inbox target ((s.inbox target).store pos (pos + 1)) w).published = true := hpublished
    rw [update_of_ne hw] at hold
    exact .inl hold

lemma WakeInv.notIdle {target : Nat} (hx : s.calls[i]? = some (.clearIdle target))
    (hclear : test s.idle target = false) : WakeInv n (s.setCall i .done) := by
  refine h.of_call hx rfl (.inl rfl) rfl (fun w hw => ⟨rfl, .inl, fun hflag => ?_, .inl,
    fun _ hold => ?_, .inl, fun hparking hold => ?_⟩) (fun w => id) trivial nofun
  · exact hflag.imp_right (exists_set_of_not hx rfl rfl)
  · exact hold.imp_right (exists_set_of_not hx rfl rfl)
  · rcases exists_set_or hx hold .done with hset | hself
    · exact .inr hset
    obtain rfl : target = w := of_decide_eq_true hself
    rcases (h.views target hw).idle hparking with hidle | htok | hwaking
    · rw [view, hclear] at hidle
      cases hidle
    · exact .inl (.inl htok)
    · exact .inl (.inr (exists_set_of_not hx rfl rfl hwaking))

lemma callStep_wake (hs : s.callStep n.count i = some t) : WakeInv n t := by
  unfold callStep at hs
  cases hx : s.calls[i]? with
  | none =>
    rw [hx] at hs
    cases hs
  | some pc =>
    rw [hx] at hs
    cases pc <;> dsimp only at hs
    case done | write => cases hs
    case insert k start more =>
      obtain ⟨-, rfl⟩ := of_guard hs
      exact h.of_quiet_call hx {}
    case count k start more =>
      cases hs
      exact h.of_quiet_call hx { size := .inr rfl }
    case claimLoad start pos more =>
      cases hs
      exact h.claimLoad hx
    case claimCas start pos more observed =>
      cases hs
      exact h.claimCas hx
    case notify more | inboxLoadPos target =>
      cases hs
      exact h.of_quiet_call hx {}
    case exchange w more =>
      split at hs <;> cases hs
      · rename_i hpend
        exact h.coalesced hx hpend (afterWake_claimOk more)
      · exact h.won hx
    case inboxLoadSeq target pos =>
      split at hs
      · cases hs
        exact h.of_quiet_call hx {}
      · split at hs <;> cases hs <;> exact h.of_quiet_call hx {}
    case inboxCas target pos =>
      split at hs <;> cases hs
      · refine h.of_quiet_call hx { inbox := fun w => ?_ }
        show (update s.inbox target _ w).published = _
        by_cases hw : w = target
        · rw [hw, update_self]
          rfl
        · rw [update_of_ne hw]
      · exact h.of_quiet_call hx {}
    case inboxPublish target pos =>
      cases hs
      exact h.inboxPublish hx
    case clearIdle target =>
      split at hs <;> cases hs
      · rename_i hidle
        have hlt : target < n.count := by
          by_contra hge
          rw [(h.spare _ (Nat.le_of_not_lt hge)).2] at hidle
          cases hidle
        exact h.claimed 0 hx hlt (fun _ => ⟨rfl, rfl⟩) fun v hv => (of_decide_eq_true hv).symm
      · rename_i hidle
        exact h.notIdle hx (eq_false_iff.mpr hidle)

lemma writeWake_wake (hx : s.calls[i]? = some (.write w more)) {r : WriteResult} (hmay : eventfdMay (s.tokens w) r) :
    WakeInv n (s.writeWake i w more r) := by
  cases r with
  | written =>
    refine h.delivered hx (afterWake_claimOk more) _ ?_ fun v => ?_
    · rw [update_self]
      exact succ_pos _
    · by_cases hv : v = w
      · rw [hv, update_self]
        exact le_succ _
      · rw [update_of_ne hv]
  | eintr => exact h
  | eagain =>
    have hfull : s.tokens w = eventfdMax := of_decide_eq_true hmay
    refine h.delivered hx (afterWake_claimOk more) s.tokens ?_ fun v => le_rfl
    rw [hfull]
    decide
  | failed => cases hmay

end

end Calls

/-! ### Workers -/

section WorkerSteps

variable {n : Workers} {s t : ParkState} {w : Nat}

lemma WorkerPc.pastGlobal_of_not_parking (h : pc.parking = false) : pc.pastGlobal = false := by
  rw [eq_false_iff]
  intro hpast
  rw [WorkerPc.parking_of_pastGlobal hpast] at h
  cases h

lemma WakeInv.of_worker (h : WakeInv n s) (hw : w < n.count) (hcalls : t.calls = s.calls)
    (hother : ∀ v, v ≠ w → t.view v = s.view v) (hself : (t.view w).Ok) (halert : t.size = 0 ∨ (t.view w).Alert ∨
      (t.size = s.size ∧ ((s.view w).Alert → (t.view w).Alert))) : WakeInv n t := by
  refine ⟨fun v hv => ?_, fun hsize => ?_, fun v hv => ?_, ?_⟩
  · by_cases hvw : v = w
    · exact hvw ▸ hself
    · exact hother v hvw ▸ h.views v hv
  · rcases halert with hzero | halert | ⟨hsame, hkeep⟩
    · exact absurd hzero hsize
    · exact .inl ⟨w, hw, halert⟩
    · rw [hsame] at hsize
      rw [hcalls]
      rcases h.served hsize with ⟨v, hv, halert⟩ | hstart
      · by_cases hvw : v = w
        · exact .inl ⟨w, hw, hkeep (hvw ▸ halert)⟩
        · exact .inl ⟨v, hv, hother v hvw ▸ halert⟩
      · exact .inr hstart
  · have hview := hother v (ne_of_gt (hw.trans_le hv))
    obtain ⟨hrun, hclear⟩ := h.spare v hv
    exact ⟨(congrArg WorkerView.pc hview).trans hrun, (congrArg WorkerView.idle hview).trans hclear⟩
  · rw [hcalls]
    exact h.claims

lemma WakeInv.of_awake (h : WakeInv n s) (hw : w < n.count) (hcalls : t.calls = s.calls)
    (hother : ∀ v, v ≠ w → t.view v = s.view v) (hpc : (t.worker w).parking = false)
    (hflag : t.wakePending w → 0 < t.tokens w ∨ (t.view w).writing ∨ (t.worker w).draining) : WakeInv n t := by
  have hnot : ¬ (t.view w).pc.parking = true := eq_false_iff.mp hpc
  exact h.of_worker hw hcalls hother
    ⟨hflag, fun hpark => absurd hpark hnot, fun hpast => absurd (WorkerPc.parking_of_pastInbox hpast) hnot⟩
    (.inr (.inl (.inl (WorkerPc.pastGlobal_of_not_parking hpc))))

lemma setWorker_view_of_ne {v : Nat} (hne : v ≠ w) (pc : WorkerPc) : (s.setWorker w pc).view v = s.view v := by
  rw [view, setWorker_worker_of_ne s hne]
  rfl

lemma setWorker_view_self (pc : WorkerPc) : (s.setWorker w pc).view w = { s.view w with pc := pc } := by
  rw [view, setWorker_worker_self]
  rfl

section

variable (h : WakeInv n s) (hw : w < n.count)
include h hw

/-- The worker moves on; a move into the parked region is made with the idle bit set, past the inbox
with the inbox empty, past the global queue with the size zero. -/
lemma WakeInv.move {old : WorkerPc} (hpc : s.worker w = old)
    (hpark : pc.parking → old.parking = true := by rintro ⟨⟩)
    (hinbox : pc.pastInbox → old.pastInbox ∨ (s.inbox w).published = false := by rintro ⟨⟩)
    (hglob : pc.pastGlobal → t.size = 0 ∨ (t.size = s.size ∧ old.pastGlobal) := by rintro ⟨⟩)
    (hdrain : old.draining → pc.draining = true := by first | exact fun _ => rfl | rintro ⟨⟩)
    (hview : ∀ v, t.view v = s.view v := by exact fun _ => rfl) (hcalls : t.calls = s.calls := by rfl) :
    WakeInv n (t.setWorker w pc) := by
  subst hpc
  have hok := h.views w hw
  have hself : (t.setWorker w pc).view w = { s.view w with pc := pc } := by
    rw [setWorker_view_self, hview]
  refine h.of_worker hw hcalls (fun v hv => (setWorker_view_of_ne hv pc).trans (hview v)) ?_ ?_
  · rw [hself]
    refine ⟨fun hpend => ?_, fun hpc => hok.idle (hpark hpc), fun hpc hpublished => ?_⟩
    · exact (hok.flag hpend).imp_right (Or.imp_right hdrain)
    · rcases hinbox hpc with hpast | hempty
      · exact hok.inbox hpast hpublished
      · rw [show (s.view w).published = false from hempty] at hpublished
        cases hpublished
  · rw [hself]
    cases hpast : pc.pastGlobal with
    | false => exact .inr (.inl (.inl hpast))
    | true =>
      rcases hglob hpast with hzero | ⟨hsize, hold⟩
      · exact .inl hzero
      · refine .inr (.inr ⟨hsize, fun halert => ?_⟩)
        rcases halert with hnot | hroused
        · rw [show (s.view w).pc.pastGlobal from hold] at hnot
          cases hnot
        · exact .inr hroused

lemma WakeInv.flag (hdrain : (s.worker w).draining = false)
    (hpend : s.wakePending w) {p : Prop} : 0 < s.tokens w ∨ (s.view w).writing ∨ p := by
  rcases (h.views w hw).flag hpend with htok | hwrite | hdraining
  · exact .inl htok
  · exact .inr (.inl hwrite)
  · rw [show (s.view w).pc.draining = false from hdrain] at hdraining
    cases hdraining

lemma WakeInv.setIdle (hpc : s.worker w = .setIdle) :
    WakeInv n ({ s with idle := insert s.idle w }.setWorker w .checkLocal) := by
  refine h.of_worker hw rfl (fun v hv => ?_) ?_ (.inr (.inl (.inl ?_)))
  · rw [setWorker_view_of_ne hv, view]
    rw [test_insert_of_ne _ hv]
    rfl
  · rw [setWorker_view_self]
    exact ⟨fun hpend => h.flag hw (hpc ▸ rfl) hpend, fun _ => .inl (test_insert_self _ _), nofun⟩
  · rw [setWorker_view_self]
    rfl

lemma WakeInv.clearIdle (hpark : pc.parking = false) (hdrain : (s.worker w).draining = false) :
    WakeInv n ({ s with idle := erase s.idle w }.setWorker w pc) := by
  refine h.of_awake hw rfl (fun v hv => ?_) ?_ fun hpend => ?_
  · rw [setWorker_view_of_ne hv, view]
    rw [test_erase_of_ne _ hv]
    rfl
  · rw [setWorker_worker_self]
    exact hpark
  · exact h.flag hw hdrain hpend

lemma WakeInv.drain {blocking : Bool} (hpc : s.worker w = .drain blocking) :
    WakeInv n { s with tokens := update s.tokens w 0 } := by
  refine h.of_awake hw rfl (fun v hv => ?_) ?_ fun _ => .inr (.inr ?_)
  · rw [view]
    dsimp only
    rw [update_of_ne hv]
    rfl
  · rw [hpc]
    rfl
  · rw [hpc]
    rfl

lemma WakeInv.resetPending (blocking : Bool) :
    WakeInv n ({ s with wakePending := update s.wakePending w false }.setWorker w
      (.leavePoll blocking)) := by
  refine h.of_awake hw rfl (fun v hv => ?_) ?_ fun hpend => ?_
  · rw [setWorker_view_of_ne hv, view]
    dsimp only
    rw [update_of_ne hv]
    rfl
  · rw [setWorker_worker_self]
    rfl
  · have hreset : update s.wakePending w false w = true := hpend
    rw [update_self] at hreset
    cases hreset

lemma WakeInv.setInbox (b : Inbox)
    (hdrain : (s.worker w).draining = false) : WakeInv n ((s.setInbox w b).setWorker w .running) := by
  refine h.of_awake hw rfl (fun v hv => ?_) ?_ fun hpend => ?_
  · rw [setWorker_view_of_ne hv, ParkState.view, ParkState.setInbox]
    dsimp only
    rw [update_of_ne hv]
    rfl
  · rw [setWorker_worker_self]
    rfl
  · exact h.flag hw hdrain hpend

end

lemma workerStep_wake {found : Bool} (h : WakeInv n s) (hw : w < n.count)
    (hs : s.workerStep n.count w found = some t) : WakeInv n t := by
  unfold workerStep at hs
  cases hpc : s.worker w <;> rw [hpc] at hs <;> dsimp only at hs
  case running => cases hs
  case popLock batch =>
    obtain ⟨-, hs⟩ := ite_none_right_eq_some.mp hs
    split at hs <;> cases hs
    all_goals exact h.move hw hpc
  case popSub k =>
    cases hs
    exact h.move hw hpc
  case inboxTake =>
    cases hs
    exact h.setInbox hw _ (hpc ▸ rfl)
  case setIdle =>
    cases hs
    exact h.setIdle hw hpc
  case checkLocal =>
    cases hs
    cases found
    · exact h.move hw hpc id
    · exact h.move hw hpc
  case checkInbox =>
    cases hs
    cases hpublished : (s.inbox w).published
    · exact h.move hw hpc id fun _ => .inr hpublished
    · exact h.move hw hpc
  case checkGlobal =>
    cases hs
    split
    · exact h.move hw hpc
    · rename_i hzero
      exact h.move hw hpc id (fun _ => .inl rfl) fun _ => .inl (not_not.mp hzero)
  case checkRest =>
    cases hs
    cases found
    · exact h.move hw hpc id (fun _ => .inl rfl) fun _ => .inr ⟨rfl, rfl⟩
    · exact h.move hw hpc
  case enterPoll blocking =>
    split at hs <;> cases hs
    · cases blocking
      all_goals exact h.move hw hpc
    · exact h.move hw hpc id .inl fun hpast => .inr ⟨rfl, hpast⟩
  case inPoll blocking =>
    obtain ⟨-, rfl⟩ := of_unless hs
    exact h.move hw hpc
  case returned blocking sawWake =>
    cases hs
    refine h.clearIdle hw ?_ (hpc ▸ rfl)
    cases sawWake <;> rfl
  case drain blocking =>
    split at hs <;> cases hs
    · exact h.move hw hpc
    · exact h.drain hw hpc
  case resetPending blocking =>
    cases hs
    exact h.resetPending hw blocking
  case leavePoll blocking =>
    cases hs
    cases blocking
    all_goals exact h.move hw hpc
  case leavePark =>
    cases hs
    exact h.clearIdle hw rfl (hpc ▸ rfl)

lemma startStep_wake (h : WakeInv n s) (hw : w < n.count)
    (hpc : pc.parking = false) (hs : s.startStep w pc = some t) : WakeInv n t := by
  unfold startStep at hs
  split at hs <;> cases hs
  rename_i hrun
  have hnot : ¬ pc.parking = true := eq_false_iff.mp hpc
  exact h.move hw hrun (fun hpark => absurd hpark hnot)
    (fun hpast => absurd (WorkerPc.parking_of_pastInbox hpast) hnot)
    (fun hpast => absurd (WorkerPc.parking_of_pastGlobal hpast) hnot)

end WorkerSteps

/-! ### Every interleaving -/

lemma WakeInv.addCall {s : ParkState} (h : WakeInv n s) {pc : CallPc}
    (hpc : pc.ClaimOk n.count) : WakeInv n (s.addCall pc) := by
  have hview : ∀ w, (s.view w).Follows ((s.addCall pc).view w) := fun w =>
    ⟨rfl, .inl, Or.imp_right fun hold => exists_append hold pc, .inl,
      fun _ => Or.imp_right fun hold => exists_append hold pc, .inl,
      fun _ hold => .inr (exists_append hold pc)⟩
  refine ⟨fun w hw => (hview w).ok (h.views w hw), fun hsize => ?_, h.spare, forall_append h.claims hpc⟩
  rcases h.served hsize with ⟨w, hw, halert⟩ | hstart
  · exact .inl ⟨w, hw, (hview w).alert halert⟩
  · exact .inr (exists_append hstart pc)

lemma parkStep_wake {s t : ParkState} {act : ParkAct} (h : WakeInv n s)
    (hs : parkStep n s act = some t) : WakeInv n t := by
  cases act with
  | push =>
    cases hs
    exact h.addCall trivial
  | pushBatch | spill =>
    obtain ⟨-, rfl⟩ := of_unless hs
    exact h.addCall trivial
  | enqueueRemote =>
    obtain ⟨-, rfl⟩ := of_guard hs
    exact h.addCall trivial
  | call => exact callStep_wake h hs
  | weakFail i =>
    simp only [parkStep, weakFail] at hs
    split at hs <;> cases hs
    rename_i hx
    exact h.of_quiet_call hx {}
  | write i r =>
    simp only [parkStep] at hs
    split at hs
    · rename_i hx
      obtain ⟨hmay, rfl⟩ := of_guard hs
      exact writeWake_wake h hx hmay
    · cases hs
  | popGlobal | popInbox =>
    simp only [parkStep, ite_none_right_eq_some] at hs
    refine startStep_wake h hs.1 ?_ hs.2
    split <;> rfl
  | pollNow | park =>
    simp only [parkStep, ite_none_right_eq_some] at hs
    exact startStep_wake h hs.1 rfl hs.2
  | worker =>
    simp only [parkStep, ite_none_right_eq_some] at hs
    exact workerStep_wake h hs.1 hs.2
  | foreignPoll =>
    obtain ⟨-, rfl⟩ := of_unless hs
    exact { h with }
  | foreignDone =>
    obtain ⟨-, rfl⟩ := of_guard hs
    exact { h with }

lemma wakeInv_init (n : Workers) : WakeInv n {} := by
  refine ⟨fun w _ => ⟨nofun, nofun, nofun⟩, (absurd rfl ·), fun w _ => ⟨rfl, ?_⟩, nofun⟩
  exact BitVec.getLsbD_zero

lemma countInv_init : CountInv {} 0 := ⟨rfl, nofun, nofun, fun _ => rfl, by decide⟩

/-- **No wakeup is lost.** In every interleaving whose insertions leave fewer than `2 ^ 32` frames in the
global queue, no work waits for sleeping workers without a token or a producer that is still waking. -/
theorem no_lost_wakeup_of_queue_fits (n : Workers) (s : ParkState)
    (hs : (parkSystem n).ReachableVia QueueFits s) : NoLostWakeup n s := by
  have hinv := hs.invariant (P := fun s => WakeInv n s ∧ ∃ taken, CountInv s taken)
    (fun s hinit => by
      obtain rfl : s = {} := hinit
      exact ⟨wakeInv_init n, 0, countInv_init⟩)
    fun s act t h hfits hstep => by
      obtain ⟨hwake, taken, hcount⟩ := h
      exact ⟨parkStep_wake hwake hstep, parkStep_count hcount hfits hstep⟩
  obtain ⟨hwake, taken, hcount⟩ := hinv
  exact hwake.noLostWakeup hcount

theorem no_lost_wakeup_push_to_sleeper :
    ∃ s, (parkSystem ⟨1, Nat.one_pos⟩).ReachableVia QueueFits s ∧ s.queued = 1 ∧ s.worker 0 = .inPoll true ∧
      NoLostWakeup ⟨1, Nat.one_pos⟩ s := by
  obtain ⟨s, hs, hqueued, hpc⟩ := (parkSystem ⟨1, Nat.one_pos⟩).reachableVia_of_run QueueFits {}
    [.park 0, .worker 0 false, .worker 0 false, .worker 0 false, .worker 0 false, .worker 0 false,
     .worker 0 false, .push 0, .call 0, .call 0, .call 0, .call 0, .call 0, .write 0 .written]
    (fun s => s.queued = 1 ∧ s.worker 0 = .inPoll true) rfl (by decide +kernel)
  exact ⟨s, hs, hqueued, hpc, no_lost_wakeup_of_queue_fits _ s hs⟩

/-- While the only worker is busy, two batches of `2 ^ 31` frames arrive; the size counter is zero
again, the worker sees no work and sleeps. -/
theorem lost_wakeup_at_wrapped_size :
    ¬ ∀ s, (parkSystem ⟨1, Nat.one_pos⟩).Reachable s → NoLostWakeup ⟨1, Nat.one_pos⟩ s := by
  intro hall
  obtain ⟨s, hs, hqueued, hpc, htok, hcalls⟩ := (parkSystem ⟨1, Nat.one_pos⟩).reachable_of_run {}
    [.pushBatch 0x80000000 0, .call 0, .call 0, .call 0, .call 0,
     .pushBatch 0x80000000 0, .call 1, .call 1, .call 1, .call 1,
     .park 0, .worker 0 false, .worker 0 false, .worker 0 false, .worker 0 false, .worker 0 false,
     .worker 0 false]
    (fun s => s.queued = 4294967296 ∧ s.worker 0 = .inPoll true ∧ s.tokens 0 = 0 ∧
      ∀ pc ∈ s.calls, pc.published = false) rfl (by decide +kernel)
  have hbar : ∀ w, w < 1 → s.Blocked w := fun w hw => by
    obtain rfl : w = 0 := Nat.lt_one_iff.mp hw
    exact hpc
  rcases (hall s hs).globalQueue (by omega) hbar with ⟨w, hw, hpos⟩ | ⟨pc, hmem, hpub⟩
  · obtain rfl : w = 0 := Nat.lt_one_iff.mp hw
    omega
  · rw [hcalls pc hmem] at hpub
    cases hpub

end Cio.Sched
