import Cio.TaskGroupKept

/-! `join()` over every interleaving in which no start adds to a claimed zero. A joiner goes on after a moment without
outstanding children, it is woken once, nobody stays parked, and the failure it sees is the first one. -/

namespace Cio.TaskGroup

open CallPool Parking List Pc

/-! ### The clock -/

/-- Whoever goes on, and whoever is going to be woken, began before the last moment without children. -/
structure Timed (s : State) : Prop where
  now : s.children = 0 → s.zeroAt = s.clock
  before : s.zeroAt ≤ s.clock
  began : ∀ t ∈ s.tasks, t.began ≤ s.clock
  resumed : ∀ t ∈ s.tasks, t.pc.resumed = true → t.began ≤ s.zeroAt
  carried : ∀ x ∈ s.tasks, ∀ n ∈ x.carries, ∀ w, s.tasks[n]? = some w → w.began ≤ s.zeroAt

variable {s v : State} {r t : Task} {i : Nat} {pc : Pc}

section Ticking

variable (h : Timed s) (hclock : v.clock = s.clock) (hzero : v.zeroAt = s.zeroAt)
include h hclock hzero

lemma zeroAt_le_tick : s.zeroAt ≤ v.tick.zeroAt ∧ v.tick.zeroAt ≤ v.tick.clock ∧ v.tick.clock = s.clock + 1 := by
  have hpre := h.before
  have hcases : v.tick.zeroAt = v.clock + 1 ∨ v.tick.zeroAt = v.zeroAt := by
    show (if v.children = 0 then v.clock + 1 else v.zeroAt) = v.clock + 1 ∨ _
    split
    · exact .inl rfl
    · exact .inr (if_neg ‹_›)
  have hticked : v.tick.clock = v.clock + 1 := rfl
  omega

lemma Timed.tick
    (hlook : ∀ (n : Nat) (w : Task), v.tasks[n]? = some w → ∃ z, s.tasks[n]? = some z ∧ z.began = w.began)
    (hres : ∀ t ∈ v.tasks, t.pc.resumed → t.began ≤ s.zeroAt)
    (hcarried : ∀ x ∈ v.tasks, ∀ n ∈ x.carries, ∀ w, s.tasks[n]? = some w → w.began ≤ s.zeroAt) : Timed v.tick := by
  obtain ⟨hlater, hpre, hticked⟩ := zeroAt_le_tick h hclock hzero
  refine ⟨fun hnone => if_pos hnone, hpre, fun t ht => ?_, fun t ht hpc => ?_, fun x hx n hn w hw => ?_⟩
  · obtain ⟨n, hn⟩ := mem_iff_getElem?.mp ht
    obtain ⟨z, hz, hbegan⟩ := hlook n t hn
    have hold := h.began z (mem_of_getElem? hz)
    omega
  · exact le_trans (hres t ht hpc) hlater
  · obtain ⟨z, hz, hbegan⟩ := hlook n w hw
    rw [← hbegan]
    exact le_trans (hcarried x hx n hn z hz) hlater

lemma Timed.set (ht : s.tasks[i]? = some t) (htasks : v.tasks = s.tasks.set i r)
    (hbegan : r.began = t.began) (hres : r.pc.resumed → r.began ≤ s.zeroAt)
    (hcarried : ∀ n ∈ r.carries, ∀ w, s.tasks[n]? = some w → w.began ≤ s.zeroAt) : Timed v.tick := by
  refine h.tick hclock hzero (fun n w hw => ?_) ?_ ?_
  · rw [htasks] at hw
    exact lookup_set Task.began ht hbegan n w hw
  · rw [htasks]
    exact forall_set h.resumed hres i
  · rw [htasks]
    exact forall_set h.carried hcarried i

lemma timed_plain (ht : s.tasks[i]? = some t) (htasks : v.tasks = s.tasks.set i r) (hbegan : r.began = t.began)
    (hres : r.pc.resumed = false) (hcar : r.pc.carries = []) : Timed v.tick := by
  refine h.set hclock hzero ht htasks hbegan (fun hpc => ?_) (fun n hn => ?_)
  · rw [hres] at hpc
    cases hpc
  · rw [Task.carries, hcar] at hn
    cases hn

end Ticking

lemma Timed.all_before (h : Timed s) (hnone : s.children = 0) : ∀ t ∈ s.tasks, t.began ≤ s.zeroAt := by
  intro t ht
  rw [h.now hnone]
  exact h.began t ht

lemma timed_move (h : Timed s) (hsound : Sound s)
    (ht : s.tasks[i]? = some t) (hmove : Move s t pc) : Timed (s.setPc i t pc).tick := by
  have hmem := mem_of_getElem? ht
  refine h.set rfl rfl ht rfl rfl (fun hpc => ?_) (fun n hn => ?_)
  · cases hmove with
    | resume _ hword =>
      refine h.all_before ?_ t hmem
      rw [hsound.count, hword]
      rfl
    | rethrow hold | returned hold | threw hold => exact h.resumed t hmem (hold ▸ rfl)
    | finish =>
      rw [show resumed _ = false from (finish_counted _).2.2.2.2.2.1] at hpc
      cases hpc
    | startLoop | startLock | failed | finishSub | unclaimed | cancelled | awake | parkJoin => cases hpc
  · rw [Task.carries, hmove.alike.2.2.2.2.2.2.2] at hn
    cases hn

lemma timed_release (h : Timed s) (hsound : Sound s) (ht : s.tasks[i]? = some t) (hpc : t.pc = .finishStore) :
    Timed ({ s with waiters := [], outstanding := 0, locked := false }.setPc i t (.wakeList s.waiters)).tick := by
  have hnone : s.children = 0 := by
    rw [hsound.count, hsound.storing t (mem_of_getElem? ht) (hpc ▸ rfl)]
    exact countOf_finishing
  refine h.set rfl rfl ht rfl rfl nofun ?_
  exact fun n _ w hw => h.all_before hnone w (mem_of_getElem? hw)

lemma timed_wake (h : Timed s) {i n : Nat} {rest : List Nat} {t w : Task} (ht : s.tasks[i]? = some t)
    (hpc : t.pc = .wakeList (n :: rest)) (hw : s.tasks[n]? = some w) (hne : n ≠ i) :
    Timed ((s.setTask n { w with pc := .resume, wakes := w.wakes + 1 }).setPc i t (.wakeList rest)).tick := by
  have hold := h.carried t (mem_of_getElem? ht)
  rw [Task.carries, hpc] at hold
  refine h.tick rfl rfl (lookup_set_set Task.began ht rfl hw rfl hne) ?_ ?_
  · refine forall_set (forall_set h.resumed (fun _ => ?_) n) (by rintro ⟨⟩) i
    exact hold n mem_cons_self w hw
  · refine forall_set (forall_set h.carried (fun m hm => (by cases hm)) n) (fun m hm => ?_) i
    exact hold m (mem_cons_of_mem n hm)

/-! ### Failures -/

/-- The stored exception is that of the first failure, and a join that has returned saw it if there was one. -/
structure Reported (s : State) : Prop where
  first : s.firstException = s.failures.head?
  has : s.hasException = s.firstException.isSome
  joined : ∀ t ∈ s.tasks, ∀ failure failures, t.pc = .joined failure failures →
    failure = failures.head? ∧ failures <+: s.failures

lemma Reported.set {s v : State} (h : Reported s) {i : Nat} (htasks : v.tasks = s.tasks.set i r := by rfl)
    (hjoin : ∀ failure failures, r.pc = .joined failure failures →
      failure = failures.head? ∧ failures <+: s.failures := by rintro _ _ ⟨⟩)
    (hfirst : v.firstException = s.firstException := by rfl) (hhas : v.hasException = s.hasException := by rfl)
    (hfailures : v.failures = s.failures := by rfl) : Reported v := by
  refine ⟨by rw [hfirst, hfailures, h.first], by rw [hhas, hfirst, h.has], ?_⟩
  rw [htasks, hfailures]
  exact forall_set h.joined hjoin i

lemma reported_move (h : Reported s) (hmove : Move s t pc) : Reported (s.setPc i t pc) := by
  refine h.set rfl fun failure failures hpc => ?_
  cases hmove with
  | returned _ hthrew =>
    cases hpc
    refine ⟨?_, prefix_refl _⟩
    rw [h.has, h.first] at hthrew
    exact (Option.isSome_eq_false_iff.mp hthrew |> Option.isNone_iff_eq_none.mp).symm
  | threw =>
    cases hpc
    exact ⟨h.first, prefix_refl _⟩
  | @finish direct _ => cases direct <;> cases hpc
  | startLoop | startLock | failed | finishSub | unclaimed | cancelled | awake | resume
  | parkJoin | rethrow => cases hpc

lemma reported_fail (h : Reported s) {direct : Bool} : Reported ((s.childFailed i).setPc i t (.finish direct)) := by
  refine ⟨?_, rfl, ?_⟩
  · show some (s.firstException.getD i) = (s.failures ++ [i]).head?
    rw [h.first]
    cases s.failures <;> rfl
  · refine forall_set (fun y hy failure failures hpc => ?_) (fun failure failures hpc => ?_) i
    · obtain ⟨hhead, hprefix⟩ := h.joined y hy failure failures hpc
      exact ⟨hhead, hprefix.trans (prefix_append _ _)⟩
    · cases direct <;> cases hpc

/-! ### All books -/

def Task.Woken (t : Task) : Prop := Parking.Woken t.waited t.wakes t.pc.waiting t.pc.early

structure Kept (s : State) : Prop where
  sound : Sound s
  lot : Lot (Task.count waiting) Task.carries s.waiters s.tasks
  timed : Timed s
  reported : Reported s
  woken : ∀ t ∈ s.tasks, t.Woken

lemma Kept.tick {v : State} (hsound : Sound v) (hlot : Lot (Task.count waiting) Task.carries v.waiters v.tasks)
    (htimed : Timed v.tick) (hreported : Reported v) (hwoken : ∀ t ∈ v.tasks, t.Woken) : Kept v.tick :=
  ⟨{ hsound with }, hlot, htimed, { hreported with }, hwoken⟩

lemma Move.early (h : Move s t pc) (hnew : pc.early) : t.pc.early = true := by
  cases h with
  | parkJoin hpc =>
    rw [hpc]
    rfl
  | @finish direct _ => cases direct <;> cases hnew
  | startLoop | startLock | failed | finishSub | unclaimed | cancelled | awake | resume
  | rethrow | returned | threw => cases hnew

section Plain

variable {s v : State} (h : Kept s) {i : Nat} {t : Task} (ht : s.tasks[i]? = some t) {pc : Pc}

include h ht

lemma woken_plain (hwait : t.pc.waiting = pc.waiting) (hearly : pc.early → t.pc.early) :
    ∀ y ∈ s.tasks.set i { t with pc := pc }, y.Woken := by
  refine forall_set h.woken ?_ i
  exact Parking.Woken.move (h.woken t (mem_of_getElem? ht)) hwait.symm hearly

lemma kept_plain {old : Pc} (hpc : t.pc = old) (hsound : Sound v) (hreported : Reported v)
    (htasks : v.tasks = s.tasks.set i { t with pc := pc } := by rfl) (hqueue : v.waiters = s.waiters := by rfl)
    (hclock : v.clock = s.clock := by rfl) (hzero : v.zeroAt = s.zeroAt := by rfl)
    (hwait : old.waiting = 0 ∧ pc.waiting = 0 := by exact ⟨rfl, rfl⟩)
    (hcar : old.carries = [] ∧ pc.carries = [] := by exact ⟨rfl, rfl⟩) (hearly : pc.early = false := by rfl)
    (hres : pc.resumed = false := by rfl) : Kept v.tick := by
  subst hpc
  refine .tick hsound ?_ (timed_plain h.timed hclock hzero ht htasks rfl hres hcar.2) hreported ?_
  · rw [htasks, hqueue]
    refine h.lot.move ht ?_ ?_
    · rw [Task.count, Task.count, hwait.1, hwait.2]
    · rw [Task.carries, Task.carries, hcar.1, hcar.2]
  · rw [htasks]
    refine woken_plain h ht (hwait.1.trans hwait.2.symm) (fun hnew => ?_)
    rw [hearly] at hnew
    cases hnew

end Plain

section

variable (h : Kept s) (ht : s.tasks[i]? = some t)

include h ht

lemma kept_move (hmove : Move s t pc) : Kept (s.setPc i t pc).tick := by
  obtain ⟨hcnt, hin, hin', hst, hw, hw', hl, hl'⟩ := hmove.alike
  refine .tick ?_ ?_ (timed_move h.timed h.sound ht hmove) (reported_move h.reported hmove)
    (woken_plain h ht (hw.trans hw'.symm) hmove.early)
  · exact h.sound.keep ht rfl (.inl rfl) rfl rfl rfl hcnt (hin.trans hin'.symm) hst hmove.gives_up.1 hmove.gives_up.2
  · refine h.lot.move ht ?_ ?_
    · rw [Task.count, Task.count, hw, hw']
    · rw [Task.carries, Task.carries, hl, hl']

lemma kept_fail {direct : Bool}
    (hpc : t.pc = .failed direct) : Kept ((s.childFailed i).setPc i t (.finish direct)).tick := by
  obtain ⟨hcnt, hin, hw, hl, hearly, hres, hst⟩ := finish_counted direct
  refine kept_plain h ht hpc ?_ (reported_fail h.reported) rfl rfl rfl rfl ⟨rfl, hw⟩ ⟨rfl, hl⟩ hearly hres
  exact h.sound.keep ht hpc (.inl rfl) rfl rfl rfl hcnt.symm hin.symm hst

lemma kept_release (hpc : t.pc = .finishStore) :
    Kept ({ s with waiters := [], outstanding := 0, locked := false }.setPc i t (.wakeList s.waiters)).tick := by
  refine .tick (sound_release h.sound ht hpc) ?_ (timed_release h.timed h.sound ht hpc)
    h.reported.set (woken_plain h ht (hpc ▸ rfl) nofun)
  refine h.lot.take ht ?_ ?_ ?_
  · rw [Task.count, Task.count, hpc]
    rfl
  · rw [Task.carries, hpc]
    rfl
  · show s.waiters.Perm (s.waiters ++ [])
    rw [append_nil]

lemma kept_park (hpc : t.pc = .parkJoin) (hword : s.outstanding ≠ 0) : Kept (s.park i t).tick := by
  have hold := h.woken t (mem_of_getElem? ht)
  rw [Task.Woken, hpc] at hold
  refine .tick (h.sound.keep ht hpc (.inr hword)) ?_ ?_ h.reported.set ?_
  · refine h.lot.park ht ?_ rfl ?_ (Perm.refl _)
    · rw [Task.count, hpc]
      rfl
    · rw [Task.carries, Task.carries, hpc]
      rfl
  · exact timed_plain h.timed rfl rfl ht rfl rfl rfl rfl
  · refine forall_set h.woken ?_ i
    exact Parking.Woken.park hold

end

lemma kept_wake (h : Kept s) {i n : Nat} {rest : List Nat} {t w : Task} (ht : s.tasks[i]? = some t)
    (hpc : t.pc = .wakeList (n :: rest)) (hw : s.tasks[n]? = some w) :
    Kept ((s.setTask n { w with pc := .resume, wakes := w.wakes + 1 }).setPc i t (.wakeList rest)).tick := by
  have hwpc : w.pc = .parked := by
    have hpos := h.lot.parked_pos ht (by rw [Task.carries, hpc]; exact List.mem_cons_self) hw
    rw [Task.count] at hpos
    cases hpc' : w.pc with
    | parked => rfl
    | _ =>
      rw [hpc'] at hpos
      cases hpos
  have hne : n ≠ i := ne_of_lookup Task.pc ht hw (by rw [hpc, hwpc]; simp)
  have ht₁ : (s.setTask n { w with pc := .resume, wakes := w.wakes + 1 }).tasks[i]? = some t := by
    rw [← ht]
    exact getElem?_set_ne hne
  refine .tick ?_ ?_ (timed_wake h.timed ht hpc hw hne) ?_ ?_
  · -- neither of the two calls has a part in the word
    have hfirst : Sound (s.setTask n { w with pc := .resume, wakes := w.wakes + 1 }) :=
      h.sound.keep hw hwpc (.inl rfl)
    exact hfirst.keep ht₁ hpc (.inl rfl)
  · refine h.lot.wake ht hw ?_ ?_ rfl ?_ rfl ?_
    · rw [Task.carries, hpc]
      rfl
    · rw [Task.count, hpc]
      rfl
    · rw [Task.count, hwpc]
      rfl
    · rw [Task.carries, Task.carries, hwpc]
      rfl
  · have hfirst : Reported (s.setTask n { w with pc := .resume, wakes := w.wakes + 1 }) := h.reported.set
    exact hfirst.set
  · have hold := h.woken w (mem_of_getElem? hw)
    have hcall := h.woken t (mem_of_getElem? ht)
    rw [Task.Woken, hwpc] at hold
    rw [Task.Woken, hpc] at hcall
    refine forall_set (forall_set h.woken ?_ n) ?_ i
    · exact Parking.Woken.wake hold
    · exact hcall

lemma kept_taskStep {s v : State} (h : Kept s) (ht : s.tasks[i]? = some t) (hs : TaskStep s i t v) : Kept v.tick := by
  cases hs with
  | move hmove => exact kept_move h ht hmove
  | start hpc hfits => exact kept_plain h ht hpc (sound_start h.sound ht hpc hfits) h.reported.set
  | enter hfree hpc =>
    have hsound := sound_enter h.sound ht hfree hpc
    rcases hpc with ⟨hpc, ⟨rfl, -⟩ | rfl⟩ | ⟨hpc, rfl, -⟩ <;> exact kept_plain h ht hpc hsound h.reported.set
  | store hpc => exact kept_plain h ht hpc (sound_store h.sound ht hpc) h.reported.set
  | add hpc hfits hword => exact kept_plain h ht hpc (sound_add h.sound ht hpc hfits hword) h.reported.set
  | fail hpc => exact kept_fail h ht hpc
  | claim hpc =>
    have hsound := sound_claim h.sound ht hpc
    rcases hpc with ⟨hpc, -⟩ | ⟨hpc, -⟩ <;> exact kept_plain h ht hpc hsound h.reported.set
  | sub hpc hword =>
    have hsound := sound_sub h.sound ht hpc hword
    by_cases hmore : 1 < s.outstanding
    · rw [if_pos hmore] at hsound ⊢
      exact kept_plain h ht hpc hsound h.reported.set
    · rw [if_neg hmore] at hsound ⊢
      exact kept_plain h ht hpc hsound h.reported.set
  | release hpc => exact kept_release h ht hpc
  | park hpc hword => exact kept_park h ht hpc hword
  | wake hpc hw => exact kept_wake h ht hpc hw

/-! ### New calls -/

lemma kept_start (h : Kept s) (hpc : pc = .startLoad ∨ pc = .joinLoad) : Kept (s.start pc).tick := by
  have hbooks : pc.counted = 0 ∧ pc.inside = 0 ∧ pc.stores = false ∧ pc.waiting = 0 ∧ pc.carries = [] ∧
      pc.resumed = false ∧ ∀ failure failures, pc ≠ .joined failure failures := by
    rcases hpc with rfl | rfl <;> exact ⟨rfl, rfl, rfl, rfl, rfl, rfl, by simp⟩
  obtain ⟨hcnt, hin, hst, hw, hl, hres, hnot⟩ := hbooks
  refine .tick ⟨h.sound.range, ?_, ?_, ?_, ?_, ?_⟩ (h.lot.append hw hl) ?_ ⟨h.reported.first, h.reported.has, ?_⟩ ?_
  · show weight (Task.count counted) (s.tasks ++ [_]) = _
    rw [weight_concat, Task.count, hcnt]
    exact h.sound.count
  · show weight (Task.count inside) (s.tasks ++ [_]) = _
    rw [weight_concat, Task.count, hin]
    exact h.sound.inside
  · refine forall_append h.sound.storing (fun hs => ?_)
    rw [show stores _ = false from hst] at hs
    cases hs
  · exact fun hfin => exists_append (h.sound.claimed hfin) _
  · exact fun hzero => (h.sound.zero hzero).imp_right fun hex => exists_append hex _
  · obtain ⟨hlater, hpre, hticked⟩ := zeroAt_le_tick (v := s.start pc) h.timed rfl rfl
    refine ⟨fun hnone => if_pos hnone, hpre, ?_, ?_, ?_⟩
    · refine forall_append (fun t ht => ?_) (le_rfl)
      exact Nat.le_succ_of_le (h.timed.began t ht)
    · refine forall_append (fun t ht hp => le_trans (h.timed.resumed t ht hp) hlater) (fun hp => ?_)
      rw [show resumed _ = false from hres] at hp
      cases hp
    · refine forall_append (fun x hx n hn w hnw => ?_) (fun n hn => ?_)
      · obtain ⟨j, hj⟩ := mem_iff_getElem?.mp hx
        obtain ⟨w', hw', -⟩ := h.lot.parked_of_carried hj hn
        have hold := (getElem?_append_left (List.getElem?_eq_some_iff.mp hw').1).symm.trans hnw
        exact le_trans (h.timed.carried x hx n hn w hold) hlater
      · rw [show Task.carries _ = pc.carries from rfl, hl] at hn
        cases hn
  · exact forall_append h.reported.joined (fun failure failures hnew => absurd hnew (hnot failure failures))
  · refine forall_append h.woken ?_
    show Parking.Woken false 0 pc.waiting pc.early
    rw [hw]
    exact Parking.Woken.start

lemma kept_groupStep {s u : State} {a : Act} (h : Kept s) (hfits : Fits s a) (hs : groupStep s a = some u) :
    Kept u := by
  rcases groupStep_cases hfits hs with ⟨pc, hpc, rfl⟩ | ⟨i, t, v, ht, htask, rfl⟩
  · exact kept_start h hpc
  · exact kept_taskStep h ht htask

lemma kept_of_reachable (hs : groupSystem.ReachableVia Fits s) : Kept s := by
  refine hs.invariant ?_ (fun s a u h hfits hst => kept_groupStep h hfits hst)
  rintro s rfl
  refine ⟨⟨Nat.zero_le _, rfl, rfl, ?_, by rintro ⟨⟩, fun _ => .inl rfl⟩, Lot.nil,
    ⟨fun _ => rfl, le_rfl, ?_, ?_, ?_⟩, ⟨rfl, rfl, ?_⟩, ?_⟩ <;> intro t ht <;> cases ht

/-! ### The guarantee -/

def Pc.completing : Pc → Bool
  | .failed _ | .finishDirect | .finishSub | .claim | .finishLock | .finishStore | .wakeList _ => true
  | _ => false

lemma completing_of (h : pc.claimed ∨ pc.carries ≠ [] ∨ pc = .claim) : pc.completing = true := by
  rcases h with h | h | h
  · cases pc <;> first | rfl | cases h
  · cases pc <;> first | rfl | exact absurd rfl h
  · rw [h]
    rfl

lemma Kept.not_parked (h : Kept s) (hnone : s.children = 0)
    (hquiet : ∀ t ∈ s.tasks, t.pc.completing = false) : ∀ t ∈ s.tasks, t.pc ≠ .parked := by
  intro t ht hpc
  obtain ⟨n, hn⟩ := mem_iff_getElem?.mp ht
  have hnobody : ∀ x ∈ s.tasks, ¬ (x.pc.claimed ∨ x.pc.carries ≠ [] ∨ x.pc = .claim) :=
    fun x hx hq => Bool.noConfusion ((hquiet x hx).symm.trans (completing_of hq))
  rcases h.lot.mem_or_carried hn (by rw [Task.count, hpc]; decide) with hmem | ⟨x, hx, hmem⟩
  · by_cases hword : s.outstanding = kFinishing
    · obtain ⟨x, hx, hclaimed⟩ := h.sound.claimed hword
      exact hnobody x hx (.inl hclaimed)
    · have hcount := h.sound.count
      rw [hnone, countOf_eq hword] at hcount
      rcases h.sound.zero hcount.symm with hempty | ⟨x, hx, hclaim⟩
      · rw [hempty] at hmem
        cases hmem
      · exact hnobody x hx (.inr (.inr hclaim))
  · exact hnobody x hx (.inr (.inl (ne_nil_of_mem hmem)))

lemma waiting_eq_zero : pc.waiting = 0 ↔ pc ≠ .parked := by
  cases pc <;> simp [waiting]

/-- A joiner goes on after a moment without children since it began; one that parked is woken once, and none stays
parked without children; it gets the first failure of those recorded so far. -/
structure JoinSafe (s : State) : Prop where
  afterZero : ∀ t ∈ s.tasks, t.pc.resumed = true → t.began ≤ s.zeroAt
  once : ∀ t ∈ s.tasks, t.wakes = if t.waited = true ∧ t.pc ≠ .parked then 1 else 0
  released : s.children = 0 → (∀ t ∈ s.tasks, t.pc.completing = false) → ∀ t ∈ s.tasks, t.pc ≠ .parked
  first : s.firstException = s.failures.head?
  joined : ∀ t ∈ s.tasks, ∀ failure failures, t.pc = .joined failure failures →
    failure = failures.head? ∧ failures <+: s.failures

/-- **While no start adds to a claimed zero, a joiner goes on after a moment without outstanding children, it is woken
once, and the failure it gets is that of the first child to fail.** -/
theorem join_safe {s : State} (hs : groupSystem.ReachableVia Fits s) : JoinSafe s := by
  have h := kept_of_reachable hs
  refine ⟨h.timed.resumed, fun t ht => ?_, h.not_parked, h.reported.first, h.reported.joined⟩
  rw [Parking.Woken.eq (h.woken t ht)]
  simp only [waiting_eq_zero]

/-- Two children fail one after the other while a join is parked; it is handed the failure of the first. -/
theorem join_safe_twoFailures : ∃ s, groupSystem.ReachableVia Fits s ∧
    s.tasks.map Task.pc = [.finished, .finished, .joined (some 1) [1, 0]] ∧ JoinSafe s := by
  obtain ⟨s, hs, hp⟩ := groupSystem.reachableVia_of_run Fits {}
    ([.spawn, .task 0 false false, .task 0 false false, .spawn, .task 1 false false, .task 1 false false, .join,
      .task 2 false false, .task 2 false false, .task 1 true false, .task 1 false false, .task 1 false false,
      .task 0 true false] ++ List.replicate 6 (.task 0 false false) ++ [.task 2 false false, .task 2 false false])
    (fun s => s.tasks.map Task.pc = [.finished, .finished, .joined (some 1) [1, 0]]) rfl (by decide +kernel)
  exact ⟨s, hs, hp, join_safe hs⟩

/-- Child 1 is started while child 0 completes and sees the claimed zero. Before it gets the lock, child 0 is done and
child 2 has been started; between its load and its addition under the lock, child 2 claims the next zero. The addition
wraps: child 1 is running, the word is zero, and a join goes on although a child has been outstanding since it began. -/
theorem join_beside_child : ∃ s, groupSystem.Reachable s ∧ s.zeroAt = 17 ∧ (s.tasks.map fun t => (t.began, t.pc)) =
      [(1, .finished), (6, .running false), (12, .finishLock), (19, .joined none [])] := by
  exact groupSystem.reachable_of_run {}
    [.spawn, .task 0 false false, .task 0 false false, .task 0 false false, .task 0 false false, .spawn,
      .task 1 false false, .task 1 false false, .task 0 false false, .task 0 false false, .task 0 false false, .spawn,
      .task 2 false false, .task 2 false false, .task 1 false false, .task 2 false false, .task 2 false false,
      .task 1 false false, .join, .task 3 false false, .task 3 false false]
    _ rfl (by decide +kernel)

end Cio.TaskGroup
