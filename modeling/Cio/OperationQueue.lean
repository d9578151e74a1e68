import Cio.OperationOwner

/-! Operations leave the queue in the order they joined it, and whoever leaves it is dispatched exactly once by
the operation that released the direction. -/

namespace Cio.Reactor.Operation

open CallPool Function Operation.Task List Queue Option

/-! ### One operation of the pool -/

variable {s u : State} {t t' w w' : Task} {d : Dir} {i n m : Nat} {q : Queue} {act : Act} {pc : Pc}

lemma at_set (ht : s.tasks[i]? = some t) (htasks : u.tasks = s.tasks.set i t') (n : Nat) (f : Task → Nat) :
    u.at n f + (if n = i then f t else 0) = s.at n f + (if n = i then f t' else 0) := by
  have hlt := (List.getElem?_eq_some_iff.mp ht).1
  by_cases hn : n = i
  · subst hn
    have ht' : u.tasks[n]? = some t' := by rw [htasks, getElem?_set_self hlt]
    rw [at_of_getElem ht, at_of_getElem ht', if_pos rfl, if_pos rfl, add_comm]
  · rw [State.at, State.at, htasks, getElem?_set_ne (Ne.symm hn), if_neg hn, if_neg hn]

lemma at_set_set (ht : s.tasks[i]? = some t) (hw : s.tasks[m]? = some w) (hne : m ≠ i)
    (htasks : u.tasks = (s.tasks.set m w').set i t') (n : Nat) (f : Task → Nat) :
    u.at n f + (if n = i then f t else 0) + (if n = m then f w else 0) =
      s.at n f + (if n = i then f t' else 0) + (if n = m then f w' else 0) := by
  have hi : (s.tasks.set m w')[i]? = some t := by rw [getElem?_set_ne hne, ht]
  have hfirst := at_set (s := s) (u := { s with tasks := s.tasks.set m w' }) hw rfl n f
  have hsecond := at_set (s := { s with tasks := s.tasks.set m w' }) hi htasks n f
  omega

lemma at_append (htasks : u.tasks = s.tasks ++ [t]) (n : Nat) {f : Task → Nat}
    (hzero : f t = 0) : u.at n f = s.at n f := by
  rw [State.at, State.at, htasks]
  rcases lt_trichotomy n s.tasks.length with hlt | rfl | hgt
  · rw [getElem?_append_left hlt]
  · rw [getElem?_concat_length, getElem?_eq_none (le_rfl)]
    exact hzero
  · rw [getElem?_eq_none (length_append ▸ hgt), getElem?_eq_none hgt.le]

lemma update_field {α : Type} (f : Queue → α) {queue : Dir → Queue}
    (hq : f q = f (queue d)) (d' : Dir) : f (update queue d q d') = f (queue d') := by
  by_cases hd : d' = d
  · rw [hd, update_self, hq]
  · rw [update_of_ne hd]

/-! ### Places -/

structure Pc.Alike (pc pc' : Pc) : Prop where
  waiting : pc.waiting = pc'.waiting
  handed : pc.handed = pc'.handed
  undispatched : pc.undispatched = pc'.undispatched
  carries : ∀ n, pc.carries n = pc'.carries n

lemma Move.alike {spurious : Bool} (h : Move s spurious t pc) : pc.Alike t.pc := by
  cases h <;> rw [‹t.pc = _›] <;> exact ⟨rfl, rfl, rfl, fun _ => rfl⟩

section

variable (h : Placed s d n) (ht : s.tasks[i]? = some t) (htasks : u.tasks = s.tasks.set i t')
include h ht htasks

lemma Placed.of_set (hqueued : (u.queue d).waiters.count n + (if n = i then t.along d Pc.waiting else 0) =
      (s.queue d).waiters.count n + (if n = i then t'.along d Pc.waiting else 0))
    (hhanded : handCount n (u.queue d).hand + (if n = i then t.along d Pc.handed else 0) =
      handCount n (s.queue d).hand + (if n = i then t'.along d Pc.handed else 0))
    (hcarried : t'.pc.carries n + (if n = i then t.pc.undispatched else 0) =
      t.pc.carries n + (if n = i then t'.pc.undispatched else 0)) : Placed u d n := by
  have hat := at_set ht htasks n
  have hsum := weight_set (Task.count (Pc.carries n)) ht t'
  rw [← htasks] at hsum
  refine ⟨?_, ?_, ?_⟩
  · have hwait := hat (along d Pc.waiting)
    have hold := h.queued
    omega
  · have hhand := hat (along d Pc.handed)
    have hold := h.handed
    omega
  · have hund := hat (Task.count Pc.undispatched)
    have hold := h.carried
    simp only [Task.count] at hsum hund hold ⊢
    omega

lemma Placed.set (hdir : t'.dir = t.dir)
    (halike : t'.pc.Alike t.pc) (hwaiters : (u.queue d).waiters = (s.queue d).waiters)
    (hhand : (u.queue d).hand = (s.queue d).hand) : Placed u d n := by
  refine h.of_set ht htasks ?_ ?_ ?_
  · rw [hwaiters, along, along, hdir, halike.waiting]
  · rw [hhand, along, along, hdir, halike.handed]
  · rw [halike.carries, halike.undispatched]

lemma Placed.set_update (hdir : t'.dir = t.dir)
    (halike : t'.pc.Alike t.pc) (hqueue : u.queue = update s.queue t.dir q)
    (hwaiters : q.waiters = (s.queue t.dir).waiters) (hhand : q.hand = (s.queue t.dir).hand) : Placed u d n :=
  h.set ht htasks hdir halike (by rw [hqueue, update_field waiters hwaiters])
    (by rw [hqueue, update_field hand hhand])

end

lemma Placed.frame (h : Placed s d n) (htasks : u.tasks = s.tasks)
    (hwaiters : (u.queue d).waiters = (s.queue d).waiters) (hhand : (u.queue d).hand = (s.queue d).hand) :
    Placed u d n := by
  refine ⟨?_, ?_, ?_⟩
  · rw [hwaiters, State.at, htasks]
    exact h.queued
  · rw [hhand, State.at, htasks]
    exact h.handed
  · rw [State.at, htasks]
    exact h.carried

lemma placed_start (h : Placed s d n) (hpc : t.pc = .enter)
    (htasks : u.tasks = s.tasks ++ [t]) (hqueue : u.queue = s.queue) : Placed u d n := by
  have halong : ∀ f : Pc → Nat, f .enter = 0 → t.along d f = 0 := by
    intro f hf
    rw [along, hpc, hf, ite_self]
  refine ⟨?_, ?_, ?_⟩
  · rw [hqueue, at_append htasks n (halong Pc.waiting rfl)]
    exact h.queued
  · rw [hqueue, at_append htasks n (halong Pc.handed rfl)]
    exact h.handed
  · rw [htasks, weight_concat, at_append htasks n]
    · rw [Task.count, hpc]
      exact h.carried
    · rw [Task.count, hpc]
      rfl

lemma placed_join (h : Placed s d n) (ht : s.tasks[i]? = some t) (hpc : t.pc = .upgrade ∨ t.pc = .inspect)
    (htasks : u.tasks = s.tasks.set i t') (hpc' : t'.pc = .queued) (hdir : t'.dir = t.dir)
    (hqueue : u.queue = update s.queue t.dir q) (hwaiters : q.waiters = (s.queue t.dir).waiters ++ [i])
    (hhand : q.hand = (s.queue t.dir).hand) : Placed u d n := by
  have hquiet : t.pc.waiting = 0 ∧ t.pc.handed = 0 ∧ t.pc.undispatched = 0 ∧ t.pc.carries n = 0 := by
    rcases hpc with hpc | hpc <;> rw [hpc] <;> exact ⟨rfl, rfl, rfl, rfl⟩
  obtain ⟨hwait, hhanded, hund, hcar⟩ := hquiet
  refine h.of_set ht htasks ?_ ?_ ?_
  · rw [hqueue, along, along, hdir, hpc', hwait]
    by_cases hd : d = t.dir
    · subst hd
      rw [update_self, hwaiters, count_append, count_singleton, if_pos rfl, if_pos rfl]
      by_cases hn : n = i
      · simp [hn, Pc.waiting]
      · simp [hn, Ne.symm hn]
    · rw [update_of_ne hd, if_neg (Ne.symm hd), if_neg (Ne.symm hd)]
  · rw [hqueue, update_field hand hhand, along, along, hdir, hpc', hhanded]
    rfl
  · rw [hpc', hund, hcar]
    rfl

lemma Placed.hand_of_granted (h : Placed s t.dir i)
    (ht : s.tasks[i]? = some t) (hpc : t.pc = .granted) : (s.queue t.dir).hand = some i := by
  have hhanded := h.handed
  rw [at_of_getElem ht, along, if_pos rfl, hpc] at hhanded
  cases hhand : (s.queue t.dir).hand with
  | none =>
    rw [hhand] at hhanded
    cases hhanded
  | some m =>
    rw [hhand, handCount] at hhanded
    split at hhanded
    · rename_i heq
      rw [heq]
    · cases hhanded

lemma placed_resume (h : ∀ d n, Placed s d n) (ht : s.tasks[i]? = some t) (hpc : t.pc = .granted)
    (htasks : u.tasks = s.tasks.set i t') (hpc' : t'.pc = .holding) (hqueue : u.queue = update s.queue t.dir q)
    (hwaiters : q.waiters = (s.queue t.dir).waiters) (hhand : q.hand = none) : Placed u d n := by
  have hgrant := (h t.dir i).hand_of_granted ht hpc
  refine (h d n).of_set ht htasks ?_ ?_ ?_
  · rw [hqueue, update_field waiters hwaiters, along, along, hpc, hpc']
    simp [Pc.waiting]
  · rw [hqueue, along, along, hpc, hpc']
    by_cases hd : d = t.dir
    · subst hd
      rw [update_self, hhand, hgrant, handCount, handCount, if_pos rfl]
      by_cases hn : n = i
      · simp [hn, Pc.handed]
      · simp [hn, Ne.symm hn]
    · rw [update_of_ne hd, if_neg (Ne.symm hd)]
      simp [Pc.handed]
  · rw [hpc, hpc']
    rfl

lemma placed_pass (h : Placed s d n) {rest : List Nat} {err : Option Error} (ht : s.tasks[i]? = some t)
    (hw : s.tasks[m]? = some w) (hne : m ≠ i) (hpc : t.pc = .release err) (hwpc : w.pc = .queued)
    (hwdir : w.dir = t.dir) (hhand : (s.queue t.dir).hand = none) (hwaiters : (s.queue t.dir).waiters = m :: rest)
    (htasks : u.tasks = (s.tasks.set m w').set i t') (hpc' : t'.pc.Alike (.dispatch err m)) (hwpc' : w'.pc = .popped)
    (hwdir' : w'.dir = w.dir) (hqueue : u.queue = update s.queue t.dir q) (hrest : q.waiters = rest)
    (hnext : q.hand = some m) : Placed u d n := by
  have hat := at_set_set ht hw hne htasks n
  have hsum := weight_set_set (Task.count (Pc.carries n)) ht hw hne t' w'
  rw [← htasks] at hsum
  refine ⟨?_, ?_, ?_⟩
  · have hwait := hat (along d Pc.waiting)
    have hold := h.queued
    simp only [along, hpc, hwpc, hpc'.waiting, hwpc', hwdir', hwdir] at hwait
    simp only [Pc.waiting, ite_self] at hwait
    rw [hqueue]
    by_cases hd : d = t.dir
    · subst hd
      rw [hwaiters, count_cons] at hold
      rw [update_self, hrest]
      simp only [beq_iff_eq, if_true, eq_comm (a := n)] at hwait hold
      omega
    · rw [update_of_ne hd]
      simp only [Ne.symm hd, if_false, ite_self] at hwait
      omega
  · have hhanded := hat (along d Pc.handed)
    have hold := h.handed
    simp only [along, hpc, hwpc, hpc'.handed, hwpc', hwdir', hwdir] at hhanded
    simp only [Pc.handed, ite_self] at hhanded
    rw [hqueue]
    by_cases hd : d = t.dir
    · subst hd
      rw [hhand] at hold
      rw [update_self, hnext]
      simp only [handCount, if_true, eq_comm (a := n)] at hhanded hold ⊢
      omega
    · rw [update_of_ne hd]
      simp only [Ne.symm hd, if_false, ite_self] at hhanded
      omega
  · have hund := hat (Task.count Pc.undispatched)
    have hold := h.carried
    simp only [Task.count, hpc, hwpc, hpc'.undispatched, hpc'.carries, hwpc'] at hund hsum hold
    simp only [Pc.undispatched, Pc.carries, eq_comm (a := n), ite_self] at hund hsum
    rw [hold] at hsum
    omega

lemma placed_dispatch (h : Placed s d n) {err : Option Error} (ht : s.tasks[i]? = some t) (hw : s.tasks[m]? = some w)
    (hne : m ≠ i) (hpc : t.pc = .dispatch err m) (hwpc : w.pc = .popped)
    (htasks : u.tasks = (s.tasks.set m w').set i t') (hpc' : t'.pc = .returned err) (hwpc' : w'.pc = .granted)
    (hwdir' : w'.dir = w.dir) (hqueue : u.queue = s.queue) : Placed u d n := by
  have hat := at_set_set ht hw hne htasks n
  have hsum := weight_set_set (Task.count (Pc.carries n)) ht hw hne t' w'
  rw [← htasks] at hsum
  refine ⟨?_, ?_, ?_⟩
  · have hwait := hat (along d Pc.waiting)
    have hold := h.queued
    simp only [along, hpc, hwpc, hpc', hwpc', Pc.waiting, ite_self] at hwait
    rw [hqueue]
    omega
  · have hhanded := hat (along d Pc.handed)
    have hold := h.handed
    simp only [along, hpc, hwpc, hpc', hwpc', hwdir', Pc.handed, ite_self] at hhanded
    rw [hqueue]
    omega
  · have hund := hat (Task.count Pc.undispatched)
    have hold := h.carried
    simp only [Task.count, hpc, hwpc, hpc', hwpc', Pc.undispatched, Pc.carries, eq_comm, ite_self] at hund hsum hold ⊢
    omega

lemma step_placed (hk : Kept s) (hfresh : CapturesFresh s) (hs : Step s act u) (d : Dir) (n : Nat) : Placed u d n := by
  have h := hk.placed d n
  cases hs with
  | attach | shut | awaited | detach | pin | unpin | bump | freed => exact h.frame rfl rfl rfl
  | start => exact placed_start h rfl rfl rfl
  | resetOwner d' =>
    exact h.frame rfl (update_field waiters (q := { s.queue d' with owner := 0 }) rfl d)
      (update_field hand (q := { s.queue d' with owner := 0 }) rfl d)
  | task i t ht hs =>
    cases hs with
    | move pc hmove => exact h.set ht rfl rfl hmove.alike rfl rfl
    | lock hpc | expel hpc | begin hpc | finish hpc =>
      exact h.set ht rfl rfl (hpc ▸ ⟨rfl, rfl, rfl, fun _ => rfl⟩) rfl rfl
    | enter hpc | publish hpc | take hpc | takeForeign hpc | clear err hpc =>
      exact h.set_update ht rfl rfl (hpc ▸ ⟨rfl, rfl, rfl, fun _ => rfl⟩) rfl rfl rfl
    | join hpc => exact placed_join h ht hpc rfl rfl rfl rfl rfl rfl
    | resume hpc => exact placed_resume hk.placed ht hpc rfl rfl rfl rfl rfl
    | pass err m rest w hpc hlock hgen hwaiters hw =>
      obtain ⟨hne, hwpc, hwdir⟩ := hk.pass_target ht hpc hwaiters hw
      have hcur := hk.known.current_of_generation hfresh ht (hpc ▸ rfl) hgen
      have hhand := hk.hand_eq_none ht hcur (hpc ▸ rfl) (hpc ▸ rfl)
      refine placed_pass h ht hw hne hpc hwpc hwdir hhand hwaiters rfl ?_ rfl rfl rfl rfl rfl
      split <;> exact ⟨rfl, rfl, rfl, fun _ => rfl⟩
    | vacate err hpc =>
      refine h.set_update ht rfl rfl ?_ rfl rfl rfl
      rw [hpc]
      split <;> exact ⟨rfl, rfl, rfl, fun _ => rfl⟩
    | drop err next hpc =>
      refine h.set ht rfl rfl ?_ rfl rfl
      rw [hpc]
      cases next <;> exact ⟨rfl, rfl, rfl, fun _ => rfl⟩
    | dispatch err m w hpc hw =>
      obtain ⟨hne, hwpc⟩ := hk.dispatch_target ht hpc hw
      exact placed_dispatch h ht hw hne hpc hwpc rfl rfl rfl rfl rfl

/-! ### Order -/

lemma Ordered.update {d' : Dir} (h : Ordered s d) (hqueue : u.queue = update s.queue d' q)
    (hq : q.joined = q.served ++ q.hand.toList ++ q.waiters) : Ordered u d := by
  unfold Ordered at h ⊢
  rw [hqueue]
  by_cases hd : d = d'
  · subst hd
    rw [update_self]
    exact hq
  · rw [update_of_ne hd]
    exact h

lemma step_ordered (hk : Kept s) (hfresh : CapturesFresh s) (hs : Step s act u) (d : Dir) : Ordered u d := by
  have h := hk.ordered d
  cases hs with
  | attach | start | shut | awaited | detach | pin | unpin | bump | freed => exact h
  | resetOwner d' => exact h.update rfl (hk.ordered d')
  | task i t ht hs =>
    have hdir := hk.ordered t.dir
    cases hs with
    | move | lock | expel | begin | finish | drop | dispatch => exact h
    | enter | publish | take | takeForeign | clear | vacate => exact h.update rfl hdir
    | join =>
      refine h.update rfl ?_
      rw [hdir, append_assoc]
    | resume hpc =>
      have hhand := (hk.placed t.dir i).hand_of_granted ht hpc
      unfold Ordered at hdir
      rw [hhand] at hdir
      refine h.update rfl ?_
      rw [hdir, toList_none, toList_some, append_nil]
    | pass err m rest w hpc hlock hgen hwaiters =>
      have hcur := hk.known.current_of_generation hfresh ht (hpc ▸ rfl) hgen
      have hhand := hk.hand_eq_none ht hcur (hpc ▸ rfl) (hpc ▸ rfl)
      unfold Ordered at hdir
      rw [hhand, hwaiters] at hdir
      refine h.update rfl ?_
      rw [hdir, toList_none, toList_some, append_nil, append_assoc, singleton_append]

/-! ### Wake-ups -/

lemma Pc.undispatched_le (pc : Pc) : pc.undispatched ≤ pc.handed := by
  cases pc with
  | popped => exact le_refl 1
  | _ => exact Nat.zero_le _

lemma Task.Woken.step (h : t.Woken) (hold : t.pc.waiting + t.pc.undispatched = 0) (hwait : pc.waiting = 0)
    (hhanded : pc.handed = 0) (hlate : t.pc.early = false → pc.early = false) : Task.Woken { t with pc := pc } := by
  have hle := pc.undispatched_le
  refine ⟨fun hw => ⟨(h.fresh hw).1, hwait, hhanded⟩, fun _ hpos => ?_, fun hw _ => h.woken hw hold,
    fun hw => hlate (h.once hw)⟩
  dsimp only at hpos
  omega

lemma Move.woken {spurious : Bool} (h : Move s spurious t pc) (hwoken : t.Woken) : Task.Woken { t with pc := pc } := by
  refine hwoken.step ?_ ?_ ?_ ?_
  · cases h <;> rw [‹t.pc = _›] <;> rfl
  · cases h <;> rfl
  · cases h <;> rfl
  · cases h <;> rw [‹t.pc = _›] <;> first | exact fun _ => rfl | exact nofun

lemma woken_join (h : t.Woken) (hpc : t.pc = .upgrade ∨ t.pc = .inspect) :
    Task.Woken { t with pc := .queued, waited := true } := by
  have hfresh : t.waited = false := by
    rw [Bool.eq_false_iff]
    intro hw
    have hlate := h.once hw
    rcases hpc with hpc | hpc <;> rw [hpc] at hlate <;> cases hlate
  exact ⟨nofun, fun _ _ => (h.fresh hfresh).1, nofun, fun _ => rfl⟩

lemma Task.Woken.waited (h : t.Woken) (hplace : 0 < t.pc.waiting + t.pc.handed) : t.waited = true := by
  by_contra hw
  obtain ⟨-, hwait, hhanded⟩ := h.fresh (Bool.eq_false_iff.mpr hw)
  omega

lemma woken_popped (h : w.Woken) (hpc : w.pc = .queued) : Task.Woken { w with pc := .popped } := by
  have hway := h.waited (hpc ▸ Nat.one_pos)
  have hwakes := h.waiting hway (hpc ▸ Nat.one_pos)
  exact ⟨fun hw => absurd hway (hw ▸ Bool.false_ne_true), fun _ _ => hwakes, nofun, fun _ => rfl⟩

lemma woken_granted (h : w.Woken) (hpc : w.pc = .popped) :
    Task.Woken { w with pc := .granted, wakes := w.wakes + 1 } := by
  have hway := h.waited (hpc ▸ Nat.one_pos)
  have hwakes := h.waiting hway (hpc ▸ Nat.one_pos)
  refine ⟨fun hw => absurd hway (hw ▸ Bool.false_ne_true), nofun, fun _ _ => ?_, fun _ => rfl⟩
  rw [hwakes]

lemma step_woken (hk : Kept s) (hs : Step s act u) : ∀ t ∈ u.tasks, t.Woken := by
  have h := hk.woken
  cases hs with
  | attach | shut | awaited | detach | pin | unpin | bump | resetOwner | freed => exact h
  | start => exact forall_append h ⟨fun _ => ⟨rfl, rfl, rfl⟩, nofun, nofun, nofun⟩
  | task i t ht hs =>
    have hwoken := h t (mem_of_getElem? ht)
    cases hs with
    | move pc hmove => exact forall_set h (hmove.woken hwoken) i
    | enter hpc | publish hpc | lock hpc | expel hpc | take hpc | takeForeign hpc | resume hpc | begin hpc
    | finish hpc | clear err hpc =>
      refine forall_set h (hwoken.step (hpc ▸ rfl) rfl rfl ?_) i
      rw [hpc]
      first | exact fun _ => rfl | exact nofun
    | join hpc => exact forall_set h (woken_join hwoken hpc) i
    | pass err n rest w hpc hlock hgen hwaiters hw =>
      obtain ⟨-, hwpc, -⟩ := hk.pass_target ht hpc hwaiters hw
      refine forall_set (forall_set h (woken_popped (h w (mem_of_getElem? hw)) hwpc) n)
        (hwoken.step (hpc ▸ rfl) ?_ ?_ fun _ => ?_) i <;> split <;> rfl
    | vacate err hpc =>
      refine forall_set h (hwoken.step (hpc ▸ rfl) ?_ ?_ fun _ => ?_) i <;> split <;> rfl
    | drop err next hpc =>
      refine forall_set h (hwoken.step (hpc ▸ rfl) ?_ ?_ fun _ => ?_) i <;> cases next <;> rfl
    | dispatch err n w hpc hw =>
      obtain ⟨-, hwpc⟩ := hk.dispatch_target ht hpc hw
      exact forall_set (forall_set h (woken_granted (h w (mem_of_getElem? hw)) hwpc) n)
        (hwoken.step (hpc ▸ rfl) rfl rfl fun _ => rfl) i

/-! ### Runs -/

lemma kept_init : Kept {} := by
  refine ⟨⟨rfl, ?_, ?_, ?_, ?_, ?_, ?_, ?_, ?_, ?_⟩, rfl, rfl, fun halive => absurd rfl halive.phase,
    fun _ _ => ⟨rfl, rfl, rfl⟩, fun _ => rfl, ⟨fun _ => rfl, by simp, fun _ _ => rfl⟩,
    fun _ _ => Nat.zero_le 1, ?_⟩
  all_goals simp

lemma step_kept (h : Kept s) (hfresh : CapturesFresh s) (hstill : Undisturbed s act) (hs : Step s act u) : Kept u := by
  have hknown := step_known h hfresh hs
  have hdirected := step_directed h hfresh hstill hs
  exact ⟨hknown, step_locked h hs, step_counted h hfresh hs, hdirected, step_placed h hfresh hs,
    step_ordered h hfresh hs, step_leased h hfresh hs, step_held h hfresh hknown hdirected hs,
    step_woken h hs⟩

end Cio.Reactor.Operation
