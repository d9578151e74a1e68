import Cio.OperationRefs

/-! A direction of an incarnation in use belongs to exactly one operation whenever its owner word is not zero,
and is marked exactly when its owner is pinned. -/

namespace Cio.Reactor.Operation

open CallPool Function

variable {s u : State} {t t' : Task} {d : Dir} {i n : Nat} {pc : Pc} {act : Act} {spurious : Bool}

lemma Known.alive_of_pos (h : Known s) (hrefs : 0 < s.desc.refs) : s.Alive := by
  refine ⟨fun hphase => ?_, fun rest hfreer => ?_⟩
  · have hzero := (h.vacant hphase).2
    omega
  · have hzero := (h.resetting rest hfreer).2
    omega

lemma Task.tag_ne_zero (t : Task) : t.tag ≠ 0 := operationTag_ne_zero t.generation

lemma Known.tag_eq (h : Known s) (ht : t ∈ s.tasks) (hcur : t.inc = s.inc) :
    t.tag = operationTag s.desc.generation := by
  rw [Task.tag, (h.token t ht).1, hcur, h.generation]

lemma Directed.own_le (h : Directed s d) : weight (Task.on d s.inc Pc.owning) s.tasks ≤ 1 := by
  rw [h.own]
  split
  · exact Nat.zero_le 1
  · exact le_refl 1

lemma Directed.owner_ne (h : Directed s t.dir) (ht : t ∈ s.tasks)
    (hcur : t.inc = s.inc) (howning : t.pc.owning = 1) : (s.queue t.dir).owner ≠ 0 := by
  intro hzero
  have hle := le_weight (Task.on t.dir s.inc Pc.owning) ht
  rw [h.own, if_pos hzero, Task.on, if_pos ⟨rfl, hcur⟩, howning] at hle
  cases hle

lemma Directed.frame (h : Directed s d) (hqueue : u.queue d = s.queue d)
    (hgen : u.desc.generation = s.desc.generation) (hinc : u.inc = s.inc)
    (hown : weight (Task.on d s.inc Pc.owning) u.tasks = weight (Task.on d s.inc Pc.owning) s.tasks) :
    Directed u d := by
  refine ⟨?_, ?_, ?_, ?_, ?_⟩
  · rw [hqueue, hgen]
    exact h.word
  · rw [hqueue, hinc, hown]
    exact h.own
  · rw [hqueue, hgen]
    exact h.pinned
  · rw [hqueue]
    exact h.queued
  · rw [hqueue]
    exact h.handed

lemma weight_on_set {l : List Task} (ht : l[i]? = some t) (hdir : t'.dir = t.dir)
    (hinc : t'.inc = t.inc) {k : Nat} {f : Pc → Nat} (hsame : t.dir = d → t.inc = k → f t'.pc = f t.pc) :
    weight (Task.on d k f) (l.set i t') = weight (Task.on d k f) l := by
  have hset := weight_set (Task.on d k f) ht t'
  simp only [Task.on, hdir, hinc] at hset
  by_cases hon : t.dir = d ∧ t.inc = k
  · rw [if_pos hon, if_pos hon, hsame hon.1 hon.2] at hset
    omega
  · rw [if_neg hon, if_neg hon] at hset
    omega

lemma Directed.set (h : Directed s d) (ht : s.tasks[i]? = some t) (htasks : u.tasks = s.tasks.set i t')
    (hdir : t'.dir = t.dir) (hinc' : t'.inc = t.inc) (hqueue : u.queue d = s.queue d)
    (hgen : u.desc.generation = s.desc.generation) (hinc : u.inc = s.inc)
    (hsame : t.inc = s.inc → t'.pc.owning = t.pc.owning) : Directed u d :=
  h.frame hqueue hgen hinc (by rw [htasks, weight_on_set ht hdir hinc' fun _ => hsame])

structure Queue.Sound (q : Queue) (generation : UInt32) : Prop where
  word : q.owner = 0 ∨ q.owner = operationTag generation ∨ q.owner = operationTag generation ||| 1
  pinned : q.pinned = true ↔ q.owner = operationTag generation ||| 1
  queued : q.waiters ≠ [] → q.pinned = true
  handed : q.hand ≠ none → q.pinned = true

lemma Queue.Sound.marked {q : Queue} {generation : UInt32} (hpin : q.pinned)
    (howner : q.owner = operationTag generation ||| 1) : q.Sound generation :=
  ⟨.inr (.inr howner), iff_of_true hpin howner, fun _ => hpin, fun _ => hpin⟩

lemma Directed.update (h : ∀ d, Directed s d) {q : Queue} (ht : s.tasks[i]? = some t)
    (htasks : u.tasks = s.tasks.set i t') (hdir : t'.dir = t.dir) (hinc' : t'.inc = t.inc)
    (hqueue : u.queue = update s.queue t.dir q) (hgen : u.desc.generation = s.desc.generation) (hinc : u.inc = s.inc)
    (hcur : t.inc = s.inc) (hsound : q.Sound s.desc.generation)
    (hown : (if q.owner = 0 then 0 else 1) + t.pc.owning =
      (if (s.queue t.dir).owner = 0 then 0 else 1) + t'.pc.owning) : Directed u d := by
  by_cases hd : d = t.dir
  · subst hd
    have hq : u.queue t.dir = q := by rw [hqueue, update_self]
    have hset := weight_set (Task.on t.dir s.inc Pc.owning) ht t'
    have hold := (h t.dir).own
    rw [Task.on, Task.on, hdir, hinc', if_pos ⟨rfl, hcur⟩, if_pos ⟨rfl, hcur⟩] at hset
    refine ⟨?_, ?_, ?_, ?_, ?_⟩
    · rw [hq, hgen]
      exact hsound.word
    · rw [hq, hinc, htasks]
      omega
    · rw [hq, hgen]
      exact hsound.pinned
    · rw [hq]
      exact hsound.queued
    · rw [hq]
      exact hsound.handed
  · refine (h d).frame (by rw [hqueue, update_of_ne hd]) hgen hinc ?_
    rw [htasks, weight_on_set ht hdir hinc' fun heq => absurd heq.symm hd]

lemma Directed.sound (h : Directed s d) : (s.queue d).Sound s.desc.generation := { h with }

lemma Directed.sound_setOwner (h : Directed s d) (howner : (s.queue d).owner ≠ operationTag s.desc.generation ||| 1)
    {word : UInt64} (hword : word = 0 ∨ word = operationTag s.desc.generation) :
    ({ s.queue d with owner := word } : Queue).Sound s.desc.generation := by
  have hpin := Bool.eq_false_iff.mpr fun hp => howner (h.pinned.mp hp)
  have hmark : word ≠ operationTag s.desc.generation ||| 1 := by
    rcases hword with rfl | rfl
    · exact (operationTag_or_ne_zero _).symm
    · exact operationTag_ne_or _ _
  refine ⟨hword.imp id .inl, ?_, h.queued, h.handed⟩
  rw [hpin]
  exact iff_of_false Bool.false_ne_true hmark

lemma Placed.of_hand (h : Placed s d n) (hhand : (s.queue d).hand = some n) :
    ∃ w, s.tasks[n]? = some w ∧ w.dir = d ∧ w.pc.handed = 1 := by
  have hhanded := h.handed
  rw [hhand, handCount, if_pos rfl, State.at] at hhanded
  split at hhanded
  · rename_i w hw
    rw [Task.along] at hhanded
    split at hhanded
    · rename_i hdir
      exact ⟨w, hw, hdir, hhanded.symm⟩
    · cases hhanded
  · cases hhanded

lemma Pc.owning_of_handed (h : pc.handed = 1) : pc.owning = 1 ∧ pc.light = false := by
  cases pc with
  | popped | granted => exact ⟨rfl, rfl⟩
  | _ => cases h

lemma Kept.hand_eq_none (h : Kept s) (ht : s.tasks[i]? = some t)
    (hcur : t.inc = s.inc) (howning : t.pc.owning = 1) (hhanded : t.pc.handed = 0) : (s.queue t.dir).hand = none := by
  cases hhand : (s.queue t.dir).hand with
  | none => rfl
  | some n =>
    obtain ⟨w, hw, hdir, hwhanded⟩ := (h.placed t.dir n).of_hand hhand
    obtain ⟨hwowning, hheavy⟩ := Pc.owning_of_handed hwhanded
    have hwcur := h.known.current_of_heavy hw hheavy
    have halive := h.known.current t (List.mem_of_getElem? ht) hcur
    have hall := (h.directed halive t.dir).own_le
    have heq : i = n := by
      refine eq_of_weight_le_one ht hw ?_ ?_ hall
      · rw [Task.on, if_pos ⟨rfl, hcur⟩, howning]
        exact Nat.one_pos
      · rw [Task.on, if_pos ⟨hdir, hwcur⟩, hwowning]
        exact Nat.one_pos
    subst heq
    cases ht.symm.trans hw
    rw [hhanded] at hwhanded
    cases hwhanded

lemma Kept.hand_of_vacant (h : Kept s) (hdead : ∀ t ∈ s.tasks, t.inc ≠ s.inc) (d : Dir) : (s.queue d).hand = none := by
  cases hhand : (s.queue d).hand with
  | none => rfl
  | some n =>
    obtain ⟨w, hw, -, hhanded⟩ := (h.placed d n).of_hand hhand
    have hcur := h.known.current_of_heavy hw (Pc.owning_of_handed hhanded).2
    exact absurd hcur (hdead w (List.mem_of_getElem? hw))

lemma directed_attach (h : Kept s) {fd : Int} (hphase : s.phase = .vacant) (howner : ∀ d, (s.queue d).owner = 0)
    (d : Dir) : Directed { s with desc := s.desc.attachFields fd, phase := .attached } d := by
  have hdead : ∀ t ∈ s.tasks, t.inc ≠ s.inc := fun t ht heq => (h.known.current t ht heq).phase hphase
  obtain ⟨hpin, hwaiters, -⟩ := h.counted.of_zero (h.known.vacant hphase).2 d
  refine ⟨.inl (howner d), ?_, ?_, fun hne => absurd hwaiters hne, fun hne => ?_⟩
  · rw [if_pos (howner d)]
    exact weight_eq_zero fun t ht => if_neg fun hon => hdead t ht hon.2
  · rw [hpin, howner d]
    exact iff_of_false Bool.false_ne_true (operationTag_or_ne_zero _).symm
  · exact absurd (h.hand_of_vacant hdead d) hne

lemma Move.owning_eq (h : Move s spurious t pc)
    (hgen : s.desc.generation = t.generation) : pc.owning = t.pc.owning := by
  cases h with
  | stale err hpc hstale => exact absurd hgen hstale
  | _ => simp only [‹t.pc = _›, Pc.owning]

lemma directed_pass (hk : Kept s) (h : ∀ d, Directed s d) {rest : List Nat} {w : Task} {err : Option Error}
    (ht : s.tasks[i]? = some t) (hpc : t.pc = .release err) (hcur : t.inc = s.inc)
    (hwaiters : (s.queue t.dir).waiters = n :: rest) (hw : s.tasks[n]? = some w) (howning : pc.owning = 0) (d : Dir) :
    Directed (((s.setQueue t.dir { s.queue t.dir with waiters := rest, hand := some n }).setPc n w
      .popped).setPc i t pc) d := by
  obtain ⟨hne, hwpc, hwdir⟩ := hk.pass_target ht hpc hwaiters hw
  have hwcur := hk.known.current_of_heavy hw (hwpc ▸ rfl)
  have hpin := (h t.dir).queued (hwaiters ▸ List.cons_ne_nil _ _)
  have hset := weight_set_set (Task.on d s.inc Pc.owning) ht hw hne { t with pc := pc } { w with pc := .popped }
  -- what the releasing operation loses its successor gains
  have hold : Task.on d s.inc Pc.owning t = if t.dir = d then 1 else 0 := by
    simp only [Task.on, hcur, hpc, Pc.owning, and_true]
  have hwnew : Task.on d s.inc Pc.owning { w with pc := .popped } = if t.dir = d then 1 else 0 := by
    simp only [Task.on, hwdir, hwcur, Pc.owning, and_true]
  have hnew : Task.on d s.inc Pc.owning { t with pc := pc } = 0 := by
    simp only [Task.on, howning, ite_self]
  have hwold : Task.on d s.inc Pc.owning w = 0 := by
    simp only [Task.on, hwpc, Pc.owning, ite_self]
  have hown : weight (Task.on d s.inc Pc.owning) ((s.tasks.set n { w with pc := .popped }).set i
      { t with pc := pc }) = weight (Task.on d s.inc Pc.owning) s.tasks := by
    omega
  by_cases hd : d = t.dir
  · subst hd
    refine ⟨?_, ?_, ?_, ?_, ?_⟩ <;>
      simp only [State.setPc, State.setTask, State.setQueue, update_self]
    · exact (h t.dir).word
    · rw [hown]
      exact (h t.dir).own
    · exact (h t.dir).pinned
    · exact fun _ => hpin
    · exact fun _ => hpin
  · exact (h d).frame (update_of_ne hd _ _) rfl rfl hown

lemma directed_task {again : Bool} (hk : Kept s) (hfresh : CapturesFresh s) (halive : s.Alive)
    (ht : s.tasks[i]? = some t) (henter : t.pc = .enter → (s.queue t.dir).owner = 0 → t.inc = s.inc)
    (hs : TaskStep s i spurious again t u) (d : Dir) : Directed u d := by
  have h := hk.directed halive
  have hmem := List.mem_of_getElem? ht
  have hunm : ∀ {o}, o = 0 → o ≠ operationTag s.desc.generation ||| 1 := fun ho => by
    rw [ho]
    exact (operationTag_or_ne_zero _).symm
  cases hs with
  | move pc hmove =>
    refine (h d).set ht rfl rfl rfl rfl rfl rfl fun hcur => hmove.owning_eq ?_
    rw [(hk.known.token t hmem).1, hcur, hk.known.generation]
  | enter hpc howner =>
    have hcur := henter hpc howner
    have htag := hk.known.tag_eq hmem hcur
    refine Directed.update h ht rfl rfl rfl rfl rfl rfl hcur ((h t.dir).sound_setOwner (hunm howner) (.inr htag)) ?_
    rw [hpc, howner, htag, if_neg (operationTag_ne_zero _)]
    rfl
  | publish hpc hgen =>
    have hcur := hk.known.current_of_generation hfresh ht (hpc ▸ rfl) hgen
    have htag := hk.known.tag_eq hmem hcur
    refine Directed.update h ht rfl rfl rfl rfl rfl rfl hcur (.marked rfl (by rw [htag])) ?_
    rw [if_neg ((h t.dir).owner_ne hmem hcur (hpc ▸ rfl)), htag, if_neg (operationTag_or_ne_zero _), hpc]
    rfl
  | lock hpc | expel hpc | begin hpc | finish hpc =>
    exact (h d).set ht rfl rfl rfl rfl rfl rfl fun _ => (hpc ▸ rfl)
  | take hpc howner =>
    have hcur := (hk.known.inside t hmem (hpc ▸ Nat.one_pos)).1
    have htag := hk.known.tag_eq hmem hcur
    refine Directed.update h ht rfl rfl rfl rfl rfl rfl hcur ((h t.dir).sound_setOwner (hunm howner) (.inr htag)) ?_
    rw [hpc, howner, htag, if_neg (operationTag_ne_zero _)]
    rfl
  | takeForeign hpc howner =>
    have hcur := (hk.known.inside t hmem (hpc ▸ Nat.one_pos)).1
    have htag := hk.known.tag_eq hmem hcur
    refine Directed.update h ht rfl rfl rfl rfl rfl rfl hcur (.marked rfl (by rw [htag])) ?_
    rw [hpc, howner, htag, if_neg (operationTag_or_ne_zero _)]
    rfl
  | join hpc howner =>
    have hin : t.pc.inside = 1 := by rcases hpc with hpc | hpc <;> rw [hpc] <;> rfl
    have hquiet : t.pc.owning = 0 := by rcases hpc with hpc | hpc <;> rw [hpc] <;> rfl
    have hcur := (hk.known.inside t hmem (hin ▸ Nat.one_pos)).1
    have htag := hk.known.tag_eq hmem hcur
    have hbusy : (s.queue t.dir).owner ≠ 0 := by
      rcases howner with howner | howner <;> rw [howner]
      · exact operationTag_ne_zero _
      · exact operationTag_or_ne_zero _
    refine Directed.update h ht rfl rfl rfl rfl rfl rfl hcur (.marked rfl (by rw [htag])) ?_
    rw [hquiet, if_neg hbusy, htag, if_neg (operationTag_or_ne_zero _)]
    rfl
  | resume hpc =>
    have hcur := hk.known.current_of_heavy ht (hpc ▸ rfl)
    have hsound := (h t.dir).sound
    refine Directed.update h ht rfl rfl rfl rfl rfl rfl hcur
      ⟨hsound.word, hsound.pinned, hsound.queued, (absurd rfl ·)⟩ ?_
    rw [hpc]
    rfl
  | clear err hpc howner =>
    have hword := (h t.dir).word
    have hgen : s.desc.generation = t.generation := by
      rw [howner] at hword
      rcases hword with hzero | hsame | hmarked
      · exact absurd hzero (operationTag_ne_zero _)
      · exact (operationTag_injective hsame).symm
      · exact absurd hmarked (operationTag_ne_or _ _)
    have hcur := hk.known.current_of_generation hfresh ht (hpc ▸ rfl) hgen
    have hunm : (s.queue t.dir).owner ≠ operationTag s.desc.generation ||| 1 := by
      rw [howner]
      exact operationTag_ne_or _ _
    refine Directed.update h ht rfl rfl rfl rfl rfl rfl hcur ((h t.dir).sound_setOwner hunm (.inl rfl)) ?_
    rw [hpc, howner, if_pos rfl, if_neg t.tag_ne_zero]
    rfl
  | pass err n rest w hpc hlock hgen hwaiters hw =>
    have hcur := hk.known.current_of_generation hfresh ht (hpc ▸ rfl) hgen
    refine directed_pass hk h ht hpc hcur hwaiters hw ?_ d
    split <;> rfl
  | vacate err hpc hlock hgen hwaiters =>
    have hcur := hk.known.current_of_generation hfresh ht (hpc ▸ rfl) hgen
    have howning : t.pc.owning = 1 := by rw [hpc]; rfl
    have hhand := hk.hand_eq_none ht hcur howning (hpc ▸ rfl)
    refine Directed.update h ht rfl rfl rfl rfl rfl rfl hcur
      ⟨.inl rfl, iff_of_false Bool.false_ne_true (operationTag_or_ne_zero _).symm,
        fun hne => absurd hwaiters hne, fun hne => absurd hhand hne⟩ ?_
    rw [howning, if_pos rfl, if_neg ((h t.dir).owner_ne hmem hcur howning)]
    split <;> rfl
  | drop err next hpc =>
    refine (h d).set ht rfl rfl rfl rfl rfl rfl fun _ => ?_
    rw [hpc]
    cases next <;> rfl
  | dispatch err n w hpc hw =>
    obtain ⟨hne, hwpc⟩ := hk.dispatch_target ht hpc hw
    have hset := weight_set_set (Task.on d s.inc Pc.owning) ht hw hne { t with pc := .returned err }
      { w with pc := .granted, wakes := w.wakes + 1 }
    simp only [Task.on, hpc, hwpc, Pc.owning] at hset
    exact (h d).frame rfl rfl rfl (by dsimp only [State.setPc, State.setTask, Task.on]; omega)

lemma Kept.alive_before (hk : Kept s) (hs : Step s act u)
    (hact : ∀ fd, act ≠ .attach fd) (halive : u.Alive) : s.Alive := by
  cases hs with
  | attach fd => exact absurd rfl (hact fd)
  | start => exact ⟨halive.phase, halive.freer⟩
  | shut hphase | awaited d rest hphase => exact ⟨by simp [hphase], halive.freer⟩
  | detach hphase => exact hk.known.alive_of_pos (hk.counted.pos_of_phase (hphase ▸ rfl))
  | pin hrefs => exact hk.known.alive_of_pos hrefs
  | unpin haws => exact hk.known.alive_of_pos (hk.counted.pos_of_awaiter haws)
  | bump | resetOwner => exact absurd rfl (halive.freer _)
  | freed => exact absurd rfl halive.phase
  | task i t ht hs =>
    cases hs with
    | drop err next hpc => exact hk.known.alive_of_pos (hk.counted.pos_of_drop ht (hpc ▸ rfl))
    | _ => exact ⟨halive.phase, halive.freer⟩

lemma step_directed (hk : Kept s) (hfresh : CapturesFresh s)
    (hstill : Undisturbed s act) (hs : Step s act u) (halive : u.Alive) (d : Dir) : Directed u d := by
  have hpre := hk.alive_before hs
  cases hs with
  | attach fd hphase => exact directed_attach hk hphase hstill d
  | start =>
    refine (hk.directed (hpre (by simp) halive) d).frame rfl rfl rfl ?_
    rw [weight_concat, Task.on]
    dsimp only [Pc.owning]
    rw [ite_self, add_zero]
  | shut | awaited | detach | pin | unpin =>
    exact (hk.directed (hpre (by simp) halive) d).frame rfl rfl rfl rfl
  | bump | resetOwner => exact absurd rfl (halive.freer _)
  | freed => exact absurd rfl halive.phase
  | task i t ht hs =>
    have halive' := hpre (by simp) halive
    exact directed_task hk hfresh halive' ht (fun hpc howner => hstill t ht hpc howner halive') hs d

/-! ### Guards -/

lemma Pc.held_le_owning (pc : Pc) : pc.held ≤ pc.owning := by
  cases pc with
  | holding | leased => exact le_refl 1
  | _ => exact Nat.zero_le _

lemma Move.held_le (h : Move s spurious t pc) :
    pc.held ≤ t.pc.held ∨ (t.pc = .validate ∧ s.desc.generation = t.generation) := by
  cases h with
  | validated hpc hlocal hgen => exact .inr ⟨hpc, hgen⟩
  | _ => exact .inl (Nat.zero_le _)

lemma held_set (hk : Kept s) (hknown : Known u) (hdirected : u.Alive → ∀ d, Directed u d) (ht : s.tasks[i]? = some t)
    (htasks : u.tasks = s.tasks.set i t') (hdir : t'.dir = t.dir) (hinc' : t'.inc = t.inc) (hinc : u.inc = s.inc)
    (hle : t.inc = s.inc ∨ t'.pc.held ≤ t.pc.held) (d : Dir) (k : Nat) : weight (Task.on d k Pc.held) u.tasks ≤ 1 := by
  have hheld := hk.held d k
  rcases hle with hcur | hle
  · by_cases hk' : t.inc = k
    · have hmem : t' ∈ u.tasks := htasks ▸ List.mem_set (List.getElem?_eq_some_iff.mp ht).1 t'
      have hown := (hdirected (hknown.current t' hmem (by rw [hinc', hcur, hinc])) d).own_le
      rw [hinc, ← hcur, hk'] at hown
      refine le_trans (weight_mono (fun x => ?_) u.tasks) hown
      rw [Task.on, Task.on]
      split
      · exact Pc.held_le_owning x.pc
      · exact le_refl 0
    · rw [htasks, weight_on_set ht hdir hinc' fun _ heq => absurd heq hk']
      exact hheld
  · have hset := weight_set (Task.on d k Pc.held) ht t'
    have hon : Task.on d k Pc.held t' ≤ Task.on d k Pc.held t := by
      rw [Task.on, Task.on, hdir, hinc']
      split
      · exact hle
      · exact le_refl 0
    rw [htasks]
    omega

lemma held_set_set (hk : Kept s) {w w' : Task} (ht : s.tasks[i]? = some t) (hw : s.tasks[n]? = some w) (hne : n ≠ i)
    (htasks : u.tasks = (s.tasks.set n w').set i t') (hnew : t'.pc.held = 0) (hwnew : w'.pc.held = 0) (d : Dir)
    (k : Nat) : weight (Task.on d k Pc.held) u.tasks ≤ 1 := by
  have hheld := hk.held d k
  have hset := weight_set_set (Task.on d k Pc.held) ht hw hne t' w'
  have hon : Task.on d k Pc.held t' = 0 := by rw [Task.on, hnew, ite_self]
  have hwon : Task.on d k Pc.held w' = 0 := by rw [Task.on, hwnew, ite_self]
  rw [htasks]
  omega

lemma step_held (hk : Kept s) (hfresh : CapturesFresh s) (hknown : Known u) (hdirected : u.Alive → ∀ d, Directed u d)
    (hs : Step s act u) (d : Dir) (k : Nat) : weight (Task.on d k Pc.held) u.tasks ≤ 1 := by
  cases hs with
  | attach | shut | awaited | detach | pin | unpin | bump | resetOwner | freed => exact hk.held d k
  | start =>
    rw [weight_concat, Task.on]
    dsimp only [Pc.held]
    rw [ite_self]
    exact hk.held d k
  | task i t ht hs =>
    cases hs with
    | move pc hmove =>
      refine held_set hk hknown hdirected ht rfl rfl rfl rfl ?_ d k
      rcases hmove.held_le with hle | ⟨hpc, hgen⟩
      · exact .inr hle
      · exact .inl (hk.known.current_of_generation hfresh ht (hpc ▸ rfl) hgen)
    | enter | lock | expel | join | clear =>
      exact held_set hk hknown hdirected ht rfl rfl rfl rfl (.inr (Nat.zero_le _)) d k
    | begin hpc | finish hpc =>
      exact held_set hk hknown hdirected ht rfl rfl rfl rfl (.inr (hpc ▸ le_refl 1)) d k
    | publish hpc hgen =>
      have hcur := hk.known.current_of_generation hfresh ht (hpc ▸ rfl) hgen
      exact held_set hk hknown hdirected ht rfl rfl rfl rfl (.inl hcur) d k
    | take hpc | takeForeign hpc =>
      have hcur := (hk.known.inside t (List.mem_of_getElem? ht) (hpc ▸ Nat.one_pos)).1
      exact held_set hk hknown hdirected ht rfl rfl rfl rfl (.inl hcur) d k
    | resume hpc =>
      have hcur := hk.known.current_of_heavy ht (hpc ▸ rfl)
      exact held_set hk hknown hdirected ht rfl rfl rfl rfl (.inl hcur) d k
    | pass err n rest w hpc hlock hgen hwaiters hw =>
      obtain ⟨hne, hwpc, -⟩ := hk.pass_target ht hpc hwaiters hw
      refine held_set_set hk ht hw hne rfl ?_ rfl d k
      split <;> rfl
    | vacate =>
      refine held_set hk hknown hdirected ht rfl rfl rfl rfl (.inr ?_) d k
      split <;> exact Nat.zero_le _
    | drop err next =>
      refine held_set hk hknown hdirected ht rfl rfl rfl rfl (.inr ?_) d k
      cases next <;> exact Nat.zero_le _
    | dispatch err n w hpc hw =>
      obtain ⟨hne, hwpc⟩ := hk.dispatch_target ht hpc hw
      exact held_set_set hk ht hw hne rfl rfl rfl d k

end Cio.Reactor.Operation
