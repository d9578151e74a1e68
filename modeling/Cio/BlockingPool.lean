import Cio.BlockingPoolModel

/-! The books of the blocking pool: every counter is the length of what it counts, a class waits for admission only at
its limit, the jobs of a class are in the order of their submissions wherever they are, and an accepted job is in one
place. -/

namespace Cio.BlockingPool

open CallPool Transition Function State List Worker

/-- The books while a critical section has the jobs `hand` in its local variables and is going to give back the
admission `freed`. -/
structure Books (s : State) (hand : List Job) (freed : Option BlockingClass) : Prop where
  queued : s.queued_ = s.queue.length
  waiting : ∀ k, s.classWaiting k = (s.admission k).length
  parked : s.admissionQueued = s.parked.length
  idle : s.idle_ = weight idle s.workers
  threads : s.threads_ = weight alive s.workers
  maxThreads : 0 < s.limits.maxThreads
  inflight : ∀ k, s.classLimit k ≠ 0 → s.classInflight k = (ofClass k (s.queue ++ hand)).length +
    weight (serves k) s.workers + if freed = some k then 1 else 0
  limit : ∀ k, s.classLimit k ≠ 0 → s.classInflight k ≤ s.classLimit k
  full : ∀ k, s.admission k ≠ [] → s.classLimit k ≠ 0 ∧ s.classInflight k = s.classLimit k
  klass : ∀ k, ∀ job ∈ s.admission k, job.klass = k
  bound : s.queue.length + hand.length + s.parked.length ≤ s.limits.maxQueue
  served : s.queue ≠ [] → 0 < s.threads_
  order : ∀ k, (ofClass k (s.started ++ s.queue ++ hand) ++ s.admission k).Pairwise fun a b => a.id < b.id
  once : ∀ job, s.accepted.count job = s.started.count job + s.queue.count job + hand.count job +
    s.parked.count job + s.pending.count job + s.failed.count job
  ran : ∀ job, s.started.count job = s.ran.count job + weight (runs job) s.workers
  unique : ∀ job, s.accepted.count job ≤ 1
  numbered : ∀ job, job ∈ s.accepted ∨ job ∈ s.rejected → job.id < s.submitted
  refused : ∀ job ∈ s.rejected, job ∉ s.accepted
  released : s.releaseFailed = false
  running : s.stopping_ = false → s.pending = []

/-! ### A job in hand is enqueued -/

lemma enqueueLocked_cases (s : State) (job : Job) (spawn : Bool) :
    (s.enqueueLocked job spawn = none ∧ s.threads_ = 0) ∨
      ∃ extra : List Worker, (∀ worker ∈ extra, worker = .looking) ∧ extra.length ≤ 1 ∧
        (extra = [] → s.queued_ + 1 ≤ s.idle_ ∨ s.limits.maxThreads ≤ s.threads_ ∨ s.threads_ ≠ 0) ∧
        s.enqueueLocked job spawn = some { s with
          queue := s.queue ++ [job], queued_ := s.queued_ + 1, threads_ := s.threads_ + extra.length,
          workers := s.workers ++ extra } := by
  rw [enqueueLocked]
  split
  · cases spawn with
    | true =>
      refine .inr ⟨[.looking], fun worker hwk => mem_singleton.mp hwk, le_refl 1, nofun, ?_⟩
      rfl
    | false =>
      by_cases hnone : s.threads_ = 0
      · exact .inl ⟨by rw [if_neg Bool.false_ne_true, if_pos hnone], hnone⟩
      · refine .inr ⟨[], nofun, Nat.zero_le 1, fun _ => .inr (.inr hnone), ?_⟩
        rw [if_neg Bool.false_ne_true, if_neg hnone, append_nil]
        rfl
  · refine .inr ⟨[], nofun, Nat.zero_le 1, fun _ => ?_, ?_⟩
    · omega
    · rw [append_nil]
      rfl

lemma weight_looking {f : Worker → Nat} (hf : f .looking = 0) {extra : List Worker}
    (h : ∀ worker ∈ extra, worker = .looking) : weight f extra = 0 :=
  weight_eq_zero fun worker hwk => by rw [h worker hwk, hf]

lemma weight_alive_looking {extra : List Worker} (h : ∀ worker ∈ extra, worker = .looking) :
    weight alive extra = extra.length := by
  induction extra with
  | nil => rfl
  | cons x rest ih =>
    rw [weight, h x mem_cons_self, ih fun y hy => h y (mem_cons_of_mem _ hy), length_cons, Nat.add_comm]
    rfl

lemma idle_le_alive (worker : Worker) : worker.idle ≤ worker.alive := by
  cases worker with
  | waiting => exact le_refl 1
  | _ => exact Nat.zero_le _

variable {s : State} {job : Job} {w : Nat} {klass : BlockingClass} {freed : Option BlockingClass}
variable {hand : List Job}

lemma Books.enqueue {spawn : Bool} (h : Books s [job] none) {u : State}
    (hu : s.enqueueLocked job spawn = some u) : Books u [] none := by
  rcases enqueueLocked_cases s job spawn with ⟨hnone, -⟩ | ⟨extra, hextra, -, hserved, heq⟩
  · rw [hnone] at hu
    cases hu
  · rw [heq] at hu
    cases hu
    have hlen : (s.queue ++ [job]).length = s.queue.length + 1 := length_append
    have hbound := h.bound
    refine { h with
      queued := ?_, idle := ?_, threads := ?_, inflight := fun k hk => ?_, bound := ?_, served := fun _ => ?_,
      order := fun k => ?_, once := fun x => ?_, ran := fun x => ?_ }
    · rw [h.queued, hlen]
    · rw [weight_append, weight_looking rfl hextra, h.idle, Nat.add_zero]
    · rw [weight_append, weight_alive_looking hextra, h.threads]
    · have hfly := h.inflight k hk
      rw [weight_append, weight_looking rfl hextra, append_nil]
      exact hfly
    · rw [length_singleton] at hbound
      rw [hlen]
      exact hbound
    · show 0 < s.threads_ + extra.length
      cases extra with
      | nil =>
        have hidle := weight_mono idle_le_alive s.workers
        rw [← h.idle, ← h.threads] at hidle
        have hmax := h.maxThreads
        have hcause := hserved rfl
        omega
      | cons => exact Nat.lt_of_lt_of_le (Nat.succ_pos _) (Nat.le_add_left _ _)
    · have horder := h.order k
      rw [append_nil, ← append_assoc]
      exact horder
    · have honce := h.once x
      show s.accepted.count x = s.started.count x + (s.queue ++ [job]).count x + 0 + s.parked.count x +
        s.pending.count x + s.failed.count x
      rw [count_append]
      omega
    · have hran := h.ran x
      rw [weight_append, weight_looking rfl hextra]
      exact hran

/-! ### Submission -/

lemma Books.count_accepted (h : Books s hand freed)
    (hjob : s.started.count job + s.queue.count job + hand.count job + s.parked.count job ≠ 0) :
    job.id < s.submitted := by
  have honce := h.once job
  exact h.numbered job (.inl (count_pos_iff.mp (by omega)))

lemma mem_parked {k : BlockingClass} (h : job ∈ s.admission k) : job ∈ s.parked := by
  cases k <;> simp [parked, allOf, h]

lemma Books.order_append (h : Books s [] none) (k : BlockingClass) :
    ∀ job ∈ ofClass k (s.started ++ s.queue) ++ s.admission k, job.id < s.submitted := by
  intro job hjob
  refine h.count_accepted ?_
  rcases mem_append.mp hjob with hmem | hmem
  · rcases mem_append.mp (mem_filter.mp hmem).1 with hmem | hmem <;>
      · have hpos := count_pos_iff.mpr hmem
        omega
  · have hpos := count_pos_iff.mpr (mem_parked hmem)
    omega

lemma Books.not_mem_accepted (h : Books s hand freed) (klass : BlockingClass) : s.newJob klass ∉ s.accepted :=
  fun hmem => lt_irrefl _ (h.numbered _ (.inl hmem))

lemma Books.not_mem_rejected (h : Books s hand freed) (klass : BlockingClass) : s.newJob klass ∉ s.rejected :=
  fun hmem => lt_irrefl _ (h.numbered _ (.inr hmem))

section

variable (h : Books s [] none) (klass : BlockingClass)

include h

lemma Books.refuse :
    Books { s with submitted := s.submitted + 1, rejected := s.rejected ++ [s.newJob klass] } [] none := by
  refine { h with
    numbered := fun job hjob => hjob.elim (fun hmem => Nat.lt_succ_of_lt (h.numbered job (.inl hmem))) ?_
    refused := forall_append h.refused (h.not_mem_accepted klass) }
  exact forall_append (fun job hmem => Nat.lt_succ_of_lt (h.numbered job (.inr hmem))) (Nat.lt_succ_self _) job

lemma Books.unique_accept (job : Job) : (s.accepted ++ [s.newJob klass]).count job ≤ 1 := by
  rw [count_append, count_singleton]
  split
  · rename_i heq
    rw [← beq_iff_eq.mp heq, count_eq_zero.mpr (h.not_mem_accepted klass)]
  · exact h.unique job

lemma Books.numbered_accept (job : Job)
    (hjob : job ∈ s.accepted ++ [s.newJob klass] ∨ job ∈ s.rejected) : job.id < s.submitted + 1 := by
  rcases hjob with hmem | hmem
  · exact forall_append (fun job hold => Nat.lt_succ_of_lt (h.numbered job (.inl hold))) (Nat.lt_succ_self _) job hmem
  · exact Nat.lt_succ_of_lt (h.numbered job (.inr hmem))

lemma Books.refused_accept (job : Job) (hjob : job ∈ s.rejected) : job ∉ s.accepted ++ [s.newJob klass] := by
  intro hmem
  rcases mem_append.mp hmem with hold | hnew
  · exact h.refused job hjob hold
  · exact h.not_mem_rejected klass (mem_singleton.mp hnew ▸ hjob)

end

lemma length_ofClass_append (k : BlockingClass) (jobs : List Job) (job : Job) :
    (ofClass k (jobs ++ [job])).length = (ofClass k jobs).length + if job.klass = k then 1 else 0 := by
  rw [ofClass_append, length_append]
  by_cases hk : job.klass = k
  · subst hk
    rw [ofClass_cons_self, if_pos rfl]
    rfl
  · rw [ofClass_cons_ne hk, if_neg hk]
    rfl

lemma Books.accept (h : Books s [] none) (hqueue : s.queued_ + s.admissionQueued < s.limits.maxQueue)
    (hroom : s.classLimit klass ≠ 0 → s.classInflight klass < s.classLimit klass) {inflight : BlockingClass → Nat}
    (hself : s.classLimit klass ≠ 0 → inflight klass = s.classInflight klass + 1)
    (hother : ∀ k, k ≠ klass → inflight k = s.classInflight k) :
    Books { s with submitted := s.submitted + 1, accepted := s.accepted ++ [s.newJob klass], classInflight := inflight }
      [s.newJob klass] none := by
  have hempty : s.admission klass = [] := by
    by_contra hne
    obtain ⟨hlim, hfull⟩ := h.full klass hne
    have hless := hroom hlim
    omega
  refine { h with
    inflight := fun k hk => ?_, limit := fun k hk => ?_, full := fun k hne => ?_, bound := ?_, order := fun k => ?_,
    once := fun job => ?_, unique := h.unique_accept klass, numbered := h.numbered_accept klass,
    refused := h.refused_accept klass }
  · have hold := h.inflight k hk
    rw [append_nil] at hold
    show inflight k = (ofClass k (s.queue ++ [s.newJob klass])).length + weight _ s.workers + _
    rw [length_ofClass_append]
    by_cases hkk : klass = k
    · subst hkk
      rw [if_pos (show (s.newJob klass).klass = klass from rfl), hself hk, hold]
      omega
    · rw [if_neg (show ¬ (s.newJob klass).klass = k from hkk), hother k (Ne.symm hkk), hold]
      omega
  · by_cases hkk : k = klass
    · subst hkk
      show inflight k ≤ s.classLimit k
      rw [hself hk]
      exact hroom hk
    · show inflight k ≤ s.classLimit k
      rw [hother k hkk]
      exact h.limit k hk
  · have hkk : k ≠ klass := by
      rintro rfl
      exact hne hempty
    show s.classLimit k ≠ 0 ∧ inflight k = s.classLimit k
    rw [hother k hkk]
    exact h.full k hne
  · rw [h.queued, h.parked] at hqueue
    show s.queue.length + 1 + s.parked.length ≤ s.limits.maxQueue
    omega
  · have horder := h.order k
    rw [append_nil] at horder
    rw [ofClass_append]
    by_cases hkk : klass = k
    · subst hkk
      have hless := h.order_append klass
      rw [hempty, append_nil] at horder hless ⊢
      rw [pairwise_append]
      refine ⟨horder, ?_, fun a ha b hb => ?_⟩
      · exact (pairwise_singleton _ _).sublist filter_sublist
      · rw [mem_singleton.mp (mem_filter.mp hb).1]
        exact hless a ha
    · rw [ofClass_cons_ne (show (s.newJob klass).klass ≠ k from hkk)]
      show (ofClass k (s.started ++ s.queue) ++ [] ++ s.admission k).Pairwise _
      rw [append_nil]
      exact horder
  · have honce := h.once job
    show (s.accepted ++ [s.newJob klass]).count job = s.started.count job + s.queue.count job +
      [s.newJob klass].count job + s.parked.count job + s.pending.count job + s.failed.count job
    rw [count_append, honce, count_nil]
    omega

lemma Books.park (h : Books s [] none) (hqueue : s.queued_ + s.admissionQueued < s.limits.maxQueue)
    (hlim : s.classLimit klass ≠ 0) (hfull : s.classInflight klass ≥ s.classLimit klass) :
    Books
      { s with
        submitted := s.submitted + 1
        accepted := s.accepted ++ [s.newJob klass]
        admission := update s.admission klass (s.admission klass ++ [s.newJob klass])
        classWaiting := update s.classWaiting klass (s.classWaiting klass + 1)
        admissionQueued := s.admissionQueued + 1 } [] none := by
  have hlength := allOf_update s.admission klass (s.admission klass ++ [s.newJob klass]) length fun _ _ => length_append
  rw [length_append, length_singleton] at hlength
  refine { h with
    waiting := fun k => ?_, parked := ?_, full := fun k hne => ?_, klass := fun k job hjob => ?_, bound := ?_,
    order := fun k => ?_, once := fun job => ?_, unique := h.unique_accept klass, numbered := h.numbered_accept klass,
    refused := h.refused_accept klass }
  · show update s.classWaiting klass (s.classWaiting klass + 1) k =
      (update s.admission klass (s.admission klass ++ [s.newJob klass]) k).length
    by_cases hk : k = klass
    · subst hk
      rw [update_self, update_self, length_append, h.waiting]
      rfl
    · rw [update_of_ne hk, update_of_ne hk]
      exact h.waiting k
  · have hpark : s.admissionQueued = (allOf s.admission).length := h.parked
    show s.admissionQueued + 1 = (allOf (update s.admission klass (s.admission klass ++ [s.newJob klass]))).length
    omega
  · by_cases hk : k = klass
    · subst hk
      exact ⟨hlim, le_antisymm (h.limit k hlim) hfull⟩
    · refine h.full k ?_
      intro hempty
      refine hne ?_
      show update s.admission klass (s.admission klass ++ [s.newJob klass]) k = []
      rw [update_of_ne hk]
      exact hempty
  · have hjob : job ∈ update s.admission klass (s.admission klass ++ [s.newJob klass]) k := hjob
    by_cases hk : k = klass
    · subst hk
      rw [update_self] at hjob
      exact forall_append (h.klass k) rfl job hjob
    · rw [update_of_ne hk] at hjob
      exact h.klass k job hjob
  · rw [h.queued, h.parked, State.parked] at hqueue
    show s.queue.length + 0 +
      (allOf (update s.admission klass (s.admission klass ++ [s.newJob klass]))).length ≤
        s.limits.maxQueue
    omega
  · show (ofClass k (s.started ++ s.queue ++ []) ++
      update s.admission klass (s.admission klass ++ [s.newJob klass]) k).Pairwise _
    by_cases hk : k = klass
    · subst hk
      have hless := h.order_append k
      have horder := h.order k
      rw [append_nil] at horder
      rw [update_self, append_nil, ← append_assoc, pairwise_append]
      refine ⟨horder, pairwise_singleton _ _, fun a ha b hb => ?_⟩
      rw [mem_singleton.mp hb]
      exact hless a ha
    · rw [update_of_ne hk]
      exact h.order k
  · have honce := h.once job
    have hcount := allOf_update s.admission klass (s.admission klass ++ [s.newJob klass]) (count job)
      fun _ _ => count_append
    rw [count_append] at hcount
    show (s.accepted ++ [s.newJob klass]).count job = s.started.count job + s.queue.count job + 0 +
      (allOf (update s.admission klass (s.admission klass ++ [s.newJob klass]))).count job +
        s.pending.count job + s.failed.count job
    rw [List.count_append, honce, List.count_nil, State.parked]
    omega

lemma Books.submit (h : Books s [] none) (klass : BlockingClass) (spawn : Bool) :
    Books (s.submit klass spawn) [] none := by
  -- a job that cannot be enqueued is refused, and one that can goes from hand into the queue
  have hgetD : ∀ {t : State}, Books t [s.newJob klass] none → Books ((t.enqueueLocked (s.newJob klass) spawn).getD
        { s with submitted := s.submitted + 1, rejected := s.rejected ++ [s.newJob klass] }) [] none := by
    intro t ht
    cases henq : t.enqueueLocked (s.newJob klass) spawn with
    | none => exact h.refuse klass
    | some => exact ht.enqueue henq
  rw [State.submit]
  split
  · exact h.refuse klass
  split
  · exact h.refuse klass
  rename_i hroom
  have hqueue : s.queued_ + s.admissionQueued < s.limits.maxQueue := lt_of_not_ge hroom
  split
  · rename_i hfull
    exact h.park hqueue hfull.1 hfull.2
  rename_i hnotFull
  have hbelow : s.classLimit klass ≠ 0 → s.classInflight klass < s.classLimit klass := by
    intro hlim
    by_contra hge
    exact hnotFull ⟨hlim, Nat.le_of_not_lt hge⟩
  split
  · refine hgetD (h.accept hqueue hbelow (fun _ => update_self ..) fun k hk => ?_)
    rw [update_of_ne hk]
  · rename_i hlim
    exact hgetD (h.accept hqueue hbelow (fun hne => absurd hne hlim) fun k _ => rfl)

/-! ### The threads -/

lemma Books.finished (h : Books s [] none) (hw : s.workers[w]? = some (.running job)) :
    Books { s.setWorker w .looking with ran := s.ran ++ [job] } [] (some job.klass) := by
  have hset := fun f => weight_set f hw .looking
  refine { h with idle := ?_, threads := ?_, inflight := fun k hk => ?_, ran := fun x => ?_ }
  · have hidle := hset Worker.idle
    rw [← h.idle] at hidle
    exact hidle.symm
  · have halive : weight alive (s.workers.set w .looking) + 1 = weight alive s.workers + 1 :=
      hset alive
    rw [← h.threads] at halive
    exact (Nat.add_right_cancel halive).symm
  · have hserve : weight (serves k) (s.workers.set w .looking) + (if job.klass = k then 1 else 0) =
        weight (serves k) s.workers + 0 := hset (serves k)
    have hfly := h.inflight k hk
    show s.classInflight k = (ofClass k (s.queue ++ [])).length + weight _ (s.workers.set w .looking) +
      if some job.klass = some k then 1 else 0
    simp only [Option.some.injEq]
    rw [hfly, if_neg (nomatch · : ¬ none = some k)]
    omega
  · have hruns : weight (runs x) (s.workers.set w .looking) + (if job = x then 1 else 0) =
        weight (runs x) s.workers + 0 := hset (runs x)
    have hran := h.ran x
    show s.started.count x = (s.ran ++ [job]).count x + weight _ (s.workers.set w .looking)
    rw [count_append, count_singleton, hran]
    simp only [beq_iff_eq]
    omega

lemma Books.promote (h : Books s [] (some klass)) (hlim : s.classLimit klass ≠ 0) {next : Job} {rest : List Job}
    (hnext : s.admission klass = next :: rest) : Books (s.promote klass rest) [next] none := by
  have hklass : next.klass = klass := h.klass klass next (hnext ▸ mem_cons_self)
  have hfly := h.inflight klass hlim
  rw [if_pos rfl] at hfly
  -- the counter goes down and up again
  have hsame : update s.classInflight klass (s.classInflight klass - 1 + 1) = s.classInflight := by
    rw [Nat.sub_add_cancel (by omega)]
    exact update_eq_self klass _
  have hadm : ∀ k, update s.admission klass rest k ⊆ s.admission k := by
    intro k
    by_cases hk : k = klass
    · subst hk
      rw [update_self, hnext]
      exact subset_cons_self _ _
    · rw [update_of_ne hk]
      exact Subset.refl _
  have hlength := allOf_update s.admission klass rest length fun _ _ => length_append
  rw [hnext, length_cons] at hlength
  have hpark : s.admissionQueued = (allOf s.admission).length := h.parked
  rw [State.promote, hsame]
  refine { h with
    waiting := fun k => ?_, parked := ?_, inflight := fun k hk => ?_,
    full := fun k hne => h.full k fun hempty => hne (subset_nil.mp (hempty ▸ hadm k)),
    klass := fun k job hjob => h.klass k job (hadm k hjob), bound := ?_, order := fun k => ?_,
    once := fun job => ?_ }
  · show update s.classWaiting klass (s.classWaiting klass - 1) k = (update s.admission klass rest k).length
    by_cases hk : k = klass
    · subst hk
      rw [update_self, update_self, h.waiting, hnext]
      rfl
    · rw [update_of_ne hk, update_of_ne hk]
      exact h.waiting k
  · show s.admissionQueued - 1 = (allOf (update s.admission klass rest)).length
    omega
  · have hold := h.inflight k hk
    show s.classInflight k = (ofClass k (s.queue ++ [next])).length + weight _ s.workers + 0
    rw [append_nil] at hold
    rw [length_ofClass_append, hold, hklass]
    simp only [Option.some.injEq]
    omega
  · have hbound : s.queue.length + 0 + (allOf s.admission).length ≤ s.limits.maxQueue := h.bound
    show s.queue.length + 1 + (allOf (update s.admission klass rest)).length ≤ s.limits.maxQueue
    omega
  · have horder := h.order k
    rw [append_nil] at horder
    show (ofClass k (s.started ++ s.queue ++ [next]) ++ update s.admission klass rest k).Pairwise _
    rw [ofClass_append]
    by_cases hk : k = klass
    · subst hk
      have hsingle : ofClass k [next] = [next] := by
        rw [← hklass, ofClass_cons_self]
        rfl
      rw [hsingle, update_self, append_assoc, singleton_append, ← hnext]
      exact horder
    · rw [update_of_ne hk, ofClass_cons_ne (fun heq => hk (heq.symm.trans hklass))]
      show (ofClass k (s.started ++ s.queue) ++ [] ++ s.admission k).Pairwise _
      rw [append_nil]
      exact horder
  · have honce := h.once job
    have hcount := allOf_update s.admission klass rest (count job) fun _ _ => count_append
    rw [hnext, ← singleton_append, count_append] at hcount
    show s.accepted.count job = s.started.count job + s.queue.count job + [next].count job +
      (allOf (update s.admission klass rest)).count job + s.pending.count job + s.failed.count job
    rw [honce, List.count_nil, State.parked]
    omega

/-- The thread that gives the admission back can serve the job that takes it over, so the enqueue succeeds. -/
lemma Books.release (h : Books s [] (some klass)) (hthr : 0 < s.threads_)
    (spawn : Bool) : Books (s.releaseAdmissionLocked klass spawn) [] none := by
  rw [releaseAdmissionLocked]
  split
  · rename_i hunlimited
    refine { h with inflight := fun k hk => ?_ }
    have hne : ¬ some klass = some k := fun heq => hk (Option.some.inj heq ▸ hunlimited)
    rw [h.inflight k hk, if_neg hne, if_neg (nomatch · : ¬ none = some k)]
  rename_i hlim
  split
  · rename_i hempty
    refine { h with inflight := fun k hk => ?_, limit := fun k hk => ?_, full := fun k hne => ?_ }
    · show update s.classInflight klass (s.classInflight klass - 1) k = _ + 0
      by_cases hkk : k = klass
      · subst hkk
        rw [update_self, h.inflight k hk, if_pos rfl]
        rfl
      · rw [update_of_ne hkk, h.inflight k hk, if_neg fun heq => hkk (Option.some.inj heq).symm]
    · show update s.classInflight klass (s.classInflight klass - 1) k ≤ _
      by_cases hkk : k = klass
      · subst hkk
        rw [update_self]
        exact Nat.le_trans (Nat.sub_le _ _) (h.limit k hk)
      · rw [update_of_ne hkk]
        exact h.limit k hk
    · have hkk : k ≠ klass := by
        rintro rfl
        exact hne hempty
      show s.classLimit k ≠ 0 ∧ update s.classInflight klass (s.classInflight klass - 1) k = s.classLimit k
      rw [update_of_ne hkk]
      exact h.full k hne
  · rename_i next rest hnext
    have hpromoted := h.promote hlim hnext
    split
    · rename_i u henq
      exact hpromoted.enqueue henq
    · rename_i henq
      rcases enqueueLocked_cases (s.promote klass rest) next spawn with ⟨-, hnone⟩ | ⟨extra, -, -, -, heq⟩
      · exact absurd hnone (ne_of_gt hthr)
      · rw [heq] at henq
        cases henq

lemma Books.rest (h : Books s [] none) {old : Worker} (hw : s.workers[w]? = some old)
    (new : Worker) (hserve : ∀ k, old.serves k = new.serves k) (hruns : ∀ job, old.runs job = new.runs job)
    {idle threads : Nat} (hidle : idle + old.idle = s.idle_ + new.idle)
    (hthr : threads + old.alive = s.threads_ + new.alive) (hserved : s.queue ≠ [] → 0 < threads) :
    Books { s.setWorker w new with idle_ := idle, threads_ := threads } [] none := by
  have hset := fun f => weight_set f hw new
  refine { h with
    idle := ?_, threads := ?_, inflight := fun k hk => ?_, served := hserved, ran := fun job => ?_ }
  · have hsum := hset Worker.idle
    rw [← h.idle, ← hidle] at hsum
    exact (Nat.add_right_cancel hsum).symm
  · have hsum := hset alive
    rw [← h.threads, ← hthr] at hsum
    exact (Nat.add_right_cancel hsum).symm
  · have hsum := hset (serves k)
    rw [hserve k] at hsum
    show s.classInflight k = _ + weight _ (s.workers.set w new) + _
    rw [Nat.add_right_cancel hsum]
    exact h.inflight k hk
  · have hsum := hset (runs job)
    rw [hruns job] at hsum
    show s.started.count job = s.ran.count job + weight _ (s.workers.set w new)
    rw [Nat.add_right_cancel hsum]
    exact h.ran job

lemma Books.look (h : Books s [] none) (hw : s.workers[w]? = some .looking) : Books (s.look w) [] none := by
  have hset := fun f worker => weight_set f hw worker
  rw [State.look]
  split
  · rename_i job rest hqueue
    have hlen : s.queue.length = rest.length + 1 := by rw [hqueue, length_cons]
    refine { h with
      queued := ?_, idle := ?_, threads := ?_, inflight := fun k hk => ?_, bound := ?_,
      served := fun _ => h.served (hqueue ▸ cons_ne_nil _ _), order := fun k => ?_,
      once := fun x => ?_, ran := fun x => ?_ }
    · rw [h.queued, hlen]
      rfl
    · have hidle := hset Worker.idle (.running job)
      rw [← h.idle] at hidle
      exact hidle.symm
    · have halive : weight Worker.alive (s.workers.set w (.running job)) + 1 = weight Worker.alive s.workers + 1 :=
        hset Worker.alive (.running job)
      rw [← h.threads] at halive
      exact (Nat.add_right_cancel halive).symm
    · have hserve : weight (Worker.serves k) (s.workers.set w (.running job)) + 0 =
          weight (Worker.serves k) s.workers + if job.klass = k then 1 else 0 :=
        hset (Worker.serves k) (.running job)
      have hfly := h.inflight k hk
      rw [append_nil, hqueue] at hfly
      show s.classInflight k = (ofClass k (rest ++ [])).length + weight _ (s.workers.set w (.running job)) + _
      rw [append_nil, hfly]
      by_cases hkk : job.klass = k
      · subst hkk
        rw [ofClass_cons_self, length_cons]
        rw [if_pos rfl] at hserve
        omega
      · rw [ofClass_cons_ne hkk]
        rw [if_neg hkk] at hserve
        omega
    · have hbound := h.bound
      show rest.length + 0 + s.parked.length ≤ s.limits.maxQueue
      rw [hlen] at hbound
      exact le_trans (by omega) hbound
    · have horder := h.order k
      rw [hqueue] at horder
      rw [append_assoc s.started, singleton_append]
      exact horder
    · have honce := h.once x
      rw [hqueue, ← singleton_append, count_append] at honce
      show s.accepted.count x = (s.started ++ [job]).count x + rest.count x + 0 + s.parked.count x +
        s.pending.count x + s.failed.count x
      rw [count_append, honce, count_nil]
      omega
    · have hruns : weight (Worker.runs x) (s.workers.set w (.running job)) + 0 =
          weight (Worker.runs x) s.workers + if job = x then 1 else 0 := hset (Worker.runs x) (.running job)
      have hran := h.ran x
      show (s.started ++ [job]).count x = s.ran.count x + weight _ (s.workers.set w (.running job))
      rw [count_append, count_singleton, hran]
      simp only [beq_iff_eq]
      omega
  · rename_i hqueue
    split
    · refine h.rest hw .retired (fun _ => rfl) (fun _ => rfl) rfl ?_ fun hne => absurd hqueue hne
      have halive := le_weight Worker.alive (mem_of_getElem? hw)
      rw [← h.threads] at halive
      exact Nat.sub_add_cancel halive
    · exact h.rest hw .waiting (fun _ => rfl) (fun _ => rfl) rfl rfl fun hne => absurd hqueue hne

lemma release_worker {worker : Worker} (hw : s.workers[w]? = some worker)
    (klass : BlockingClass) (spawn : Bool) : (s.releaseAdmissionLocked klass spawn).workers[w]? = some worker := by
  rw [releaseAdmissionLocked]
  split
  · exact hw
  split
  · exact hw
  · rename_i next rest _
    rcases enqueueLocked_cases (s.promote klass rest) next spawn with ⟨hnone, -⟩ | ⟨extra, -, -, -, heq⟩
    · rw [hnone]
      exact hw
    · rw [heq]
      show (s.workers ++ extra)[w]? = some worker
      rw [getElem?_append_left (List.getElem?_eq_some_iff.mp hw).1]
      exact hw

lemma Books.finish (h : Books s [] none)
    (hw : s.workers[w]? = some (.running job)) (spawn : Bool) : Books (s.finish w job spawn) [] none := by
  have hover := h.finished hw
  have hself : (s.workers.set w .looking)[w]? = some .looking :=
    getElem?_set_self (List.getElem?_eq_some_iff.mp hw).1
  have hthr : 0 < s.threads_ := by
    have halive := le_weight alive (mem_of_getElem? hw)
    rwa [← h.threads] at halive
  exact (hover.release hthr spawn).look (release_worker hself job.klass spawn)

lemma Books.wake (h : Books s [] none) (hw : s.workers[w]? = some .waiting) (timedOut : Bool) :
    Books (s.wake w timedOut) [] none := by
  have hidle := le_weight Worker.idle (mem_of_getElem? hw)
  have halive := le_weight Worker.alive (mem_of_getElem? hw)
  rw [← h.idle] at hidle
  rw [← h.threads] at halive
  rw [State.wake]
  split
  · rename_i hquiet
    exact h.rest hw .retired (fun _ => rfl) (fun _ => rfl) (Nat.sub_add_cancel hidle) (Nat.sub_add_cancel halive)
      fun hne => absurd hquiet.2.1 hne
  · refine (h.rest hw .looking (fun _ => rfl) (fun _ => rfl) (Nat.sub_add_cancel hidle) rfl h.served).look ?_
    exact List.getElem?_set_self (List.getElem?_eq_some_iff.mp hw).1

/-! ### Every interleaving -/

lemma Books.shutdown (h : Books s [] none) (hrun : s.stopping_ = false) : Books s.shutdown [] none := by
  have hpark : ∀ job, s.parked.reverse.count job = s.parked.count job := fun job => count_reverse
  refine { h with
    waiting := fun _ => rfl, parked := rfl, full := fun _ hne => absurd rfl hne,
    klass := fun _ _ hjob => absurd hjob not_mem_nil, bound := ?_, order := fun k => ?_, once := fun job => ?_,
    running := fun hstop => absurd hstop Bool.noConfusion }
  · exact Nat.le_trans (Nat.le_add_right (s.queue.length + 0) s.parked.length) h.bound
  · exact (h.order k).sublist (Sublist.append_left (nil_sublist _) _)
  · have honce := h.once job
    rw [h.running hrun, count_nil] at honce
    show s.accepted.count job = s.started.count job + s.queue.count job + 0 + 0 + s.parked.reverse.count job +
      s.failed.count job
    rw [hpark, honce]
    omega

lemma Books.fail (h : Books s [] none) {rest : List Job} (hpend : s.pending = job :: rest) :
    Books { s with pending := rest, failed := s.failed ++ [job] } [] none := by
  refine { h with once := fun x => ?_, running := fun hrun => ?_ }
  · have honce := h.once x
    rw [hpend, ← singleton_append, count_append] at honce
    show s.accepted.count x = s.started.count x + s.queue.count x + 0 + s.parked.count x + rest.count x +
      (s.failed ++ [job]).count x
    rw [count_append, honce, count_nil]
    omega
  · have hnil := h.running hrun
    rw [hpend] at hnil
    cases hnil

lemma Books.step {u : State} {a : Act} (h : Books s [] none) (hs : s.step a = some u) : Books u [] none := by
  cases a with rw [State.step] at hs
  | submit klass spawn =>
    cases hs
    exact h.submit klass spawn
  | look =>
    obtain ⟨hguard, rfl⟩ := of_guard hs
    exact h.look hguard
  | finish w spawn =>
    split at hs
    · rename_i job hw
      cases hs
      exact h.finish hw spawn
    · cases hs
  | wake w timedOut =>
    obtain ⟨hguard, rfl⟩ := of_guard hs
    exact h.wake hguard timedOut
  | shutdown =>
    split at hs <;> cases hs
    · exact h
    · rename_i hrun
      exact h.shutdown (Bool.not_eq_true _ ▸ hrun)
  | fail =>
    split at hs
    · cases hs
    · rename_i job rest hpend
      cases hs
      exact h.fail hpend

lemma books_create (limits : Limits) : Books (.create limits) [] none where
  queued := rfl
  waiting _ := rfl
  parked := rfl
  idle := rfl
  threads := rfl
  maxThreads := by
    show 0 < if limits.maxThreads = 0 then 512 else limits.maxThreads
    split <;> omega
  inflight _ _ := rfl
  limit _ _ := Nat.zero_le _
  full _ hne := absurd rfl hne
  klass := nofun
  bound := Nat.zero_le _
  served hne := absurd rfl hne
  order _ := Pairwise.nil
  once _ := rfl
  ran _ := rfl
  unique _ := Nat.zero_le _
  numbered _ hjob := by rcases hjob with hjob | hjob <;> cases hjob
  refused := nofun
  released := rfl
  running _ := rfl

lemma books_of_reachable (hs : poolSystem.Reachable s) : Books s [] none := by
  refine hs.invariant (P := fun s => Books s [] none) ?_ fun s a u h _ hst => h.step hst
  rintro s ⟨limits, rfl⟩
  exact books_create limits

end Cio.BlockingPool
