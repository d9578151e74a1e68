import Cio.BlockingPool

/-! What the blocking pool guarantees in every interleaving of submissions, threads, idle retirement and shutdown, and
that every accepted job comes to its end when the threads go on. -/

namespace Cio.BlockingPool

open CallPool Transition State List Worker

/-! ### Every job comes to its end -/

/-- How far a thread is from having retired; a job that it runs counts with it. -/
def Worker.rank : Worker → Nat
  | .looking | .running _ => 2
  | .waiting => 1
  | .retired => 0

def State.rank (s : State) : Nat :=
  3 * s.parked.length + 2 * s.queue.length + weight Worker.rank s.workers + s.pending.length

variable {s : State} {w : Nat}

lemma rank_look (hw : s.workers[w]? = some .looking) :
    (s.look w).rank + (if s.queue ≠ [] ∨ s.stopping_ then 2 else 1) ≤ s.rank := by
  have hset := fun worker => weight_set Worker.rank hw worker
  rw [look]
  split
  · rename_i job rest hqueue
    have hsum : weight Worker.rank (s.workers.set w (.running job)) + 2 = weight Worker.rank s.workers + 2 :=
      hset (.running job)
    rw [if_pos (.inl (hqueue ▸ cons_ne_nil _ _))]
    show 3 * s.parked.length + 2 * rest.length + weight _ (s.workers.set w (.running job)) + s.pending.length + 2 ≤ _
    rw [State.rank, hqueue, List.length_cons]
    omega
  · rename_i hqueue
    split
    · rename_i hstop
      have hsum : weight Worker.rank (s.workers.set w .retired) + 2 = weight Worker.rank s.workers + 0 :=
        hset .retired
      rw [if_pos (.inr hstop)]
      show 3 * s.parked.length + 2 * s.queue.length + weight _ (s.workers.set w .retired) + s.pending.length + 2 ≤ _
      rw [State.rank]
      omega
    · rename_i hrun
      have hsum : weight Worker.rank (s.workers.set w .waiting) + 2 = weight Worker.rank s.workers + 1 :=
        hset .waiting
      rw [if_neg (not_or.mpr ⟨not_not.mpr hqueue, hrun⟩)]
      show 3 * s.parked.length + 2 * s.queue.length + weight _ (s.workers.set w .waiting) + s.pending.length + 1 ≤ _
      rw [State.rank]
      omega

lemma rank_release (hthr : 0 < s.threads_) (klass : BlockingClass) (spawn : Bool) :
    (s.releaseAdmissionLocked klass spawn).rank ≤ s.rank ∨
      (s.releaseAdmissionLocked klass spawn).rank ≤ s.rank + 1 ∧
        (s.releaseAdmissionLocked klass spawn).queue ≠ [] := by
  rw [releaseAdmissionLocked]
  split
  · exact .inl (le_rfl)
  split
  · exact .inl (le_rfl)
  · rename_i next rest hnext
    rcases enqueueLocked_cases (s.promote klass rest) next spawn with ⟨-, hnone⟩ | ⟨extra, hextra, hlength, -, heq⟩
    · exact absurd hnone (ne_of_gt hthr)
    · rw [heq]
      refine .inr ⟨?_, append_ne_nil_of_right_ne_nil _ (cons_ne_nil _ _)⟩
      have hpark := allOf_update s.admission klass rest length fun _ _ => length_append
      rw [hnext, length_cons] at hpark
      have hrank : weight Worker.rank extra ≤ 2 * extra.length :=
        Nat.le_trans (weight_le_mul (fun x => by cases x <;> simp [Worker.rank]) extra)
          (Nat.mul_le_mul_left 2 (weight_le_length (fun _ => Nat.le_refl 1) extra))
      show 3 * (allOf (Function.update s.admission klass rest)).length + 2 * (s.queue ++ [next]).length +
        weight _ (s.workers ++ extra) + s.pending.length ≤ _
      rw [weight_append, List.length_append, List.length_singleton, State.rank, State.parked]
      omega

lemma rank_finish {job : Job} (hw : s.workers[w]? = some (.running job))
    (hthr : 0 < s.threads_) (spawn : Bool) : (s.finish w job spawn).rank < s.rank := by
  have hself : (s.workers.set w .looking)[w]? = some .looking :=
    getElem?_set_self (List.getElem?_eq_some_iff.mp hw).1
  have hsame : { s.setWorker w .looking with ran := s.ran ++ [job] }.rank = s.rank := by
    have hsum : weight Worker.rank (s.workers.set w .looking) + 2 = weight Worker.rank s.workers + 2 :=
      weight_set Worker.rank hw .looking
    show 3 * s.parked.length + 2 * s.queue.length + weight _ (s.workers.set w .looking) + s.pending.length = _
    rw [Nat.add_right_cancel hsum]
    rfl
  have hlook := rank_look (release_worker (s := { s.setWorker w .looking with ran := s.ran ++ [job] }) hself
    job.klass spawn)
  rw [finish]
  rcases rank_release (s := { s.setWorker w .looking with ran := s.ran ++ [job] }) hthr job.klass spawn with
    hle | ⟨hle, hqueue⟩
  · rw [hsame] at hle
    split at hlook <;> omega
  · rw [hsame] at hle
    rw [if_pos (.inl hqueue)] at hlook
    omega

lemma rank_wake (hw : s.workers[w]? = some .waiting) {timedOut : Bool}
    (hcause : timedOut ∨ s.queue ≠ [] ∨ s.stopping_) : (s.wake w timedOut).rank < s.rank := by
  rw [wake]
  split
  · have hsum : weight Worker.rank (s.workers.set w .retired) + 1 = weight Worker.rank s.workers + 0 :=
      weight_set Worker.rank hw .retired
    show 3 * s.parked.length + 2 * s.queue.length + weight _ (s.workers.set w .retired) + s.pending.length < _
    rw [State.rank]
    omega
  · rename_i hstay
    have hself : (s.workers.set w .looking)[w]? = some .looking :=
      List.getElem?_set_self (List.getElem?_eq_some_iff.mp hw).1
    have hlook : ({ s.setWorker w .looking with idle_ := s.idle_ - 1 }.look w).rank +
        (if s.queue ≠ [] ∨ s.stopping_ then 2 else 1) ≤ { s.setWorker w .looking with idle_ := s.idle_ - 1 }.rank :=
      rank_look hself
    have hwoken : s.queue ≠ [] ∨ s.stopping_ = true := by
      rcases hcause with hout | hcause
      · by_contra hnone
        obtain ⟨hempty, hrun⟩ := not_or.mp hnone
        exact hstay ⟨hout, not_not.mp hempty, Bool.not_eq_true _ ▸ hrun⟩
      · exact hcause
    rw [if_pos hwoken] at hlook
    have hsum : weight Worker.rank (s.workers.set w .looking) + 1 = weight Worker.rank s.workers + 2 :=
      weight_set Worker.rank hw .looking
    have hmore : { s.setWorker w .looking with idle_ := s.idle_ - 1 }.rank = s.rank + 1 := by
      show 3 * s.parked.length + 2 * s.queue.length + weight _ (s.workers.set w .looking) + s.pending.length = _
      rw [State.rank]
      omega
    omega

/-- Nothing more is submitted; a wait ends with a cause, and the rest goes on. -/
def settling : System State Act where
  init := poolSystem.Reachable
  step s
    | .submit .. | .shutdown => none
    | .wake w timedOut =>
      if timedOut = true ∨ s.queue ≠ [] ∨ s.stopping_ = true then s.step (.wake w timedOut) else none
    | .look w => s.step (.look w)
    | .finish w spawn => s.step (.finish w spawn)
    | .fail => s.step .fail

lemma settling_step {u : State} {a : Act} (h : Books s [] none) (hs : settling.step s a = some u) :
    s.step a = some u ∧ u.rank < s.rank := by
  cases a with
  | submit => cases hs
  | shutdown => cases hs
  | look w =>
    have hs : s.step (.look w) = some u := hs
    refine ⟨hs, ?_⟩
    obtain ⟨hguard, rfl⟩ := of_guard hs
    have hlook := rank_look hguard
    split at hlook <;> omega
  | finish w spawn =>
    have hs : s.step (.finish w spawn) = some u := hs
    refine ⟨hs, ?_⟩
    rw [step] at hs
    split at hs
    · rename_i job hw
      cases hs
      refine rank_finish hw ?_ spawn
      have halive := le_weight Worker.alive (mem_of_getElem? hw)
      rwa [← h.threads] at halive
    · cases hs
  | wake w timedOut =>
    have hs : (if timedOut ∨ s.queue ≠ [] ∨ s.stopping_ then s.step (.wake w timedOut) else none) = some u := hs
    obtain ⟨hcause, hs⟩ := Option.ite_none_right_eq_some.mp hs
    refine ⟨hs, ?_⟩
    obtain ⟨hguard, rfl⟩ := of_guard hs
    exact rank_wake hguard hcause
  | fail =>
    have hs : s.step .fail = some u := hs
    refine ⟨hs, ?_⟩
    rw [step] at hs
    split at hs
    · cases hs
    · rename_i job rest hpend
      cases hs
      show 3 * s.parked.length + 2 * s.queue.length + weight _ s.workers + rest.length < _
      rw [State.rank, hpend, List.length_cons]
      omega

lemma retired_of_stuck (hstuck : settling.Stuck s) : ∀ worker ∈ s.workers, worker = .retired := by
  intro worker hwk
  obtain ⟨w, hw⟩ := mem_iff_getElem?.mp hwk
  cases worker with
  | retired => rfl
  | looking =>
    have hnone : s.step (.look w) = none := hstuck (.look w)
    rw [step, if_pos hw] at hnone
    cases hnone
  | running =>
    have hnone : s.step (.finish w true) = none := hstuck (.finish w true)
    simp only [step, hw] at hnone
    cases hnone
  | waiting =>
    have hnone : (if true ∨ s.queue ≠ [] ∨ s.stopping_ then s.step (.wake w true) else none) = none :=
      hstuck (.wake w true)
    rw [if_pos (.inl rfl), step, if_pos hw] at hnone
    cases hnone

/-- Every accepted job ran or was failed, once. -/
def Ended (s : State) : Prop := ∀ job ∈ s.accepted, s.ran.count job + s.failed.count job = 1

lemma ended_of_stuck (h : Books s [] none) (hstuck : settling.Stuck s) : Ended s := by
  have hretired := retired_of_stuck hstuck
  have hsum : ∀ f : Worker → Nat, f .retired = 0 → weight f s.workers = 0 := fun f hf =>
    weight_eq_zero fun worker hwk => by rw [hretired worker hwk, hf]
  have hqueue : s.queue = [] := by
    by_contra hne
    have hserve := h.served hne
    rw [h.threads, hsum _ rfl] at hserve
    exact lt_irrefl 0 hserve
  have hadm : ∀ k, s.admission k = [] := by
    intro k
    by_contra hne
    obtain ⟨hlim, hfull⟩ := h.full k hne
    have hfly := h.inflight k hlim
    rw [hqueue, hsum _ rfl] at hfly
    exact hlim (hfull.symm.trans hfly)
  have hpend : s.pending = [] := by
    have hnone : s.step .fail = none := hstuck .fail
    rw [step] at hnone
    split at hnone
    · assumption
    · cases hnone
  intro job hjob
  have hcount : s.accepted.count job = 1 := le_antisymm (h.unique job) (count_pos_iff.mpr hjob)
  have honce := h.once job
  have hran := h.ran job
  rw [hsum _ rfl] at hran
  have hpark : s.parked = [] := by rw [parked, allOf, hadm, hadm, hadm]; rfl
  rw [hcount, hqueue, hpark, hpend, hran] at honce
  simp only [count_nil] at honce
  omega

lemma settling_endsIn : settling.EndsIn Ended :=
  System.endsIn_of_measure (fun _ => books_of_reachable)
    (fun _ _ _ h hs => (settling_step h hs).imp_left h.step) fun _ h => ended_of_stuck h

/-! ### The guarantee -/

/-- A class runs at most its limit of jobs, and jobs wait for admission only at the limit; the queue is bounded; within
a class jobs start in the order of submission; an accepted job is in one place, and it runs or fails once; a refused one
does neither. -/
structure PoolSafe (s : State) : Prop where
  limited : ∀ k, s.classLimit k ≠ 0 →
    s.classInflight k = (ofClass k s.queue).length + weight (serves k) s.workers ∧
      s.classInflight k ≤ s.classLimit k
  waiting : ∀ k, s.admission k ≠ [] → s.classLimit k ≠ 0 ∧ s.classInflight k = s.classLimit k
  bound : s.queue.length + s.parked.length ≤ s.limits.maxQueue
  order : ∀ k, (ofClass k (s.started ++ s.queue) ++ s.admission k).Pairwise fun a b => a.id < b.id
  once : ∀ job ∈ s.accepted, s.ran.count job + weight (runs job) s.workers + s.queue.count job +
    s.parked.count job + s.pending.count job + s.failed.count job = 1
  rejected : ∀ job ∈ s.rejected, job ∉ s.started ∧ job ∉ s.failed
  released : s.releaseFailed = false

lemma Books.safe (h : Books s [] none) : PoolSafe s where
  limited k hk := by
    have hfly := h.inflight k hk
    rw [append_nil] at hfly
    exact ⟨hfly, h.limit k hk⟩
  waiting := h.full
  bound := h.bound
  order k := by
    have horder := h.order k
    rwa [append_nil] at horder
  once job hjob := by
    have hcount : s.accepted.count job = 1 := le_antisymm (h.unique job) (count_pos_iff.mpr hjob)
    have honce := h.once job
    rw [hcount, h.ran job, count_nil] at honce
    exact honce.symm
  rejected job hjob := by
    have hcount : s.accepted.count job = 0 := count_eq_zero.mpr (h.refused job hjob)
    have honce := h.once job
    rw [hcount] at honce
    exact ⟨count_eq_zero.mp (by omega), count_eq_zero.mp (by omega)⟩
  released := h.released

/-- **For all limits and in every interleaving: a limited class stays within its limit and its counter is exact, its
jobs wait only at the limit and start in the order of their submissions, the queues stay within their bound, and an
accepted job is run or failed exactly once, a rejected one never.** -/
theorem pool_safe {s : State} (hs : poolSystem.Reachable s) : PoolSafe s ∧ settling.EndsIn Ended :=
  ⟨(books_of_reachable hs).safe, settling_endsIn⟩

/-- One file operation at a time: the second one waits for admission until the first is over, the third is still
waiting when the pool is stopped and fails, and a fourth is refused. -/
theorem pool_safe_promoted : ∃ s, poolSystem.Reachable s ∧ s.started = [⟨0, .file⟩, ⟨1, .file⟩] ∧
    s.failed = [⟨2, .file⟩] ∧ s.rejected = [⟨3, .file⟩] ∧ PoolSafe s := by
  obtain ⟨s, hs, hstart, hfail, hrej⟩ := poolSystem.reachable_of_run (.create ⟨2, 4, 1, 1⟩)
    [.submit .file true, .look 0, .submit .file true, .submit .file true, .finish 0 false, .shutdown,
      .submit .file true, .fail]
    (fun s => s.started = [⟨0, .file⟩, ⟨1, .file⟩] ∧ s.failed = [⟨2, .file⟩] ∧ s.rejected = [⟨3, .file⟩])
    ⟨_, rfl⟩ (by decide +kernel)
  exact ⟨s, hs, hstart, hfail, hrej, (pool_safe hs).1⟩

/-- **A queued job has a thread, although threads may fail to start and idle ones retire.** -/
theorem queue_attended {s : State} (hs : poolSystem.Reachable s) (hqueue : s.queue ≠ []) :
    ∃ worker ∈ s.workers, worker ≠ .retired := by
  have hbooks := books_of_reachable hs
  obtain ⟨worker, hmem, halive⟩ := exists_of_weight_pos (hbooks.threads ▸ hbooks.served hqueue)
  refine ⟨worker, hmem, ?_⟩
  rintro rfl
  cases halive

theorem queue_attended_unlaunched : ∃ s, poolSystem.Reachable s ∧ s.queue ≠ [] ∧
    ∃ worker ∈ s.workers, worker ≠ .retired := by
  obtain ⟨s, hs, hqueue⟩ := poolSystem.reachable_of_run (.create ⟨2, 2, 0, 0⟩)
    [.submit .file true, .look 0, .submit .file false] (·.queue ≠ []) ⟨_, rfl⟩ (by decide)
  exact ⟨s, hs, hqueue, queue_attended hs hqueue⟩

end Cio.BlockingPool
