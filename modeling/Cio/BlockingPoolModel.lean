import Cio.CallPool
import Cio.TransitionSystem

/-! `BlockingPool`: a bounded queue of blocking jobs with an admission limit per class, served by threads that are
created on demand and retire when idle. A critical section of `mutex_` is one step; the launcher of threads may fail,
and a wait may end by a notification, by the keep-alive or for no reason. -/

namespace Cio.BlockingPool

open Transition Function

inductive BlockingClass where
  | generic | file | resolver
  deriving DecidableEq

/-- `BlockingJob`: its number in the order of submissions, and its class. -/
structure Job where
  id : Nat
  klass : BlockingClass
  deriving DecidableEq

structure Limits where
  maxThreads : Nat
  maxQueue : Nat
  maxFileOperations : Nat
  maxResolverOperations : Nat

def Limits.normal (l : Limits) : Limits :=
  { l with
    maxThreads := if l.maxThreads = 0 then 512 else l.maxThreads
    maxQueue := if l.maxQueue = 0 then 1024 else l.maxQueue }

/-- Where a thread of the pool stands outside the critical sections: it is about to look for a job, it runs one, it
waits on `cv_`, or it has retired. -/
inductive Worker where
  | looking
  | running (job : Job)
  | waiting
  | retired
  deriving DecidableEq

/-- `head_` to `tail_` is `queue`, and `admission_head_` to `admission_tail_` of a class is `admission`. `pending` is
the list that `shutdown` is completing. The rest is history: what was submitted, started in that order, ran to its
end or was failed, and whether `release_admission_locked` ever failed to enqueue. -/
structure State where
  limits : Limits
  queue : List Job
  queued_ : Nat
  idle_ : Nat
  stopping_ : Bool
  classInflight : BlockingClass → Nat
  admission : BlockingClass → List Job
  classWaiting : BlockingClass → Nat
  admissionQueued : Nat
  threads_ : Nat
  workers : List Worker
  pending : List Job
  submitted : Nat
  accepted : List Job
  rejected : List Job
  started : List Job
  ran : List Job
  failed : List Job
  releaseFailed : Bool

def allOf (admission : BlockingClass → List Job) : List Job :=
  admission .generic ++ admission .file ++ admission .resolver

namespace State

def create (limits : Limits) : State where
  limits := limits.normal
  queue := []
  queued_ := 0
  idle_ := 0
  stopping_ := false
  classInflight _ := 0
  admission _ := []
  classWaiting _ := 0
  admissionQueued := 0
  threads_ := 0
  workers := []
  pending := []
  submitted := 0
  accepted := []
  rejected := []
  started := []
  ran := []
  failed := []
  releaseFailed := false

def classLimit (s : State) : BlockingClass → Nat
  | .generic => 0
  | .file => s.limits.maxFileOperations
  | .resolver => s.limits.maxResolverOperations

def parked (s : State) : List Job := allOf s.admission

def setWorker (s : State) (w : Nat) (worker : Worker) : State := { s with workers := s.workers.set w worker }

/-- `enqueue_locked`; `spawn` is what the launcher answers. -/
def enqueueLocked (s : State) (job : Job) (spawn : Bool) : Option State :=
  let pushed : State := { s with queue := s.queue ++ [job], queued_ := s.queued_ + 1 }
  if s.queued_ + 1 > s.idle_ ∧ s.threads_ < s.limits.maxThreads then
    if spawn then some { pushed with threads_ := s.threads_ + 1, workers := s.workers ++ [.looking] }
    else if s.threads_ = 0 then none
    else some pushed
  else some pushed

/-- The head of the class's admission list leaves it for the slot that was freed. -/
def promote (s : State) (klass : BlockingClass) (rest : List Job) : State :=
  { s with
    admission := update s.admission klass rest
    classWaiting := update s.classWaiting klass (s.classWaiting klass - 1)
    admissionQueued := s.admissionQueued - 1
    classInflight := update s.classInflight klass (s.classInflight klass - 1 + 1) }

def releaseAdmissionLocked (s : State) (klass : BlockingClass) (spawn : Bool) : State :=
  if s.classLimit klass = 0 then s
  else
    match s.admission klass with
    | [] => { s with classInflight := update s.classInflight klass (s.classInflight klass - 1) }
    | next :: rest =>
      match (s.promote klass rest).enqueueLocked next spawn with
      | some enqueued => enqueued
      | none =>
        { s.promote klass rest with
          classInflight := update s.classInflight klass (s.classInflight klass - 1)
          failed := s.failed ++ [next]
          releaseFailed := true }

def newJob (s : State) (klass : BlockingClass) : Job := ⟨s.submitted, klass⟩

def submit (s : State) (klass : BlockingClass) (spawn : Bool) : State :=
  let job := s.newJob klass
  let refused : State := { s with submitted := s.submitted + 1, rejected := s.rejected ++ [job] }
  let taken : State := { s with submitted := s.submitted + 1, accepted := s.accepted ++ [job] }
  if s.stopping_ then refused
  else if s.queued_ + s.admissionQueued ≥ s.limits.maxQueue then refused
  else if s.classLimit klass ≠ 0 ∧ s.classInflight klass ≥ s.classLimit klass then
    { taken with
      admission := update s.admission klass (s.admission klass ++ [job])
      classWaiting := update s.classWaiting klass (s.classWaiting klass + 1)
      admissionQueued := s.admissionQueued + 1 }
  else if s.classLimit klass ≠ 0 then
    ({ taken with
        classInflight := update s.classInflight klass (s.classInflight klass + 1) }.enqueueLocked
      job spawn).getD refused
  else (taken.enqueueLocked job spawn).getD refused

/-- The loop of `worker_main` from the point where it holds the lock up to the next `unlock`, `wait_for` or return. -/
def look (s : State) (w : Nat) : State :=
  match s.queue with
  | job :: rest =>
    { s.setWorker w (.running job) with queue := rest, queued_ := s.queued_ - 1, started := s.started ++ [job] }
  | [] =>
    if s.stopping_ then { s.setWorker w .retired with threads_ := s.threads_ - 1 }
    else { s.setWorker w .waiting with idle_ := s.idle_ + 1 }

def finish (s : State) (w : Nat) (job : Job) (spawn : Bool) : State :=
  ({ s.setWorker w .looking with ran := s.ran ++ [job] }.releaseAdmissionLocked job.klass spawn).look w

/-- The wait of a thread is over; `timedOut` is what `wait_for` reports. -/
def wake (s : State) (w : Nat) (timedOut : Bool) : State :=
  if timedOut = true ∧ s.queue = [] ∧ s.stopping_ = false then
    { s.setWorker w .retired with idle_ := s.idle_ - 1, threads_ := s.threads_ - 1 }
  else { s.setWorker w .looking with idle_ := s.idle_ - 1 }.look w

/-- The first critical section of `shutdown`. -/
def shutdown (s : State) : State :=
  { s with
    stopping_ := true
    admission := fun _ => []
    classWaiting := fun _ => 0
    admissionQueued := 0
    pending := s.parked.reverse }

end State

inductive Act where
  | submit (klass : BlockingClass) (spawn : Bool)
  | look (w : Nat)
  | finish (w : Nat) (spawn : Bool)
  | wake (w : Nat) (timedOut : Bool)
  | shutdown
  | fail
  deriving DecidableEq

def State.step (s : State) : Act → Option State
  | .submit klass spawn => some (s.submit klass spawn)
  | .look w => if s.workers[w]? = some .looking then some (s.look w) else none
  | .finish w spawn =>
    match s.workers[w]? with
    | some (.running job) => some (s.finish w job spawn)
    | _ => none
  | .wake w timedOut => if s.workers[w]? = some .waiting then some (s.wake w timedOut) else none
  | .shutdown => if s.stopping_ then some s else some s.shutdown
  | .fail =>
    match s.pending with
    | [] => none
    | job :: rest => some { s with pending := rest, failed := s.failed ++ [job] }

def poolSystem : System State Act where
  init s := ∃ limits, s = .create limits
  step := State.step

/-! ### Weights of the threads -/

namespace Worker

def alive : Worker → Nat
  | .retired => 0
  | _ => 1

def idle : Worker → Nat
  | .waiting => 1
  | _ => 0

def serves (klass : BlockingClass) : Worker → Nat
  | .running job => if job.klass = klass then 1 else 0
  | _ => 0

def runs (job : Job) : Worker → Nat
  | .running job' => if job' = job then 1 else 0
  | _ => 0

end Worker

def ofClass (klass : BlockingClass) (jobs : List Job) : List Job := jobs.filter fun job => job.klass = klass

lemma ofClass_append (klass : BlockingClass) (jobs more : List Job) :
    ofClass klass (jobs ++ more) = ofClass klass jobs ++ ofClass klass more := List.filter_append ..

lemma ofClass_cons_self (job : Job) (jobs : List Job) :
    ofClass job.klass (job :: jobs) = job :: ofClass job.klass jobs := List.filter_cons_of_pos (by simp)

lemma ofClass_cons_ne {klass : BlockingClass} {job : Job} (h : job.klass ≠ klass) (jobs : List Job) :
    ofClass klass (job :: jobs) = ofClass klass jobs := List.filter_cons_of_neg (by simpa using h)

lemma allOf_update (admission : BlockingClass → List Job) (klass : BlockingClass) (jobs : List Job)
    (f : List Job → Nat) (hf : ∀ l m, f (l ++ m) = f l + f m) :
    f (allOf (update admission klass jobs)) + f (admission klass) = f (allOf admission) + f jobs := by
  cases klass <;> simp [allOf, hf] <;> omega

end Cio.BlockingPool
