import Cio.ReactorDesc

/-! The complete operations of every descriptor type with deadlines or cancellation, from the capture of the
incarnation to the last native call. Most take the direction (`IoOperationAwaiter`, `try_lock_io_operation`) and
make each native call inside an `FdUseGuard`; both check the deadline and the token. `PollableFd::read`,
`PollableFd::write` and `SignalSet::recv` call on the raw handle and check them only when they wait.
The deadline, the token and the incarnation do not change while the operation runs, and the kernel's answers to
its native calls are arbitrary. -/

namespace Cio.Net.Elapsed

open Reactor IoDesc

inductive Native where
  | done (n : Nat)
  | fail (code : Nat)

def eintr : Nat := 4
def eagain : Nat := 11
def eio : Nat := 5
def econnaborted : Nat := 103

/-- How an operation went: the native calls it made, and its result once it has one. -/
structure Run where
  calls : Nat
  result : Option (Except Error Nat)

def Run.returns (result : Except Error Nat) : Run := ⟨0, some result⟩

def Run.after (r : Run) : Run := { r with calls := r.calls + 1 }

/-- A handle: `fd_`, the descriptor behind `desc_`, and whether another operation has the direction. `close` clears
both fields in the critical section that publishes `closing`, so a descriptor the handle still names is open and
has the handle's number. -/
structure Handle (ω τ : Type) where
  fd : Int
  desc : Option (IoDesc ω τ)
  busy : Dir → Bool
  attached : ∀ d, desc = some d → d.closing = false ∧ fd = d.fd

variable {ω τ : Type}

def Handle.capture (h : Handle ω τ) (env : Env τ) : Except Error (IoDesc ω τ) :=
  match h.desc with
  | none => .error .ebadf
  | some d =>
    if h.fd ≠ d.fd ∨ d.closing then .error (.errc .closed)
    else if env.stopping then .error (.errc .shutdown)
    else .ok d

/-- `IoOperationAwaiter`: an operation that has to wait for its turn is checked before it is queued. -/
def lockOperation (d : IoDesc ω τ) (env : Env τ) (dir : Dir) : Except Error Unit :=
  match d.ioError env dir d.generation with
  | some e => .error e
  | none => .ok ()

def tryLockOperation (d : IoDesc ω τ) (env : Env τ) (dir : Dir) (busy : Bool) : Except Error Unit :=
  if busy then .error (.errc .wouldBlock) else lockOperation d env dir

def guarded (d : IoDesc ω τ) (env : Env τ) (dir : Dir) (call : Run) : Run :=
  match d.beginSyscall env dir d.generation with
  | .error e => .returns (.error e)
  | .ok _ => call.after

/-- `IoAwaiter`: the check, then the wait for an edge. -/
def awaiting (d : IoDesc ω τ) (env : Env τ) (dir : Dir) (next : Run) : Run :=
  match d.ioError env dir d.generation with
  | some e => .returns (.error e)
  | none => next

def pending : Run := ⟨0, none⟩

/-! ### Guarded loops -/

/-- The loop of a receiving operation; `retries` are the codes it repeats the call for. -/
def receiveLoop (d : IoDesc ω τ) (env : Env τ) (dir : Dir) (retries : Nat → Bool) : List Native → Run
  | [] => guarded d env dir pending
  | .done n :: _ => guarded d env dir (.returns (.ok n))
  | .fail code :: rest =>
    guarded d env dir
      (if retries code then receiveLoop d env dir retries rest
      else if code ≠ eagain then .returns (.error (.errno code))
      else awaiting d env dir (receiveLoop d env dir retries rest))

/-- A loop that skips its first call while the readiness hint is clear; the edge it then waits for sets it. -/
def hinted (hint : Bool) (d : IoDesc ω τ) (env : Env τ) (dir : Dir) (loop : Run) : Run :=
  if hint then loop else awaiting d env dir loop

/-- `TcpConn::write` and `UnixConn::write` after the direction was taken: `tcp_write_some` until nothing
remains. A partial write clears the hint. -/
def sendAll (d : IoDesc ω τ) (env : Env τ) (total remaining : Nat) (hint : Bool) : List Native → Run
  | [] =>
    if remaining = 0 then .returns (.ok total) else hinted hint d env .write (guarded d env .write pending)
  | .done n :: rest =>
    if remaining = 0 then .returns (.ok total)
    else
      hinted hint d env .write
        (guarded d env .write (sendAll d env total (remaining - n) (decide (remaining ≤ n)) rest))
  | .fail code :: rest =>
    if remaining = 0 then .returns (.ok total)
    else
      hinted hint d env .write
        (guarded d env .write
          (if code = eintr then sendAll d env total remaining true rest
          else if code ≠ eagain then .returns (.error (.errno code))
          else awaiting d env .write (sendAll d env total remaining true rest)))

def attempt (d : IoDesc ω τ) (env : Env τ) (dir : Dir) : List Native → Run
  | [] => guarded d env dir pending
  | .done n :: _ => guarded d env dir (.returns (.ok n))
  | .fail code :: _ => guarded d env dir (.returns (.error (.errno code)))

/-! ### Raw loops -/

def pollableReadLoop (d : IoDesc ω τ) (env : Env τ) : List Native → Run
  | [] => pending.after
  | .done n :: _ => (Run.returns (.ok n)).after
  | .fail code :: rest =>
    (if code = eintr then pollableReadLoop d env rest
    else if code ≠ eagain then .returns (.error (.errno code))
    else awaiting d env .read (pollableReadLoop d env rest)).after

def pollableWriteLoop (d : IoDesc ω τ) (env : Env τ) (total remaining : Nat) : List Native → Run
  | [] => if remaining = 0 then .returns (.ok total) else pending.after
  | .done n :: rest =>
    if remaining = 0 then .returns (.ok total)
    else if n = 0 then (Run.returns (.error (.errc .closed))).after
    else (pollableWriteLoop d env total (remaining - n) rest).after
  | .fail code :: rest =>
    if remaining = 0 then .returns (.ok total)
    else
      (if code = eintr then pollableWriteLoop d env total remaining rest
      else if code ≠ eagain then .returns (.error (.errno code))
      else awaiting d env .write (pollableWriteLoop d env total remaining rest)).after

def siginfoSize : Nat := 128

/-- The loop of `SignalSet::recv`, which returns the number of the signal (`signo`). -/
def signalLoop (d : IoDesc ω τ) (env : Env τ) (signo : Nat) : List Native → Run
  | [] => pending.after
  | .done n :: _ =>
    (Run.returns (if n = siginfoSize then .ok signo else .error (.errno eio))).after
  | .fail code :: rest =>
    (if code ≠ eagain ∧ code ≠ eintr then .returns (.error (.errno code))
    else if code = eintr then signalLoop d env signo rest
    else awaiting d env .read (signalLoop d env signo rest)).after

/-! ### Operations -/

/-- The operations of the descriptor types. `ready` is `readable()` or `writable()` of any of them. -/
inductive Op where
  | tcpRead
  | tcpWrite (size : Nat)
  | tcpTryRead
  | tcpTryWrite
  | tcpAccept
  | udpReadFrom
  | udpWriteTo
  | unixRead
  | unixWrite (size : Nat)
  | unixTryRead
  | unixTryWrite
  | unixAccept
  | ready (dir : Dir)
  | pollableRead
  | pollableWrite (size : Nat)
  | signalRecv (signo : Nat)

namespace Op

def dir : Op → Dir
  | .tcpRead | .tcpTryRead | .tcpAccept | .udpReadFrom | .unixRead | .unixTryRead | .unixAccept | .pollableRead
  | .signalRecv _ => .read
  | .tcpWrite _ | .tcpTryWrite | .udpWriteTo | .unixWrite _ | .unixTryWrite | .pollableWrite _ => .write
  | .ready d => d

def tries : Op → Bool
  | .tcpTryRead | .tcpTryWrite | .unixTryRead | .unixTryWrite => true
  | .tcpRead | .tcpWrite _ | .tcpAccept | .udpReadFrom | .udpWriteTo | .unixRead | .unixWrite _ | .unixAccept
  | .ready _ | .pollableRead | .pollableWrite _ | .signalRecv _ => false

def raw : Op → Bool
  | .pollableRead | .pollableWrite _ | .signalRecv _ => true
  | .tcpRead | .tcpWrite _ | .tcpTryRead | .tcpTryWrite | .tcpAccept | .udpReadFrom | .udpWriteTo | .unixRead
  | .unixWrite _ | .unixTryRead | .unixTryWrite | .unixAccept | .ready _ => false

end Op

def Handle.operate (h : Handle ω τ) (env : Env τ) (dir : Dir) (loop : IoDesc ω τ → Run) : Run :=
  match h.capture env with
  | .error e => .returns (.error e)
  | .ok d =>
    match lockOperation d env dir with
    | .error e => .returns (.error e)
    | .ok () => loop d

def Handle.try (h : Handle ω τ) (env : Env τ) (dir : Dir) (answers : List Native) : Run :=
  match h.capture env with
  | .error e => .returns (.error e)
  | .ok d =>
    match tryLockOperation d env dir (h.busy dir) with
    | .error e => .returns (.error e)
    | .ok () => attempt d env dir answers

/-- An operation on the raw handle: only `valid()` is asked. -/
def Handle.onRaw (h : Handle ω τ) (loop : IoDesc ω τ → Run) : Run :=
  if h.fd < 0 then .returns (.error .ebadf)
  else
    match h.desc with
    | none => .returns (.error .ebadf)
    | some d => loop d

def readRetries (code : Nat) : Bool := code == eintr
def acceptRetries (code : Nat) : Bool := code == eintr || code == econnaborted

def Op.run (op : Op) (h : Handle ω τ) (env : Env τ) (answers : List Native) : Run :=
  match op with
  | .tcpRead | .unixRead =>
    h.operate env .read fun d =>
      hinted (d.readyHint .read) d env .read (receiveLoop d env .read readRetries answers)
  | .tcpWrite size | .unixWrite size =>
    h.operate env .write fun d => sendAll d env size size (d.readyHint .write) answers
  | .tcpTryRead | .unixTryRead => h.try env .read answers
  | .tcpTryWrite | .unixTryWrite => h.try env .write answers
  | .tcpAccept =>
    h.operate env .read fun d =>
      hinted (d.readyHint .read) d env .read (receiveLoop d env .read acceptRetries answers)
  | .unixAccept => h.operate env .read fun d => receiveLoop d env .read acceptRetries answers
  | .udpReadFrom => h.operate env .read fun d => receiveLoop d env .read readRetries answers
  | .udpWriteTo => h.operate env .write fun d => receiveLoop d env .write readRetries answers
  | .ready dir =>
    match h.desc with
    | none => .returns (.error .ebadf)
    | some d => awaiting d env dir pending
  | .pollableRead => h.onRaw fun d => pollableReadLoop d env answers
  | .pollableWrite size => h.onRaw fun d => pollableWriteLoop d env size size answers
  | .signalRecv signo => h.onRaw fun d => signalLoop d env signo answers

/-! ### Elapsed deadlines and fired tokens -/

/-- The deadline of the direction has passed, or the bound token has fired. -/
def Handle.Passed (h : Handle ω τ) (env : Env τ) (dir : Dir) : Prop :=
  ∃ d, h.desc = some d ∧
    ((d.absoluteDeadlineNs dir ≠ 0 ∧ d.absoluteDeadlineNs dir ≤ env.now) ∨ d.cancelled env.fired = true)

/-- The operation returned `timed_out` or `cancelled` and made no native call. -/
def Run.Stopped (r : Run) : Prop :=
  r.calls = 0 ∧ (r.result = some (.error (.errc .timedOut)) ∨ r.result = some (.error (.errc .cancelled)))

/-- The operation checks before it calls, the runtime is not stopping, and a `try_` form finds the direction
free. -/
structure Op.Checked (op : Op) (h : Handle ω τ) (env : Env τ) : Prop where
  guarded : op.raw = false
  running : env.stopping = false
  free : op.tries = true → h.busy op.dir = false

variable {dir : Dir}

lemma Run.stopped_returns {e : Error} :
    (Run.returns (.error e)).Stopped ↔ e = .errc .timedOut ∨ e = .errc .cancelled := by
  simp [Run.Stopped, Run.returns]

lemma Run.not_stopped_ok (n : Nat) : ¬ (Run.returns (.ok n)).Stopped := by
  simp [Run.Stopped, Run.returns]

lemma Run.not_stopped_after (r : Run) : ¬ r.after.Stopped := by
  simp [Run.Stopped, Run.after]

variable {h : Handle ω τ} {env : Env τ}

lemma Handle.Passed.error (hpast : h.Passed env dir) :
    ∃ d e, h.desc = some d ∧ d.ioError env dir d.generation = some e ∧
      (env.stopping → e = .errc .shutdown) ∧
      (env.stopping = false → e = .errc .timedOut ∨ e = .errc .cancelled) := by
  obtain ⟨d, hd, hpast⟩ := hpast
  have hopen : ¬ (d.generation ≠ d.generation ∨ d.closing) := by simp [(h.attached d hd).1]
  refine ⟨d, ?_⟩
  by_cases hstopping : env.stopping
  · refine ⟨.errc .shutdown, hd, ?_, fun _ => rfl, fun h' => by simp [hstopping] at h'⟩
    rw [ioError, if_neg hopen, if_pos hstopping]
  by_cases hcut : d.cancelled env.fired
  · refine ⟨.errc .cancelled, hd, ?_, fun h' => absurd h' hstopping, fun _ => .inr rfl⟩
    rw [ioError, if_neg hopen, if_neg hstopping, if_pos hcut]
  · have htimed : d.timedOut env.now dir = true := by
      rcases hpast with ⟨hset, hpast⟩ | hfired
      · rw [timedOut, if_neg hset, if_pos hpast]
      · exact absurd hfired hcut
    refine ⟨.errc .timedOut, hd, ?_, fun h' => absurd h' hstopping, fun _ => .inl rfl⟩
    rw [ioError, if_neg hopen, if_neg hstopping, if_neg hcut, if_pos htimed]

lemma Handle.capture_attached (h : Handle ω τ) {d : IoDesc ω τ} (hd : h.desc = some d) :
    h.capture env = if env.stopping then .error (.errc .shutdown) else .ok d := by
  obtain ⟨hopen, hfd⟩ := h.attached d hd
  simp only [Handle.capture, hd]
  rw [if_neg (by simp [hopen, hfd])]

attribute [local simp] lockOperation tryLockOperation Handle.operate Handle.try Run.stopped_returns
  Error.ebadf

lemma Handle.operate_stopped (hpast : h.Passed env dir)
    (loop : IoDesc ω τ → Run) : (h.operate env dir loop).Stopped ↔ env.stopping = false := by
  obtain ⟨d, e, hd, he, -, hrunning⟩ := hpast.error
  cases hstopping : env.stopping with
  | true => simp [h.capture_attached hd, hstopping]
  | false => simp [h.capture_attached hd, he, hstopping, hrunning hstopping]

lemma Handle.try_stopped (hpast : h.Passed env dir) (answers : List Native) :
    (h.try env dir answers).Stopped ↔ env.stopping = false ∧ h.busy dir = false := by
  obtain ⟨d, e, hd, he, -, hrunning⟩ := hpast.error
  cases hstopping : env.stopping with
  | true => simp [h.capture_attached hd, hstopping]
  | false =>
    cases hbusy : h.busy dir with
    | true => simp [h.capture_attached hd, hbusy, hstopping]
    | false => simp [h.capture_attached hd, he, hbusy, hstopping, hrunning hstopping]

lemma Handle.onRaw_not_stopped {loop : IoDesc ω τ → Run} (hloop : ∀ d, ¬ (loop d).Stopped) :
    ¬ (h.onRaw loop).Stopped := by
  unfold Handle.onRaw
  by_cases hfd : h.fd < 0
  · rw [if_pos hfd, Run.stopped_returns]
    simp
  rw [if_neg hfd]
  cases h.desc with
  | none => simp
  | some d => exact hloop d

lemma pollableReadLoop_not_stopped (d : IoDesc ω τ) (env : Env τ) (answers : List Native) :
    ¬ (pollableReadLoop d env answers).Stopped := by
  rcases answers with _ | ⟨_ | code, rest⟩
  all_goals
    exact Run.not_stopped_after _

lemma signalLoop_not_stopped (d : IoDesc ω τ) (env : Env τ) (signo : Nat) (answers : List Native) :
    ¬ (signalLoop d env signo answers).Stopped := by
  rcases answers with _ | ⟨_ | code, rest⟩
  all_goals
    exact Run.not_stopped_after _

lemma pollableWriteLoop_not_stopped (d : IoDesc ω τ) (env : Env τ) (total remaining : Nat)
    (answers : List Native) : ¬ (pollableWriteLoop d env total remaining answers).Stopped := by
  rcases answers with _ | ⟨n | code, rest⟩
  all_goals
    unfold pollableWriteLoop
    by_cases hdone : remaining = 0
    · rw [if_pos hdone]
      exact Run.not_stopped_ok total
    rw [if_neg hdone]
  · exact Run.not_stopped_after _
  · split
    all_goals exact Run.not_stopped_after _
  · exact Run.not_stopped_after _

lemma ready_stopped (hpast : h.Passed env dir)
    (answers : List Native) : ((Op.ready dir).run h env answers).Stopped ↔ env.stopping = false := by
  obtain ⟨d, e, hd, he, hstop, hrunning⟩ := hpast.error
  have hrun : (Op.ready dir).run h env answers = .returns (.error e) := by
    simp only [Op.run, hd, awaiting, he]
  rw [hrun, Run.stopped_returns]
  cases hstopping : env.stopping with
  | true => simp [hstop hstopping]
  | false => simp [hrunning hstopping]

/-- **An operation that starts in an elapsed direction is stopped exactly when it checks before it calls.** -/
theorem stopped_iff_checked (op : Op) (h : Handle ω τ) (env : Env τ) (answers : List Native)
    (hpassed : h.Passed env op.dir) : (op.run h env answers).Stopped ↔ op.Checked h env := by
  have hawaits : op.raw = false → op.tries = false → (op.Checked h env ↔ env.stopping = false) :=
    fun hraw htries => ⟨fun hc => hc.running, fun hr => ⟨hraw, hr, fun ht => by simp [htries] at ht⟩⟩
  have htries : op.raw = false → op.tries = true →
      (op.Checked h env ↔ env.stopping = false ∧ h.busy op.dir = false) :=
    fun hraw htries => ⟨fun hc => ⟨hc.running, hc.free htries⟩, fun hr => ⟨hraw, hr.1, fun _ => hr.2⟩⟩
  have hraw : op.raw = true → ¬ op.Checked h env := fun hraw hc =>
    Bool.false_ne_true (hc.guarded.symm.trans hraw)
  cases op with
  | tcpRead | tcpAccept | udpReadFrom | unixRead | unixAccept | udpWriteTo | tcpWrite | unixWrite =>
    exact (h.operate_stopped hpassed _).trans (hawaits rfl rfl).symm
  | tcpTryRead | tcpTryWrite | unixTryRead | unixTryWrite =>
    exact (h.try_stopped hpassed _).trans (htries rfl rfl).symm
  | ready => exact (ready_stopped hpassed answers).trans (hawaits rfl rfl).symm
  | pollableRead =>
    exact iff_of_false (h.onRaw_not_stopped fun d => pollableReadLoop_not_stopped d env answers) (hraw rfl)
  | pollableWrite size =>
    exact iff_of_false (h.onRaw_not_stopped fun d => pollableWriteLoop_not_stopped d env size size answers) (hraw rfl)
  | signalRecv signo =>
    exact iff_of_false (h.onRaw_not_stopped fun d => signalLoop_not_stopped d env signo answers) (hraw rfl)

def expiring : IoDesc Unit Unit :=
  { ({} : IoDesc Unit Unit).attachFields 7 with
    absoluteDeadlineNs := Function.update (fun _ => 0) .read 5 }

def expiringHandle : Handle Unit Unit where
  fd := 7
  desc := some expiring
  busy := fun _ => false
  attached := by
    rintro d hd
    cases hd
    exact ⟨rfl, rfl⟩

def late : Env Unit := { now := 6, stopping := false, fired := fun _ => false }

theorem stopped_iff_checked_tcpRead :
    expiringHandle.Passed late .read ∧ ((Op.tcpRead).run expiringHandle late [.done 4]).Stopped := by
  have hpast : expiringHandle.Passed late .read := ⟨expiring, rfl, .inl ⟨by decide, by decide⟩⟩
  exact ⟨hpast, (stopped_iff_checked .tcpRead expiringHandle late [.done 4] hpast).2 ⟨rfl, rfl, nofun⟩⟩

/-- `PollableFd::read` past its deadline returns the four bytes that were ready. -/
theorem pollableRead_not_stopped : expiringHandle.Passed late .read ∧
      (Op.pollableRead.run expiringHandle late [.done 4]).calls = 1 ∧
      (Op.pollableRead.run expiringHandle late [.done 4]).result = some (.ok 4) ∧
      ¬ (Op.pollableRead.run expiringHandle late [.done 4]).Stopped :=
  ⟨⟨expiring, rfl, .inl ⟨by decide, by decide⟩⟩, rfl, rfl, Run.not_stopped_after _⟩

end Cio.Net.Elapsed
