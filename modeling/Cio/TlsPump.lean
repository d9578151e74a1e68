import Cio.ReactorDesc

/-! `flush_network`, `fill_network`, `pump` and the `Conn` operations built on them, as functions of
the answers that OpenSSL and the socket give. A turn of `pump`'s loop is fed with one answer of
`SSL_read` and the socket traffic that follows it; a list of answers that ends early is a call that
is still suspended.
Every failure of a turn that says `Errc::closed` is renamed to the end of the stream by
`Conn::read`, whether or not the peer sent its close_notify. -/

namespace Cio.Tls

/-- What `SSL_get_error` answers; the codes that `pump` does not test are `other`. -/
inductive SslReason where
  | wantRead
  | wantWrite
  | zeroReturn
  | syscall
  | other (code : Nat)

/-- One turn of `flush_network`: `BIO_pending`, `BIO_read` and the socket write. -/
structure FlushRound where
  pending : Int
  read : Int
  written : Except Error Nat

structure FillInput where
  read : Except Error Nat
  bioWrites : List Int

/-- One turn of `pump`: the return code of the attempt, `SSL_get_error`, whether an error is queued,
and the traffic. -/
structure PumpRound where
  rc : Int
  reason : SslReason
  errorQueued : Bool
  flush : List FlushRound
  fill : FillInput

/-- `take_openssl_error` drains the queue and always reports the same condition. -/
def takeOpensslError : Error := .errc .broken

def flushNetwork : List FlushRound → Option (Except Error Unit)
  | [] => none
  | round :: rest =>
    if round.pending ≤ 0 then some (.ok ())
    else if round.read ≤ 0 then some (.error takeOpensslError)
    else
      match round.written with
      | .error e => some (.error e)
      | .ok _ => flushNetwork rest

def bioWriteAll (n : Nat) : Nat → List Int → Option (Except Error Unit)
  | offset, [] => if offset < n then none else some (.ok ())
  | offset, written :: rest =>
    if offset < n then
      if written ≤ 0 then some (.error takeOpensslError)
      else bioWriteAll n (offset + written.toNat) rest
    else some (.ok ())

def fillNetwork (input : FillInput) : Option (Except Error Unit) :=
  match input.read with
  | .error e => some (.error e)
  | .ok 0 => some (.error (.errc .closed))
  | .ok n => bioWriteAll n 0 input.bioWrites

inductive Turn where
  | suspended
  | again
  | coReturn (result : Except Error Int)

namespace PumpRound

/-- `flush_network` inside a turn, followed by `next` when it succeeds. -/
def afterFlush (round : PumpRound) (next : Turn) : Turn :=
  match flushNetwork round.flush with
  | none => .suspended
  | some (.error e) => .coReturn (.error e)
  | some (.ok ()) => next

def filled (round : PumpRound) : Turn :=
  match fillNetwork round.fill with
  | none => .suspended
  | some (.error e) => .coReturn (.error e)
  | some (.ok ()) => .again

def turn (round : PumpRound) : Turn :=
  if 0 < round.rc then round.afterFlush (.coReturn (.ok round.rc))
  else
    match round.reason with
    | .wantWrite => round.afterFlush .again
    | .wantRead => round.afterFlush round.filled
    | .zeroReturn => .coReturn (.ok 0)
    | .syscall =>
      if round.errorQueued = false then .coReturn (.error (.errc .closed))
      else .coReturn (.error takeOpensslError)
    | .other _ => .coReturn (.error takeOpensslError)

end PumpRound

def pump : List PumpRound → Option (Except Error Int)
  | [] => none
  | round :: rest =>
    match round.turn with
    | .suspended => none
    | .again => pump rest
    | .coReturn result => some result

def lastRound : List PumpRound → Option PumpRound
  | [] => none
  | round :: rest =>
    match round.turn with
    | .again => lastRound rest
    | _ => some round

structure CallInput where
  configure : Except Error Unit
  handshake : List PumpRound
  rounds : List PumpRound

def handshake (handshakeDone : Bool) (input : CallInput) : Option (Except Error Unit) :=
  if handshakeDone then some (.ok ())
  else
    match input.configure with
    | .error e => some (.error e)
    | .ok () =>
      match pump input.handshake with
      | none => none
      | some (.error e) => some (.error e)
      | some (.ok rc) => if rc ≤ 0 then some (.error (.errc .closed)) else some (.ok ())

/-- The end of `Conn::read`: an `Errc::closed` becomes the end of the stream. -/
def readResult : Except Error Int → Except Error Nat
  | .error e => if e = .errc .closed then .ok 0 else .error e
  | .ok rc => if rc ≤ 0 then .ok 0 else .ok rc.toNat

/-- `Conn::read`. The connection is null, or its `handshake_done` flag. -/
def read (conn : Option Bool) (bufferSize : Nat) (input : CallInput) : Option (Except Error Nat) :=
  match conn with
  | none => some (.error .ebadf)
  | some handshakeDone =>
    if bufferSize = 0 then some (.ok 0)
    else
      match handshake handshakeDone input with
      | none => none
      | some (.error e) => some (.error e)
      | some (.ok ()) => (pump input.rounds).map readResult

/-- OpenSSL reported `SSL_ERROR_ZERO_RETURN` in the call; the turn in which it does is the last. -/
def ZeroReturned (rounds : List PumpRound) : Prop :=
  ∃ round, lastRound rounds = some round ∧ round.rc ≤ 0 ∧ round.reason = .zeroReturn

/-- The transport was closed under the turn: the socket reports the end of the TCP stream or a local
close to `fill_network`, a local close to `flush_network`, or nothing at all to OpenSSL. -/
def PumpRound.TransportClosed (round : PumpRound) : Prop :=
  if 0 < round.rc then flushNetwork round.flush = some (.error (.errc .closed))
  else
    match round.reason with
    | .wantWrite => flushNetwork round.flush = some (.error (.errc .closed))
    | .wantRead =>
      flushNetwork round.flush = some (.error (.errc .closed)) ∨
        flushNetwork round.flush = some (.ok ()) ∧
          (round.fill.read = .ok 0 ∨ round.fill.read = .error (.errc .closed))
    | .syscall => round.errorQueued = false
    | _ => False

/-- The call ended because the transport was closed. -/
def EndsOnClosedTransport (rounds : List PumpRound) : Prop :=
  ∃ round, lastRound rounds = some round ∧ round.TransportClosed

/-- Truncation is reported: 0 is returned on a close_notify only, and a closed transport is an
error. -/
def TruncationReported (input : CallInput) (result : Option (Except Error Nat)) : Prop :=
  (result = some (.ok 0) → ZeroReturned input.rounds) ∧
    (EndsOnClosedTransport input.rounds → ∃ e, result = some (.error e))

lemma bioWriteAll_ne_closed (n offset : Nat) (writes : List Int) :
    bioWriteAll n offset writes ≠ some (.error (.errc .closed)) := by
  induction writes generalizing offset with
  | nil =>
    rw [bioWriteAll]
    split <;> simp
  | cons written rest ih =>
    rw [bioWriteAll]
    split
    · split
      · simp [takeOpensslError]
      · exact ih _
    · simp

lemma fillNetwork_closed_iff (input : FillInput) : fillNetwork input = some (.error (.errc .closed)) ↔
      input.read = .ok 0 ∨ input.read = .error (.errc .closed) := by
  unfold fillNetwork
  split
  · rename_i e hread
    simp [hread]
  · rename_i hread
    simp [hread]
  · rename_i n hn hread
    have hpos : n ≠ 0 := hn
    simp [hread, hpos, bioWriteAll_ne_closed]

lemma turn_closed_iff (round : PumpRound) :
    round.turn = .coReturn (.error (.errc .closed)) ↔ round.TransportClosed := by
  unfold PumpRound.turn PumpRound.TransportClosed
  by_cases hrc : 0 < round.rc
  · simp only [hrc, if_true, PumpRound.afterFlush]
    cases hflush : flushNetwork round.flush with
    | none => simp
    | some flushed => cases flushed <;> simp
  · simp only [hrc, if_false]
    cases hwhy : round.reason with
    | wantWrite =>
      simp only [PumpRound.afterFlush]
      cases hflush : flushNetwork round.flush with
      | none => simp
      | some flushed => cases flushed <;> simp
    | wantRead =>
      rw [← fillNetwork_closed_iff]
      simp only [PumpRound.afterFlush, PumpRound.filled]
      cases hflush : flushNetwork round.flush with
      | none => simp
      | some flushed =>
        cases flushed with
        | error => simp
        | ok =>
          cases hfill : fillNetwork round.fill with
          | none => simp
          | some filled => cases filled <;> simp
    | zeroReturn => simp
    | syscall => cases round.errorQueued <;> simp [takeOpensslError]
    | other => simp [takeOpensslError]

lemma turn_ok {round : PumpRound} {rc : Int} (h : round.turn = .coReturn (.ok rc)) :
    0 < rc ∨ round.rc ≤ 0 ∧ round.reason = .zeroReturn := by
  unfold PumpRound.turn at h
  by_cases hrc : 0 < round.rc
  · simp only [hrc, if_true, PumpRound.afterFlush] at h
    cases hflush : flushNetwork round.flush with
    | none => simp [hflush] at h
    | some flushed =>
      cases flushed with
      | error => simp [hflush] at h
      | ok =>
        simp only [hflush, Turn.coReturn.injEq, Except.ok.injEq] at h
        exact .inl (h ▸ hrc)
  · simp only [hrc, if_false] at h
    refine .inr ⟨by omega, ?_⟩
    cases hwhy : round.reason with
    | zeroReturn => rfl
    | wantWrite =>
      simp only [hwhy, PumpRound.afterFlush] at h
      split at h <;> cases h
    | wantRead =>
      simp only [hwhy, PumpRound.afterFlush, PumpRound.filled] at h
      split at h
      · cases h
      · cases h
      · split at h <;> cases h
    | syscall =>
      simp only [hwhy] at h
      split at h <;> cases h
    | other =>
      simp only [hwhy] at h
      cases h

lemma pump_eq_some_iff (rounds : List PumpRound) (result : Except Error Int) : pump rounds = some result ↔
      ∃ round, lastRound rounds = some round ∧ round.turn = .coReturn result := by
  induction rounds with
  | nil => simp [pump, lastRound]
  | cons round rest ih =>
    rw [pump, lastRound]
    cases hturn : round.turn with
    | suspended => simp [hturn]
    | again => exact ih
    | coReturn => simp [hturn]

lemma read_handshaken {bufferSize : Nat} (hsize : 0 < bufferSize) (input : CallInput) :
    read (some true) bufferSize input = (pump input.rounds).map readResult := by
  simp [read, handshake, Nat.ne_of_gt hsize]

lemma readResult_zero_iff (result : Except Error Int) : readResult result = .ok 0 ↔
      result = .error (.errc .closed) ∨ ∃ rc, rc ≤ 0 ∧ result = .ok rc := by
  cases result with
  | error =>
    rw [readResult]
    split <;> simp_all
  | ok rc =>
    rw [readResult]
    split
    · simp_all
    · rename_i hpos
      simp only [Except.ok.injEq, reduceCtorEq, false_or]
      constructor
      · intro hzero
        omega
      · rintro ⟨rc', hle, rfl⟩
        exact absurd hle hpos

/-- **When truncation is reported.** On a non-empty buffer after the handshake, `Conn::read` reports
truncation exactly in the calls that do not end on a closed transport. -/
theorem read_truncation_reported_iff (bufferSize : Nat) (hsize : 0 < bufferSize) (input : CallInput) :
    TruncationReported input (read (some true) bufferSize input) ↔
      ¬ EndsOnClosedTransport input.rounds := by
  rw [read_handshaken hsize]
  constructor
  · rintro ⟨_, herror⟩ hshut
    obtain ⟨e, he⟩ := herror hshut
    obtain ⟨round, hlast, htransport⟩ := hshut
    have hpump := (pump_eq_some_iff input.rounds _).mpr ⟨round, hlast, (turn_closed_iff round).mpr htransport⟩
    rw [hpump] at he
    cases he
  · intro hopen
    refine ⟨fun hzero => ?_, fun hshut => absurd hshut hopen⟩
    obtain ⟨result, hpump, hres⟩ := Option.map_eq_some_iff.mp hzero
    obtain ⟨round, hlast, hturn⟩ := (pump_eq_some_iff input.rounds result).mp hpump
    rcases (readResult_zero_iff result).mp hres with rfl | ⟨rc, hle, rfl⟩
    · exact absurd ⟨round, hlast, (turn_closed_iff round).mp hturn⟩ hopen
    · rcases turn_ok hturn with hpos | ⟨hrc, hwhy⟩
      · omega
      · exact ⟨round, hlast, hrc, hwhy⟩

/-- A read that wants data once, receives five bytes of ciphertext and then sees the close_notify. -/
theorem read_truncation_reported_close_notify : ∃ input : CallInput, read (some true) 8 input = some (.ok 0) ∧
      TruncationReported input (read (some true) 8 input) ∧ ZeroReturned input.rounds := by
  have hzero : ZeroReturned
      [⟨-1, .wantRead, false, [⟨0, 0, .ok 0⟩], ⟨.ok 5, [5]⟩⟩, ⟨0, .zeroReturn, false, [], ⟨.ok 0, []⟩⟩] :=
    ⟨_, rfl, by decide, rfl⟩
  refine ⟨⟨.ok (), [], _⟩, rfl, ?_, hzero⟩
  rw [read_truncation_reported_iff 8 (by decide)]
  rintro ⟨round, hlast, hshut⟩
  cases hlast
  exact hshut

/-- The peer's TCP stream ends while OpenSSL wants more data: `Conn::read` returns 0 although no
close_notify was received. -/
theorem read_hides_tcp_eof : ¬ ∀ (bufferSize : Nat) (input : CallInput), 0 < bufferSize →
    TruncationReported input (read (some true) bufferSize input) := by
  intro hall
  have hround := (hall 8 ⟨.ok (), [], [⟨-1, .wantRead, false, [⟨0, 0, .ok 0⟩], ⟨.ok 0, []⟩⟩]⟩ (by decide)).1 rfl
  obtain ⟨round, hlast, _, hwhy⟩ := hround
  cases hlast
  cases hwhy

end Cio.Tls
