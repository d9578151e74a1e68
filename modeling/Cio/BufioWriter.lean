import Mathlib.Data.List.Infix

/-! `bufio::Writer`. `flush` sets `held_` to zero before the sink has answered, so what a failed sink did not accept is
gone, and a `write` whose flush fails has not taken its span either. Until the first error the sink has a prefix of
what was written. -/

namespace Cio.Bufio

open List

/-- What one `write` of the sink does: it accepts everything, or fails after some prefix. -/
inductive SinkOutcome (ε : Type) where
  | accepts
  | fails (error : ε) (after : Nat)

/-- The writer and its sink. `held` is what is in the buffer, `accepted` all the sink has taken, in `writes` calls. -/
structure Writer where
  capacity : Nat
  held : List UInt8 := []
  accepted : List UInt8 := []
  writes : Nat := 0

namespace Writer

/-- The block of the pool may be larger than the request. -/
def create (capacity blockSize : Nat) : Writer where
  capacity := min (if capacity = 0 then 1 else capacity) blockSize

def available (w : Writer) : Nat := w.capacity - w.held.length

section Calls

variable {ε : Type} (outcome : Nat → SinkOutcome ε)

def sinkWrite (w : Writer) (bytes : List UInt8) : Except ε Nat × Writer :=
  match outcome w.writes with
  | .accepts => (.ok bytes.length, { w with accepted := w.accepted ++ bytes, writes := w.writes + 1 })
  | .fails e after => (.error e, { w with accepted := w.accepted ++ bytes.take after, writes := w.writes + 1 })

def flush (w : Writer) : Except ε Unit × Writer :=
  if w.held = [] then (.ok (), w)
  else (sinkWrite outcome { w with held := [] } w.held).map (Except.map fun _ => ()) id

def afterFlush (w : Writer) (next : Writer → Except ε Nat × Writer) : Except ε Nat × Writer :=
  match w.flush outcome with
  | (.error e, w) => (.error e, w)
  | (.ok (), w) => next w

/-- The end of `write`: the span is copied behind what is held. -/
def hold (w : Writer) (bytes : List UInt8) : Except ε Nat × Writer :=
  (.ok bytes.length, { w with held := w.held ++ bytes })

def write (w : Writer) (bytes : List UInt8) : Except ε Nat × Writer :=
  if w.capacity ≤ bytes.length then w.afterFlush outcome fun w => w.sinkWrite outcome bytes
  else if w.available < bytes.length then w.afterFlush outcome fun w => w.hold bytes
  else w.hold bytes

end Calls

end Writer

inductive WriterCall where
  | write (bytes : List UInt8)
  | flush

def WriterCall.bytes : WriterCall → List UInt8
  | .write bytes => bytes
  | .flush => []

namespace Writer

section Runs

variable {ε : Type} (outcome : Nat → SinkOutcome ε)

def call (w : Writer) : WriterCall → Except ε Unit × Writer
  | .write bytes => (w.write outcome bytes).map (Except.map fun _ => ()) id
  | .flush => w.flush outcome

def run (w : Writer) : List WriterCall → List (Except ε Unit) × Writer
  | [] => ([], w)
  | c :: rest => ((w.call outcome c).1 :: ((w.call outcome c).2.run rest).1, ((w.call outcome c).2.run rest).2)

variable {outcome} {w u : Writer} {passed bytes : List UInt8}

def Whole (w : Writer) (passed : List UInt8) : Prop := w.accepted ++ w.held = passed

/-- After a call: the sink has a prefix, and without an error nothing is lost. -/
structure After {α : Type} (out : Except ε α × Writer) (passed : List UInt8) : Prop where
  isPrefix : out.2.accepted <+: passed
  whole : ∀ x, out.1 = .ok x → out.2.Whole passed

lemma Whole.after {α : Type} (h : w.Whole passed) (result : Except ε α) : After (result, w) passed :=
  ⟨⟨w.held, h⟩, fun _ _ => h⟩

lemma After.map {α β : Type} {out : Except ε α × Writer} (h : After out passed) (f : α → β) :
    After (out.map (Except.map f) id) passed := by
  refine ⟨h.isPrefix, fun y hy => ?_⟩
  obtain ⟨result, w⟩ := out
  cases result with
  | error => cases hy
  | ok x => exact h.whole x rfl

lemma After.failed {α : Type} (hu : u.accepted <+: passed) (e : ε) (bytes : List UInt8) :
    After ((.error e : Except ε α), u) (passed ++ bytes) :=
  ⟨hu.trans (prefix_append passed bytes), nofun⟩

lemma sinkWrite_after (hheld : w.held = []) (bytes : List UInt8) :
    After (w.sinkWrite outcome bytes) (w.accepted ++ bytes) := by
  rw [sinkWrite]
  cases outcome w.writes with
  | accepts =>
    refine Whole.after ?_ _
    show w.accepted ++ bytes ++ w.held = w.accepted ++ bytes
    rw [hheld, append_nil]
  | fails e after =>
    have hpart := take_prefix after bytes
    exact ⟨(prefix_append_right_inj _).mpr hpart, nofun⟩

lemma flush_after (h : w.Whole passed) : After (w.flush outcome) passed := by
  rw [flush]
  split
  · exact h.after _
  · rw [← h]
    exact (sinkWrite_after rfl w.held).map _

lemma flush_held (w : Writer) : (w.flush outcome).2.held = [] := by
  rw [flush]
  split
  · assumption
  · rw [sinkWrite]
    cases outcome w.writes <;> rfl

section

variable (h : w.Whole passed)

include h

lemma afterFlush_after {next : Writer → Except ε Nat × Writer}
    (hnext : ∀ u : Writer, u.Whole passed → u.held = [] → After (next u) (passed ++ bytes)) :
    After (w.afterFlush outcome next) (passed ++ bytes) := by
  have hflush : After (w.flush outcome) passed := flush_after h
  have hheld : (w.flush outcome).2.held = [] := flush_held w
  rw [afterFlush]
  cases hout : w.flush outcome with
  | mk result u =>
    rw [hout] at hflush hheld
    cases result with
    | error e => exact After.failed hflush.isPrefix e bytes
    | ok => exact hnext u (hflush.whole _ rfl) hheld

lemma hold_after (bytes : List UInt8) : After (w.hold (ε := ε) bytes) (passed ++ bytes) := by
  refine Whole.after ?_ _
  show w.accepted ++ (w.held ++ bytes) = passed ++ bytes
  rw [← append_assoc, h]

lemma write_after (bytes : List UInt8) : After (w.write outcome bytes) (passed ++ bytes) := by
  rw [write]
  split
  · refine afterFlush_after h fun u hwhole hheld => ?_
    have hall : u.accepted = passed := by
      rw [← hwhole, hheld, append_nil]
    rw [← hall]
    exact sinkWrite_after hheld bytes
  · split
    · exact afterFlush_after h fun u hwhole _ => hold_after hwhole bytes
    · exact hold_after h bytes

lemma call_after (c : WriterCall) : After (w.call outcome c) (passed ++ c.bytes) := by
  cases c with
  | write bytes => exact (write_after h bytes).map _
  | flush =>
    rw [WriterCall.bytes, append_nil]
    exact flush_after h

lemma Whole.run (calls : List WriterCall) (hok : ∀ result ∈ (w.run outcome calls).1, result = .ok ()) :
    (w.run outcome calls).2.Whole (passed ++ calls.flatMap WriterCall.bytes) := by
  induction calls generalizing w passed with
  | nil => exact h.trans (append_nil passed).symm
  | cons c rest ih =>
    obtain ⟨hfirst, hrest⟩ := forall_mem_cons.mp hok
    rw [flatMap_cons, ← append_assoc]
    exact ih ((call_after h c).whole () hfirst) hrest

end

lemma run_append (w : Writer) (calls more : List WriterCall) :
    (w.run outcome (calls ++ more)).2 = ((w.run outcome calls).2.run outcome more).2 := by
  induction calls generalizing w with
  | nil => rfl
  | cons c rest ih => exact ih (w.call outcome c).2

end Runs

end Writer

open Writer in
/-- **For every capacity, every sequence of calls and every sink: as long as no call follows one that failed, the bytes
the sink has accepted are a prefix of the spans passed to `write`.** -/
theorem writer_no_gap {ε : Type} (outcome : Nat → SinkOutcome ε) (capacity blockSize : Nat) (calls : List WriterCall)
    (last : WriterCall) (hok : ∀ result ∈ ((create capacity blockSize).run outcome calls).1, result = .ok ()) :
    ((create capacity blockSize).run outcome (calls ++ [last])).2.accepted <+:
      (calls ++ [last]).flatMap WriterCall.bytes := by
  have hstart : (create capacity blockSize).Whole [] := rfl
  rw [run_append, flatMap_append, flatMap_singleton]
  exact (call_after (hstart.run calls hok) last).isPrefix

/-- Two spans through a buffer of four bytes; the second flush fails after one byte. -/
theorem writer_no_gap_failing : ∃ (outcome : Nat → SinkOutcome Unit) (calls : List WriterCall),
    ((Writer.create 4 8).run outcome calls).2.accepted = [1, 2, 3, 4] ∧
      ((Writer.create 4 8).run outcome calls).2.accepted <+: calls.flatMap WriterCall.bytes :=
  ⟨fun n => if n = 1 then .fails () 1 else .accepts, [.write [1, 2, 3], .write [4, 5], .flush], by decide,
    writer_no_gap (fun n => if n = 1 then .fails () 1 else .accepts) 4 8 [.write [1, 2, 3], .write [4, 5]] .flush
      (by decide)⟩

/-- The caller goes on after a flush that failed at once: the two bytes it held are never sent, the next ones are. -/
theorem writer_gap_after_error : ¬ ∀ (outcome : Nat → SinkOutcome Unit) (capacity blockSize : Nat)
    (calls : List WriterCall), ((Writer.create capacity blockSize).run outcome calls).2.accepted <+:
      calls.flatMap WriterCall.bytes := by
  intro hall
  have hgap := hall (fun n => if n = 0 then .fails () 0 else .accepts) 4 4 [.write [1, 2], .flush, .write [3], .flush]
  revert hgap
  decide

end Cio.Bufio
