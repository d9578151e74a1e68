import Cio.BufferWindow
import Cio.ReactorDesc

/-! `bufio::Reader`. The buffer is a window over the block it got from the pool; `fill` compacts the window and reads
behind it, and a large `read` on an empty buffer goes past it to the source. The source answers every read as it
likes, within the span it was given, so nothing depends on how it splits the stream. -/

namespace Cio.Bufio

open Buffer List

/-- What the stream that is read answers: the `k`-th read into a span of `size` bytes. -/
abbrev Source := (k size : Nat) → Except Error { bytes : List UInt8 // bytes.length ≤ size }

/-- `Reader`: the bytes from `begin_` up to `end_` are buffered. `delivered` is what the source has handed over in
its first `reads` reads. -/
structure Reader (source : Source) where
  capacity_ : Nat
  storage_ : Nat → UInt8
  begin_ : Nat
  end_ : Nat
  reads : Nat
  delivered : List UInt8
  hcapacity : 0 < capacity_
  hbegin : begin_ ≤ end_
  hend : end_ ≤ capacity_

namespace Reader

variable {source : Source}

/-- The constructor; the block of the pool holds anything. -/
def create (source : Source) (capacity : Nat) (storage : Nat → UInt8) : Reader source where
  capacity_ := if capacity = 0 then 1 else capacity
  storage_ := storage
  begin_ := 0
  end_ := 0
  reads := 0
  delivered := []
  hcapacity := by split <;> omega
  hbegin := Nat.le_refl 0
  hend := Nat.zero_le _

def buffered (r : Reader source) : Nat := r.end_ - r.begin_

def pending (r : Reader source) : List UInt8 := window r.storage_ r.begin_ r.end_

def advance (r : Reader source) (n : Nat) (h : n ≤ r.buffered) : Reader source :=
  { r with
    begin_ := r.begin_ + n
    hbegin := by
      have hbegin := r.hbegin
      rw [buffered] at h
      omega }

/-- The first part of `fill`: the window moves to the start of the block. -/
def compact (r : Reader source) : Reader source :=
  if r.begin_ = r.end_ then { r with begin_ := 0, end_ := 0, hbegin := Nat.le_refl 0, hend := Nat.zero_le _ }
  else if 0 < r.begin_ then
    { r with
      storage_ := copyN r.storage_ r.begin_ 0 r.buffered
      begin_ := 0
      end_ := r.buffered
      hbegin := Nat.zero_le _
      hend := Nat.le_trans (Nat.sub_le _ _) r.hend }
  else r

/-- The second part of `fill`: one read behind the window, unless the window is full. -/
def readMore (r : Reader source) : Except Error Unit × Reader source :=
  if r.end_ = r.capacity_ then (.ok (), r)
  else
    match source r.reads (r.capacity_ - r.end_) with
    | .error e => (.error e, { r with reads := r.reads + 1 })
    | .ok bytes =>
      (.ok (),
        { r with
          storage_ := store r.storage_ r.end_ bytes.1
          end_ := r.end_ + bytes.1.length
          reads := r.reads + 1
          delivered := r.delivered ++ bytes.1
          hbegin := r.hbegin.trans (Nat.le_add_right _ _)
          hend := by
            have hend := r.hend
            have hbytes := bytes.2
            omega })

def fill (r : Reader source) : Except Error Unit × Reader source := r.compact.readMore

/-- The end of `read`: the copy out of a window that is not empty. -/
def copyOut (r : Reader source) (size : Nat) : List UInt8 × Reader source :=
  (window r.storage_ r.begin_ (r.begin_ + min size r.buffered), r.advance (min size r.buffered) (Nat.min_le_right _ _))

/-- `read` into a span of `size` bytes, with the bytes it stored there. -/
def read (r : Reader source) (size : Nat) : Except Error (List UInt8) × Reader source :=
  if size = 0 then (.ok [], r)
  else if r.buffered = 0 then
    if r.capacity_ ≤ size then
      match source r.reads size with
      | .error e => (.error e, { r with reads := r.reads + 1 })
      | .ok bytes => (.ok bytes.1, { r with reads := r.reads + 1, delivered := r.delivered ++ bytes.1 })
    else
      match r.fill with
      | (.error e, r) => (.error e, r)
      | (.ok _, r) => if r.buffered = 0 then (.ok [], r) else (.ok (r.copyOut size).1, (r.copyOut size).2)
  else (.ok (r.copyOut size).1, (r.copyOut size).2)

/-- The search of `read_string`: how far behind `begin_` the next `delimiter` is. -/
def find (r : Reader source) (delimiter : UInt8) : Option Nat := r.pending.findIdx? (· == delimiter)

lemma length_pending (r : Reader source) : r.pending.length = r.buffered := length_window _ _ _

lemma find_lt {r : Reader source} {delimiter : UInt8} {i : Nat} (h : r.find delimiter = some i) :
    i + 1 ≤ r.buffered := by
  rw [← length_pending]
  exact (findIdx?_eq_some_iff_findIdx_eq.mp h).1

/-- The loop of `read_string`; a turn that goes on has a byte more in `out` and in the buffer together, and `out` is
within the limit. -/
def readStringLoop (delimiter : UInt8) (limit : Nat) (r : Reader source) (out : List UInt8) :
    Except Error (Option (List UInt8)) × Reader source :=
  match hfind : r.find delimiter with
  | some i => (.ok (some (out ++ window r.storage_ r.begin_ (r.begin_ + (i + 1)))), r.advance (i + 1) (find_lt hfind))
  | none =>
    if limit < (out ++ r.pending).length then (.error .emsgsize, r.advance r.buffered (Nat.le_refl _))
    else
      match (r.advance r.buffered (Nat.le_refl _)).fill with
      | (.error e, next) => (.error e, next)
      | (.ok _, next) =>
        if next.buffered = 0 then (.ok (if out ++ r.pending = [] then none else some (out ++ r.pending)), next)
        else readStringLoop delimiter limit next (out ++ r.pending)
termination_by limit + 1 - (out.length + r.buffered)
decreasing_by
  rw [length_append, length_pending] at *
  omega

def readString (r : Reader source) (delimiter : UInt8) (limit : Nat) :
    Except Error (Option (List UInt8)) × Reader source :=
  r.readStringLoop delimiter limit []

end Reader

/-- `if (!line.empty() && line.back() == byte) line.pop_back()`, with what it took off. -/
def stripBack (byte : UInt8) (line : List UInt8) : List UInt8 × List UInt8 :=
  if line.getLast? = some byte then (line.dropLast, [byte]) else (line, [])

/-- The two strips of `read_line`: the line, and the terminator that was taken off. -/
def stripLine (line : List UInt8) : List UInt8 × List UInt8 :=
  ((stripBack 13 (stripBack 10 line).1).1, (stripBack 13 (stripBack 10 line).1).2 ++ (stripBack 10 line).2)

namespace Reader

variable {source : Source}

/-- `read_line`, with the terminator bytes it takes off the line. -/
def readLine (r : Reader source) (limit : Nat) : Except Error (Option (List UInt8 × List UInt8)) × Reader source :=
  match r.readString 10 limit with
  | (.error e, r) => (.error e, r)
  | (.ok chunk, r) => (.ok (chunk.map stripLine), r)

/-! ### Compaction and refill -/

lemma pending_of_empty {r : Reader source} (h : r.buffered = 0) : r.pending = [] := by
  rw [← length_eq_zero_iff, length_pending, h]

lemma pending_compact (r : Reader source) : r.compact.pending = r.pending := by
  rw [compact]
  split
  · rename_i hempty
    rw [pending, pending, hempty, window_self, window_self]
  · split
    · rw [pending, pending, window_copyN, buffered, Nat.add_sub_cancel' r.hbegin]
    · rfl

lemma delivered_compact (r : Reader source) : r.compact.delivered = r.delivered := by
  rw [compact]
  split
  · rfl
  · split <;> rfl

lemma pending_fill (r : Reader source) :
    ∃ fresh, r.fill.2.delivered = r.delivered ++ fresh ∧ r.fill.2.pending = r.pending ++ fresh := by
  rw [fill, ← delivered_compact r, ← pending_compact r, readMore]
  split
  · exact ⟨[], (append_nil _).symm, (append_nil _).symm⟩
  · split
    · exact ⟨[], (append_nil _).symm, (append_nil _).symm⟩
    · rename_i bytes _
      exact ⟨bytes.1, rfl, window_store _ r.compact.hbegin _⟩

lemma buffered_fill_le (r : Reader source) : r.buffered ≤ r.fill.2.buffered := by
  obtain ⟨fresh, -, hpend⟩ := r.pending_fill
  rw [← length_pending, ← length_pending, hpend, length_append]
  exact Nat.le_add_right _ _

/-! ### Looking ahead and skipping -/

/-- The loop of `peek`; a turn that goes on has a byte more in the buffer. -/
def peekLoop (count : Nat) (r : Reader source) : Except Error Unit × Reader source :=
  if r.buffered < count then
    match hfill : r.fill with
    | (.error e, next) => (.error e, next)
    | (.ok _, next) => if next.buffered = r.buffered then (.ok (), next) else peekLoop count next
  else (.ok (), r)
termination_by count - r.buffered
decreasing_by
  have hmore : r.buffered ≤ next.buffered := by
    have hle := r.buffered_fill_le
    rwa [hfill] at hle
  omega

def peek (r : Reader source) (count : Nat) : Except Error (List UInt8) × Reader source :=
  if r.capacity_ < count then (.error .emsgsize, r)
  else
    match r.peekLoop count with
    | (.error e, r) => (.error e, r)
    | (.ok _, r) => (.ok (window r.storage_ r.begin_ (r.begin_ + min count r.buffered)), r)

/-- `begin_ += take; dropped += take` for what is left of `count`. -/
def drop (r : Reader source) (left : Nat) : Reader source := r.advance (min left r.buffered) (Nat.min_le_right _ _)

def front (r : Reader source) (left : Nat) : List UInt8 := window r.storage_ r.begin_ (r.begin_ + min left r.buffered)

/-- The loop of `discard`, with the bytes it has skipped. -/
def discardLoop (count : Nat) (r : Reader source) (skipped : List UInt8) : Except Error (List UInt8) × Reader source :=
  if skipped.length < count then
    if r.buffered = 0 then
      match r.fill with
      | (.error e, next) => (.error e, next)
      | (.ok _, next) =>
        if next.buffered = 0 then (.ok skipped, next)
        else discardLoop count (next.drop (count - skipped.length)) (skipped ++ next.front (count - skipped.length))
    else discardLoop count (r.drop (count - skipped.length)) (skipped ++ r.front (count - skipped.length))
  else (.ok skipped, r)
termination_by count - skipped.length
decreasing_by
  all_goals
    rw [length_append, front, length_window]
    omega

/-- `discard`, with the bytes it skipped; it returns how many they are. -/
def discard (r : Reader source) (count : Nat) : Except Error (List UInt8) × Reader source := r.discardLoop count []

/-! ### What a call takes -/

/-- Between `r` and `next` the source delivered some bytes, and `taken` are gone from the front. -/
def Took (r : Reader source) (taken : List UInt8) (next : Reader source) : Prop :=
  ∃ fresh, next.delivered = r.delivered ++ fresh ∧ r.pending ++ fresh = taken ++ next.pending

lemma Took.refl (r : Reader source) : r.Took [] r := ⟨[], (append_nil _).symm, append_nil _⟩

lemma Took.trans {r next last : Reader source} {taken more : List UInt8} (h : r.Took taken next)
    (h' : next.Took more last) : r.Took (taken ++ more) last := by
  obtain ⟨fresh, hgave, hpend⟩ := h
  obtain ⟨fresh', hdelivered', hpending'⟩ := h'
  refine ⟨fresh ++ fresh', ?_, ?_⟩
  · rw [hdelivered', hgave, append_assoc]
  · rw [← append_assoc, hpend, append_assoc, hpending', append_assoc]

lemma took_fill (r : Reader source) : r.Took [] r.fill.2 := by
  obtain ⟨fresh, hgave, hpend⟩ := r.pending_fill
  exact ⟨fresh, hgave, hpend.symm⟩

variable {r next : Reader source}

lemma took_fill_eq {answer : Except Error Unit} (h : r.fill = (answer, next)) : r.Took [] next := by
  have hfill := r.took_fill
  rwa [h] at hfill

lemma took_advance (r : Reader source) {n : Nat} (h : n ≤ r.buffered) :
    r.Took (window r.storage_ r.begin_ (r.begin_ + n)) (r.advance n h) := by
  refine ⟨[], (append_nil _).symm, ?_⟩
  have hbegin := r.hbegin
  rw [buffered] at h
  rw [append_nil]
  exact (window_append r.storage_ (Nat.le_add_right _ _) (by omega)).symm

lemma took_all (r : Reader source) : r.Took r.pending (r.advance r.buffered (le_rfl)) := by
  have htook := r.took_advance (le_refl r.buffered)
  have hend : r.begin_ + r.buffered = r.end_ := Nat.add_sub_cancel' r.hbegin
  rwa [hend] at htook

lemma took_read {size : Nat} {out : List UInt8} (h : r.read size = (.ok out, next)) : r.Took out next := by
  rw [read] at h
  split at h
  · cases h
    exact .refl _
  split at h
  · rename_i hempty
    split at h
    · -- past the buffer: nothing is buffered, so the bytes of the source are the next ones
      split at h <;> cases h
      rename_i bytes _
      refine ⟨bytes.1, rfl, ?_⟩
      show r.pending ++ bytes.1 = bytes.1 ++ r.pending
      rw [pending_of_empty hempty, nil_append, append_nil]
    · split at h
      · cases h
      · rename_i filled hfill
        split at h
        · cases h
          exact took_fill_eq hfill
        · cases h
          exact (took_fill_eq hfill).trans (filled.took_advance (min_le_right _ _))
  · cases h
    exact r.took_advance (min_le_right _ _)

lemma took_readStringLoop {delimiter : UInt8} {limit : Nat} {out : List UInt8}
    {answer : Except Error (Option (List UInt8))} (h : r.readStringLoop delimiter limit out = (answer, next)) :
    ∃ taken, (∀ chunk, answer = .ok chunk → chunk.getD [] = out ++ taken) ∧ r.Took taken next := by
  fun_induction readStringLoop delimiter limit r out with
  | case1 r out i hfind =>
    cases h
    refine ⟨_, fun chunk hchunk => ?_, r.took_advance _⟩
    cases hchunk
    rfl
  | case2 r =>
    cases h
    exact ⟨_, by simp, r.took_all⟩
  | case3 r out hfind hlimit e filled hfill =>
    cases h
    exact ⟨_, by simp, r.took_all.trans (took_fill_eq hfill)⟩
  | case4 r out hfind hlimit _ filled hfill hempty =>
    cases h
    refine ⟨_, fun chunk hchunk => ?_, r.took_all.trans (took_fill_eq hfill)⟩
    cases hchunk
    rw [append_nil]
    split
    · rename_i hnil
      rw [hnil]
      rfl
    · rfl
  | case5 r out hfind hlimit _ filled hfill hempty ih =>
    obtain ⟨taken, hchunk, htook⟩ := ih h
    refine ⟨_, fun chunk hok => ?_, (r.took_all.trans (took_fill_eq hfill)).trans htook⟩
    rw [hchunk chunk hok, append_nil, append_assoc]

lemma took_readString {delimiter : UInt8} {limit : Nat} {chunk : Option (List UInt8)}
    (h : r.readString delimiter limit = (.ok chunk, next)) : r.Took (chunk.getD []) next := by
  obtain ⟨taken, hchunk, htook⟩ := took_readStringLoop h
  rw [hchunk chunk rfl]
  exact htook

variable {count : Nat}

lemma took_peekLoop {answer : Except Error Unit} (h : r.peekLoop count = (answer, next)) : r.Took [] next := by
  fun_induction peekLoop count r with
  | case1 r hmore e filled hfill =>
    cases h
    exact took_fill_eq hfill
  | case2 r hmore _ filled hfill hsame =>
    cases h
    exact took_fill_eq hfill
  | case3 r hmore _ filled hfill hsame ih => exact (took_fill_eq hfill).trans (ih h)
  | case4 r hmore =>
    cases h
    exact .refl _

lemma took_peek {view : List UInt8} (h : r.peek count = (.ok view, next)) :
    r.Took [] next ∧ view = next.pending.take count := by
  rw [peek] at h
  split at h
  · cases h
  split at h
  · cases h
  · rename_i filled hloop
    cases h
    refine ⟨took_peekLoop hloop, ?_⟩
    have hbegin := next.hbegin
    have htake := take_window next.storage_ (Nat.le_add_right next.begin_ (min count next.buffered))
      (c := next.end_) (by rw [buffered]; omega)
    rw [← htake, Nat.add_sub_cancel_left]
    show next.pending.take _ = _
    rw [← length_pending, ← take_eq_take_min]

lemma took_drop (r : Reader source) (left : Nat) : r.Took (r.front left) (r.drop left) := r.took_advance _

lemma took_discardLoop {skipped dropped : List UInt8} (h : r.discardLoop count skipped = (.ok dropped, next)) :
    ∃ taken, dropped = skipped ++ taken ∧ r.Took taken next := by
  fun_induction discardLoop count r skipped with
  | case1 => cases h
  | case2 r skipped hmore hempty _ filled hfill hend =>
    cases h
    exact ⟨[], (append_nil _).symm, took_fill_eq hfill⟩
  | case3 r skipped hmore hempty _ filled hfill hend ih =>
    obtain ⟨taken, hdrop, htook⟩ := ih h
    refine ⟨_ ++ taken, ?_, ((took_fill_eq hfill).trans (filled.took_drop _)).trans htook⟩
    rw [hdrop, append_assoc]
    rfl
  | case4 r skipped hmore hempty ih =>
    obtain ⟨taken, hdrop, htook⟩ := ih h
    refine ⟨_ ++ taken, ?_, (r.took_drop _).trans htook⟩
    rw [hdrop, append_assoc]
  | case5 r skipped hmore =>
    cases h
    exact ⟨[], (append_nil _).symm, .refl _⟩

end Reader

lemma stripLine_append (line : List UInt8) : (stripLine line).1 ++ (stripLine line).2 = line := by
  have hback : ∀ (byte : UInt8) (text : List UInt8), (stripBack byte text).1 ++ (stripBack byte text).2 = text := by
    intro byte text
    rw [stripBack]
    split
    · rename_i hlast
      exact dropLast_append_getLast? byte hlast
    · exact append_nil text
  rw [stripLine, ← append_assoc, hback, hback]

lemma stripLine_terminator (line : List UInt8) : (stripLine line).2 ∈ [[], [10], [13], [13, 10]] := by
  simp only [stripLine, stripBack]
  split <;> split <;> simp

/-! ### Sequences of calls -/

inductive Call where
  | read (size : Nat)
  | readString (delimiter : UInt8) (limit : Nat)
  | readLine (limit : Nat)
  | peek (count : Nat)
  | discard (count : Nat)
  | buffered

/-- What a successful call returned; for `readLine` with the terminator it took off, for `discard` with the bytes it
skipped. -/
inductive Reply where
  | read (out : List UInt8)
  | chunk (text : Option (List UInt8))
  | line (text : Option (List UInt8 × List UInt8))
  | view (bytes : List UInt8)
  | dropped (skipped : List UInt8)
  | size (n : Nat)
  deriving DecidableEq

def Reply.consumed : Reply → List UInt8
  | .read out => out
  | .chunk text => text.getD []
  | .line none => []
  | .line (some (text, terminator)) => text ++ terminator
  | .dropped skipped => skipped
  | .view _ | .size _ => []

/-- `read_line` takes off a line terminator only. -/
def Reply.Terminated : Reply → Prop
  | .line (some (_, terminator)) => terminator ∈ [[], [10], [13], [13, 10]]
  | _ => True

namespace Reader

variable {source : Source}

def call (r : Reader source) : Call → Except Error Reply × Reader source
  | .read size => ((r.read size).1.map .read, (r.read size).2)
  | .readString delimiter limit => ((r.readString delimiter limit).1.map .chunk, (r.readString delimiter limit).2)
  | .readLine limit => ((r.readLine limit).1.map .line, (r.readLine limit).2)
  | .peek count => ((r.peek count).1.map .view, (r.peek count).2)
  | .discard count => ((r.discard count).1.map .dropped, (r.discard count).2)
  | .buffered => (.ok (.size r.buffered), r)

/-- The calls one after the other, as long as they succeed. -/
def run (r : Reader source) : List Call → Option (List Reply × Reader source)
  | [] => some ([], r)
  | call :: rest =>
    match r.call call with
    | (.error _, _) => none
    | (.ok reply, next) => (next.run rest).map fun (replies, last) => (reply :: replies, last)

lemma map_ok {ε α β : Type} {f : α → β} {x : Except ε α} {b : β} (h : x.map f = .ok b) : ∃ a, x = .ok a ∧ f a = b := by
  cases x with
  | error => cases h
  | ok a =>
    cases h
    exact ⟨a, rfl, rfl⟩

lemma took_readLine {r next : Reader source} {limit : Nat} {line : Option (List UInt8 × List UInt8)}
    (h : r.readLine limit = (.ok line, next)) :
    r.Took (Reply.line line).consumed next ∧ (Reply.line line).Terminated := by
  rw [readLine] at h
  split at h
  · cases h
  · rename_i chunk last hchunk
    cases h
    have htook := took_readString hchunk
    cases chunk with
    | none => exact ⟨htook, trivial⟩
    | some text =>
      refine ⟨?_, stripLine_terminator text⟩
      show r.Took ((stripLine text).1 ++ (stripLine text).2) next
      rw [stripLine_append]
      exact htook

lemma took_call {r next : Reader source} {a : Call} {reply : Reply} (h : r.call a = (.ok reply, next)) :
    r.Took reply.consumed next ∧ reply.Terminated := by
  cases a with obtain ⟨hreply, rfl⟩ := Prod.mk.inj h
  | buffered =>
    cases h
    exact ⟨.refl _, trivial⟩
  | read =>
    obtain ⟨out, hout, rfl⟩ := map_ok hreply
    exact ⟨took_read (Prod.ext hout rfl), trivial⟩
  | readString =>
    obtain ⟨chunk, hchunk, rfl⟩ := map_ok hreply
    exact ⟨took_readString (Prod.ext hchunk rfl), trivial⟩
  | readLine =>
    obtain ⟨line, hline, rfl⟩ := map_ok hreply
    exact took_readLine (Prod.ext hline rfl)
  | peek =>
    obtain ⟨view, hview, rfl⟩ := map_ok hreply
    exact ⟨(took_peek (Prod.ext hview rfl)).1, trivial⟩
  | discard =>
    obtain ⟨dropped, hdrop, rfl⟩ := map_ok hreply
    obtain ⟨taken, rfl, htook⟩ := took_discardLoop (Prod.ext hdrop rfl)
    exact ⟨htook, trivial⟩

lemma took_run {r last : Reader source} {calls : List Call} {replies : List Reply}
    (h : r.run calls = some (replies, last)) :
    r.Took (replies.flatMap Reply.consumed) last ∧ ∀ reply ∈ replies, reply.Terminated := by
  induction calls generalizing r replies with
  | nil =>
    cases h
    exact ⟨.refl _, nofun⟩
  | cons a rest ih =>
    rw [run] at h
    split at h
    · cases h
    · rename_i reply next hcall
      obtain ⟨⟨replies', last'⟩, hrest, heq⟩ := Option.map_eq_some_iff.mp h
      cases heq
      obtain ⟨htook, hterm⟩ := took_call hcall
      obtain ⟨htook', hterminated'⟩ := ih hrest
      refine ⟨htook.trans htook', fun x hx => ?_⟩
      rcases mem_cons.mp hx with rfl | hmem
      · exact hterm
      · exact hterminated' x hmem

/-! ### The guarantee -/

/-- What `peek` shows is what the calls after it hand out, whichever they are. -/
lemma view_of_peek {r next last : Reader source} {count : Nat} {view : List UInt8} {calls : List Call}
    {replies : List Reply} (h : r.peek count = (.ok view, next)) (hrun : next.run calls = some (replies, last)) :
    view <+: replies.flatMap Reply.consumed ++ last.pending := by
  obtain ⟨-, rfl⟩ := took_peek h
  obtain ⟨⟨fresh, -, hpend⟩, -⟩ := took_run hrun
  rw [← hpend]
  have hview := take_prefix count next.pending
  exact hview.trans (prefix_append _ _)

/-- **For every source, capacity and sequence of successful calls: what was handed out, discarded or taken off as a
terminator, followed by what is buffered, is what the source has delivered; and a `peek` takes nothing and shows the
next bytes.** -/
theorem reader_exact (capacity : Nat) (storage : Nat → UInt8) (calls : List Call) {replies : List Reply}
    {r : Reader source} (h : (create source capacity storage).run calls = some (replies, r)) :
    replies.flatMap Reply.consumed ++ r.pending = r.delivered ∧ (∀ reply ∈ replies, reply.Terminated) ∧
      r.buffered = r.pending.length ∧
      ∀ count view next, r.peek count = (.ok view, next) →
        (∃ fresh, next.delivered = r.delivered ++ fresh ∧ next.pending = r.pending ++ fresh) ∧
        view = next.pending.take count ∧
        ∀ more replies' last, next.run more = some (replies', last) →
          view <+: replies'.flatMap Reply.consumed ++ last.pending := by
  obtain ⟨⟨fresh, hgave, hpend⟩, hterm⟩ := took_run h
  refine ⟨?_, hterm, r.length_pending.symm, fun count view next hpeek => ?_⟩
  · have hstart : (create source capacity storage).pending = [] := pending_of_empty rfl
    rw [hstart] at hpend
    rw [← hpend, hgave]
    rfl
  · obtain ⟨⟨fresh', hdelivered', hpending'⟩, hview⟩ := took_peek hpeek
    exact ⟨⟨fresh', hdelivered', hpending'.symm⟩, hview, fun more replies' last hrun => view_of_peek hpeek hrun⟩

end Reader

def chunked (chunks : List (List UInt8)) : Source :=
  fun k size => .ok ⟨(chunks.getD k []).take size, length_take_le size _⟩

/-- Two chunks through a buffer of four bytes: a line that arrives in two pieces, a `discard`, and a `read` that goes
past the buffer. -/
theorem reader_exact_twoChunks : ∃ r : Reader (chunked [[97, 13], [10, 98, 99], [100, 101, 102, 103]]),
    (Reader.create _ 4 fun _ => 0).run [.peek 1, .readLine 80, .discard 2, .read 4] =
      some ([.view [97], .line (some ([97], [13, 10])), .dropped [98, 99], .read [100, 101, 102, 103]], r) ∧
    r.delivered = [97, 13, 10, 98, 99, 100, 101, 102, 103] := by
  have hrun : ((Reader.create (chunked [[97, 13], [10, 98, 99], [100, 101, 102, 103]]) 4 fun _ => 0).run
      [.peek 1, .readLine 80, .discard 2, .read 4]).map (fun x => (x.1, x.2.pending)) =
      some ([.view [97], .line (some ([97], [13, 10])), .dropped [98, 99], .read [100, 101, 102, 103]], []) := by
    decide +kernel
  obtain ⟨⟨replies, r⟩, hsome, heq⟩ := Option.map_eq_some_iff.mp hrun
  obtain ⟨rfl, hpend⟩ := Prod.mk.inj heq
  refine ⟨r, hsome, ?_⟩
  have hexact := (Reader.reader_exact 4 _ _ hsome).1
  rw [← hexact, hpend]
  rfl

end Cio.Bufio
