import Mathlib.Data.List.Infix

/-! What a TLS connection sends. `flush_network` takes ciphertext out of OpenSSL's BIO in batches and writes each to the
socket; what the socket did not take of a batch is gone, and the connection stays usable. What OpenSSL puts out and how
the socket answers is arbitrary; deadlines and tokens only decide the latter. -/

namespace Cio.TlsOutput

open List

def transferSize : Nat := 16384

/-- The socket takes the batch, fails after a prefix of it, or is still at it. -/
inductive Written where
  | all
  | fails (after : Nat)
  | pending (after : Nat)

/-- `produced` is all OpenSSL has put out and `accepted` all the socket has taken, which answers its `n`-th write by
`answers n`. `cut` says that the last write did not take its batch whole, or an earlier one did not. -/
structure Conn where
  answers : Nat → Written
  handshakeDone : Bool := false
  shutdownSent : Bool := false
  closed : Bool := false
  bio : List UInt8 := []
  produced : List UInt8 := []
  accepted : List UInt8 := []
  writes : Nat := 0
  cut : Bool := false

/-- What a part of a call leaves behind: `none` while it is suspended, `some true` for a success. -/
abbrev Outcome := Option Bool × Conn

def Outcome.next (out : Outcome) (rest : Conn → Outcome) : Outcome :=
  match out with
  | (some true, c) => rest c
  | (result, c) => (result, c)

namespace Conn

def produce (c : Conn) (bytes : List UInt8) : Conn :=
  { c with bio := c.bio ++ bytes, produced := c.produced ++ bytes }

/-- `socket.write(batch)`; a closed socket takes nothing. -/
def socketWrite (c : Conn) (batch : List UInt8) : Outcome :=
  let next := { c with writes := c.writes + 1 }
  match if c.closed then .fails 0 else c.answers c.writes with
  | .all => (some true, { next with accepted := c.accepted ++ batch })
  | .fails after => (some false, { next with accepted := c.accepted ++ batch.take after, cut := true })
  | .pending after => (none, { next with accepted := c.accepted ++ batch.take after, cut := true })

/-- The loop of `flush_network`, which takes at least a byte out of the BIO each time round. -/
def flushLoop : Nat → Conn → Outcome
  | 0, c => (some true, c)
  | turns + 1, c =>
    if c.bio = [] then (some true, c)
    else ({ c with bio := c.bio.drop transferSize }.socketWrite (c.bio.take transferSize)).next (flushLoop turns)

def flushNetwork (c : Conn) : Outcome := flushLoop c.bio.length c

end Conn

/-- How an attempt ends: with a positive code, wanting to write, wanting to read with what `fill_network` says (`none`
while it waits), or in a way that `pump` reports at once. -/
inductive Ending where
  | done
  | wantWrite
  | wantRead (filled : Option Bool)
  | reported

structure Turn where
  output : List UInt8
  ending : Ending

def pump : List Turn → Conn → Outcome
  | [], c => (none, c)
  | turn :: rest, c =>
    let c := c.produce turn.output
    match turn.ending with
    | .reported => (some false, c)
    | .done => c.flushNetwork
    | .wantWrite => c.flushNetwork.next (pump rest)
    | .wantRead filled => (c.flushNetwork.next fun c => (filled, c)).next (pump rest)

/-- A call, with the attempts of its handshake, should it need one, and its own. -/
inductive Call where
  | handshake (turns : List Turn)
  | transfer (handshake turns : List Turn)
  | shutdown (output : List UInt8)

namespace Conn

def handshake (c : Conn) (turns : List Turn) : Outcome :=
  if c.handshakeDone then (some true, c)
  else (pump turns c).next fun c => (some true, { c with handshakeDone := true })

/-- `Conn::read` and `Conn::write` on a non-empty span. -/
def readOrWrite (c : Conn) (handshake turns : List Turn) : Outcome := (c.handshake handshake).next (pump turns)

def shutdown (c : Conn) (output : List UInt8) : Outcome :=
  if c.shutdownSent = true ∨ c.handshakeDone = false then (some true, { c with closed := true })
  else
    match ({ c with shutdownSent := true }.produce output).flushNetwork with
    | (none, c) => (none, c)
    | (some ok, c) => (some ok, { c with closed := true })

def call (c : Conn) : Call → Outcome
  | .handshake turns => c.handshake turns
  | .transfer handshake turns => c.readOrWrite handshake turns
  | .shutdown output => c.shutdown output

def run (c : Conn) (calls : List Call) : Conn := calls.foldl (fun c k => (c.call k).2) c

/-- The socket has the beginning of what OpenSSL put out, and the BIO the rest unless a write was cut short. -/
structure Whole (c : Conn) : Prop where
  isPrefix : c.accepted <+: c.produced
  all : c.cut = false → c.accepted ++ c.bio = c.produced

lemma Whole.of_all {c : Conn} (h : c.accepted ++ c.bio = c.produced) : c.Whole := ⟨⟨c.bio, h⟩, fun _ => h⟩

/-- What a part of a call leaves behind when it starts with nothing cut. -/
structure Keeps (out : Outcome) : Prop where
  whole : out.2.Whole
  uncut : out.1 = some true → out.2.cut = false

variable {c : Conn}

lemma socketWrite_keeps {batch : List UInt8} (hcut : c.cut = false)
    (h : c.accepted ++ (batch ++ c.bio) = c.produced) : Keeps (c.socketWrite batch) := by
  -- The socket has a part of the batch more, and the rest is gone.
  have hpart (after : Nat) : c.accepted ++ batch.take after <+: c.produced := by
    have htaken := take_prefix after batch
    rw [← h]
    exact (prefix_append_right_inj _).mpr (htaken.trans (prefix_append ..))
  rw [socketWrite]
  split
  · exact ⟨.of_all ((append_assoc ..).trans h), fun _ => hcut⟩
  · exact ⟨⟨hpart _, by simp⟩, by simp⟩
  · exact ⟨⟨hpart _, by simp⟩, by simp⟩

lemma Keeps.next {out : Outcome} {rest : Conn → Outcome} (h : Keeps out)
    (hrest : ∀ {d : Conn}, d.Whole → d.cut = false → Keeps (rest d)) : Keeps (out.next rest) := by
  obtain ⟨_ | _ | _, d⟩ := out
  · exact h
  · exact h
  · exact hrest h.whole (h.uncut rfl)

lemma flushLoop_keeps (turns : Nat) (h : c.Whole) (hcut : c.cut = false) : Keeps (flushLoop turns c) := by
  induction turns generalizing c with
  | zero => exact ⟨h, fun _ => hcut⟩
  | succ turns ih =>
    rw [flushLoop]
    split
    · exact ⟨h, fun _ => hcut⟩
    · refine (socketWrite_keeps (c := { c with bio := c.bio.drop transferSize }) hcut ?_).next ih
      rw [take_append_drop]
      exact h.all hcut

lemma produce_whole (h : c.Whole) (hcut : c.cut = false) (bytes : List UInt8) : (c.produce bytes).Whole := by
  refine .of_all ?_
  show c.accepted ++ (c.bio ++ bytes) = c.produced ++ bytes
  rw [← append_assoc, h.all hcut]

lemma pump_keeps (turns : List Turn) (h : c.Whole) (hcut : c.cut = false) : Keeps (pump turns c) := by
  induction turns generalizing c with
  | nil => exact ⟨h, nofun⟩
  | cons turn rest ih =>
    have hproduced := produce_whole h hcut turn.output
    have hflush : Keeps (c.produce turn.output).flushNetwork := flushLoop_keeps _ hproduced hcut
    rw [pump]
    split
    · exact ⟨hproduced, fun _ => hcut⟩
    · exact hflush
    · exact hflush.next ih
    · exact (hflush.next fun hd hdcut => ⟨hd, fun _ => hdcut⟩).next ih

lemma handshake_keeps (turns : List Turn) (h : c.Whole) (hcut : c.cut = false) : Keeps (c.handshake turns) := by
  rw [handshake]
  split
  · exact ⟨h, fun _ => hcut⟩
  · exact (pump_keeps turns h hcut).next fun hd hdcut => ⟨{ hd with }, fun _ => hdcut⟩

lemma shutdown_keeps (output : List UInt8) (h : c.Whole) (hcut : c.cut = false) : Keeps (c.shutdown output) := by
  rw [shutdown]
  split
  · exact ⟨{ h with }, fun _ => hcut⟩
  · have hsent : ({ c with shutdownSent := true } : Conn).Whole := { h with }
    have hflush : Keeps ({ c with shutdownSent := true }.produce output).flushNetwork :=
      flushLoop_keeps _ (produce_whole hsent hcut output) hcut
    split
    · rename_i hout
      exact hout ▸ hflush
    · rename_i hout
      rw [hout] at hflush
      exact ⟨{ hflush.whole with }, hflush.uncut⟩

lemma call_keeps (h : c.Whole) (hcut : c.cut = false) (k : Call) : Keeps (c.call k) := by
  cases k with
  | handshake turns => exact handshake_keeps turns h hcut
  | transfer handshake turns => exact (handshake_keeps handshake h hcut).next (pump_keeps turns)
  | shutdown output => exact shutdown_keeps output h hcut

end Conn

open Conn

/-- No call but the last one has had a socket write that did not take its batch whole. -/
def CutOnlyAtTheEnd (c : Conn) (calls : List Call) : Prop :=
  ∀ before k after, calls = before ++ k :: after → (c.run before).cut = false

lemma run_whole {c : Conn} (h : c.Whole) (calls : List Call) (hcut : CutOnlyAtTheEnd c calls) :
    (c.run calls).Whole := by
  induction calls using reverseRecOn with
  | nil => exact h
  | append_singleton before k ih =>
    have hpre : (c.run before).Whole := by
      refine ih fun earlier k' after heq => hcut earlier k' (after ++ [k]) ?_
      rw [heq, append_assoc, cons_append]
    rw [run, foldl_append]
    exact (call_keeps hpre (hcut before k [] rfl) k).whole

/-- **While no call follows one whose socket write was cut short, the socket has a prefix of what OpenSSL produced**,
whatever OpenSSL puts out and however the socket answers. -/
theorem tls_output_no_gap (answers : Nat → Written) (calls : List Call) (hcut : CutOnlyAtTheEnd { answers } calls) :
    (({ answers } : Conn).run calls).accepted <+: (({ answers } : Conn).run calls).produced :=
  (run_whole (.of_all rfl) calls hcut).isPrefix

theorem tls_output_no_gap_timeout : let c : Conn := { answers := fun n => if n = 2 then .fails 1 else .all }
    let calls := [.transfer [⟨[1], .done⟩] [⟨[2, 3], .done⟩], .transfer [] [⟨[4, 5], .done⟩]]
    CutOnlyAtTheEnd c calls ∧ (c.run calls).accepted = [1, 2, 3, 4] ∧
      (c.run calls).accepted <+: (c.run calls).produced := by
  have hcut : CutOnlyAtTheEnd { answers := fun n => if n = 2 then .fails 1 else .all }
      [.transfer [⟨[1], .done⟩] [⟨[2, 3], .done⟩], .transfer [] [⟨[4, 5], .done⟩]] := by
    rintro (_ | ⟨_, _ | ⟨_, before⟩⟩) k after heq
    · rfl
    · cases heq
      rfl
    · cases before <;> cases heq
  exact ⟨hcut, rfl, tls_output_no_gap _ _ hcut⟩

/-- A write times out after a byte of its record, and the next one goes out behind it. -/
theorem tls_output_gap_after_timeout :
    let c := ({ answers := fun n => if n = 1 then .fails 1 else .all } : Conn).run
      [.transfer [⟨[1], .done⟩] [⟨[2, 3], .done⟩], .transfer [] [⟨[4, 5], .done⟩]]
    c.produced = [1, 2, 3, 4, 5] ∧ c.accepted = [1, 2, 4, 5] ∧ ¬ c.accepted <+: c.produced := by
  refine ⟨rfl, rfl, ?_⟩
  decide

end Cio.TlsOutput
