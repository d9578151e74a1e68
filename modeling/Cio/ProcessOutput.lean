import Cio.ProcessWait

/-! `Command::output`: two `io::read_all` drains, one per pipe, and then `Child::wait`. The child is
a finite script of writes; it blocks while the pipe it writes to is full, and exits after the last
write. The read ends stay open until `output` returns and destroys the `Child`.
Both drains stop for good once their stream exceeds the limit, so a child that still has more to
write than the pipe holds never exits. -/

namespace Cio.Process

open Transition Function List Option

inductive Stream where
  | out
  | err
  deriving DecidableEq

abbrev Script := List (Stream × List UInt8)

namespace Script

def bytes (script : Script) (stream : Stream) : List UInt8 :=
  script.flatMap fun chunk => if chunk.1 = stream then chunk.2 else []

def size : Script → Nat
  | [] => 0
  | chunk :: rest => chunk.2.length + size rest

end Script

structure OutputConfig where
  script : Script
  status : Status
  capacity : Nat
  capacity_pos : 0 < capacity
  maxOutput : Nat

structure Output where
  status : Status
  out : List UInt8
  err : List UInt8

/-- The loop of `read_all` with the bytes it has collected, or its result. -/
inductive Drain where
  | reading (out : List UInt8)
  | done (result : Except Error (List UInt8))

/-- Where `output` stands, with the results it holds. -/
inductive OutputPc where
  | readOut
  | joinErr (out : Except Error (List UInt8))
  | wait (out err : Except Error (List UInt8))
  | returned (result : Except Error Output)

/-- The child, its pipes and the parent that drains them. -/
structure OutputState where
  script : Script
  exited : Bool := false
  pipe : Stream → List UInt8 := fun _ => []
  readOpen : Stream → Bool := fun _ => true
  drain : Stream → Drain := fun _ => .reading []
  parent : OutputPc := .readOut

inductive OutputAct where
  | child (k : Nat)
  | drain (stream : Stream)
  | parent

def readAllChunk : Nat := 16 * 1024

namespace OutputState

/-- One step of the child, which writes `k` bytes of its current chunk if it has to write. -/
def childStep (cfg : OutputConfig) (s : OutputState) (k : Nat) : Option OutputState :=
  if s.exited then none
  else
    match s.script with
    | [] => some { s with exited := true }
    | (_, []) :: rest => some { s with script := rest }
    | (stream, byte :: bytes) :: rest =>
      if s.readOpen stream = false then some { s with script := rest }
      else if 0 < k ∧ k ≤ (byte :: bytes).length ∧ (s.pipe stream).length + k ≤ cfg.capacity then
        some { s with
          script := (stream, (byte :: bytes).drop k) :: rest
          pipe := update s.pipe stream (s.pipe stream ++ (byte :: bytes).take k) }
      else none

/-- One round of `read_all`: `read` gives what the pipe holds, and 0 only after the exit. -/
def drainStep (cfg : OutputConfig) (s : OutputState) (stream : Stream) : Option OutputState :=
  match s.drain stream with
  | .done _ => none
  | .reading out =>
    match s.pipe stream with
    | [] =>
      if s.exited then
        some { s with drain := update s.drain stream (.done (.ok out)) }
      else none
    | byte :: rest =>
      let chunk := (byte :: rest).take readAllChunk
      some { s with
        pipe := update s.pipe stream ((byte :: rest).drop readAllChunk)
        drain := update s.drain stream
          (if cfg.maxOutput < out.length + chunk.length then .done (.error .emsgsize)
           else .reading (out ++ chunk)) }

/-- The result `output` builds after `wait`: the first error counts. -/
def compose (status : Status) : Except Error (List UInt8) → Except Error (List UInt8) → Except Error Output
  | .error e, _ => .error e
  | .ok _, .error e => .error e
  | .ok out, .ok err => .ok { status := status, out := out, err := err }

/-- `output` past the drains: join the stderr task, wait for the child, build the result. -/
def parentStep (cfg : OutputConfig) (s : OutputState) : Option OutputState :=
  match s.parent with
  | .readOut =>
    match s.drain .out with
    | .done out => some { s with parent := .joinErr out }
    | .reading _ => none
  | .joinErr out =>
    match s.drain .err with
    | .done err => some { s with parent := .wait out err }
    | .reading _ => none
  | .wait out err =>
    if s.exited then
      some { s with
        parent := .returned (compose cfg.status out err)
        readOpen := fun _ => false }
    else none
  | .returned _ => none

end OutputState

def outputStep (cfg : OutputConfig) (s : OutputState) : OutputAct → Option OutputState
  | .child k => s.childStep cfg k
  | .drain stream => s.drainStep cfg stream
  | .parent => s.parentStep cfg

def outputSystem (cfg : OutputConfig) : System OutputState OutputAct where
  init s := s = { script := cfg.script }
  step := outputStep cfg

/-- What `output` is to return: both streams when each is within the limit, else `EMSGSIZE`. -/
def expectedOutput (cfg : OutputConfig) : Except Error Output :=
  if (cfg.script.bytes .out).length ≤ cfg.maxOutput ∧
      (cfg.script.bytes .err).length ≤ cfg.maxOutput then
    .ok { status := cfg.status, out := cfg.script.bytes .out, err := cfg.script.bytes .err }
  else .error .emsgsize

/-- `output` has returned what it is to return. -/
def OutputReturned (cfg : OutputConfig) (s : OutputState) : Prop := s.parent = .returned (expectedOutput cfg)

/-! ### Every step uses something up -/

def Drain.weight : Drain → Nat
  | reading _ => 1
  | done _ => 0

def OutputPc.weight : OutputPc → Nat
  | readOut => 3
  | joinErr _ => 2
  | wait _ _ => 1
  | returned _ => 0

/-- A byte counts twice while it is in the script and once while it is in a pipe. -/
def OutputState.weight (s : OutputState) : Nat :=
  2 * s.script.size + s.script.length + (if s.exited then 0 else 1) +
    ((s.pipe .out).length + (s.pipe .err).length) +
    ((s.drain .out).weight + (s.drain .err).weight) + s.parent.weight

lemma pipes_update (pipe : Stream → List UInt8) (stream : Stream) (bytes : List UInt8) :
    (update pipe stream bytes .out).length + (update pipe stream bytes .err).length + (pipe stream).length
      = (pipe .out).length + (pipe .err).length + bytes.length := by
  cases stream <;> simp [update] <;> omega

lemma drains_update (drain : Stream → Drain) (stream : Stream) (d : Drain) :
    (update drain stream d .out).weight + (update drain stream d .err).weight + (drain stream).weight
      = (drain .out).weight + (drain .err).weight + d.weight := by
  cases stream <;> simp [update] <;> omega

variable {cfg : OutputConfig} {s t : OutputState} {stream : Stream}

attribute [local simp] OutputPc.weight OutputState.weight OutputState.parentStep

lemma childStep_weight {k : Nat} (hs : s.childStep cfg k = some t) : t.weight < s.weight := by
  unfold OutputState.childStep at hs
  split at hs
  · cases hs
  · rename_i hexit
    split at hs
    · cases hs
      simp [hexit]
    · rename_i hscr
      cases hs
      simp [hscr, Script.size]
    · rename_i stream byte bytes rest hscr
      split at hs
      · cases hs
        simp only [OutputState.weight, hscr, Script.size, length_cons]
        omega
      · obtain ⟨⟨hpos, hle, _⟩, rfl⟩ := of_guard hs
        have hpipes := pipes_update s.pipe stream (s.pipe stream ++ (byte :: bytes).take k)
        have htake : ((byte :: bytes).take k).length = k := by
          rw [length_take, min_eq_left hle]
        rw [length_append, htake] at hpipes
        have hdrop : ((byte :: bytes).drop k).length + k = bytes.length + 1 := by
          rw [length_cons] at hle
          rw [length_drop, length_cons]
          omega
        simp only [OutputState.weight, hscr, Script.size, length_cons]
        omega

lemma drainStep_weight (hs : s.drainStep cfg stream = some t) : t.weight < s.weight := by
  unfold OutputState.drainStep at hs
  split at hs
  · cases hs
  · rename_i out hdrain
    have hone : (s.drain stream).weight = 1 := by rw [hdrain]; rfl
    split at hs
    · obtain ⟨-, rfl⟩ := of_guard hs
      have hdrains := drains_update s.drain stream (.done (.ok out))
      have hzero : (Drain.done (.ok out)).weight = 0 := rfl
      simp only [OutputState.weight]
      omega
    · rename_i byte rest hpipe
      cases hs
      have hpipes := pipes_update s.pipe stream ((byte :: rest).drop readAllChunk)
      have hless : ((byte :: rest).drop readAllChunk).length < (s.pipe stream).length := by
        rw [hpipe, length_drop, readAllChunk, length_cons]
        omega
      generalize hd : (if cfg.maxOutput < out.length + ((byte :: rest).take readAllChunk).length then
        Drain.done (.error .emsgsize) else .reading (out ++ (byte :: rest).take readAllChunk)) = d
      have hdrains := drains_update s.drain stream d
      have hle : d.weight ≤ 1 := by
        rw [← hd]
        split <;> simp [Drain.weight]
      simp only [OutputState.weight]
      omega

lemma parentStep_weight (hs : s.parentStep cfg = some t) : t.weight < s.weight := by
  unfold OutputState.parentStep at hs
  split at hs
  · rename_i hup
    split at hs <;> cases hs
    simp [hup]
  · rename_i hup
    split at hs <;> cases hs
    simp [hup]
  · rename_i hup
    obtain ⟨-, rfl⟩ := of_guard hs
    simp [hup]
  · cases hs

lemma outputStep_weight (s : OutputState) (a : OutputAct) (t : OutputState)
    (hs : (outputSystem cfg).step s a = some t) : t.weight < s.weight := by
  cases a with
  | child => exact childStep_weight hs
  | drain => exact drainStep_weight hs
  | parent => exact parentStep_weight hs

/-! ### What the streams hold -/

/-- Nothing of a stream is lost while it is read; a finished drain holds all of it; a drain that
gave up has consumed more than the limit. -/
def StreamKept (cfg : OutputConfig) (s : OutputState) (stream : Stream) : Prop :=
  match s.drain stream with
  | .reading out =>
    out ++ s.pipe stream ++ s.script.bytes stream = cfg.script.bytes stream ∧
      out.length ≤ cfg.maxOutput
  | .done (.ok out) =>
    out = cfg.script.bytes stream ∧ out.length ≤ cfg.maxOutput ∧ s.exited = true ∧
      s.pipe stream = []
  | .done (.error e) =>
    e = .emsgsize ∧ (s.pipe stream).length + (s.script.bytes stream).length + cfg.maxOutput + 1 ≤
      (cfg.script.bytes stream).length

/-- What `output` holds are the results of the drains. -/
def ParentKept (cfg : OutputConfig) (s : OutputState) : Prop :=
  match s.parent with
  | .readOut => True
  | .joinErr out => s.drain .out = .done out
  | .wait out err => s.drain .out = .done out ∧ s.drain .err = .done err
  | .returned result => ∃ out err, s.drain .out = .done out ∧ s.drain .err = .done err ∧
      s.exited = true ∧ result = OutputState.compose cfg.status out err

structure OutputInv (cfg : OutputConfig) (s : OutputState) : Prop where
  stream : ∀ stream, StreamKept cfg s stream
  parent : ParentKept cfg s
  script : s.exited = true → s.script = []
  readOpen : s.exited = false → ∀ stream, s.readOpen stream = true
  pipe : ∀ stream, (s.pipe stream).length ≤ cfg.capacity

lemma bytes_cons_same (stream : Stream) (chunk : List UInt8) (rest : Script) :
    Script.bytes ((stream, chunk) :: rest) stream = chunk ++ rest.bytes stream := by
  simp [Script.bytes]

lemma bytes_cons_other {stream' : Stream} (h : stream ≠ stream') (chunk : List UInt8)
    (rest : Script) : Script.bytes ((stream, chunk) :: rest) stream' = rest.bytes stream' := by
  simp [Script.bytes, h]

lemma bytes_cons_nil (stream stream' : Stream) (rest : Script) :
    Script.bytes ((stream, []) :: rest) stream' = rest.bytes stream' := by
  simp [Script.bytes]

lemma StreamKept.of_same (h : StreamKept cfg s stream) (hdrain : t.drain stream = s.drain stream)
    (hrest : t.pipe stream ++ t.script.bytes stream = s.pipe stream ++ s.script.bytes stream)
    (hexit : s.exited → t.exited ∧ t.pipe stream = s.pipe stream) : StreamKept cfg t stream := by
  have hlen : (t.pipe stream).length + (t.script.bytes stream).length =
      (s.pipe stream).length + (s.script.bytes stream).length := by
    simpa using congrArg length hrest
  unfold StreamKept at h ⊢
  rw [hdrain]
  split at h
  · rw [append_assoc, hrest, ← append_assoc]
    exact h
  · obtain ⟨hout, hle, hdone, hpipe⟩ := h
    obtain ⟨hdone', hpipe'⟩ := hexit hdone
    exact ⟨hout, hle, hdone', hpipe'.trans hpipe⟩
  · rw [hlen]
    exact h

lemma childStep_inv {k : Nat} (h : OutputInv cfg s) (hst : s.childStep cfg k = some t) : OutputInv cfg t := by
  unfold OutputState.childStep at hst
  split at hst
  · cases hst
  · rename_i hrunning
    have hopen := h.readOpen (by simpa using hrunning)
    split at hst
    · rename_i hscr
      cases hst
      refine ⟨fun stream => (h.stream stream).of_same rfl rfl fun _ => ⟨rfl, rfl⟩, ?_, fun _ => hscr, nofun, h.pipe⟩
      have hup := h.parent
      unfold ParentKept at hup ⊢
      split <;> simp_all
    · rename_i stream rest hscr
      cases hst
      refine ⟨fun stream' => (h.stream stream').of_same rfl ?_ fun hs => absurd hs hrunning, h.parent,
        fun hs => absurd hs hrunning, h.readOpen, h.pipe⟩
      rw [hscr, bytes_cons_nil]
    · rename_i stream byte bytes rest hscr
      rw [if_neg (by simp [hopen stream]), ite_none_right_eq_some] at hst
      obtain ⟨⟨_, _, hroom⟩, hst⟩ := hst
      cases hst
      refine ⟨fun stream' => (h.stream stream').of_same rfl ?_ fun hs => absurd hs hrunning, h.parent,
        fun hs => absurd hs hrunning, h.readOpen, fun stream' => ?_⟩
      · dsimp only
        by_cases hsame : stream = stream'
        · subst hsame
          rw [hscr, bytes_cons_same, bytes_cons_same, update_self, append_assoc,
            ← append_assoc (take _ _), take_append_drop]
        · rw [hscr, bytes_cons_other hsame, bytes_cons_other hsame, update_of_ne (Ne.symm hsame)]
      · dsimp only
        by_cases hsame : stream' = stream
        · subst hsame
          rw [update_self, length_append, length_take]
          omega
        · rw [update_of_ne hsame]
          exact h.pipe stream'

lemma ParentKept.update {out : List UInt8} {d : Drain} (h : ParentKept cfg s) (hread : s.drain stream = .reading out)
    (hdrain : t.drain = update s.drain stream d) (hup : t.parent = s.parent) (hexit : t.exited = s.exited) :
    ParentKept cfg t := by
  have hkeep : ∀ stream' result, s.drain stream' = .done result → t.drain stream' = .done result := by
    intro stream' result hdone
    have hne : stream' ≠ stream := by
      rintro rfl
      rw [hread] at hdone
      cases hdone
    rw [hdrain, update_of_ne hne]
    exact hdone
  unfold ParentKept at h ⊢
  rw [hup, hexit]
  split at h
  · trivial
  · exact hkeep _ _ h
  · exact ⟨hkeep _ _ h.1, hkeep _ _ h.2⟩
  · obtain ⟨out, err, hout, herr, hrest⟩ := h
    exact ⟨out, err, hkeep _ _ hout, hkeep _ _ herr, hrest⟩

lemma OutputInv.drain_update {out : List UInt8} (h : OutputInv cfg s) (bytes : List UInt8) (d : Drain)
    (hread : s.drain stream = .reading out) (hlen : bytes.length ≤ (s.pipe stream).length)
    (hkept : StreamKept cfg { s with
      pipe := update s.pipe stream bytes
      drain := update s.drain stream d } stream) :
    OutputInv cfg { s with
      pipe := update s.pipe stream bytes
      drain := update s.drain stream d } := by
  refine ⟨fun stream' => ?_, h.parent.update hread rfl rfl rfl, h.script, h.readOpen, fun stream' => ?_⟩
  · by_cases hsame : stream' = stream
    · subst hsame
      exact hkept
    · refine (h.stream stream').of_same ?_ ?_ ?_ <;> simp [update_of_ne hsame]
  · dsimp only
    by_cases hsame : stream' = stream
    · subst hsame
      rw [update_self]
      exact hlen.trans (h.pipe stream')
    · rw [update_of_ne hsame]
      exact h.pipe stream'

lemma drainStep_inv (h : OutputInv cfg s) (hs : s.drainStep cfg stream = some t) : OutputInv cfg t := by
  unfold OutputState.drainStep at hs
  split at hs
  · cases hs
  · rename_i out hdrain
    have hkept := h.stream stream
    rw [StreamKept, hdrain] at hkept
    obtain ⟨hbytes, hle⟩ := hkept
    split at hs
    · rename_i hpipe
      obtain ⟨hexit, rfl⟩ := of_guard hs
      have hall : out = cfg.script.bytes stream := by
        rw [hpipe, h.script hexit] at hbytes
        simpa [Script.bytes] using hbytes
      have hupd := h.drain_update (s.pipe stream) (.done (.ok out)) hdrain le_rfl
      rw [update_eq_self] at hupd
      refine hupd ?_
      simp only [StreamKept, update_self]
      exact ⟨hall, hle, hexit, hpipe⟩
    · rename_i byte rest hpipe
      cases hs
      have hsplit := take_append_drop readAllChunk (byte :: rest)
      have htotal := congrArg length hbytes
      have hparts := congrArg length hsplit
      rw [hpipe] at hbytes
      simp only [length_append, hpipe] at htotal hparts
      refine h.drain_update _ _ hdrain (by rw [hpipe, length_drop]; omega) ?_
      simp only [StreamKept, update_self]
      by_cases hover : cfg.maxOutput < out.length + ((byte :: rest).take readAllChunk).length
      · rw [if_pos hover]
        exact ⟨rfl, by omega⟩
      · rw [if_neg hover]
        refine ⟨?_, by rw [length_append]; omega⟩
        rw [append_assoc out, hsplit]
        exact hbytes

lemma parentStep_inv (h : OutputInv cfg s) (hs : s.parentStep cfg = some t) : OutputInv cfg t := by
  have hup := h.parent
  unfold OutputState.parentStep at hs
  split at hs
  · split at hs <;> cases hs
    rename_i hout
    exact ⟨h.stream, hout, h.script, h.readOpen, h.pipe⟩
  · rename_i out hpc
    rw [ParentKept, hpc] at hup
    split at hs <;> cases hs
    rename_i herr
    exact ⟨h.stream, ⟨hup, herr⟩, h.script, h.readOpen, h.pipe⟩
  · rename_i out err hpc
    rw [ParentKept, hpc] at hup
    obtain ⟨hexit, rfl⟩ := of_guard hs
    exact ⟨h.stream, ⟨out, err, hup.1, hup.2, hexit, rfl⟩, h.script,
      fun hrunning => absurd hexit (by simpa using hrunning), h.pipe⟩
  · cases hs

lemma outputSystem_inv {C : OutputState → OutputAct → Prop}
    (hs : (outputSystem cfg).ReachableVia C s) : OutputInv cfg s := by
  refine hs.invariant (fun s hinit => ?_) fun s a t h _ hst => ?_
  · obtain rfl : s = { script := cfg.script } := hinit
    exact ⟨fun stream => ⟨rfl, Nat.zero_le _⟩, trivial, nofun, fun _ _ => rfl, fun _ => Nat.zero_le _⟩
  · cases a with
    | child => exact childStep_inv h hst
    | drain => exact drainStep_inv h hst
    | parent => exact parentStep_inv h hst

/-! ### Where a run can end -/

lemma drain_of_stuck (hstuck : s.drainStep cfg stream = none) :
    (∃ result, s.drain stream = .done result) ∨ s.pipe stream = [] ∧ s.exited = false := by
  unfold OutputState.drainStep at hstuck
  split at hstuck
  · exact .inl ⟨_, ‹_›⟩
  · split at hstuck
    · rename_i hpipe
      exact .inr ⟨hpipe, by simpa using hstuck⟩
    · cases hstuck

lemma returned_of_stuck (hexit : s.exited)
    (hstuck : (outputSystem cfg).Stuck s) : ∃ result, s.parent = .returned result := by
  have hdone : ∀ stream, ∃ result, s.drain stream = .done result := by
    intro stream
    rcases drain_of_stuck (hstuck (.drain stream)) with hdone | ⟨_, hrunning⟩
    · exact hdone
    · simp [hexit] at hrunning
  obtain ⟨out, hout⟩ := hdone .out
  obtain ⟨err, herr⟩ := hdone .err
  have hup : s.parentStep cfg = none := hstuck .parent
  cases hpc : s.parent with
  | readOut => simp [hpc, hout] at hup
  | joinErr => simp [hpc, herr] at hup
  | wait => simp [hpc, hexit] at hup
  | returned result => exact ⟨result, rfl⟩

lemma child_of_stuck (h : OutputInv cfg s) (hstuck : s.childStep cfg 1 = none) :
    s.exited ∨ ∃ stream, s.script.bytes stream ≠ [] ∧ (s.pipe stream).length = cfg.capacity := by
  unfold OutputState.childStep at hstuck
  split at hstuck
  · exact .inl ‹_›
  · rename_i hrunning
    split at hstuck
    · cases hstuck
    · cases hstuck
    · rename_i stream byte bytes rest hscr
      have hopen := h.readOpen (by simpa using hrunning) stream
      rw [if_neg (by simp [hopen]), ite_eq_right_iff] at hstuck
      refine .inr ⟨stream, by simp [hscr, bytes_cons_same], ?_⟩
      have hroom : ¬ (s.pipe stream).length + 1 ≤ cfg.capacity := by
        intro hroom
        have hsome := hstuck ⟨Nat.one_pos, by simp, hroom⟩
        cases hsome
      have hcap := h.pipe stream
      omega

lemma exited_of_stuck (h : OutputInv cfg s)
    (hbound : ∀ stream, (cfg.script.bytes stream).length ≤ cfg.maxOutput + 1 + cfg.capacity)
    (hstuck : (outputSystem cfg).Stuck s) : s.exited = true := by
  rcases child_of_stuck h (hstuck (.child 1)) with hexit | ⟨stream, hbytes, hfull⟩
  · exact hexit
  have hpos := cfg.capacity_pos
  have hkept := h.stream stream
  rcases drain_of_stuck (hstuck (.drain stream)) with ⟨result, hdone⟩ | ⟨hempty, _⟩
  · rw [StreamKept, hdone] at hkept
    cases result with
    | ok => exact hkept.2.2.1
    | error =>
      have hrest := length_pos_iff.mpr hbytes
      have htotal := hbound stream
      have hover := hkept.2
      omega
  · rw [hempty, length_nil] at hfull
    omega

lemma compose_expected (h : OutputInv cfg s) {out err : Except Error (List UInt8)} (hout : s.drain .out = .done out)
    (herr : s.drain .err = .done err) : OutputState.compose cfg.status out err = expectedOutput cfg := by
  have hkeptOut := h.stream .out
  have hkeptErr := h.stream .err
  rw [StreamKept, hout] at hkeptOut
  rw [StreamKept, herr] at hkeptErr
  unfold expectedOutput
  cases out with
  | error =>
    obtain ⟨rfl, hover⟩ := hkeptOut
    rw [if_neg (by omega)]
    rfl
  | ok =>
    obtain ⟨rfl, hle, _⟩ := hkeptOut
    cases err with
    | error =>
      obtain ⟨rfl, hover⟩ := hkeptErr
      rw [if_neg (by omega)]
      rfl
    | ok =>
      obtain ⟨rfl, hle', _⟩ := hkeptErr
      rw [if_pos ⟨hle, hle'⟩]
      rfl

lemma OutputInv.returned_expected (h : OutputInv cfg s)
    {result : Except Error Output} (hret : s.parent = .returned result) : OutputReturned cfg s := by
  have hup := h.parent
  rw [ParentKept, hret] at hup
  obtain ⟨out, err, hout, herr, _, rfl⟩ := hup
  rw [OutputReturned, hret, compose_expected h hout herr]

/-! ### A schedule that reads no more than it must -/

/-- The child writes single bytes, and only while every drain that still reads is up to date. -/
def Careful (s : OutputState) : OutputAct → Prop
  | .child k => k = 1 ∧ ∀ stream out, s.drain stream = .reading out → s.pipe stream = []
  | _ => True

/-- Under a careful schedule a drain gives up after exactly one byte too many. -/
def Exact (cfg : OutputConfig) (s : OutputState) (stream : Stream) : Prop :=
  match s.drain stream with
  | .reading _ => (s.pipe stream).length ≤ 1
  | .done (.ok _) => True
  | .done (.error _) =>
    (s.pipe stream).length + (s.script.bytes stream).length + cfg.maxOutput + 1 =
      (cfg.script.bytes stream).length

lemma Exact.of_same (h : Exact cfg s stream) (hdrain : t.drain stream = s.drain stream)
    (hpipe : ∀ out, s.drain stream = .reading out → (t.pipe stream).length ≤ 1)
    (hrest : (t.pipe stream).length + (t.script.bytes stream).length =
      (s.pipe stream).length + (s.script.bytes stream).length) : Exact cfg t stream := by
  unfold Exact at h ⊢
  rw [hdrain]
  split
  · exact hpipe _ ‹_›
  · trivial
  · rename_i hdone
    rw [hdone] at h
    rw [hrest]
    exact h

lemma childStep_exact (hinv : OutputInv cfg s) (h : ∀ stream, Exact cfg s stream)
    (hdrained : ∀ stream out, s.drain stream = .reading out → s.pipe stream = [])
    (hs : s.childStep cfg 1 = some t) (stream' : Stream) : Exact cfg t stream' := by
  unfold OutputState.childStep at hs
  split at hs
  · cases hs
  · rename_i hrunning
    have hempty : ∀ out, s.drain stream' = .reading out → (s.pipe stream').length ≤ 1 := by
      intro out hread
      simp [hdrained stream' out hread]
    split at hs
    · cases hs
      exact (h stream').of_same rfl hempty rfl
    · rename_i stream rest hscr
      cases hs
      refine (h stream').of_same rfl hempty ?_
      rw [hscr, bytes_cons_nil]
    · rename_i stream byte bytes rest hscr
      have hopen := hinv.readOpen (by simpa using hrunning) stream
      rw [if_neg (by simp [hopen]), ite_none_right_eq_some] at hs
      obtain ⟨_, hs⟩ := hs
      cases hs
      refine (h stream').of_same rfl ?_ ?_ <;> dsimp only <;> by_cases hsame : stream' = stream
      · subst hsame
        intro out hread
        simp [hdrained stream' out hread]
      · rw [update_of_ne hsame]
        exact hempty
      · subst hsame
        rw [hscr, bytes_cons_same, bytes_cons_same]
        simp
        omega
      · rw [hscr, bytes_cons_other (Ne.symm hsame), bytes_cons_other (Ne.symm hsame), update_of_ne hsame]

lemma drainStep_exact (hinv : OutputInv cfg s) (h : ∀ stream, Exact cfg s stream)
    (hs : s.drainStep cfg stream = some t) (stream' : Stream) : Exact cfg t stream' := by
  unfold OutputState.drainStep at hs
  split at hs
  · cases hs
  · rename_i out hdrain
    have hone := h stream
    rw [Exact, hdrain] at hone
    have hkept := hinv.stream stream
    rw [StreamKept, hdrain] at hkept
    obtain ⟨hbytes, hle⟩ := hkept
    by_cases hsame : stream' = stream
    · subst hsame
      split at hs
      · obtain ⟨-, rfl⟩ := of_guard hs
        simp [Exact]
      · rename_i byte rest hpipe
        cases hs
        have hrest : rest = [] := by
          rw [hpipe, length_cons] at hone
          exact length_eq_zero_iff.mp (by omega)
        subst hrest
        have htotal := congrArg length hbytes
        simp only [hpipe, length_append, length_singleton] at htotal
        simp only [Exact, update_self, readAllChunk]
        by_cases hover : cfg.maxOutput < out.length + 1
        · simp [hover]
          omega
        · simp [hover]
    · have hother := h stream'
      split at hs
      · obtain ⟨-, rfl⟩ := of_guard hs
        simpa [Exact, update_of_ne hsame] using hother
      · cases hs
        simpa [Exact, update_of_ne hsame] using hother

lemma outputSystem_exact (hs : (outputSystem cfg).ReachableVia Careful s) : ∀ stream, Exact cfg s stream := by
  induction hs with
  | start hinit =>
    rename_i s
    obtain rfl : s = { script := cfg.script } := hinit
    exact fun stream => Nat.zero_le 1
  | @next s t a hs hcareful hst ih =>
    have hinv := outputSystem_inv hs
    cases a with
    | child =>
      obtain ⟨rfl, hdrained⟩ := hcareful
      exact childStep_exact hinv ih hdrained hst
    | drain => exact drainStep_exact hinv ih hst
    | parent =>
      have hframe : t.drain = s.drain ∧ t.pipe = s.pipe ∧ t.script = s.script := by
        have hup : s.parentStep cfg = some t := hst
        unfold OutputState.parentStep at hup
        split at hup
        · split at hup <;> cases hup
          exact ⟨rfl, rfl, rfl⟩
        · split at hup <;> cases hup
          exact ⟨rfl, rfl, rfl⟩
        · obtain ⟨-, rfl⟩ := of_guard hup
          exact ⟨rfl, rfl, rfl⟩
        · cases hup
      intro stream
      have hpre := ih stream
      rw [Exact] at hpre ⊢
      rw [hframe.1, hframe.2.1, hframe.2.2]
      exact hpre

lemma childStep_one (k : Nat) (h : s.childStep cfg 1 = none) : s.childStep cfg k = none := by
  unfold OutputState.childStep at h ⊢
  split at h
  · rw [if_pos ‹_›]
  · split at h
    · cases h
    · cases h
    · rename_i hrunning _ stream byte bytes rest hscr
      rw [if_neg hrunning]
      split at h
      · cases h
      · rename_i hopen
        rw [if_neg hopen, if_neg]
        rintro ⟨hpos, hle, hroom⟩
        rw [if_pos ⟨Nat.one_pos, by omega, by omega⟩] at h
        cases h

lemma stuck_of_stuckVia (h : (outputSystem cfg).StuckVia Careful s) : (outputSystem cfg).Stuck s := by
  intro a
  cases a with
  | drain stream => exact h (.drain stream) trivial
  | parent => exact h .parent trivial
  | child k =>
    refine childStep_one k (h (.child 1) ⟨rfl, ?_⟩)
    intro stream out hread
    rcases drain_of_stuck (h (.drain stream) trivial) with ⟨result, hdone⟩ | ⟨hempty, _⟩
    · rw [hread] at hdone
      cases hdone
    · exact hempty

lemma not_returned_of_exact (h : OutputInv cfg s) (hexact : ∀ stream, Exact cfg s stream)
    (hover : cfg.maxOutput + 1 + cfg.capacity < (cfg.script.bytes stream).length) : ¬ OutputReturned cfg s := by
  intro hret
  have hup := h.parent
  rw [ParentKept, hret] at hup
  obtain ⟨out, err, hout, herr, hexit, _⟩ := hup
  have hdone : ∃ result, s.drain stream = .done result := by
    cases stream
    · exact ⟨out, hout⟩
    · exact ⟨err, herr⟩
  obtain ⟨result, hdone⟩ := hdone
  have hkept := h.stream stream
  have hbytes := hexact stream
  rw [StreamKept, hdone] at hkept
  rw [Exact, hdone] at hbytes
  cases result with
  | ok =>
    obtain ⟨rfl, hle, _⟩ := hkept
    omega
  | error =>
    have hroom := h.pipe stream
    rw [h.script hexit] at hbytes
    simp only [Script.bytes, flatMap_nil, length_nil] at hbytes
    simp only [Script.bytes] at hover
    omega

/-- **`output` finishes exactly up to a bound.** Every run of `output` is finite and ends with the
result it is to return iff no stream is longer than the limit, one more byte and the pipe. -/
theorem output_ends_iff (cfg : OutputConfig) : (outputSystem cfg).EndsIn (OutputReturned cfg) ↔
      ∀ stream, (cfg.script.bytes stream).length ≤ cfg.maxOutput + 1 + cfg.capacity := by
  constructor
  · intro hends stream
    by_contra hover
    have hstart : (outputSystem cfg).ReachableVia Careful { script := cfg.script } := .start rfl
    obtain ⟨s, hs, hstuck⟩ := hstart.exists_stuckVia outputStep_weight
    exact not_returned_of_exact (outputSystem_inv hs) (outputSystem_exact hs) (not_le.mp hover)
      (hends.last s hs.reachable (stuck_of_stuckVia hstuck))
  · intro hbound
    refine System.endsIn_of_measure (P := (outputSystem cfg).Reachable) (fun s hs => .start hs)
      (fun s a t h ht => ⟨h.next trivial ht, outputStep_weight s a t ht⟩) fun s hs hstuck => ?_
    have hinv := outputSystem_inv hs
    obtain ⟨result, hret⟩ := returned_of_stuck (exited_of_stuck hinv hbound hstuck) hstuck
    exact hinv.returned_expected hret

def blockedConfig : OutputConfig where
  script := [(.out, [1, 2, 3])]
  status := { exitCode := some 0 }
  capacity := 1
  capacity_pos := Nat.one_pos
  maxOutput := 0

/-- The first byte exceeds the limit and ends the drain, the second fills the pipe, and the child
blocks on the third while `output` waits for it. -/
theorem output_hangs_beyond_limit_and_pipe :
    ¬ ∀ cfg : OutputConfig, (outputSystem cfg).EndsIn (OutputReturned cfg) := by
  intro hall
  have hreach : (outputSystem blockedConfig).Reachable { script := blockedConfig.script } := .start rfl
  have hrun : (outputSystem blockedConfig).run { script := blockedConfig.script }
      [.child 1, .drain .out, .child 1, .parent] = some _ := rfl
  have hbar := System.Reachable.run hreach hrun
  have hone : ∀ (s : OutputState) (k : Nat), s.childStep blockedConfig 1 = none →
      (outputSystem blockedConfig).step s (.child k) = none := fun _ k => childStep_one k
  have hret := (hall blockedConfig).last _ hbar fun a => by
    cases a with
    | child k => exact hone _ k rfl
    | drain stream => cases stream <;> rfl
    | parent => rfl
  cases hret

end Cio.Process
