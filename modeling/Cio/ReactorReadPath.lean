import Cio.ReactorDesc
import Cio.TransitionSystem

/-! The stream read path on one open descriptor without deadline or token: `tcp_read_some` with its
readiness hint, `IoAwaiter` parking in the read slot, and `Reactor::dispatch` delivering
edge-triggered events. Every atomic access of the hint and of the slot is a step of its own, weak
compare-exchanges may fail spuriously, and `recv` may be interrupted.
The kernel is a receive queue with an end-of-stream flag; arrivals since the last harvest are
coalesced into one edge. -/

namespace Cio.Reactor

open Transition

/-- Where the task that calls `tcp_read_some` with a `k`-byte buffer stands. -/
inductive ReaderPc where
  | idle
  | check (k : Nat)
  | recv (k : Nat)
  | noteShort (bytes : List UInt8)
  | noteBlock (k : Nat)
  | load (k : Nat)
  | cas (k : Nat) (old : SlotWord Unit)
  | parked (k : Nat)
  | resume (k : Nat)
  deriving DecidableEq

/-- A parked task that was scheduled continues behind its `co_await`. -/
def ReaderPc.scheduled : ReaderPc → ReaderPc
  | parked k => resume k
  | pc => pc

def ReaderPc.isParked : ReaderPc → Bool
  | parked _ => true
  | _ => false

lemma ReaderPc.exists_parked {pc : ReaderPc} (h : pc.isParked) : ∃ k, pc = .parked k := by
  cases pc <;> simp_all [isParked]

/-- Where a delivery of one harvested edge stands inside `unblock_impl`. -/
inductive DispatchPc where
  | note
  | load
  | cas (old : SlotWord Unit)

/-- The socket, its read slot, the dispatchers and the reader. -/
structure ReadState where
  queue : List UInt8 := []
  eof : Bool := false
  edge : Bool := false
  readyHint : Bool := true
  slot : SlotWord Unit := .idle
  dispatchers : List DispatchPc := []
  reader : ReaderPc := .idle
  returned : List (Except Error (List UInt8)) := []

inductive ReadAct where
  | arrive (bytes : List UInt8)
  | fin
  | harvest
  | dispatch (i : Nat) (fault : Bool)
  | call (k : Nat)
  | reader (fault : Bool)

namespace ReadState

/-- `recv` on the kernel side: the bytes handed out and those left, or `EAGAIN`. -/
def recv (s : ReadState) (k : Nat) : Option (List UInt8 × List UInt8) :=
  if s.queue ≠ [] then some (s.queue.take k, s.queue.drop k)
  else if s.eof then some ([], [])
  else none

def finish (s : ReadState) (result : Except Error (List UInt8)) : ReadState :=
  { s with reader := .idle, returned := s.returned ++ [result] }

/-- The next atomic step of the reading task. A fault is `EINTR` for `recv` and a spurious failure
for a compare-exchange. -/
def readerStep (s : ReadState) (fault : Bool) : Option ReadState :=
  match s.reader with
  | .idle => none
  | .check k => some { s with reader := if s.readyHint then .recv k else .load k }
  | .recv k =>
    if fault then some { s with reader := .check k }
    else
      match s.recv k with
      | none => some { s with reader := .noteBlock k }
      | some (bytes, rest) =>
        if bytes.length < k then some { s with queue := rest, reader := .noteShort bytes }
        else some ({ s with queue := rest }.finish (.ok bytes))
  | .noteShort bytes => some ({ s with readyHint := false }.finish (.ok bytes))
  | .noteBlock k => some { s with readyHint := false, reader := .load k }
  | .load k => some { s with reader := .cas k s.slot }
  | .cas k .ready =>
    if s.slot = .ready ∧ fault = false then some { s with slot := .idle, reader := .resume k }
    else some { s with reader := .load k }
  | .cas _ (.waiter _) => some (s.finish (.error (.errc .broken)))
  | .cas k .idle =>
    if s.slot = .idle ∧ fault = false then
      some { s with slot := .waiter (), reader := .parked k }
    else some { s with reader := .load k }
  | .parked _ => none
  | .resume k => some { s with readyHint := true, reader := .check k }

/-- The next atomic step of delivery `i`. Taking the waiter out of the slot schedules its task. -/
def dispatchStep (s : ReadState) (i : Nat) (fault : Bool) : Option ReadState :=
  match s.dispatchers[i]? with
  | none => none
  | some .note => some { s with readyHint := true, dispatchers := s.dispatchers.set i .load }
  | some .load =>
    if s.slot = .ready then some { s with dispatchers := s.dispatchers.eraseIdx i }
    else some { s with dispatchers := s.dispatchers.set i (.cas s.slot) }
  | some (.cas old) =>
    if s.slot = old ∧ fault = false then
      some { s with
        slot := old.unblock
        dispatchers := s.dispatchers.eraseIdx i
        reader := if old.taken.isSome then s.reader.scheduled else s.reader }
    else some { s with dispatchers := s.dispatchers.set i .load }

end ReadState

/-- Arrivals raise the edge; a harvest turns it into a delivery in progress. No byte follows the
end of the stream. -/
def readStep (s : ReadState) : ReadAct → Option ReadState
  | .arrive bytes =>
    if bytes ≠ [] ∧ s.eof = false then
      some { s with queue := s.queue ++ bytes, edge := true }
    else none
  | .fin => if s.eof = false then some { s with eof := true, edge := true } else none
  | .harvest =>
    if s.edge then some { s with edge := false, dispatchers := s.dispatchers ++ [.note] } else none
  | .dispatch i fault => s.dispatchStep i fault
  | .call k => if s.reader = .idle ∧ 0 < k then some { s with reader := .check k } else none
  | .reader fault => s.readerStep fault

/-- A freshly attached descriptor: what the kernel already holds is announced by an edge. -/
def readSystem : System ReadState ReadAct where
  init s := s.readyHint = true ∧ s.slot = .idle ∧ s.dispatchers = [] ∧ s.reader = .idle ∧
    s.returned = [] ∧ (s.queue ≠ [] ∨ s.eof = true → s.edge = true)
  step := readStep

/-- The lost wakeup: the task is parked, the kernel holds something to read, and nothing is left
that would tell it. -/
def Stranded (s : ReadState) : Prop :=
  s.slot = .waiter () ∧ s.reader.isParked = true ∧ (s.queue ≠ [] ∨ s.eof = true) ∧
    s.edge = false ∧ s.dispatchers = []

instance : DecidablePred Stranded := fun _ => inferInstanceAs (Decidable (_ ∧ _))

/-- A call made after the end of the stream arrived still has something that leads it to `recv`:
the hint, a recorded edge, or one on its way. -/
def CallSeesEnd (s : ReadState) : ReadAct → Prop
  | .call _ => s.eof = true →
      s.readyHint = true ∨ s.slot = .ready ∨ s.edge = true ∨ s.dispatchers ≠ []
  | _ => True

instance (s : ReadState) (a : ReadAct) : Decidable (CallSeesEnd s a) :=
  match a with
  | .call _ => inferInstanceAs (Decidable (_ → _))
  | .arrive _ | .fin | .harvest | .dispatch _ _ | .reader _ => .isTrue trivial

/-- The kernel holds nothing, or an edge is pending, on its way, or recorded. -/
def Covered (s : ReadState) : Prop :=
  (s.queue = [] ∧ s.eof = false) ∨ s.edge = true ∨ s.dispatchers ≠ [] ∨ s.slot = .ready

/-- The task reaches the slot before it calls `recv` again. -/
def BoundForSlot (s : ReadState) : Prop :=
  match s.reader with
  | .noteBlock _ | .load _ | .cas _ _ | .parked _ => True
  | .check _ => s.readyHint = false
  | _ => False

def BetweenReads (s : ReadState) : Prop :=
  match s.reader with
  | .noteShort _ => True
  | .idle => s.readyHint = false
  | _ => False

structure ReadShape (s : ReadState) : Prop where
  slot_parked : s.slot = .waiter () ↔ s.reader.isParked = true
  recv_hint : ∀ k, s.reader = .recv k → s.readyHint = true

structure ReadCovered (s : ReadState) : Prop where
  slot : BoundForSlot s → Covered s
  rest : BetweenReads s → s.eof = true ∨ Covered s

variable {s t : ReadState} {fault : Bool}

attribute [local simp] ReaderPc.isParked readSystem Covered BoundForSlot BetweenReads ReadState.readerStep

lemma readerStep_shape (h : ReadShape s) (hs : s.readerStep fault = some t) : ReadShape t := by
  obtain ⟨hslot, hhint⟩ := h
  cases hpc : s.reader with
  | idle | parked => simp [hpc] at hs
  | check =>
    simp only [ReadState.readerStep, hpc, Option.some.injEq] at hs
    subst hs
    cases hready : s.readyHint <;> constructor <;> simp_all [ReaderPc.isParked]
  | recv =>
    simp only [ReadState.readerStep, hpc] at hs
    split at hs
    · cases hs
      constructor <;> simp_all [ReaderPc.isParked]
    · split at hs
      · cases hs
        constructor <;> simp_all [ReaderPc.isParked]
      · split at hs <;> cases hs <;> constructor <;> simp_all [ReaderPc.isParked, ReadState.finish]
  | noteShort | noteBlock | load | resume =>
    simp only [ReadState.readerStep, hpc, Option.some.injEq] at hs
    subst hs
    constructor <;> simp_all [ReaderPc.isParked, ReadState.finish]
  | cas k old =>
    cases old <;> simp only [ReadState.readerStep, hpc] at hs
    case waiter =>
      cases hs
      constructor <;> simp_all [ReaderPc.isParked, ReadState.finish]
    all_goals split at hs <;> cases hs <;> constructor <;> simp_all [ReaderPc.isParked]

lemma dispatchStep_shape {i : Nat} (h : ReadShape s) (hs : s.dispatchStep i fault = some t) : ReadShape t := by
  obtain ⟨hslot, hhint⟩ := h
  unfold ReadState.dispatchStep at hs
  split at hs
  · cases hs
  · cases hs
    exact ⟨hslot, fun _ _ => rfl⟩
  · split at hs <;> cases hs <;> exact ⟨hslot, hhint⟩
  · rename_i old _
    split at hs
    · cases hs
      cases old with
      | idle | ready => constructor <;> simp_all [SlotWord.unblock, SlotWord.taken]
      | waiter =>
        cases hpc : s.reader <;> constructor <;>
          simp_all [SlotWord.unblock, SlotWord.taken, ReaderPc.isParked, ReaderPc.scheduled]
    · cases hs
      exact ⟨hslot, hhint⟩

lemma readStep_shape {a : ReadAct} (h : ReadShape s) (hs : readStep s a = some t) : ReadShape t := by
  cases a with
  | arrive | fin | harvest =>
    obtain ⟨-, rfl⟩ := of_guard hs
    exact ⟨h.slot_parked, h.recv_hint⟩
  | dispatch => exact dispatchStep_shape h hs
  | call k =>
    obtain ⟨⟨hidle, _⟩, rfl⟩ := of_guard hs
    refine ⟨?_, nofun⟩
    simpa [hidle] using h.slot_parked
  | reader => exact readerStep_shape h hs

lemma readSystem_shape {C : ReadState → ReadAct → Prop} {s : ReadState}
    (hs : readSystem.ReachableVia C s) : ReadShape s := by
  refine hs.invariant (P := ReadShape) (fun s hinit => ?_) fun s a t h _ hst => readStep_shape h hst
  obtain ⟨_, hslot, _, hreader, _⟩ := hinit
  constructor <;> simp [hslot, hreader]

variable {k : Nat}

lemma recv_short {s : ReadState} {bytes rest : List UInt8} (h : s.recv k = some (bytes, rest))
    (hshort : bytes.length < k) : rest = [] := by
  unfold ReadState.recv at h
  split_ifs at h
  · cases h
    rw [List.drop_eq_nil_iff]
    rw [List.length_take] at hshort
    omega
  · cases h
    rfl

lemma recv_eagain {s : ReadState} (h : s.recv k = none) : s.queue = [] ∧ s.eof = false := by
  unfold ReadState.recv at h
  split_ifs at h with hqueue heof
  exact ⟨not_not.mp hqueue, by simpa using heof⟩

lemma readerStep_covered (hshape : ReadShape s)
    (h : ReadCovered s) (hs : s.readerStep fault = some t) : ReadCovered t := by
  obtain ⟨hslot, hrest⟩ := h
  cases hpc : s.reader with
  | idle | parked => simp [hpc] at hs
  | check =>
    simp only [ReadState.readerStep, hpc, Option.some.injEq] at hs
    subst hs
    cases hready : s.readyHint <;> constructor <;>
      simp_all [BoundForSlot, BetweenReads, Covered]
  | recv k =>
    have hhint := hshape.recv_hint k hpc
    simp only [ReadState.readerStep, hpc] at hs
    split at hs
    · cases hs
      constructor <;> simp_all [BoundForSlot, BetweenReads]
    · split at hs
      · rename_i hagain
        cases hs
        exact ⟨fun _ => .inl (recv_eagain hagain), False.elim⟩
      · rename_i bytes rest hrecv
        split at hs
        · rename_i hshort
          cases hs
          refine ⟨False.elim, fun _ => ?_⟩
          by_cases heof : s.eof
          · exact .inl heof
          · exact .inr (.inl ⟨recv_short hrecv hshort, by simpa using heof⟩)
        · cases hs
          constructor <;> simp_all [BoundForSlot, BetweenReads, ReadState.finish]
  | noteShort | noteBlock | load | resume =>
    simp only [ReadState.readerStep, hpc, Option.some.injEq] at hs
    subst hs
    constructor <;> simp_all [BoundForSlot, BetweenReads, Covered, ReadState.finish]
  | cas k old =>
    have hcover : Covered s := hslot (by simp [hpc])
    cases old <;> simp only [ReadState.readerStep, hpc] at hs
    case waiter =>
      cases hs
      exact ⟨False.elim, fun _ => .inr hcover⟩
    case ready =>
      split at hs <;> cases hs
      · exact ⟨False.elim, False.elim⟩
      · exact ⟨fun _ => hcover, False.elim⟩
    case idle =>
      split at hs <;> cases hs
      · rename_i hcas
        refine ⟨fun _ => ?_, False.elim⟩
        simpa [hcas.1] using hcover
      · exact ⟨fun _ => hcover, False.elim⟩

/-- A delivery that is not finished covers every state; one that finishes has recorded the edge or
has scheduled the parked task. -/
lemma dispatchStep_covered {i : Nat} (hshape : ReadShape s) (hs : s.dispatchStep i fault = some t) : ReadCovered t := by
  unfold ReadState.dispatchStep at hs
  split at hs
  · cases hs
  all_goals
    rename_i hget
    have hne : s.dispatchers ≠ [] := by
      rintro hnil
      simp [hnil] at hget
  · cases hs
    constructor <;> simp [hne]
  · split at hs <;> cases hs <;> constructor <;> simp [*]
  · rename_i old
    split at hs
    · rename_i hcas
      cases hs
      cases old with
      | idle | ready => constructor <;> simp [SlotWord.unblock]
      | waiter =>
        obtain ⟨k, hpc⟩ := ReaderPc.exists_parked (hshape.slot_parked.mp hcas.1)
        simp only [hpc]
        exact ⟨False.elim, False.elim⟩
    · cases hs
      constructor <;> simp [hne]

lemma readStep_covered {a : ReadAct} (hshape : ReadShape s) (h : ReadCovered s) (hcall : CallSeesEnd s a)
    (hs : readStep s a = some t) : ReadCovered t := by
  cases a with
  | arrive | fin | harvest =>
    obtain ⟨-, rfl⟩ := of_guard hs
    constructor <;> simp
  | dispatch => exact dispatchStep_covered hshape hs
  | call =>
    obtain ⟨⟨hidle, _⟩, rfl⟩ := of_guard hs
    refine ⟨fun hhint => ?_, False.elim⟩
    have hlow : s.readyHint = false := hhint
    rcases h.rest (by simpa [hidle] using hlow) with heof | hcover
    · rcases hcall heof with hready | hslot | hedge | hdsp
      · simp [hlow] at hready
      · exact .inr (.inr (.inr hslot))
      · exact .inr (.inl hedge)
      · exact .inr (.inr (.inl hdsp))
    · exact hcover
  | reader => exact readerStep_covered hshape h hs

lemma readSystem_covered {s : ReadState} (hs : readSystem.ReachableVia CallSeesEnd s) : ReadCovered s := by
  suffices h : ReadShape s ∧ ReadCovered s from h.2
  refine hs.invariant (P := fun s => ReadShape s ∧ ReadCovered s) (fun s hinit => ?_)
    fun s a t h hcall hst => ⟨readStep_shape h.1 hst, readStep_covered h.1 h.2 hcall hst⟩
  refine ⟨readSystem_shape (C := CallSeesEnd) (.start hinit), ?_⟩
  obtain ⟨hhint, _, _, hreader, _⟩ := hinit
  constructor <;> simp [hreader, hhint]

lemma not_stranded_of_covered {s : ReadState} (h : ReadCovered s) : ¬ Stranded s := by
  rintro ⟨hslot, hpark, hkernel, hedge, hdsp⟩
  obtain ⟨k, hpc⟩ := ReaderPc.exists_parked hpark
  have hcover : Covered s := h.slot (by simp [hpc])
  rcases hcover with ⟨hqueue, heof⟩ | hpend | hact | hready
  · simp [hqueue, heof] at hkernel
  · simp [hedge] at hpend
  · exact hact hdsp
  · simp [hslot] at hready

/-- A call that does not see the end of the stream parks for good: three steps of the task alone. -/
lemma stranded_of_blind_call {s : ReadState} (hshape : ReadShape s)
    (hidle : s.reader = .idle) (hk : 0 < k) (hblind : ¬ CallSeesEnd s (.call k)) :
    ∃ t, readSystem.run s [.call k, .reader false, .reader false, .reader false] = some t ∧
      Stranded t := by
  simp only [CallSeesEnd, not_forall, not_or, Bool.not_eq_true] at hblind
  obtain ⟨heof, hhint, hslot, hedge, hdsp⟩ := hblind
  have hfree : s.slot = .idle := by
    have hnot := hshape.slot_parked
    cases hword : s.slot with
    | idle => rfl
    | ready => exact absurd hword hslot
    | waiter => simp [hword, hidle] at hnot
  refine ⟨{ s with slot := .waiter (), reader := .parked k }, ?_, rfl, rfl, .inr heof, hedge, not_not.mp hdsp⟩
  simp [System.run, readStep, hidle, hk, hhint, hfree]

/-- **Lost readiness on the read path, exactly.** In every interleaving whose calls all see the end
of the stream, no reader is stranded; and from every reachable state a call that does not see it
strands its reader. -/
theorem no_reader_stranded_of_calls_see_end (s : ReadState) : (readSystem.ReachableVia CallSeesEnd s → ¬ Stranded s) ∧
    ∀ k, readSystem.Reachable s → s.reader = .idle → 0 < k → ¬ CallSeesEnd s (.call k) →
      ∃ schedule t, readSystem.run s (.call k :: schedule) = some t ∧ Stranded t := by
  refine ⟨fun hs => not_stranded_of_covered (readSystem_covered hs), ?_⟩
  intro k hs hidle hk hblind
  exact ⟨_, stranded_of_blind_call (readSystem_shape hs) hidle hk hblind⟩

/-- Two bytes are read, the FIN arrives with an edge of its own and the next two calls read it. The
call after those no longer sees the end. -/
theorem no_reader_stranded_reading_to_end :
    ∃ s, readSystem.ReachableVia CallSeesEnd s ∧ s.returned = [.ok [1, 2], .ok [], .ok []] ∧
      ¬ Stranded s ∧
      ∃ schedule t, readSystem.run s (.call 4 :: schedule) = some t ∧ Stranded t := by
  obtain ⟨s, hs, hret, hidle, hblind⟩ := readSystem.reachableVia_of_run CallSeesEnd {}
    [.arrive [1, 2], .harvest, .dispatch 0 false, .dispatch 0 false, .dispatch 0 false,
     .call 4, .reader false, .reader false, .reader false,
     .fin, .harvest, .dispatch 0 false, .dispatch 0 false,
     .call 4, .reader false, .reader false, .reader false,
     .call 4, .reader false, .reader false, .reader false, .reader false, .reader false,
     .reader false, .reader false]
    (fun s => s.returned = [.ok [1, 2], .ok [], .ok []] ∧ s.reader = .idle ∧
      ¬ CallSeesEnd s (.call 4)) (by simp) (by decide)
  have hreach : readSystem.Reachable s := hs.reachable
  exact ⟨s, hs, hret, (no_reader_stranded_of_calls_see_end s).1 hs,
    (no_reader_stranded_of_calls_see_end s).2 4 hreach hidle (by decide) hblind⟩

/-- Two bytes and the FIN arrive between two harvests while a four-byte read is parked. The one edge
wakes it, the short read lowers the hint, and the next read parks although the end is pending. -/
theorem reader_stranded_by_coalesced_fin : ¬ ∀ s, readSystem.Reachable s → ¬ Stranded s := by
  intro hsafe
  obtain ⟨t, ht, hbad⟩ := System.reachable_of_run readSystem {}
    [.call 4, .reader false, .reader false, .reader false, .reader false, .reader false,
     .arrive [1, 2], .fin, .harvest,
     .dispatch 0 false, .dispatch 0 false, .dispatch 0 false,
     .reader false, .reader false, .reader false, .reader false,
     .call 4, .reader false, .reader false, .reader false]
    (fun s => Stranded s) (by simp) (by decide)
  exact hsafe t ht (hbad)

end Cio.Reactor
