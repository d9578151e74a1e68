import Cio.BufferWindow
import Cio.FifoGate
import Cio.TransitionSystem

/-! One reader task and one writer task on a TLS connection. Both run `pump`, so both may flush and
both may fill, and all of them stage ciphertext in the one `transfer` buffer: `flush_network` between
`BIO_read` and the last `send`, `fill_network` between `recv` and `BIO_write`. The operation gate of
each socket direction is a first-in first-out queue whose head owns the direction.
OpenSSL and the network choose every byte and every count. -/

namespace Cio.Tls

open Transition Buffer Function List

def transferSize : Nat := 16 * 1024

inductive TlsTask where
  | reader
  | writer
  deriving DecidableEq

/-- What `pump` does after a flush: return to the caller, attempt again, or fill. -/
inductive AfterFlush where
  | coReturn | again | fill
  deriving DecidableEq

/-- Where a task stands in `pump`. In `writing` it has staged the bytes from `offset` up to `length`,
in `received` the first `length` bytes of the buffer. -/
inductive TransferPc where
  | idle
  | attempt
  | flush (next : AfterFlush)
  | writing (next : AfterFlush) (offset length : Nat)
  | fill
  | reading
  | received (length : Nat)
  deriving DecidableEq

/-- The transfer buffer, its tasks and the bytes each way. -/
structure TransferState where
  transfer : Nat → UInt8 := fun _ => 0
  pc : TlsTask → TransferPc := fun _ => .idle
  writeOps : List TlsTask := []
  readOps : List TlsTask := []
  produced : List UInt8 := []
  sent : List UInt8 := []
  received : List UInt8 := []
  consumed : List UInt8 := []

inductive TransferAct where
  | call (task : TlsTask)
  | attempt (task : TlsTask) (next : Option AfterFlush)
  | flushed (task : TlsTask)
  | bioRead (task : TlsTask) (bytes : List UInt8)
  | send (task : TlsTask) (count : Nat)
  | socketRead (task : TlsTask)
  | recv (task : TlsTask) (bytes : List UInt8)
  | bioWrite (task : TlsTask)

namespace TransferState

def setPc (s : TransferState) (task : TlsTask) (pc : TransferPc) : TransferState :=
  { s with pc := update s.pc task pc }

end TransferState

def fits (bytes : List UInt8) : Bool := 0 < bytes.length && bytes.length ≤ transferSize

def transferStep (s : TransferState) : TransferAct → Option TransferState
  | .call task => if s.pc task = .idle then some (s.setPc task .attempt) else none
  | .attempt task next =>
    -- an attempt that fails, or reports the end of the stream, returns without a flush
    if s.pc task = .attempt then some (s.setPc task ((next.map .flush).getD .idle)) else none
  | .flushed task =>
    -- `BIO_pending` is zero
    match s.pc task with
    | .flush .coReturn => some (s.setPc task .idle)
    | .flush .again => some (s.setPc task .attempt)
    | .flush .fill => some (s.setPc task .fill)
    | _ => none
  | .bioRead task bytes =>
    match s.pc task with
    | .flush next =>
      if fits bytes then
        some { s.setPc task (.writing next 0 bytes.length) with
          transfer := overwrite s.transfer bytes
          writeOps := s.writeOps ++ [task]
          produced := s.produced ++ bytes }
      else none
    | _ => none
  | .send task count =>
    match s.pc task with
    | .writing next offset length =>
      if s.writeOps.head? = some task ∧ 0 < count ∧ offset + count ≤ length then
        let s' := { s with sent := s.sent ++ window s.transfer offset (offset + count) }
        if offset + count < length then some (s'.setPc task (.writing next (offset + count) length))
        else some { s'.setPc task (.flush next) with writeOps := s.writeOps.tail }
      else none
    | _ => none
  | .socketRead task =>
    if s.pc task = .fill then some { s.setPc task .reading with readOps := s.readOps ++ [task] }
    else none
  | .recv task bytes =>
    if s.pc task = .reading ∧ s.readOps.head? = some task ∧ fits bytes then
      some { s.setPc task (.received bytes.length) with
        transfer := overwrite s.transfer bytes
        received := s.received ++ bytes }
    else none
  | .bioWrite task =>
    match s.pc task with
    | .received length =>
      some { s.setPc task .attempt with
        readOps := s.readOps.tail
        consumed := s.consumed ++ window s.transfer 0 length }
    | _ => none

def transferSystem : System TransferState TransferAct where
  init s := s = {}
  step := transferStep

/-- The socket gets a prefix of what OpenSSL produced, and OpenSSL gets what the socket received, all
of it once no received batch is on its way. -/
def TransferFaithful (s : TransferState) : Prop :=
  s.sent <+: s.produced ∧ s.consumed <+: s.received ∧
    ((∀ task length, s.pc task ≠ .received length) → s.consumed = s.received)

def TransferPc.staged : TransferPc → Option (Nat × Nat)
  | writing _ offset length => some (offset, length)
  | received length => some (0, length)
  | _ => none

def TransferPc.SameStaged (pc : TransferPc) (old new : Nat → UInt8) : Prop :=
  ∀ range ∈ pc.staged, window new range.1 range.2 = window old range.1 range.2

instance (pc : TransferPc) (old new : Nat → UInt8) : Decidable (pc.SameStaged old new) :=
  inferInstanceAs (Decidable (∀ range ∈ pc.staged, _))

/-- Storing `bytes` changes nothing that another task has staged. -/
def KeepsStaged (s : TransferState) (task : TlsTask) (bytes : List UInt8) : Prop :=
  ∀ other, other ≠ task → (s.pc other).SameStaged s.transfer (overwrite s.transfer bytes)

instance (s : TransferState) (task : TlsTask) (bytes : List UInt8) : Decidable (KeepsStaged s task bytes) :=
  decidable_of_iff
    ((.reader ≠ task → (s.pc .reader).SameStaged s.transfer (overwrite s.transfer bytes)) ∧
      (.writer ≠ task → (s.pc .writer).SameStaged s.transfer (overwrite s.transfer bytes)))
    ⟨fun h other => match other with | .reader => h.1 | .writer => h.2, fun h => ⟨h _, h _⟩⟩

/-- The condition on the two steps that store into the buffer. -/
def StagedKept (s : TransferState) : TransferAct → Prop
  | .bioRead task bytes => KeepsStaged s task bytes
  | .recv task bytes => KeepsStaged s task bytes
  | _ => True

instance (s : TransferState) (a : TransferAct) : Decidable (StagedKept s a) :=
  match a with
  | .bioRead task bytes => inferInstanceAs (Decidable (KeepsStaged s task bytes))
  | .recv task bytes => inferInstanceAs (Decidable (KeepsStaged s task bytes))
  | .call _ | .attempt _ _ | .flushed _ | .send _ _ | .socketRead _ | .bioWrite _ => .isTrue trivial

namespace TransferPc

def out (buf : Nat → UInt8) : TransferPc → List UInt8
  | writing _ offset length => window buf offset length
  | _ => []

def inward (buf : Nat → UInt8) : TransferPc → List UInt8
  | received length => window buf 0 length
  | _ => []

def inWrite : TransferPc → Bool
  | writing _ _ _ => true
  | _ => false

def inRead : TransferPc → Bool
  | reading => true
  | received _ => true
  | _ => false

def hasReceived : TransferPc → Bool
  | received _ => true
  | _ => false

end TransferPc

/-- Both gates hand on what is staged in order; a batch on its way in belongs to the gate's owner. -/
structure TransferInv (s : TransferState) : Prop where
  out : Gate.Fifo TransferPc.inWrite (TransferPc.out s.transfer) s.pc s.writeOps s.sent s.produced
  inward : Gate.Fifo TransferPc.inRead (TransferPc.inward s.transfer) s.pc s.readOps s.consumed s.received
  owner : ∀ task, (s.pc task).hasReceived = true → s.readOps.head? = some task

variable {s : TransferState} {task : TlsTask} {bytes : List UInt8} {length : Nat} {next : AfterFlush}

lemma KeepsStaged.out {other : TlsTask} (h : KeepsStaged s task bytes) (hne : other ≠ task) :
    (s.pc other).out (overwrite s.transfer bytes) = (s.pc other).out s.transfer := by
  have hwin := h other hne
  cases hpc : s.pc other with
  | writing next offset length =>
    rw [hpc] at hwin
    exact hwin (offset, length) rfl
  | _ => rfl

lemma KeepsStaged.inward {other : TlsTask} (h : KeepsStaged s task bytes) (hne : other ≠ task) :
    (s.pc other).inward (overwrite s.transfer bytes) = (s.pc other).inward s.transfer := by
  have hwin := h other hne
  cases hpc : s.pc other with
  | received length =>
    rw [hpc] at hwin
    exact hwin (0, length) rfl
  | _ => rfl

lemma owner_update {new : TransferPc} {readOps : List TlsTask}
    (h : ∀ other, (s.pc other).hasReceived → s.readOps.head? = some other)
    (hself : new.hasReceived → readOps.head? = some task)
    (hother : ∀ other, other ≠ task → s.readOps.head? = some other → readOps.head? = some other) (other : TlsTask)
    (hrcv : (update s.pc task new other).hasReceived) : readOps.head? = some other := by
  by_cases hsame : other = task
  · subst hsame
    rw [update_self] at hrcv
    exact hself hrcv
  · rw [update_of_ne hsame] at hrcv
    exact hother other hsame (h other hrcv)

lemma TransferInv.setPc (h : TransferInv s) {new : TransferPc} (hwrite : (s.pc task).inWrite = false)
    (hread : (s.pc task).inRead = false) (hwrite' : new.inWrite = false) (hread' : new.inRead = false)
    (hrcv : new.hasReceived = false) : TransferInv (s.setPc task new) :=
  ⟨h.out.move task new hwrite hwrite', h.inward.move task new hread hread',
    owner_update h.owner (by simp [hrcv]) fun _ _ => id⟩

attribute [local simp] TransferPc.inWrite TransferPc.inRead TransferPc.hasReceived

section

variable (h : TransferInv s)

include h

lemma bioRead_inv (hpc : s.pc task = .flush next) (hkept : KeepsStaged s task bytes) :
    TransferInv { s.setPc task (.writing next 0 bytes.length) with
      transfer := overwrite s.transfer bytes
      writeOps := s.writeOps ++ [task]
      produced := s.produced ++ bytes } := by
  have hout := h.out.restage (TransferPc.out (overwrite s.transfer bytes)) fun other hmem =>
    hkept.out fun hsame => by simpa [hsame, hpc] using (h.out.mem other).mp hmem
  have hinward := h.inward.restage (TransferPc.inward (overwrite s.transfer bytes)) fun other hmem =>
    hkept.inward fun hsame => by simpa [hsame, hpc] using (h.inward.mem other).mp hmem
  refine ⟨?_, hinward.move task _ (by simp [hpc]) rfl, owner_update h.owner nofun fun _ _ => id⟩
  have henter := hout.enter task (.writing next 0 bytes.length) (by simp [hpc]) rfl
  rw [TransferPc.out, window_overwrite] at henter
  exact henter

lemma recv_inv (hpc : s.pc task = .reading) (hhead : s.readOps.head? = some task) (hkept : KeepsStaged s task bytes) :
    TransferInv { s.setPc task (.received bytes.length) with
      transfer := overwrite s.transfer bytes
      received := s.received ++ bytes } := by
  have hout := h.out.restage (TransferPc.out (overwrite s.transfer bytes)) fun other hmem =>
    hkept.out fun hsame => by simpa [hsame, hpc] using (h.out.mem other).mp hmem
  have hempty : ∀ buf, ∀ other, (s.pc other).inward buf = [] := by
    intro buf other
    cases hother : s.pc other with
    | received =>
      have hsame := h.owner other (by simp [hother])
      rw [hhead] at hsame
      cases hsame
      rw [hpc] at hother
      cases hother
    | _ => rfl
  have hinward := h.inward.restage (TransferPc.inward (overwrite s.transfer bytes)) fun other _ => by
    rw [hempty, hempty]
  refine ⟨hout.move task _ (by simp [hpc]) rfl, ?_, owner_update h.owner (fun _ => hhead) fun _ _ => id⟩
  have hload := hinward.load task (.received bytes.length) hhead rfl fun other _ =>
    hempty _ other
  rw [TransferPc.inward, window_overwrite] at hload
  exact hload

lemma send_inv {offset count : Nat} (hpc : s.pc task = .writing next offset length)
    (hhead : s.writeOps.head? = some task) (hmore : offset + count < length) :
    TransferInv ({ s with sent := s.sent ++ window s.transfer offset (offset + count) }.setPc task
      (.writing next (offset + count) length)) := by
  have hsplit := window_append s.transfer (Nat.le_add_right offset count) hmore.le
  refine ⟨h.out.advance task _ _ hhead rfl ?_, h.inward.move task _ (by simp [hpc]) rfl,
    owner_update h.owner nofun fun _ _ => id⟩
  rw [hpc]
  exact hsplit.symm

lemma send_last_inv {offset : Nat} (hpc : s.pc task = .writing next offset length)
    (hhead : s.writeOps.head? = some task) :
    TransferInv { { s with sent := s.sent ++ window s.transfer offset length }.setPc task
      (.flush next) with writeOps := s.writeOps.tail } := by
  have hleave := h.out.leave task (.flush next) hhead rfl
  rw [hpc] at hleave
  exact ⟨hleave, h.inward.move task _ (by simp [hpc]) rfl, owner_update h.owner nofun fun _ _ => id⟩

lemma bioWrite_inv (hpc : s.pc task = .received length) : TransferInv { s.setPc task .attempt with
      readOps := s.readOps.tail
      consumed := s.consumed ++ window s.transfer 0 length } := by
  have hhead := h.owner task (by simp [hpc])
  have hleave := h.inward.leave task .attempt hhead rfl
  rw [hpc] at hleave
  refine ⟨h.out.move task _ (by simp [hpc]) rfl, hleave, owner_update h.owner nofun fun other hne hother => ?_⟩
  rw [hhead] at hother
  exact absurd (Option.some.inj hother).symm hne

lemma socketRead_inv (hpc : s.pc task = .fill) :
    TransferInv { s.setPc task .reading with readOps := s.readOps ++ [task] } := by
  have henter := h.inward.enter task .reading (by simp [hpc]) rfl
  have hnone : TransferPc.inward s.transfer .reading = [] := rfl
  rw [hnone, append_nil] at henter
  refine ⟨h.out.move task _ (by simp [hpc]) rfl, henter, owner_update h.owner nofun fun other _ hother => ?_⟩
  rw [head?_append, hother]
  rfl

lemma transferStep_inv {t : TransferState} {a : TransferAct}
    (hkept : StagedKept s a) (hs : transferStep s a = some t) : TransferInv t := by
  cases a with simp only [transferStep] at hs
  | call =>
    obtain ⟨hpc, rfl⟩ := of_guard hs
    exact h.setPc (by simp [hpc]) (by simp [hpc]) rfl rfl rfl
  | attempt task next =>
    obtain ⟨hpc, rfl⟩ := of_guard hs
    cases next <;>
      exact h.setPc (by simp [hpc]) (by simp [hpc]) rfl rfl rfl
  | flushed =>
    split at hs <;> cases hs <;>
      exact h.setPc (by simp [*]) (by simp [*]) rfl rfl rfl
  | bioRead task bytes =>
    split at hs
    · rename_i next hpc
      obtain ⟨-, rfl⟩ := of_guard hs
      exact bioRead_inv h hpc hkept
    · cases hs
  | send task count =>
    split at hs
    · rename_i next offset length hpc
      obtain ⟨⟨hhead, _, hle⟩, hs⟩ := Option.ite_none_right_eq_some.mp hs
      split at hs
      · rename_i hmore
        cases hs
        exact send_inv h hpc hhead hmore
      · cases hs
        obtain rfl : offset + count = length := by omega
        exact send_last_inv h hpc hhead
    · cases hs
  | socketRead =>
    obtain ⟨hpc, rfl⟩ := of_guard hs
    exact socketRead_inv h hpc
  | recv =>
    obtain ⟨⟨hpc, hhead, _⟩, rfl⟩ := of_guard hs
    exact recv_inv h hpc hhead hkept
  | bioWrite task =>
    split at hs
    · rename_i length hpc
      cases hs
      exact bioWrite_inv h hpc
    · cases hs

lemma TransferInv.faithful : TransferFaithful s := by
  refine ⟨h.out.isPrefix, h.inward.isPrefix, fun hnone => ?_⟩
  have hempty : ∀ task ∈ s.readOps, (s.pc task).inward s.transfer = [] := by
    intro task _
    cases hpc : s.pc task with
    | received length => exact absurd hpc (hnone task length)
    | _ => rfl
  rw [← h.inward.bytes, flatMap_eq_nil_iff.mpr hempty, append_nil]

end

/-- **The shared buffer is safe while nobody overwrites what another task has staged.** In every
interleaving whose stores into `transfer` keep the bytes the other task has on their way, the socket
gets a prefix of what OpenSSL produced and OpenSSL gets what the socket received. -/
theorem transfer_faithful_of_staged_kept (s : TransferState)
    (hs : transferSystem.ReachableVia StagedKept s) : TransferFaithful s := by
  refine TransferInv.faithful (hs.invariant (fun s hinit => ?_)
    fun s a t h hkept hstep => transferStep_inv h hkept hstep)
  obtain rfl : s = {} := hinit
  refine ⟨⟨nodup_nil, fun task => ?_, rfl⟩, ⟨nodup_nil, fun task => ?_, rfl⟩, nofun⟩ <;>
    simp

theorem transfer_faithful_one_after_the_other :
    ∃ s, transferSystem.ReachableVia StagedKept s ∧ s.sent = [1, 2] ∧ s.consumed = [8, 9] ∧
      TransferFaithful s := by
  obtain ⟨s, hs, hsent, hconsumed⟩ := transferSystem.reachableVia_of_run StagedKept {}
    [.call .writer, .attempt .writer (some .coReturn), .bioRead .writer [1, 2], .send .writer 1,
     .call .reader, .attempt .reader (some .fill), .flushed .reader, .socketRead .reader,
     .send .writer 1, .recv .reader [8, 9], .bioWrite .reader]
    (fun s => s.sent = [1, 2] ∧ s.consumed = [8, 9]) rfl (by decide)
  exact ⟨s, hs, hsent, hconsumed, transfer_faithful_of_staged_kept s hs⟩

/-- The writer has sent one of two bytes and is parked; the reader receives into the same buffer; the
writer then sends a byte that OpenSSL never produced. -/
theorem transfer_corrupted_by_overlapping_fill : ¬ ∀ s, transferSystem.Reachable s → TransferFaithful s := by
  intro hall
  obtain ⟨s, hs, hp⟩ := transferSystem.reachable_of_run {}
    [.call .writer, .attempt .writer (some .coReturn), .bioRead .writer [1, 2], .send .writer 1,
     .call .reader, .attempt .reader (some .fill), .flushed .reader, .socketRead .reader,
     .recv .reader [8, 9], .send .writer 1]
    (fun s => ¬ s.sent <+: s.produced) rfl (by decide)
  exact hp (hall s hs).1

end Cio.Tls
