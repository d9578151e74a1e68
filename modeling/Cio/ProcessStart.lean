import Mathlib.Data.List.Basic

/-! `Command::start` and the descriptors it opens. Every place of the parent that holds a descriptor number is a slot:
the ends of the `Pipe` objects, the local `pidfd`, the members of the `Child`, and the reaper to which `~Child` hands a
duplicate. Descriptors are told apart by the order in which they are opened, as their numbers are used again. -/

namespace Cio.ProcessStart

open List

inductive Slot where
  | inRead | inWrite | outRead | outWrite | errRead | errWrite | statusRead | statusWrite | pidfd
  | childPidfd | childStdin | childStdout | childStderr | duplicate | reaper
  deriving DecidableEq

open Slot

/-- The descriptors that slots hold, and those that were closed, in this order. -/
structure Table where
  opened : Nat := 0
  owned : List (Slot × Nat) := []
  closed : List Nat := []

namespace Table

variable (t : Table)

/-- What the slot held before is lost. -/
def acquire (slot : Slot) : Table :=
  { t with opened := t.opened + 1, owned := (slot, t.opened) :: t.owned.filter (·.1 ≠ slot) }

/-- `::close` of the number in a slot; the slot keeps it. -/
def closeNumber (slot : Slot) : Table :=
  { t with closed := t.closed ++ (t.owned.filter (·.1 = slot)).map Prod.snd }

/-- `close_read` and `close_write`, and the end of a member: nothing happens to an empty slot. -/
def close (slot : Slot) : Table := { t.closeNumber slot with owned := t.owned.filter (·.1 ≠ slot) }

/-- `take_read`, `take_write` and the move of an adopted descriptor. -/
def move (source target : Slot) : Table :=
  { t with owned := (t.owned.filter (·.1 ≠ target)).map fun p => if p.1 = source then (target, p.2) else p }

end Table

/-- The ends that the destructors of the four pipes close. -/
def pipes : List Slot := [statusRead, statusWrite, errRead, errWrite, outRead, outWrite, inRead, inWrite]

/-- What `release_unwaited` comes to: the child has exited or there is no duplicate, the reaper does not take the
duplicate, or it does. -/
inductive Unwaited where
  | nothing | refused | adopted

def destroyChild (unwaited : Unwaited) (t : Table) : Table :=
  let t := match unwaited with
    | .nothing => t
    | .refused => (t.acquire duplicate).close duplicate
    | .adopted => t.acquire reaper
  [childStderr, childStdout, childStdin, childPidfd].foldl Table.close t

inductive Failure where
  | nowhere | stdinPipe | stdoutPipe | stderrPipe | statusPipe | fork | pidfdOpen | exec
  | adoptPidfd | adoptStdin | adoptStdout | adoptStderr
  deriving DecidableEq

structure Command where
  program : String
  stdinPipe : Bool
  stdoutPipe : Bool
  stderrPipe : Bool

def openPipe (requested fails : Bool) (read write : Slot) (t : Table) : Except Table Table :=
  if requested then if fails then .error t else .ok ((t.acquire read).acquire write) else .ok t

/-- The lambda `attach`; `Socket::adopt` closes what it cannot adopt. -/
def attach (requested fails : Bool) (source target : Slot) (unwaited : Unwaited) (t : Table) : Except Table Table :=
  if requested then
    if fails then .error (destroyChild unwaited (t.close source)) else .ok (t.move source target)
  else .ok t

/-- The parent from `fork` until the `Child` has its pidfd. -/
def adoptChild (failure : Failure) (t : Table) : Except Table Table :=
  if failure = .fork then .error t else
  let t := [statusWrite, inRead, outWrite, errWrite].foldl Table.close t
  if failure = .pidfdOpen then .error t else
  let t := t.acquire pidfd
  if failure = .exec then .error (t.close pidfd) else
  -- `Socket::adopt` closes the descriptor when it fails, and then `start` closes the number again
  if failure = .adoptPidfd then .error ((t.closeNumber pidfd).close pidfd) else
  .ok (t.move pidfd childPidfd)

/-- `Command::start` up to its `return`, of an error for `.error`; the pipes are still to be destroyed. -/
def body (command : Command) (failure : Failure) (unwaited : Unwaited) : Except Table Table :=
  if command.program = "" then .error {} else
  openPipe command.stdinPipe (failure = .stdinPipe) inRead inWrite {} >>=
    openPipe command.stdoutPipe (failure = .stdoutPipe) outRead outWrite >>=
    openPipe command.stderrPipe (failure = .stderrPipe) errRead errWrite >>=
    openPipe true (failure = .statusPipe) statusRead statusWrite >>=
    adoptChild failure >>=
    attach command.stdinPipe (failure = .adoptStdin) inWrite childStdin unwaited >>=
    attach command.stdoutPipe (failure = .adoptStdout) outRead childStdout unwaited >>=
    attach command.stderrPipe (failure = .adoptStderr) errRead childStderr unwaited

/-- The descriptors when `start` has returned, with a `Child` for `.ok`. -/
def start (command : Command) (failure : Failure) (unwaited : Unwaited) : Except Table Table :=
  match body command failure unwaited with
  | .ok t => .ok (pipes.foldl Table.close t)
  | .error t => .error (pipes.foldl Table.close t)

/-! ### Every descriptor is in one place -/

/-- Every descriptor that was opened is held once, by one of the slots `l`, or was closed once. -/
structure Held (l : List Slot) (t : Table) : Prop where
  once : t.owned.map Prod.snd ++ t.closed ~ range t.opened
  within : ∀ p ∈ t.owned, p.1 ∈ l

variable {l l' m : List Slot} {t : Table} {slot : Slot}

namespace Held

section

variable (h : Held l t)

include h

lemma weaken (hsub : l ⊆ l') : Held l' t := ⟨h.once, fun p hp => hsub (h.within p hp)⟩

lemma filter_owned (hnew : slot ∉ l) : t.owned.filter (·.1 ≠ slot) = t.owned :=
  filter_eq_self.mpr fun p hp => decide_eq_true (ne_of_mem_of_not_mem (h.within p hp) hnew)

lemma acquire (hnew : slot ∉ l) : Held (slot :: l) (t.acquire slot) := by
  rw [Table.acquire, h.filter_owned hnew]
  refine ⟨?_, forall_mem_cons.mpr ⟨mem_cons_self, fun p hp => mem_cons_of_mem _ (h.within p hp)⟩⟩
  rw [range_succ]
  exact (h.once.cons t.opened).trans (perm_append_singleton _ _).symm

lemma close (slot : Slot) : Held (l.filter (· ≠ slot)) (t.close slot) := by
  refine ⟨.trans ?_ h.once, fun p hp => ?_⟩
  · let freed := (t.owned.filter (·.1 = slot)).map Prod.snd
    let kept := (t.owned.filter (·.1 ≠ slot)).map Prod.snd
    have hsplit : freed ++ kept ~ t.owned.map Prod.snd := by
      simpa [freed, kept] using (filter_append_perm (·.1 = slot) t.owned).map Prod.snd
    calc kept ++ (t.closed ++ freed) = (kept ++ t.closed) ++ freed := (append_assoc ..).symm
      _ ~ freed ++ (kept ++ t.closed) := perm_append_comm
      _ = freed ++ kept ++ t.closed := (append_assoc ..).symm
      _ ~ t.owned.map Prod.snd ++ t.closed := hsplit.append_right _
  · obtain ⟨hp, hne⟩ := mem_filter.mp hp
    exact mem_filter.mpr ⟨h.within p hp, hne⟩

lemma move {source target : Slot} (hnew : target ∉ l) :
    Held (target :: l.filter (· ≠ source)) (t.move source target) := by
  rw [Table.move, h.filter_owned hnew]
  refine ⟨.trans (.of_eq ?_) h.once, forall_mem_map.mpr fun p hp => ?_⟩
  · rw [map_map]
    congr 2
    funext p
    dsimp only [Function.comp]
    split <;> rfl
  · split
    · exact mem_cons_self
    · exact mem_cons_of_mem _ (mem_filter.mpr ⟨h.within p hp, decide_eq_true ‹_›⟩)

lemma close_all (slots : List Slot) : Held (l.filter (· ∉ slots)) (slots.foldl Table.close t) := by
  induction slots generalizing l t with
  | nil => simpa using h
  | cons slot slots ih => exact (ih (h.close slot)).weaken fun a ha => by grind

end

end Held

/-- What is held when a part of `start` goes on and when it returns an error. -/
def Ends (l m : List Slot) : Except Table Table → Prop
  | .ok t => Held l t
  | .error t => Held m t

lemma Ends.bind {r : Except Table Table} {f : Table → Except Table Table} (hr : Ends l m r)
    (hf : ∀ t, Held l t → Ends l' m (f t)) : Ends l' m (r >>= f) := by
  cases r with
  | ok t => exact hf t hr
  | error t => exact hr

lemma openPipe_ends (requested fails : Bool) {read write : Slot} (h : Held l t) (hread : read ∉ l)
    (hwrite : write ∉ read :: l) (hl : l ⊆ m) :
    Ends (write :: read :: l) m (openPipe requested fails read write t) := by
  unfold openPipe
  split
  · split
    · exact h.weaken hl
    · exact (h.acquire hread).acquire hwrite
  · exact h.weaken fun a ha => by simp [ha]

lemma destroyChild_held (unwaited : Unwaited) (h : Held l t) (hdup : duplicate ∉ l) (hreaper : reaper ∉ l) :
    Held (reaper :: l.filter (· ∉ [childStderr, childStdout, childStdin, childPidfd])) (destroyChild unwaited t) := by
  unfold destroyChild
  cases unwaited with
  | nothing => exact (h.close_all _).weaken fun a ha => by grind
  | refused => exact (((h.acquire hdup).close duplicate).close_all _).weaken fun a ha => by grind
  | adopted => exact ((h.acquire hreaper).close_all _).weaken fun a ha => by grind

lemma attach_ends (requested fails : Bool) {source target : Slot} (unwaited : Unwaited) (h : Held l t)
    (htarget : target ∉ l) (hdup : duplicate ∉ l) (hreaper : reaper ∉ l)
    (hm : ∀ a ∈ l, a ∈ m ∨ a ∈ [childStderr, childStdout, childStdin, childPidfd]) :
    Ends (target :: l) (reaper :: m) (attach requested fails source target unwaited t) := by
  unfold attach
  split
  · split
    · refine (destroyChild_held unwaited (h.close source) (by grind) (by grind)).weaken fun a ha => ?_
      grind
    · exact (h.move htarget).weaken fun a ha => by grind
  · exact h.weaken fun a ha => by simp [ha]

lemma adoptChild_ends {failure : Failure} (hpid : failure ≠ .adoptPidfd) (h : Held pipes t) :
    Ends (childPidfd :: pipes) (reaper :: pipes) (adoptChild failure t) := by
  have hkept := ((h.close_all [statusWrite, inRead, outWrite, errWrite]).weaken (filter_subset_self _) : Held pipes _)
  have hpidfd : Held (pidfd :: pipes) _ := hkept.acquire (by decide)
  unfold adoptChild
  split_ifs
  · exact h.weaken (by simp)
  · exact hkept.weaken (by simp)
  · exact (hpidfd.close pidfd).weaken (by decide)
  · exact (hpidfd.move (by decide)).weaken (by decide)

lemma body_ends (command : Command) {failure : Failure} (unwaited : Unwaited)
    (hpid : command.program = "" ∨ failure ≠ .adoptPidfd) :
    Ends (childStderr :: childStdout :: childStdin :: childPidfd :: pipes) (reaper :: pipes)
      (body command failure unwaited) := by
  have hempty : Held [] {} := ⟨.refl _, nofun⟩
  unfold body
  split
  · exact hempty.weaken (by simp)
  have hopened : [statusWrite, statusRead, errWrite, errRead, outWrite, outRead, inWrite, inRead] ⊆ pipes := by decide
  -- from the last call to the first
  refine .bind (.bind (.bind (.bind (.bind (.bind (.bind ?_ fun t ht => openPipe_ends _ _ ht ?_ ?_ ?_)
    fun t ht => openPipe_ends _ _ ht ?_ ?_ ?_) fun t ht => openPipe_ends _ _ ht ?_ ?_ ?_)
    fun t ht => adoptChild_ends (hpid.resolve_left ‹_›) (ht.weaken hopened))
    fun t ht => attach_ends _ _ unwaited ht ?_ ?_ ?_ ?_)
    fun t ht => attach_ends _ _ unwaited ht ?_ ?_ ?_ ?_)
    fun t ht => attach_ends _ _ unwaited ht ?_ ?_ ?_ ?_
  · exact openPipe_ends _ _ hempty (by decide) (by decide) (by decide)
  all_goals decide

/-- A descriptor that `start` has opened is closed once or is a member of the `Child`. On an error the reaper may hold a
duplicate of the pidfd, and with the reaper's `::close` everything is closed. -/
def OwnsOnce : Except Table Table → Prop
  | .ok t => Held [childPidfd, childStdin, childStdout, childStderr] t
  | .error t => Held [reaper] t ∧ Held [] (t.close reaper)

/-- **`Command::start` owns every descriptor once if and only if it does not come to a pidfd that it cannot adopt.** -/
theorem start_owns_once_iff (command : Command) (failure : Failure) (unwaited : Unwaited) :
    OwnsOnce (start command failure unwaited) ↔ command.program = "" ∨ failure ≠ .adoptPidfd := by
  constructor
  · intro howns
    by_contra hpid
    obtain ⟨hprogram, hfailure⟩ := not_or.mp hpid
    obtain rfl := not_not.mp hfailure
    obtain ⟨program, stdinPipe, stdoutPipe, stderrPipe⟩ := command
    rw [start, body, if_neg hprogram] at howns
    cases stdinPipe <;> cases stdoutPipe <;> cases stderrPipe <;> exact absurd howns.1.once.nodup_iff (by decide)
  · intro hpid
    have hends := body_ends command unwaited hpid
    unfold start
    cases hbody : body command failure unwaited with
    | ok t =>
      rw [hbody] at hends
      exact (Held.close_all hends pipes).weaken (by decide)
    | error t =>
      rw [hbody] at hends
      have herror : Held [reaper] _ := Held.close_all hends pipes
      exact ⟨herror, herror.close reaper⟩

/-- The pidfd, opened third, is closed by `Socket::adopt` and again by `start`. -/
theorem start_closes_pidfd_twice :
    ∃ t, start ⟨"/bin/cat", false, false, false⟩ .adoptPidfd .nothing = .error t ∧ t.closed = [1, 2, 2, 0] ∧
      ∀ l, ¬Held l t := by
  refine ⟨_, rfl, by decide, fun l h => ?_⟩
  exact absurd h.once.nodup_iff (by decide)

end Cio.ProcessStart
