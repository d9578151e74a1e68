import Cio.ProcessStart
import Mathlib.Data.Nat.Find

/-! The descriptors of the child that `Command::start` forks, by number. `pipe2` takes the lowest free numbers, so
where standard streams are closed the ends of the pipes have the numbers 0 to 2 themselves. -/

namespace Cio.ProcessRedirect

open ProcessStart (Command Slot)

/-- An end of one of the pipes, or a file that was open before. -/
structure Entry where
  file : Slot ⊕ Nat
  cloexec : Bool

/-- A table of file descriptors. -/
structure Table where
  entry : Nat → Option Entry
  finite : ∃ bound, ∀ n, bound ≤ n → entry n = none

namespace Table

variable (t : Table)

def set (n : Nat) (e : Option Entry) : Table where
  entry := Function.update t.entry n e
  finite := by
    obtain ⟨bound, hbound⟩ := t.finite
    refine ⟨max bound (n + 1), fun k hk => ?_⟩
    rw [Function.update_of_ne (by omega), hbound k (by omega)]

lemma exists_free : ∃ n, (t.entry n).isNone := by
  obtain ⟨bound, hbound⟩ := t.finite
  exact ⟨bound, by simp [hbound]⟩

def lowestFree : Nat := Nat.find t.exists_free

/-- One of the two numbers of `::pipe2(fds, O_CLOEXEC)`. -/
def allocate (slot : Slot) : Nat × Table := (t.lowestFree, t.set t.lowestFree (some ⟨.inl slot, true⟩))

def openPipe (requested : Bool) (read write : Slot) : Option (Nat × Nat) × Table :=
  if requested then
    let (r, t) := t.allocate read
    let (w, t) := t.allocate write
    (some (r, w), t)
  else (none, t)

/-- Both `fcntl` and `dup2` refuse a number that is not open. -/
def redirect (fd target : Nat) : Option Table :=
  if fd = target then (t.entry fd).map fun e => t.set fd (some { e with cloexec := false })
  else (t.entry fd).map fun e => t.set target (some { e with cloexec := false })

def redirectEnd (fd : Option Nat) (target : Nat) : Option Table :=
  match fd with
  | none => some t
  | some fd => t.redirect fd target

end Table

/-- The child up to `chdir`: the number to which it reports and its descriptors, or `none` if a redirect fails. -/
def child (command : Command) (t : Table) : Option (Nat × Table) :=
  let (inPipe, t) := t.openPipe command.stdinPipe .inRead .inWrite
  let (outPipe, t) := t.openPipe command.stdoutPipe .outRead .outWrite
  let (errPipe, t) := t.openPipe command.stderrPipe .errRead .errWrite
  let (statusRead, t) := t.allocate .statusRead
  let (report, t) := t.allocate .statusWrite
  let t := t.set statusRead none
  (t.redirectEnd (inPipe.map Prod.fst) 0).bind fun t =>
    (t.redirectEnd (outPipe.map Prod.snd) 1).bind fun t =>
      (t.redirectEnd (errPipe.map Prod.snd) 2).map fun t => (report, t)

/-! ### Numbers grow with each allocation -/

namespace Table

variable {t t' : Table} {requested : Bool} {b n : Nat} {slot read write : Slot} {ends : Option (Nat × Nat)}

def Filled (b : Nat) (t : Table) : Prop := ∀ n < b, t.entry n ≠ none

lemma allocate_spec (hfill : t.Filled b) (h : t.allocate slot = (n, t')) :
    b ≤ n ∧ t'.Filled (n + 1) ∧ t'.entry n = some ⟨.inl slot, true⟩ ∧
      ∀ k, t.entry k ≠ none → k ≠ n ∧ t'.entry k = t.entry k := by
  obtain ⟨rfl, rfl⟩ := Prod.mk.inj h
  have hfree : t.entry t.lowestFree = none := by simpa [lowestFree] using Nat.find_spec t.exists_free
  have hkeep : ∀ k, t.entry k ≠ none → k ≠ t.lowestFree := fun k hk he => hk (he ▸ hfree)
  refine ⟨not_lt.mp fun hlt => hfill _ hlt hfree, fun k hk => ?_, by simp [set], fun k hk => ⟨hkeep k hk, ?_⟩⟩
  · obtain rfl | hlt := Nat.eq_or_lt_of_le (Nat.le_of_lt_succ hk)
    · simp [set]
    · have hused : t.entry k ≠ none := by simpa using Nat.find_min t.exists_free hlt
      simpa [set, hkeep k hused] using hused
  · simp [set, hkeep k hk]

/-- What the opening of a pipe leaves, with the numbers below `b` in use before. -/
structure Opened (requested : Bool) (b : Nat) (read write : Slot) (t : Table) (ends : Option (Nat × Nat))
    (t' : Table) : Prop where
  isSome : ends.isSome = requested
  filled : t'.Filled (b + if requested then 2 else 0)
  read : ∀ n ∈ ends.map Prod.fst, t'.entry n = some ⟨.inl read, true⟩
  write : ∀ n ∈ ends.map Prod.snd, b < n ∧ t'.entry n = some ⟨.inl write, true⟩
  kept : ∀ k, t.entry k ≠ none → t'.entry k = t.entry k

lemma openPipe_spec (hfill : t.Filled b) (h : t.openPipe requested read write = (ends, t')) :
    Opened requested b read write t ends t' := by
  cases requested with
  | false =>
    obtain ⟨rfl, rfl⟩ := Prod.mk.inj h
    exact ⟨rfl, hfill, nofun, nofun, fun _ _ => rfl⟩
  | true =>
    rcases h₁ : t.allocate read with ⟨r, t₁⟩
    rcases h₂ : t₁.allocate write with ⟨w, t₂⟩
    obtain ⟨rfl, rfl⟩ : some (r, w) = ends ∧ t₂ = t' := by simpa [openPipe, h₁, h₂] using h
    obtain ⟨hr, hfill₁, hread, hkept₁⟩ := allocate_spec hfill h₁
    obtain ⟨hw, hfill₂, hwrite, hkept₂⟩ := allocate_spec hfill₁ h₂
    refine ⟨rfl, fun k hk => hfill₂ k (by simp at hk; omega), ?_, ?_, fun k hk => ?_⟩
    · rintro _ ⟨⟩
      rw [(hkept₂ r (by simp [hread])).2, hread]
    · rintro _ ⟨⟩
      exact ⟨by omega, hwrite⟩
    · rw [(hkept₂ k ((hkept₁ k hk).2 ▸ hk)).2, (hkept₁ k hk).2]

/-! ### A redirect changes its target only -/

lemma redirectEnd_spec {fd : Option Nat} (target : Nat) (file : Slot ⊕ Nat)
    (hfd : ∀ n ∈ fd, t.entry n = some ⟨file, true⟩) :
    ∃ t', t.redirectEnd fd target = some t' ∧ (fd.isSome → t'.entry target = some ⟨file, false⟩) ∧
      ∀ n, (fd.isSome → n ≠ target) → t'.entry n = t.entry n := by
  cases fd with
  | none => exact ⟨t, rfl, nofun, fun _ _ => rfl⟩
  | some fd =>
    have he : t.redirect fd target = some (t.set target (some ⟨file, false⟩)) := by
      rw [redirect, hfd fd rfl]
      split_ifs with h
      · simp [h]
      · rfl
    exact ⟨_, he, fun _ => by simp [set], fun n hn => by simp [set, hn rfl]⟩

end Table

/-- **Each stream that has a pipe is its end and survives `exec`, whatever was open before**; the number to which the
child reports is still its pipe, and is closed by `exec`. -/
theorem redirected (command : Command) (initial : Table) :
    ∃ report t, child command initial = some (report, t) ∧
      (command.stdinPipe → t.entry 0 = some ⟨.inl .inRead, false⟩) ∧
      (command.stdoutPipe → t.entry 1 = some ⟨.inl .outWrite, false⟩) ∧
      (command.stderrPipe → t.entry 2 = some ⟨.inl .errWrite, false⟩) ∧
      t.entry report = some ⟨.inl .statusWrite, true⟩ := by
  obtain ⟨_, i, o, e⟩ := command
  simp only [child]
  -- the four pipes, opened in this order
  rcases h₁ : initial.openPipe i .inRead .inWrite with ⟨inPipe, t₁⟩
  rcases h₂ : t₁.openPipe o .outRead .outWrite with ⟨outPipe, t₂⟩
  rcases h₃ : t₂.openPipe e .errRead .errWrite with ⟨errPipe, t₃⟩
  rcases h₄ : t₃.allocate .statusRead with ⟨statusRead, t₄⟩
  rcases h₅ : t₄.allocate .statusWrite with ⟨report, t₅⟩
  have ⟨hsome₁, hfill₁, hin, _, _⟩ := Table.openPipe_spec (b := 0) nofun h₁
  have ⟨hsome₂, hfill₂, _, hout, hkept₂⟩ := Table.openPipe_spec hfill₁ h₂
  have ⟨hsome₃, hfill₃, _, herr, hkept₃⟩ := Table.openPipe_spec hfill₂ h₃
  have ⟨hlow, hfill₄, hread, hkept₄⟩ := Table.allocate_spec hfill₃ h₄
  have ⟨hreport, _, hstatus, hkept₅⟩ := Table.allocate_spec hfill₄ h₅
  -- an end that is open before the exec-status pipe is there still when its read end is closed
  have hkept : ∀ {k f}, t₃.entry k = some f → (t₅.set statusRead none).entry k = some f := by
    intro k f hk
    have ⟨hne, hk₄⟩ := hkept₄ k (by simp [hk])
    have ⟨_, hk₅⟩ := hkept₅ k (by simp [hk₄, hk])
    simp [Table.set, hne, hk₅, hk₄, hk]
  have hwrite : (t₅.set statusRead none).entry report = some ⟨.inl .statusWrite, true⟩ := by
    have ⟨hne, _⟩ := hkept₅ statusRead (by simp [hread])
    simp [Table.set, hne.symm, hstatus]
  obtain ⟨t₆, h₆, hat₆, hkept₆⟩ := Table.redirectEnd_spec 0 (.inl .inRead) fun n hn => hkept <| by
    rw [hkept₃ n (by simp [hkept₂, hin n hn]), hkept₂ n (by simp [hin n hn]), hin n hn]
  obtain ⟨t₇, h₇, hat₇, hkept₇⟩ := Table.redirectEnd_spec (t := t₆) 1 (.inl .outWrite) fun n hn => by
    have ⟨hlt, hn⟩ := hout n hn
    rw [hkept₆ n fun _ => by omega]
    exact hkept (by rw [hkept₃ n (by simp [hn]), hn])
  obtain ⟨t₈, h₈, hat₈, hkept₈⟩ := Table.redirectEnd_spec (t := t₇) 2 (.inl .errWrite) fun n hn => by
    have ⟨hlt, hn⟩ := herr n hn
    rw [hkept₇ n fun ho => by simp_all; omega, hkept₆ n fun _ => by omega]
    exact hkept hn
  simp only [Option.isSome_map, hsome₁, hsome₂, hsome₃] at hat₆ hat₇ hat₈ hkept₆ hkept₇ hkept₈
  refine ⟨report, t₈, by simp [h₆, h₇, h₈], fun hi => ?_, fun ho => ?_, hat₈, ?_⟩
  · rw [hkept₈ 0 nofun, hkept₇ 0 nofun, hat₆ hi]
  · rw [hkept₈ 1 nofun, hat₇ ho]
  · rw [hkept₈, hkept₇, hkept₆, hwrite]
    all_goals
      rintro rfl rfl
      simp only [if_true] at hlow
      omega

end Cio.ProcessRedirect
