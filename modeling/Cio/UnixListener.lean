import Cio.CallPool
import Cio.TransitionSystem

/-! `UnixListener` and the file system. A listener remembers the path it bound as a string, and removes whatever is at
that path when it is closed, destroyed or assigned to. The file system maps a path to the socket bound there. -/

namespace Cio.UnixListener

open CallPool Transition Function

/-- `UnixAddr`: a path of the file system, or a name in the abstract namespace. -/
inductive Addr where
  | path (p : Nat)
  | abstract (name : Nat)
  deriving DecidableEq

/-- The socket while the listener is open, `bound_` and `owns_path_`. A listener that was moved from is `{}`; one that
was destroyed takes no further part. -/
structure Listener where
  socket : Option Nat := none
  bound : Option Addr := none
  ownsPath : Bool := false
  deriving DecidableEq

/-- The socket at each path, and the listeners. -/
structure State where
  fs : Nat → Option Nat
  sockets : Nat
  listeners : List Listener

/-- Where `listen` fails: nowhere, before `bind`, or after it. -/
inductive Outcome where
  | ok | socketFails | listenFails
  deriving DecidableEq

/-- `destroy` is the end of a listener's lifetime, `assign i j` is `i = std::move(j)`. -/
inductive Act where
  | listen (addr : Addr) (unlinkExisting : Bool) (outcome : Outcome)
  | construct (j : Nat)
  | assign (i j : Nat)
  | close (i : Nat)
  | destroy (i : Nat)

namespace State

def fresh : State where
  fs _ := none
  sockets := 0
  listeners := []

def remove (s : State) (p : Nat) : State := { s with fs := update s.fs p none }

def unlink (s : State) (l : Listener) : State :=
  match l.ownsPath, l.bound with
  | true, some (.path p) => s.remove p
  | _, _ => s

/-- `bind` and what follows; a path that exists is in use. -/
def bind (s : State) (addr : Addr) (outcome : Outcome) : State :=
  match addr with
  | .abstract _ =>
    if outcome = .ok then
      { s with sockets := s.sockets + 1, listeners := s.listeners ++ [⟨some s.sockets, some addr, false⟩] }
    else s
  | .path p =>
    if (s.fs p).isSome then s
    else
      { s with
        fs := update s.fs p (some s.sockets)
        sockets := s.sockets + 1
        listeners := s.listeners ++ (if outcome = .ok then [⟨some s.sockets, some addr, true⟩] else []) }

/-- `listen` removes what is at the path if it is asked to. -/
def clear (s : State) (unlinkExisting : Bool) : Addr → State
  | .path p => if unlinkExisting then s.remove p else s
  | .abstract _ => s

def listen (s : State) (addr : Addr) (unlinkExisting : Bool) (outcome : Outcome) : State :=
  if outcome = .socketFails then s.clear unlinkExisting addr else (s.clear unlinkExisting addr).bind addr outcome

def replace (s : State) (i : Nat) (old new : Listener) : State :=
  { s.unlink old with listeners := s.listeners.set i new }

def step (s : State) : Act → Option State
  | .listen addr unlinkExisting outcome => some (s.listen addr unlinkExisting outcome)
  | .construct j => s.listeners[j]?.map fun l => { s with listeners := s.listeners.set j {} ++ [l] }
  | .assign i j =>
    if i = j then some s
    else
      s.listeners[i]?.bind fun old => s.listeners[j]?.map fun l =>
        { s with listeners := s.listeners.set j {} }.replace i old l
  | .close i => s.listeners[i]?.map fun l => s.replace i l { l with socket := none, ownsPath := false }
  | .destroy i => s.listeners[i]?.map fun l => s.replace i l {}

end State

def listenerSystem : System State Act where
  init s := s = .fresh
  step := State.step

/-- The path of every open listener leads to its own socket. -/
def PathsKept (s : State) : Prop :=
  ∀ l ∈ s.listeners, ∀ socket p, l.socket = some socket → l.bound = some (.path p) → s.fs p = some socket

def Listener.owns (l : Listener) (p : Nat) : Bool := l.ownsPath && l.bound == some (.path p)

/-- Nobody listens on a path that a listener still owns. -/
def Unclaimed (s : State) : Act → Prop
  | .listen (.path p) .. => ∀ l ∈ s.listeners, l.owns p = false
  | _ => True

instance (s : State) (a : Act) : Decidable (Unclaimed s a) :=
  match a with
  | .listen (.path p) .. => inferInstanceAs (Decidable (∀ l ∈ s.listeners, l.owns p = false))
  | .listen (.abstract _) .. | .construct _ | .assign .. | .close _ | .destroy _ => inferInstanceAs (Decidable True)

def Listener.claims (p : Nat) (l : Listener) : Nat := if l.owns p then 1 else 0

/-- A path has at most one owner, whose socket it leads to, and who is open owns its path. -/
structure Kept (s : State) : Prop where
  alone : ∀ p, weight (Listener.claims p) s.listeners ≤ 1
  owner : ∀ l ∈ s.listeners, ∀ p, l.owns p = true → s.fs p = l.socket
  isOpen : ∀ l ∈ s.listeners, ∀ p, l.bound = some (.path p) → l.socket ≠ none → l.ownsPath = true

variable {s u : State} {i j p : Nat} {l old : Listener}

lemma Kept.paths (h : Kept s) : PathsKept s := by
  intro l hl socket p hsock hbound
  rw [← hsock]
  refine h.owner l hl p ?_
  rw [Listener.owns, h.isOpen l hl p hbound (by rw [hsock]; simp), hbound]
  simp

lemma unlink_fs (s : State) (hp : old.owns p = false) : (s.unlink old).fs p = s.fs p := by
  rw [State.unlink]
  split
  · rename_i q howns hbound
    refine update_of_ne ?_ ..
    rintro rfl
    simp [Listener.owns, howns, hbound] at hp
  · rfl

section

variable (h : Kept s)

include h

lemma Kept.transfer (old : Listener) (hfs : ∀ p, old.owns p = false → u.fs p = s.fs p)
    (hsum : ∀ p, weight (Listener.claims p) u.listeners + old.claims p ≤ weight (Listener.claims p) s.listeners)
    (hmem : ∀ l ∈ u.listeners, l ∈ s.listeners ∨ l.socket = none ∧ l.ownsPath = false) : Kept u := by
  refine ⟨fun p => ?_, fun l hl p howns => ?_, fun l hl p hbound hopen => ?_⟩
  · exact (Nat.le_of_add_right_le (hsum p)).trans (h.alone p)
  · -- an owner leaves no room for another one
    have hone : 1 ≤ weight (Listener.claims p) u.listeners := by
      have hle := le_weight (Listener.claims p) hl
      rwa [Listener.claims, if_pos howns] at hle
    have hold : old.owns p = false := by
      rw [Bool.eq_false_iff]
      intro htwo
      have hall := (hsum p).trans (h.alone p)
      rw [Listener.claims, if_pos htwo] at hall
      omega
    rw [hfs p hold]
    rcases hmem l hl with hin | ⟨-, hnot⟩
    · exact h.owner l hin p howns
    · simp [Listener.owns, hnot] at howns
  · rcases hmem l hl with hin | ⟨hshut, -⟩
    · exact h.isOpen l hin p hbound hopen
    · exact absurd hshut hopen

lemma Kept.replace (hi : s.listeners[i]? = some old) (hsock : l.socket = none)
    (howns : l.ownsPath = false) : Kept (s.replace i old l) := by
  refine h.transfer old (fun p hp => unlink_fs s hp) (fun p => ?_) ?_
  · have hset := weight_set (Listener.claims p) hi l
    have hzero : l.claims p = 0 := by simp [Listener.claims, Listener.owns, howns]
    exact Nat.le_of_eq (hset.trans (by rw [hzero, Nat.add_zero]))
  · exact forall_set (fun _ => .inl) (.inr ⟨hsock, howns⟩) i

lemma Kept.assign (hne : j ≠ i) (hi : s.listeners[i]? = some old) (hj : s.listeners[j]? = some l) :
    Kept ({ s with listeners := s.listeners.set j {} }.replace i old l) := by
  refine h.transfer old (fun p hp => unlink_fs _ hp) (fun p => ?_) ?_
  · have hset := weight_set_set (Listener.claims p) hi hj hne l {}
    have hzero : ({} : Listener).claims p = 0 := rfl
    show weight (Listener.claims p) ((s.listeners.set j {}).set i l) + _ ≤ _
    omega
  · exact forall_set (forall_set (fun _ => .inl) (.inr ⟨rfl, rfl⟩) j) (.inl (List.mem_of_getElem? hj)) i

lemma Kept.write (hp : ∀ l ∈ s.listeners, l.owns p = false) (v : Option Nat) (n : Nat) :
    Kept { s with fs := update s.fs p v, sockets := n } := by
  refine { h with owner := fun l hl q howns => ?_ }
  refine (update_of_ne ?_ ..).trans (h.owner l hl q howns)
  rintro rfl
  rw [hp l hl] at howns
  cases howns

lemma Kept.append (hone : ∀ p, l.owns p → s.fs p = l.socket ∧ ∀ x ∈ s.listeners, x.owns p = false)
    (hopen : ∀ p, l.bound = some (.path p) → l.ownsPath) : Kept { s with listeners := s.listeners ++ [l] } := by
  refine ⟨fun p => ?_, forall_append h.owner fun p howns => (hone p howns).1,
    forall_append h.isOpen fun p hbound _ => hopen p hbound⟩
  rw [weight_concat]
  by_cases howns : l.owns p
  · have hzero : weight (Listener.claims p) s.listeners = 0 :=
      weight_eq_zero fun x hx => by rw [Listener.claims, (hone p howns).2 x hx]; rfl
    rw [hzero, Listener.claims, if_pos howns]
  · rw [Listener.claims, if_neg howns]
    exact h.alone p

lemma Kept.bind {addr : Addr} (hfree : ∀ p, addr = .path p → ∀ l ∈ s.listeners, l.owns p = false)
    (outcome : Outcome) : Kept (s.bind addr outcome) := by
  cases addr with
  | abstract =>
    rw [State.bind]
    split
    · exact ({ h with } : Kept { s with sockets := s.sockets + 1 }).append (by simp [Listener.owns]) (by simp)
    · exact h
  | path p =>
    rw [State.bind]
    split
    · exact h
    · have hbound := h.write (hfree p rfl) (some s.sockets) (s.sockets + 1)
      split
      · refine hbound.append (fun q howns => ?_) fun _ _ => rfl
        obtain rfl : p = q := by simpa [Listener.owns] using howns
        exact ⟨update_self .., hfree p rfl⟩
      · exact (List.append_nil s.listeners).symm ▸ hbound

lemma Kept.listen {addr : Addr} {unlinkExisting : Bool} {outcome : Outcome}
    (hfree : Unclaimed s (.listen addr unlinkExisting outcome)) : Kept (s.listen addr unlinkExisting outcome) := by
  have hnone : ∀ p, addr = .path p → ∀ l ∈ s.listeners, l.owns p = false := by
    rintro p rfl
    exact hfree
  have hclr : Kept (s.clear unlinkExisting addr) ∧ (s.clear unlinkExisting addr).listeners = s.listeners := by
    cases addr with
    | abstract => exact ⟨h, rfl⟩
    | path =>
      rw [State.clear]
      split
      · exact ⟨h.write hfree none s.sockets, rfl⟩
      · exact ⟨h, rfl⟩
  rw [State.listen]
  split
  · exact hclr.1
  · exact hclr.1.bind (hclr.2.symm ▸ hnone) outcome

lemma kept_step {a : Act} (hfree : Unclaimed s a) (hu : s.step a = some u) : Kept u := by
  cases a with
  | listen =>
    cases hu
    exact h.listen hfree
  | construct j =>
    obtain ⟨l, hj, rfl⟩ := Option.map_eq_some_iff.mp hu
    refine h.transfer {} (fun _ _ => rfl) (fun p => ?_) ?_
    · have hset := weight_set (Listener.claims p) hj {}
      have hzero : ({} : Listener).claims p = 0 := rfl
      rw [weight_concat]
      omega
    · exact forall_append (forall_set (fun _ => .inl) (.inr ⟨rfl, rfl⟩) j) (.inl (List.mem_of_getElem? hj))
  | assign i j =>
    rw [State.step] at hu
    split at hu
    · cases hu
      exact h
    · rename_i hne
      obtain ⟨old, hi, hrest⟩ := Option.bind_eq_some_iff.mp hu
      obtain ⟨l, hj, rfl⟩ := Option.map_eq_some_iff.mp hrest
      exact h.assign (Ne.symm hne) hi hj
  | close | destroy =>
    obtain ⟨l, hi, rfl⟩ := Option.map_eq_some_iff.mp hu
    exact h.replace hi rfl rfl

end

/-- **As long as nobody listens on a path that another listener still owns, the path of every open listener leads to
its own socket, whatever is closed, destroyed, moved or assigned.** -/
theorem paths_kept {s : State} (hs : listenerSystem.ReachableVia Unclaimed s) : PathsKept s := by
  refine (hs.invariant ?_ fun _ _ _ h hfree hu => kept_step h hfree hu).paths
  rintro s rfl
  exact ⟨fun _ => Nat.zero_le 1, nofun, nofun⟩

theorem paths_kept_moved : ∃ s, listenerSystem.ReachableVia Unclaimed s ∧
    (s.listeners[1]? = some ⟨some 0, some (.path 7), true⟩ ∧ s.fs 7 = some 0 ∧ s.fs 8 = none) ∧ PathsKept s := by
  obtain ⟨s, hs, hend⟩ := listenerSystem.reachableVia_of_run Unclaimed .fresh
    [.listen (.path 7) true .ok, .construct 0, .listen (.path 8) true .ok, .assign 0 2, .destroy 0]
    (fun s => s.listeners[1]? = some ⟨some 0, some (.path 7), true⟩ ∧ s.fs 7 = some 0 ∧ s.fs 8 = none) rfl
    (by decide)
  exact ⟨s, hs, hend, paths_kept hs⟩

/-- A second listener takes the path over, and the close of the first one removes the second one's socket. -/
theorem path_removed_by_other : ¬ ∀ s, listenerSystem.Reachable s → PathsKept s := by
  intro hall
  obtain ⟨s, hs, hmem, hnone⟩ := listenerSystem.reachable_of_run .fresh
    [.listen (.path 7) true .ok, .listen (.path 7) true .ok, .close 0]
    (fun s => ⟨some 1, some (.path 7), true⟩ ∈ s.listeners ∧ s.fs 7 = none) rfl (by decide)
  cases hnone.symm.trans (hall s hs _ hmem 1 7 rfl rfl)

end Cio.UnixListener
