import Cio.CallPool
import Cio.TransitionSystem

/-! The compiled state of `tls::Config`. Copies of a configuration share one slot, and the first handshake from any of
them compiles a context into it, for its own role and with its own `verify_peer`; every later one takes that context. -/

namespace Cio.TlsRole

open CallPool Transition Function

/-- What of a `Config` decides here: its `shared_state` and `verify_peer`. Copies have the same `sharedState`. -/
structure Config where
  sharedState : Nat
  verifyPeer : Bool
  deriving DecidableEq

/-- The role `build_shared` compiled for, and whether it set up the client's verification of its peer. -/
structure SharedContext where
  isClient : Bool
  verifiesPeer : Bool
  deriving DecidableEq

def buildShared (config : Config) (isClient : Bool) : SharedContext where
  isClient := isClient
  verifiesPeer := isClient && config.verifyPeer

structure Conn where
  config : Config
  isClient : Bool
  shared : Option SharedContext := none
  configured : Bool := false

/-- The contexts compiled so far, and the connections. -/
structure State where
  compiled : Nat → Option SharedContext
  conns : List Conn

/-- `client` or `server`; and a handshake with what can fail in `configure`: the build, and what follows it. -/
inductive Act where
  | connect (isClient : Bool) (config : Config)
  | handshake (i : Nat) (builds completes : Bool)

namespace State

def fresh : State where
  compiled _ := none
  conns := []

/-- The context in the slot once `configure` has looked at it. -/
def context (s : State) (c : Conn) (builds : Bool) : Option SharedContext :=
  (s.compiled c.config.sharedState).or (if builds then some (buildShared c.config c.isClient) else none)

def configure (s : State) (i : Nat) (c : Conn) (builds completes : Bool) : State :=
  if c.configured then s
  else
    match s.context c builds with
    | none => s
    | some shared =>
      { compiled := update s.compiled c.config.sharedState (some shared)
        conns := s.conns.set i { c with shared := some shared, configured := completes } }

def step (s : State) : Act → Option State
  | .connect isClient config => some { s with conns := s.conns ++ [{ config := config, isClient := isClient }] }
  | .handshake i builds completes => s.conns[i]?.map fun c => s.configure i c builds completes

end State

def roleSystem : System State Act where
  init s := s = .fresh
  step := State.step

/-- Every connection that has a context has one that was built for its role, and a client that asks for it verifies its
peer. -/
def RoleSafe (s : State) : Prop :=
  ∀ c ∈ s.conns, ∀ shared, c.shared = some shared →
    shared.isClient = c.isClient ∧ (c.isClient = true → c.config.verifyPeer = true → shared.verifiesPeer = true)

def Conn.built (c : Conn) : SharedContext := buildShared c.config c.isClient

/-- Connections from configurations with one compiled state have one role and agree on `verify_peer`. -/
def OneRole (s : State) : Act → Prop
  | .connect isClient config =>
    ∀ c ∈ s.conns, c.config.sharedState = config.sharedState → c.isClient = isClient ∧ c.config = config
  | .handshake .. => True

instance (s : State) (a : Act) : Decidable (OneRole s a) :=
  match a with
  | .connect .. => inferInstanceAs (Decidable (∀ c ∈ s.conns, _))
  | .handshake .. => inferInstanceAs (Decidable True)

/-- A slot holds what any of its connections would have built, and somebody built it. -/
structure Kept (s : State) : Prop where
  slots : ∀ c ∈ s.conns, ∀ shared, s.compiled c.config.sharedState = some shared → shared = c.built
  used : ∀ k shared, s.compiled k = some shared → ∃ c ∈ s.conns, c.config.sharedState = k
  agree : ∀ c ∈ s.conns, ∀ d ∈ s.conns, c.config.sharedState = d.config.sharedState → c.built = d.built
  shared : ∀ c ∈ s.conns, ∀ shared, c.shared = some shared → shared = c.built

variable {s : State} {c : Conn} {i : Nat}

lemma Kept.safe (h : Kept s) : RoleSafe s := by
  intro c hc shared hsh
  rw [h.shared c hc shared hsh]
  refine ⟨rfl, fun hcli hverify => ?_⟩
  show (c.isClient && c.config.verifyPeer)
  rw [hcli, hverify]
  rfl

lemma Kept.connect (h : Kept s) {isClient : Bool} {config : Config} (hrole : OneRole s (.connect isClient config)) :
    Kept { s with conns := s.conns ++ [{ config := config, isClient := isClient }] } := by
  have hnew : ∀ c ∈ s.conns, c.config.sharedState = config.sharedState → c.built = buildShared config isClient := by
    intro c hc hsame
    obtain ⟨hcli, hcfg⟩ := hrole c hc hsame
    rw [Conn.built, hcli, hcfg]
  refine ⟨forall_append h.slots fun shared hslot => ?_, fun k shared hslot => exists_append (h.used k shared hslot) _,
    forall_append (fun c hc => forall_append (h.agree c hc) (hnew c hc)) ?_, forall_append h.shared nofun⟩
  · obtain ⟨c, hc, hsame⟩ := h.used _ shared hslot
    rw [h.slots c hc shared (hsame ▸ hslot)]
    exact hnew c hc hsame
  · refine forall_append (fun d hd hsame => ?_) fun _ => rfl
    exact (hnew d hd (Eq.symm hsame)).symm

lemma Kept.context (h : Kept s) (hc : c ∈ s.conns) {builds : Bool} {shared : SharedContext}
    (hsh : s.context c builds = some shared) : shared = c.built := by
  rw [State.context] at hsh
  cases hslot : s.compiled c.config.sharedState with
  | some =>
    rw [hslot] at hsh
    cases hsh
    exact h.slots c hc shared hslot
  | none =>
    rw [hslot, Option.none_or] at hsh
    obtain ⟨-, rfl⟩ := of_guard hsh
    rfl

lemma Kept.take (h : Kept s) (hi : s.conns[i]? = some c) {d : Conn} (hcfg : d.config = c.config)
    (hbuilt : d.built = c.built) (hsh : d.shared = some c.built) :
    Kept ⟨update s.compiled c.config.sharedState (some c.built), s.conns.set i d⟩ := by
  have hc := List.mem_of_getElem? hi
  have hslots : ∀ e ∈ s.conns, ∀ shared,
      update s.compiled c.config.sharedState (some c.built) e.config.sharedState = some shared →
        shared = e.built := by
    intro e he shared hslot
    by_cases hsame : e.config.sharedState = c.config.sharedState
    · rw [hsame, update_self] at hslot
      cases hslot
      exact h.agree c hc e he hsame.symm
    · rw [update_of_ne hsame] at hslot
      exact h.slots e he shared hslot
  refine ⟨forall_set hslots ?_ i, fun k shared hslot => exists_set hi ?_ fun hk => hcfg ▸ hk,
    forall_set (fun e he => forall_set (h.agree e he) ?_ i) (forall_set ?_ (fun _ => rfl) i) i,
    forall_set h.shared ?_ i⟩
  · rw [hcfg, hbuilt]
    exact hslots c hc
  · by_cases hk : k = c.config.sharedState
    · exact ⟨c, hc, hk.symm⟩
    · exact h.used k shared ((update_of_ne hk ..).symm.trans hslot)
  · rw [hcfg, hbuilt]
    exact h.agree e he c hc
  · rw [hcfg, hbuilt]
    exact h.agree c hc
  · rw [hsh, hbuilt]
    exact fun shared hsome => (Option.some.inj hsome).symm

lemma Kept.configure (h : Kept s) (hi : s.conns[i]? = some c) (builds completes : Bool) :
    Kept (s.configure i c builds completes) := by
  rw [State.configure]
  split
  · exact h
  · split
    · exact h
    · rename_i shared hsh
      obtain rfl := h.context (List.mem_of_getElem? hi) hsh
      exact h.take hi rfl rfl rfl

/-- **When the connections that share a compiled state have one role and agree on `verify_peer`, every connection runs
on a context compiled for its role, and a client that asks for verification verifies.** -/
theorem role_safe {s : State} (hs : roleSystem.ReachableVia OneRole s) : RoleSafe s := by
  refine (hs.invariant (P := Kept) ?_ fun s a u h hrole hu => ?_).safe
  · rintro s rfl
    exact ⟨nofun, nofun, nofun, nofun⟩
  · cases a with
    | connect =>
      cases hu
      exact h.connect hrole
    | handshake i builds completes =>
      obtain ⟨c, hi, rfl⟩ := Option.map_eq_some_iff.mp hu
      exact h.configure hi builds completes

theorem role_safe_twoClients : ∃ s, roleSystem.ReachableVia OneRole s ∧
    s.conns.map Conn.shared = [some ⟨true, true⟩, some ⟨true, true⟩] ∧ RoleSafe s := by
  obtain ⟨s, hs, hsh⟩ := roleSystem.reachableVia_of_run OneRole .fresh
    [.connect true ⟨0, true⟩, .connect true ⟨0, true⟩, .handshake 0 true true, .handshake 1 false true]
    (fun s => s.conns.map Conn.shared = [some ⟨true, true⟩, some ⟨true, true⟩]) rfl (by decide)
  exact ⟨s, hs, hsh, role_safe hs⟩

/-- A server's handshake compiles the shared state first; a client from a copy of the configuration then runs on the
server's context, without the verification it asks for. -/
theorem role_mixed : ¬ ∀ s, roleSystem.Reachable s → RoleSafe s := by
  intro hall
  obtain ⟨s, hs, c, hc, hcli, hsh⟩ := roleSystem.reachable_of_run .fresh
    [.connect false ⟨0, true⟩, .connect true ⟨0, true⟩, .handshake 0 true true, .handshake 1 true true]
    (fun s => ∃ c ∈ s.conns, c.isClient = true ∧ c.shared = some ⟨false, false⟩) rfl (by decide)
  have hrole := (hall s hs c hc _ hsh).1
  rw [hcli] at hrole
  cases hrole

end Cio.TlsRole
