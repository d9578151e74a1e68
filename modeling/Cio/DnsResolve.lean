import Cio.DnsMessage

/-! `Resolver::lookup` over what `resolve_type` returns for each family. A lookup of one family hands its result on;
a lookup of both merges the addresses, and without an address keeps of the two errors only a cancellation. -/

namespace Cio.Dns

structure Config where
  ipv4 : Bool
  ipv6 : Bool
  useHostsFile : Bool

abbrev Resolved := Except Error (List SocketAddr)

def Config.Wants (config : Config) : RecordType → Prop
  | .a => config.ipv4 = true
  | .aaaa => config.ipv6 = true

def Config.fromHosts (config : Config) (hosts : List SocketAddr) : List SocketAddr :=
  hosts.filter fun entry => if entry.family = .inet6 then config.ipv6 else config.ipv4

def found : Resolved → List SocketAddr
  | .ok addresses => addresses
  | .error _ => []

def isCancelled : Resolved → Bool
  | .ok _ => false
  | .error e => e = .errc .cancelled

/-- The end of `lookup`: IPv6 first. -/
def mergeFamilies (v4 v6 : Resolved) : Resolved :=
  if found v6 ++ found v4 = [] then
    if isCancelled v4 || isCancelled v6 then .error (.errc .cancelled) else .error .enoent
  else .ok (found v6 ++ found v4)

/-- `Resolver::lookup`; `literal` is the address when the host is one, `hosts` what the hosts file says, and
`resolveType` what the queries for each family return. -/
def lookup (config : Config) (cancelled : Bool) (literal : Option SocketAddr) (hosts : List SocketAddr)
    (resolveType : RecordType → Resolved) : Resolved :=
  if cancelled then .error (.errc .cancelled)
  else
    match literal with
    | some address => .ok [address]
    | none =>
      if config.ipv4 = false ∧ config.ipv6 = false then .error .einval
      else if config.useHostsFile ∧ config.fromHosts hosts ≠ [] then .ok (config.fromHosts hosts)
      else if config.ipv6 = false then resolveType .a
      else if config.ipv4 = false then resolveType .aaaa
      else mergeFamilies (resolveType .a) (resolveType .aaaa)

/-- The servers have answered that there is no such record. -/
def NoRecord (outcome : Resolved) : Prop := outcome = .error .enoent ∨ outcome = .ok []

/-- Success comes with addresses, `ENOENT` means that every family was answered so, and any other error is one that a
family failed with. -/
structure Meaningful (config : Config) (outcome : RecordType → Resolved) (result : Resolved) : Prop where
  found : result ≠ .ok []
  missing : result = .error .enoent → ∀ type, config.Wants type → NoRecord (outcome type)
  failed : ∀ e, result = .error e → e ≠ .enoent → ∃ type, config.Wants type ∧ outcome type = .error e

/-- Both families: one has an address or was cancelled, or both have no record. -/
def Conclusive (outcome : RecordType → Resolved) : Prop :=
  (∃ type, found (outcome type) ≠ []) ∨ (∃ type, isCancelled (outcome type)) ∨ ∀ type, NoRecord (outcome type)

variable (config : Config) {outcome : RecordType → Resolved}

lemma meaningful_single (type : RecordType) (hwants : ∀ other, config.Wants other ↔ other = type) :
    Meaningful config outcome (outcome type) ↔ outcome type ≠ .ok [] := by
  refine ⟨Meaningful.found, fun hfound => ⟨hfound, fun hmissing other hother => ?_, fun e he _ => ?_⟩⟩
  · rw [(hwants other).mp hother]
    exact .inl hmissing
  · exact ⟨type, (hwants type).mpr rfl, he⟩

lemma found_eq_nil_iff (outcome : RecordType → Resolved) :
    found (outcome .aaaa) ++ found (outcome .a) = [] ↔ ∀ type, found (outcome type) = [] := by
  rw [List.append_eq_nil_iff]
  refine ⟨fun ⟨haaaa, ha⟩ type => ?_, fun hnone => ⟨hnone .aaaa, hnone .a⟩⟩
  cases type with
  | a => exact ha
  | aaaa => exact haaaa

lemma error_of_isCancelled {result : Resolved} (h : isCancelled result) : result = .error (.errc .cancelled) := by
  cases result with
  | ok => cases h
  | error e => rw [of_decide_eq_true h]

lemma meaningful_mergeFamilies (hwants : ∀ type, config.Wants type) :
    Meaningful config outcome (mergeFamilies (outcome .a) (outcome .aaaa)) ↔ Conclusive outcome := by
  rw [mergeFamilies]
  split_ifs with hnone hcut
  · obtain ⟨type, htype⟩ : ∃ type, isCancelled (outcome type) :=
      (Bool.or_eq_true_iff.mp hcut).elim (⟨_, ·⟩) (⟨_, ·⟩)
    refine iff_of_true ⟨by simp, by simp [Error.enoent], fun e he _ => ?_⟩ (.inr (.inl ⟨type, htype⟩))
    cases he
    exact ⟨type, hwants type, error_of_isCancelled htype⟩
  · refine ⟨fun h => .inr (.inr fun type => h.missing rfl type (hwants type)), fun h => ?_⟩
    rcases h with ⟨type, hfound⟩ | ⟨type, htype⟩ | hdefinite
    · exact absurd ((found_eq_nil_iff outcome).mp hnone type) hfound
    · cases type <;> simp [htype] at hcut
    · exact ⟨by simp, fun _ type _ => hdefinite type, fun e he hne => absurd (Except.error.inj he).symm hne⟩
  · refine iff_of_true ⟨fun hnil => hnone (Except.ok.inj hnil), by simp, by simp⟩ (.inl ?_)
    rwa [found_eq_nil_iff, not_forall] at hnone

/-- **A lookup of a name that is neither a literal nor in the hosts file says what happened if and only if a single
family did not get an empty answer, and of two families one has an address or was cancelled or both have no record.** -/
theorem lookup_meaningful_iff (config : Config) (hosts : List SocketAddr) (outcome : RecordType → Resolved)
    (hfamily : config.ipv4 = true ∨ config.ipv6 = true) (hhosts : config.fromHosts hosts = []) :
    Meaningful config outcome (lookup config false none hosts outcome) ↔
      if config.ipv6 = false then outcome .a ≠ .ok []
      else if config.ipv4 = false then outcome .aaaa ≠ .ok [] else Conclusive outcome := by
  obtain ⟨ipv4, ipv6, useHostsFile⟩ := config
  simp only [lookup, hhosts, ne_eq, not_true_eq_false, and_false, if_false]
  cases ipv4 <;> cases ipv6
  · simp at hfamily
  · exact meaningful_single ⟨false, true, useHostsFile⟩ .aaaa (by rintro ⟨⟩ <;> simp [Config.Wants])
  · exact meaningful_single ⟨true, false, useHostsFile⟩ .a (by rintro ⟨⟩ <;> simp [Config.Wants])
  · exact meaningful_mergeFamilies ⟨true, true, useHostsFile⟩ (by rintro ⟨⟩ <;> rfl)

theorem lookup_meaningful_missing : Meaningful ⟨true, true, true⟩ (fun _ => .error .enoent)
      (lookup ⟨true, true, true⟩ false none [] fun _ => .error .enoent) :=
  (lookup_meaningful_iff ⟨true, true, true⟩ [] _ (.inl rfl) rfl).mpr (.inr (.inr fun _ => .inl rfl))

/-- Both families time out, and the lookup says that there is no such name. -/
theorem lookup_hides_timeout : ¬ ∀ (config : Config) (hosts : List SocketAddr) (outcome : RecordType → Resolved),
      config.ipv4 = true ∨ config.ipv6 = true → config.fromHosts hosts = [] →
        Meaningful config outcome (lookup config false none hosts outcome) := by
  intro hall
  have hmeaningful := hall ⟨true, true, true⟩ [] (fun _ => .error (.errc .timedOut)) (.inl rfl) rfl
  rcases hmeaningful.missing rfl .a rfl with h | h <;> cases h

end Cio.Dns
