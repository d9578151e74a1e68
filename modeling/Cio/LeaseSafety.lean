import Cio.LeaseOwner
import Mathlib.Data.List.Count
import Mathlib.Data.List.Nodup

/-! No native call on a released descriptor. Open numbers are accounted for one by one, so the number an
operation has leased is neither closed nor about to be; each socket's number is closed exactly once, and
after that its incarnation grants no lease. The generation is a 32-bit word, and with `2 ^ 32` recyclings
between the capture and the lease all of this fails. -/

namespace Cio.Reactor.Lease

open CallPool State List Closer OwnerPc Option

/-! ### Open numbers -/

def OwnerPc.adopting (own fd : Int) : OwnerPc → Nat
  | .opened | .failed => if own = fd then 1 else 0
  | .vacant | .attached _ | .gone => 0

def Socket.live (fd : Int) (sk : Socket) : Nat := if sk.closes = 0 ∧ sk.number = fd then 1 else 0

/-- Every open number has one owner. -/
structure Native (s : State) : Prop where
  nodup : s.native.Nodup
  count : ∀ fd, s.native.count fd =
    s.owner.adopting s.desc.fd fd + weight (Socket.live fd) s.sockets + s.adopters.count fd

variable {s t : State} {sk : Socket} {fd : Int} {k i : Nat}

lemma Native.keep (h : Native s) (hnat : t.native = s.native) (hadp : t.adopters = s.adopters)
    (howner : ∀ fd, t.owner.adopting t.desc.fd fd = s.owner.adopting s.desc.fd fd)
    (hlive : ∀ fd, weight (Socket.live fd) t.sockets = weight (Socket.live fd) s.sockets) : Native t := by
  refine ⟨hnat ▸ h.nodup, fun fd => ?_⟩
  rw [hnat, hadp, howner, hlive]
  exact h.count fd

lemma Native.set (h : Native s) {sk' : Socket} (hsk : s.sockets[k]? = some sk)
    (hnat : t.native = s.native) (hadp : t.adopters = s.adopters) (howner : t.owner = s.owner)
    (hdesc : t.desc = s.desc) (hsks : t.sockets = s.sockets.set k sk') (hnum : sk'.number = sk.number)
    (hend : sk'.closes = sk.closes) : Native t := by
  refine h.keep hnat hadp (fun fd => by rw [howner, hdesc]) fun fd => ?_
  have hsum := weight_set (Socket.live fd) hsk sk'
  have hsame : sk'.live fd = sk.live fd := by rw [Socket.live, Socket.live, hnum, hend]
  rw [hsks]
  omega

lemma Native.attach (h : Native s) (hvac : s.owner = .vacant)
    (hnew : fd ∉ s.native) (hnat : t.native = fd :: s.native) (hadp : t.adopters = s.adopters)
    (howner : t.owner = .opened) (hfd : t.desc.fd = fd) (hsks : t.sockets = s.sockets) : Native t := by
  refine ⟨?_, fun n => ?_⟩
  · rw [hnat, nodup_cons]
    exact ⟨hnew, h.nodup⟩
  · have hcount := h.count n
    rw [hvac] at hcount
    rw [hnat, hadp, howner, hfd, hsks, count_cons]
    simp only [adopting, beq_iff_eq] at hcount ⊢
    omega

lemma Native.erase (h : Native s) (hnat : t.native = s.native.erase fd)
    (howner : t.owner = s.owner) (hdesc : t.desc = s.desc)
    (hgone : ∀ n, weight (Socket.live n) t.sockets + t.adopters.count n + (if n = fd then 1 else 0) =
      weight (Socket.live n) s.sockets + s.adopters.count n) : Native t := by
  refine ⟨hnat ▸ h.nodup.erase fd, fun n => ?_⟩
  have hcount := h.count n
  have hn := hgone n
  rw [hnat, howner, hdesc]
  by_cases heq : n = fd
  · subst heq
    rw [count_erase_self]
    rw [if_pos rfl] at hn
    omega
  · rw [count_erase_of_ne heq]
    rw [if_neg heq] at hn
    omega

lemma Taken.of_calling (hs : Taken s) (hc : s.closers[i]? = some (.close k fd)) (hsk : s.sockets[k]? = some sk) :
    sk.closes = 0 ∧ sk.number = fd := by
  have hself : (close k fd).on k calling = 1 := on_self _ rfl
  have hle := le_weight (on k calling) (mem_of_getElem? hc)
  have hnum := (hs.booked k sk hsk).number
  obtain ⟨sn, hsn, hfd⟩ := hs.numbered.closer _ (mem_of_getElem? hc)
  cases hsk.symm.trans hsn
  exact ⟨by omega, (hfd fd rfl).symm⟩

lemma step_native (hs : Taken s) (h : Native s) (hst : Step s t) : Native t := by
  cases hst with
  | attach fd hvac hlock hfd hnew => exact h.attach hvac hnew rfl rfl rfl rfl rfl
  | adopt hopened =>
    refine ⟨h.nodup, fun fd => ?_⟩
    have hcount := h.count fd
    rw [hopened] at hcount
    rw [weight_concat]
    simp only [adopting, Socket.live, true_and] at hcount ⊢
    omega
  | fail hopened => exact h.keep rfl rfl (fun fd => by rw [hopened]; rfl) fun _ => rfl
  | abandon hfail =>
    refine ⟨h.nodup, fun fd => ?_⟩
    have hcount := h.count fd
    rw [hfail] at hcount
    rw [count_cons]
    simp only [adopting, beq_iff_eq] at hcount ⊢
    omega
  | adoptClose fd hfd =>
    refine h.erase rfl rfl rfl fun n => ?_
    by_cases heq : n = fd
    · subst heq
      have hpos := count_pos_iff.mpr hfd
      dsimp only
      rw [count_erase_self, if_pos rfl]
      omega
    · rw [count_erase_of_ne heq, if_neg heq]
      rfl
  | free hgone => exact h.keep rfl rfl (fun fd => by rw [hgone]; rfl) fun _ => rfl
  | release i k fd hc =>
    obtain ⟨sk, hsk, -⟩ := hs.numbered.closer _ (mem_of_getElem? hc)
    have howner := hs.booked.owner_eq hc rfl hsk
    exact h.keep rfl rfl (fun fd => by rw [howner]; rfl) fun _ => rfl
  | exchange i k sk hc hsk | take i k sk hc hsk | clear i k fd sk hc hsk =>
    exact h.set hsk rfl rfl rfl rfl rfl rfl rfl
  | close i k fd sk hc hsk =>
    obtain ⟨hend, hnum⟩ := hs.of_calling hc hsk
    refine h.erase rfl rfl rfl fun n => ?_
    have hsum := weight_set (Socket.live n) hsk { sk with closes := sk.closes + 1 }
    have hbefore : sk.live n = if n = fd then 1 else 0 := by
      rw [Socket.live, hend, hnum]
      simp only [true_and, eq_comm]
    have hafter : ({ sk with closes := sk.closes + 1 } : Socket).live n = 0 :=
      if_neg fun hzero => absurd hzero.1 (Nat.succ_ne_zero _)
    simp only [setCloser, setSocket]
    omega
  | operate | shut | aside | capture | begin | finish | enterLinked | enterUnlinked | lock | yield | publish
  | unlockOwn | unlockOther | detach | waited | skip | pin => exact h.keep rfl rfl (fun _ => rfl) fun _ => rfl

/-! ### The invariant -/

structure Kept (s : State) : Prop where
  taken : Taken s
  owned : Owned s
  leased : Leased s
  native : Native s

lemma kept_init : Kept {} where
  taken := ⟨⟨by simp, by simp, by simp, by simp⟩, rfl, by simp [Booked]⟩
  owned := ⟨rfl, by simp, by simp, by simp, by simp, by simp⟩
  leased := ⟨fun dir => rfl, by simp, by simp⟩
  native := ⟨nodup_nil, fun fd => rfl⟩

lemma step_kept {act : Act} (h : Kept s) (hfresh : CapturesFresh s act) (hs : leaseStep s act = some t) : Kept t := by
  have hcases := leaseStep_cases hs
  exact ⟨⟨step_numbered h.taken hcases, step_locked h.taken.locked hcases, step_booked h.taken hcases⟩,
    step_owned h.taken h.owned hcases, step_leased h.taken h.owned h.leased hfresh hcases,
    step_native h.taken h.native hcases⟩

lemma kept_of_reachable (hs : leaseSystem.ReachableVia CapturesFresh s) : Kept s := by
  refine hs.invariant ?_ ?_
  · rintro _ rfl
    exact kept_init
  · intro s act t h hfresh hst
    exact step_kept h hfresh hst

/-! ### Safety -/

lemma Taken.closes_eq_zero (h : Taken s) (hsk : s.sockets[k]? = some sk) (howner : s.owner = .attached k) :
    sk.closes = 0 ∧ weight (on k calling) s.closers = 0 := by
  obtain ⟨hnum, -, howned⟩ := h.booked k sk hsk
  rw [howner, owned, if_pos rfl] at howned
  omega

/-- No native call on a released descriptor. `::close` is executed at most once for each socket, and once
when its closes have returned; a close can go on unless it waits for the lock or a lease. A leased number is
open, belongs to the socket the operation captured, and nobody is about to close it; and a socket that was
closed grants no lease. -/
structure LeaseSafe (s : State) : Prop where
  once : ∀ (k : Nat) (sk : Socket), s.sockets[k]? = some sk → sk.closes ≤ 1
  closed : ∀ (k : Nat) (sk : Socket), s.sockets[k]? = some sk → .returned k ∈ s.closers →
    (∀ c ∈ s.closers, c.socket = k → c = .returned k) → sk.closes = 1
  progress : ∀ i c, s.closers[i]? = some c → c ≠ .returned c.socket →
    (leaseStep s (.closer i)).isSome ∨
      (s.locked = true ∧ ∃ j, (leaseStep s (.closer j)).isSome) ∨ ∃ tok dir fd, .leased tok dir fd ∈ s.ops
  leased : ∀ tok dir fd, .leased tok dir fd ∈ s.ops →
    fd ∈ s.native ∧ fd ∉ s.adopters ∧ (∀ k, .close k fd ∉ s.closers) ∧
      ∃ sk : Socket, s.sockets[tok.socket]? = some sk ∧ sk.number = fd ∧ sk.closes = 0
  refused : ∀ act, CapturesFresh s act → ∀ tok dir, .captured tok dir ∈ s.ops →
    ∀ sk : Socket, s.sockets[tok.socket]? = some sk → sk.closes = 1 →
      ∀ env, s.desc.beginSyscall env dir tok.generation = .error (.errc .closed)

lemma Kept.closed (h : Kept s) (hsk : s.sockets[k]? = some sk) (hret : .returned k ∈ s.closers)
    (hall : ∀ c ∈ s.closers, c.socket = k → c = .returned k) : sk.closes = 1 := by
  have hnone : ∀ f : Closer → Nat, f (.returned k) = 0 → weight (on k f) s.closers = 0 := by
    intro f hf
    refine weight_eq_zero fun c hc => ?_
    unfold on
    split
    · rename_i hsock
      rw [hall c hc hsock, hf]
    · rfl
  obtain ⟨sn, hsn, hlink⟩ := h.taken.numbered.unlinked _ hret rfl
  cases hsk.symm.trans hsn
  have hnum := (h.taken.booked k sk hsk).number
  rw [hnone _ rfl, hnone _ rfl, Socket.kept, if_pos (h.taken.fd_eq_of_unlinked hsk hlink)] at hnum
  omega

lemma Kept.leased_safe (h : Kept s) {tok : Token} {dir : Dir} (hop : .leased tok dir fd ∈ s.ops) :
    fd ∈ s.native ∧ fd ∉ s.adopters ∧ (∀ k, .close k fd ∉ s.closers) ∧
      ∃ sk : Socket, s.sockets[tok.socket]? = some sk ∧ sk.number = fd ∧ sk.closes = 0 := by
  obtain ⟨howner, hfd⟩ := h.leased.held tok dir fd hop
  obtain ⟨sk, hsk, -, hnum⟩ := h.owned.attached _ howner
  obtain ⟨hend, hcall⟩ := h.taken.closes_eq_zero hsk howner
  have hlive : sk.live fd = 1 := if_pos ⟨hend, by rw [← hnum, hfd]⟩
  have hle := le_weight (Socket.live fd) (mem_of_getElem? hsk)
  have hcount := h.native.count fd
  have hone := nodup_iff_count_le_one.mp h.native.nodup fd
  refine ⟨count_pos_iff.mp (by omega), fun hmem => ?_, fun k hmem => ?_, sk, hsk, by rw [← hnum, hfd], hend⟩
  · have hpos := count_pos_iff.mpr hmem
    omega
  · obtain ⟨i, hi⟩ := mem_iff_getElem?.mp hmem
    obtain ⟨sn, hsn, -⟩ := h.taken.numbered.closer _ hmem
    obtain ⟨hcloses', hnumber'⟩ := h.taken.of_calling hi hsn
    have hlive' : sn.live fd = 1 := if_pos ⟨hcloses', hnumber'⟩
    have heq := eq_of_weight_le_one (f := Socket.live fd) hsk hsn (by omega) (by omega) (by omega)
    -- The close of the leased socket itself is still waiting.
    have hself : (close k fd).on k calling = 1 := on_self _ rfl
    have hin := le_weight (on k calling) hmem
    rw [heq] at hcall
    simp only [socket] at hcall
    omega

lemma Kept.refused (h : Kept s) {act : Act} (hfresh : CapturesFresh s act) {tok : Token} {dir : Dir}
    (hop : .captured tok dir ∈ s.ops) (hsk : s.sockets[tok.socket]? = some sk) (hend : sk.closes = 1) (env : Env Unit) :
    s.desc.beginSyscall env dir tok.generation = .error (.errc .closed) := by
  refine if_pos ?_
  by_contra hopen
  simp only [not_or, ne_eq, not_not, Bool.not_eq_true] at hopen
  have howner := h.owned.owner_of_open hop rfl (hfresh _ hop tok rfl) hopen.1 hopen.2.1
  rw [(h.taken.closes_eq_zero hsk howner).1] at hend
  cases hend

lemma Kept.inside_isSome (h : Kept s) {c : Closer} (hc : s.closers[i]? = some c)
    (hinside : 0 < c.inside) : (leaseStep s (.closer i)).isSome := by
  obtain ⟨sk, hsk, -⟩ := h.taken.numbered.closer c (mem_of_getElem? hc)
  rw [leaseStep, hc]
  cases c with
  | compare =>
    simp only [closerStep, socket] at hsk ⊢
    rw [hsk]
    cases hlink : sk.desc <;> simp [hlink]
  | clear =>
    simp only [closerStep, socket] at hsk ⊢
    rw [hsk]
    rfl
  | publish | unlock => rfl
  | enter | exchange | lock | detach | wait | close | returned => cases hinside

lemma Kept.progress (h : Kept s) {c : Closer} (hc : s.closers[i]? = some c) (hact : c ≠ .returned c.socket) :
    (leaseStep s (.closer i)).isSome ∨
      (s.locked ∧ ∃ j, (leaseStep s (.closer j)).isSome) ∨ ∃ tok dir fd, .leased tok dir fd ∈ s.ops := by
  obtain ⟨sk, hsk, -⟩ := h.taken.numbered.closer c (mem_of_getElem? hc)
  have hholder : s.locked → ∃ j, (leaseStep s (.closer j)).isSome := by
    intro hlock
    have hpos : 0 < weight inside s.closers := by
      rw [h.taken.locked, hlock]
      exact Nat.one_pos
    obtain ⟨holder, hmem, hinside⟩ := exists_of_weight_pos hpos
    obtain ⟨j, hj⟩ := mem_iff_getElem?.mp hmem
    exact ⟨j, h.inside_isSome hj hinside⟩
  by_cases hinside : 0 < c.inside
  · exact .inl (h.inside_isSome hc hinside)
  cases c with
  | enter | exchange =>
    left
    rw [leaseStep, hc]
    simp only [closerStep, socket] at hsk ⊢
    rw [hsk]
    rfl
  | lock | detach =>
    cases hlock : s.locked
    · left
      rw [leaseStep, hc]
      simp [closerStep, hlock]
    · exact .inr (.inl ⟨rfl, hholder hlock⟩)
  | wait k fd rest =>
    cases rest with
    | nil =>
      left
      rw [leaseStep, hc]
      rfl
    | cons dir =>
      cases hbusy : s.desc.syscallActive dir
      · left
        rw [leaseStep, hc]
        simp [closerStep, hbusy]
      · have hpos : 0 < weight (Operation.leasing dir) s.ops := by
          rw [h.leased.active, hbusy]
          exact Nat.one_pos
        obtain ⟨op, hop, hlease⟩ := exists_of_weight_pos hpos
        cases op with
        | leased tok dir' fd' => exact .inr (.inr ⟨tok, dir', fd', hop⟩)
        | load | capture | captured | returned => cases hlease
  | close =>
    left
    rw [leaseStep, hc]
    simp only [closerStep, socket] at hsk ⊢
    rw [hsk]
    simp only [bind_eq_bind, bind_some]
    split <;> rfl
  | returned => exact absurd rfl hact
  | compare | clear | publish | unlock => exact absurd Nat.one_pos hinside

/-- **No native call reaches a released descriptor** in any run in which the node is recycled fewer than
`2 ^ 32` times between an operation's capture and its last lease. -/
theorem lease_safe {s : State} (hs : leaseSystem.ReachableVia CapturesFresh s) : LeaseSafe s := by
  have h := kept_of_reachable hs
  refine ⟨fun k sk hsk => ?_, fun k sk hsk => h.closed hsk, fun i c hc => h.progress hc,
    fun tok dir fd hop => h.leased_safe hop, fun act hfresh tok dir hop sk hsk => h.refused hfresh hop hsk⟩
  have hnum := (h.taken.booked k sk hsk).number
  omega

def calm : Env Unit := { now := 0, stopping := false, fired := fun _ => false }

theorem lease_safe_waiting : ∃ s : State, leaseSystem.ReachableVia CapturesFresh s ∧ LeaseSafe s ∧
    s.ops = [.leased ⟨0, 0, 0⟩ .read 5] ∧ s.closers = [.wait 0 5 [.read, .write]] := by
  obtain ⟨s, hs, hp⟩ := leaseSystem.reachableVia_of_run CapturesFresh {}
    [.attach 5, .adopt true, .operate 0 .read, .op 0 calm false, .op 0 calm false, .op 0 calm false, .shut 0,
     .closer 0, .closer 0, .closer 0, .closer 0, .closer 0, .closer 0, .closer 0]
    (fun s => s.ops = [.leased ⟨0, 0, 0⟩ .read 5] ∧ s.closers = [.wait 0 5 [.read, .write]])
    rfl (by decide +kernel)
  exact ⟨s, hs, lease_safe hs, hp⟩

/-! ### The generation wraps -/

/-- An operation has captured the first incarnation, its socket is closed, and the node was recycled `inc`
times. -/
def recycled (inc : Nat) (generation : UInt32) : State where
  desc := { fd := -1, generation := generation, refs := 0, closing := true }
  inc := inc
  sockets := [{ fd := -1, desc := false, number := 5, inc := 0, closes := 1 }]
  ops := [.captured ⟨0, 0, 0⟩ .read]
  closers := [.returned 0]

lemma recycled_reachable (n : Nat) : leaseSystem.Reachable (recycled (n + 1) (WrapCounter.word (n + 1))) := by
  induction n with
  | zero =>
    have hinit : leaseSystem.Reachable {} := .start rfl
    have hrun : leaseSystem.run {} [.attach 5, .adopt true, .operate 0 .read, .op 0 calm false,
        .op 0 calm false, .shut 0, .closer 0, .closer 0, .closer 0, .closer 0, .closer 0, .closer 0,
        .closer 0, .closer 0, .closer 0, .closer 0, .closer 0, .free] = some (recycled 1 1) := rfl
    exact hinit.run hrun
  | succ n ih =>
    have hword := WrapCounter.word_add (n + 1) 1
    rw [← hword]
    have hrun : leaseSystem.run (recycled (n + 1) (WrapCounter.word (n + 1)))
        [.attach 7, .adopt false, .abandon, .adoptClose 7, .free] = some (recycled (n + 2) _) := rfl
    exact ih.run hrun

/-- Without the bound on recyclings a socket that is closed grants a lease, on a number that is then closed
inside it: the operation captured the first incarnation, and the same generation comes back with an `adopt`
that fails. -/
theorem stale_lease : ∃ s : State, leaseSystem.Reachable s ∧ .leased ⟨0, 0, 0⟩ .read 7 ∈ s.ops ∧
    (∃ sk : Socket, s.sockets[0]? = some sk ∧ sk.number = 5 ∧ sk.closes = 1) ∧ 7 ∉ s.native := by
  have hwrap := recycled_reachable (2 ^ 32 - 1)
  obtain ⟨t, ht, hp⟩ := Option.map_eq_some_iff.mp (show ((leaseSystem.run
      (recycled (2 ^ 32 - 1 + 1) (WrapCounter.word (2 ^ 32 - 1 + 1)))
      [.attach 7, .op 0 calm false, .adopt false, .abandon, .adoptClose 7]).map fun s =>
        decide (.leased ⟨0, 0, 0⟩ .read 7 ∈ s.ops ∧
          s.sockets = [{ fd := -1, desc := false, number := 5, inc := 0, closes := 1 }] ∧ 7 ∉ s.native)) =
      some true by decide +kernel)
  obtain ⟨hop, hsks, hnat⟩ := of_decide_eq_true hp
  exact ⟨t, hwrap.run ht, hop, ⟨_, by rw [hsks]; rfl, rfl, rfl⟩, hnat⟩

end Cio.Reactor.Lease
