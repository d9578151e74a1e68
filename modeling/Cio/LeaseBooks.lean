import Cio.LeaseSteps

/-! Who is to close a socket. One thread at a time is inside the lifecycle lock; the descriptor number of a
socket is in its `fd_`, with one of its closers, or closed, and the socket owns the node until that closer
has waited for the leases. -/

namespace Cio.Reactor.Lease

open CallPool State List Closer OwnerPc

/-! ### Where a close is -/

namespace Closer

def socket : Closer → Nat
  | .enter k | .exchange k | .lock k | .compare k | .clear k _ | .publish k _ | .unlock k _ | .detach k _
  | .wait k _ _ | .close k _ | .returned k => k

def inside : Closer → Nat
  | .compare _ | .clear _ _ | .publish _ _ | .unlock _ _ => 1
  | .enter _ | .exchange _ | .lock _ | .detach _ _ | .wait _ _ _ | .close _ _ | .returned _ => 0

/-- The close has taken the number and `desc_` is still there. -/
def clearing : Closer → Nat
  | .clear _ _ => 1
  | .enter _ | .exchange _ | .lock _ | .compare _ | .publish _ _ | .unlock _ _ | .detach _ _ | .wait _ _ _
  | .close _ _ | .returned _ => 0

/-- The close has taken the number and still holds the owner reference. -/
def holding : Closer → Nat
  | .clear _ _ | .publish _ _ | .unlock _ (some _) | .detach _ _ | .wait _ _ _ => 1
  | .enter _ | .exchange _ | .lock _ | .compare _ | .unlock _ none | .close _ _ | .returned _ => 0

def calling : Closer → Nat
  | .close _ _ => 1
  | .enter _ | .exchange _ | .lock _ | .compare _ | .clear _ _ | .publish _ _ | .unlock _ _ | .detach _ _
  | .wait _ _ _ | .returned _ => 0

def fd? : Closer → Option Int
  | .clear _ fd | .publish _ fd | .detach _ fd | .wait _ fd _ | .close _ fd => some fd
  | .unlock _ own => own
  | .enter _ | .exchange _ | .lock _ | .compare _ | .returned _ => none

/-- The close has seen or made `desc_` null. -/
def unlinked : Closer → Bool
  | .exchange _ | .publish _ _ | .unlock _ _ | .detach _ _ | .wait _ _ _ | .close _ _ | .returned _ => true
  | .enter _ | .lock _ | .compare _ | .clear _ _ => false

def on (k : Nat) (f : Closer → Nat) (c : Closer) : Nat := if c.socket = k then f c else 0

lemma on_self {k : Nat} {c : Closer} (f : Closer → Nat) (hc : c.socket = k) : c.on k f = f c := if_pos hc

lemma on_other {k : Nat} {c : Closer} (f : Closer → Nat) (hc : c.socket ≠ k) : c.on k f = 0 := if_neg hc

lemma clearing_le_inside (k : Nat) (c : Closer) : c.on k clearing ≤ c.inside := by
  unfold on
  split
  · cases c <;> simp [clearing, inside]
  · exact Nat.zero_le _

end Closer

/-! ### The lock -/

def Locked (s : State) : Prop := weight inside s.closers = s.locked.toNat

variable {s t : State} {k i : Nat} {sk : Socket} {p q c : Closer}

lemma Locked.move (h : Locked s) (hp : s.closers[i]? = some p) (hcs : t.closers = s.closers.set i q)
    (hlocked : t.locked.toNat + p.inside = s.locked.toNat + q.inside) : Locked t := by
  have hsum := weight_set inside hp q
  unfold Locked at h ⊢
  rw [hcs]
  omega

lemma Locked.of_inside (h : Locked s) (hp : s.closers[i]? = some p) (hin : p.inside = 1) : s.locked = true := by
  have hle := le_weight inside (mem_of_getElem? hp)
  rw [h, hin] at hle
  cases hlock : s.locked
  · rw [hlock] at hle
    cases hle
  · rfl

lemma step_locked (h : Locked s) (hs : Step s t) : Locked t := by
  cases hs with
  | attach | adopt | fail | abandon | adoptClose | operate | aside | capture | begin | finish | pin | free =>
    exact h
  | shut =>
    unfold Locked
    rw [weight_concat, h]
    rfl
  | enterLinked i k hc | enterUnlinked i k sk hc | detach i k fd hc | waited i k fd dir rest hc
  | release i k fd hc | skip i k fd hc | close i k fd sk hc | take i k sk hc | yield i k sk hc | clear i k fd sk hc
  | publish i k fd hc => exact h.move hc rfl rfl
  | exchange i k sk hc =>
    refine h.move hc rfl ?_
    split <;> rfl
  | lock i k hc hlock =>
    refine h.move hc rfl ?_
    rw [hlock]
    rfl
  | unlockOwn i k fd hc | unlockOther i k hc =>
    refine h.move hc rfl ?_
    rw [h.of_inside hc rfl]
    rfl

/-! ### The number and the owner reference of a socket -/

def Socket.kept (sk : Socket) : Nat := if sk.fd = -1 then 0 else 1

def OwnerPc.owned (k : Nat) (owner : OwnerPc) : Nat := if owner = .attached k then 1 else 0

/-- The books of a socket: where its number is, whether `desc_` is there, and whether the node is still
its own. -/
structure Books (s : State) (k : Nat) (sk : Socket) : Prop where
  number : sk.kept + weight (on k holding) s.closers + weight (on k calling) s.closers +
    sk.closes = 1
  linked : sk.desc.toNat = sk.kept + weight (on k clearing) s.closers
  owned : s.owner.owned k = sk.kept + weight (on k holding) s.closers

def Booked (s : State) : Prop := ∀ k sk, s.sockets[k]? = some sk → Books s k sk

lemma Booked.keep (h : Booked s) (hsks : t.sockets = s.sockets)
    (hcs : t.closers = s.closers) (howner : ∀ k, t.owner.owned k = s.owner.owned k) : Booked t := by
  intro k sk hsk
  rw [hsks] at hsk
  obtain ⟨hnum, hlink, howned⟩ := h k sk hsk
  rw [← hcs] at hnum hlink howned
  exact ⟨hnum, hlink, (howner k).trans howned⟩

lemma Booked.step (h : Booked s) (sk' : Socket) (hp : s.closers[i]? = some p) (hsk : s.sockets[k]? = some sk)
    (hcs : t.closers = s.closers.set i q) (hsks : t.sockets = s.sockets.set k sk') (hpk : p.socket = k)
    (hqk : q.socket = k) (howner : ∀ n, n ≠ k → t.owner.owned n = s.owner.owned n)
    (hnum : sk'.kept + q.holding + q.calling + sk'.closes = sk.kept + p.holding + p.calling + sk.closes)
    (hlink : sk'.desc.toNat + sk.kept + p.clearing = sk.desc.toNat + sk'.kept + q.clearing)
    (howned : t.owner.owned k + sk.kept + p.holding = s.owner.owned k + sk'.kept + q.holding) : Booked t := by
  have hsum : ∀ (n : Nat) (f : Closer → Nat), weight (on n f) t.closers + p.on n f =
      weight (on n f) s.closers + q.on n f := fun n f => by
    rw [hcs]
    exact weight_set _ hp q
  intro n sn hsn
  rw [hsks] at hsn
  have hhold := hsum n holding
  have hcall := hsum n calling
  have hclearing := hsum n clearing
  by_cases hn : n = k
  · subst hn
    rw [getElem?_set_self (List.getElem?_eq_some_iff.mp hsk).1] at hsn
    cases hsn
    obtain ⟨h1, h2, h3⟩ := h n sk hsk
    rw [on_self _ hpk, on_self _ hqk] at hhold hcall hclearing
    exact ⟨by omega, by omega, by omega⟩
  · rw [getElem?_set_ne (Ne.symm hn)] at hsn
    obtain ⟨h1, h2, h3⟩ := h n sn hsn
    have hpn : p.socket ≠ n := fun he => hn (he.symm.trans hpk)
    have hqn : q.socket ≠ n := fun he => hn (he.symm.trans hqk)
    rw [on_other _ hpn, on_other _ hqn] at hhold hcall hclearing
    have ho := howner n hn
    exact ⟨by omega, by omega, by omega⟩

lemma set_socket_self (hsk : s.sockets[k]? = some sk) : s.sockets.set k sk = s.sockets := by
  obtain ⟨hlt, rfl⟩ := List.getElem?_eq_some_iff.mp hsk
  exact set_getElem_self hlt

lemma Booked.move (h : Booked s) (hp : s.closers[i]? = some p) (hsk : ∃ sk, s.sockets[k]? = some sk)
    (hcs : t.closers = s.closers.set i q) (hsks : t.sockets = s.sockets) (howner : t.owner = s.owner)
    (hpk : p.socket = k) (hqk : q.socket = k) (hhold : q.holding = p.holding) (hcall : q.calling = p.calling)
    (hclearing : q.clearing = p.clearing) : Booked t := by
  obtain ⟨sk, hsk⟩ := hsk
  refine h.step sk hp hsk hcs (hsks.trans (set_socket_self hsk).symm) hpk hqk (fun n _ => by rw [howner]) ?_ ?_ ?_
  · omega
  · omega
  · rw [howner]
    omega

/-! ### Numbers -/

/-- Sockets keep their number and their incarnation, and a cleared `desc_` stays so. -/
def Follows (s t : State) : Prop :=
  ∀ (k : Nat) (sk : Socket), s.sockets[k]? = some sk → ∃ sk' : Socket, t.sockets[k]? = some sk' ∧
    sk'.number = sk.number ∧ sk'.inc = sk.inc ∧ (sk.desc = false → sk'.desc = false)

lemma Follows.of_eq (hsks : t.sockets = s.sockets) : Follows s t :=
  fun _ sk hsk => ⟨sk, hsks ▸ hsk, rfl, rfl, id⟩

lemma Follows.of_set {sk' : Socket} (hsk : s.sockets[k]? = some sk)
    (hsks : t.sockets = s.sockets.set k sk') (hnum : sk'.number = sk.number) (hinc : sk'.inc = sk.inc)
    (hdesc : sk.desc = false → sk'.desc = false) : Follows s t := by
  intro n sn hsn
  rw [hsks]
  by_cases hn : n = k
  · subst hn
    rw [hsk] at hsn
    cases hsn
    exact ⟨sk', getElem?_set_self (List.getElem?_eq_some_iff.mp hsk).1, hnum, hinc, hdesc⟩
  · exact ⟨sn, by rw [getElem?_set_ne (Ne.symm hn), hsn], rfl, rfl, id⟩

lemma step_follows (hs : Step s t) : Follows s t := by
  cases hs with
  | adopt =>
    intro k sk hsk
    exact ⟨sk, by rw [getElem?_append_left (List.getElem?_eq_some_iff.mp hsk).1, hsk], rfl, rfl, id⟩
  | exchange i k sk hc hsk | take i k sk hc hsk | close i k fd sk hc hsk => exact .of_set hsk rfl rfl rfl id
  | clear i k fd sk hc hsk => exact .of_set hsk rfl rfl rfl fun _ => rfl
  | _ => exact .of_eq rfl

structure Numbered (s : State) : Prop where
  socket : ∀ sk ∈ s.sockets, 0 ≤ sk.number ∧ (sk.fd = -1 ∨ sk.fd = sk.number)
  closer : ∀ c ∈ s.closers, ∃ sk : Socket, s.sockets[c.socket]? = some sk ∧ ∀ fd ∈ c.fd?, fd = sk.number
  unlinked : ∀ c ∈ s.closers, c.unlinked = true →
    ∃ sk : Socket, s.sockets[c.socket]? = some sk ∧ sk.desc = false
  opened : s.owner = .opened ∨ s.owner = .failed → 0 ≤ s.desc.fd

lemma Numbered.of_follows (hfol : Follows s t)
    (hsock : ∀ sk ∈ t.sockets, 0 ≤ sk.number ∧ (sk.fd = -1 ∨ sk.fd = sk.number))
    (hcl : ∀ c ∈ t.closers, ∃ sk : Socket, s.sockets[c.socket]? = some sk ∧ ∀ fd ∈ c.fd?, fd = sk.number)
    (hoff : ∀ c ∈ t.closers, c.unlinked →
      (∃ sk : Socket, s.sockets[c.socket]? = some sk ∧ sk.desc = false) ∨
        ∃ sk : Socket, t.sockets[c.socket]? = some sk ∧ sk.desc = false)
    (hopen : t.owner = .opened ∨ t.owner = .failed → 0 ≤ t.desc.fd) : Numbered t := by
  refine ⟨hsock, fun c hc => ?_, fun c hc hun => ?_, hopen⟩
  · obtain ⟨sk, hsk, hfd⟩ := hcl c hc
    obtain ⟨sk', hsk', hnum, -⟩ := hfol _ sk hsk
    exact ⟨sk', hsk', fun fd hmem => (hfd fd hmem).trans hnum.symm⟩
  · rcases hoff c hc hun with ⟨sk, hsk, hdesc⟩ | hnew
    · obtain ⟨sk', hsk', -, -, hkeep⟩ := hfol _ sk hsk
      exact ⟨sk', hsk', hkeep hdesc⟩
    · exact hnew

lemma Numbered.move (h : Numbered s) (hfol : Follows s t) (hp : s.closers[i]? = some p)
    (hcs : t.closers = s.closers.set i q) (hsock : q.socket = p.socket)
    (hfd : ∀ fd ∈ q.fd?, fd ∈ p.fd? ∨ ∀ sk : Socket, s.sockets[p.socket]? = some sk → fd = sk.number)
    (hq : q.unlinked → p.unlinked ∨ ∃ sk : Socket, t.sockets[p.socket]? = some sk ∧ sk.desc = false)
    (hsks : ∀ sk ∈ t.sockets, 0 ≤ sk.number ∧ (sk.fd = -1 ∨ sk.fd = sk.number))
    (hopen : t.owner = .opened ∨ t.owner = .failed → 0 ≤ t.desc.fd) : Numbered t := by
  have hpmem := mem_of_getElem? hp
  refine .of_follows hfol hsks ?_ ?_ hopen <;> rw [hcs]
  · refine forall_set h.closer ?_ i
    obtain ⟨sk, hsk, hown⟩ := h.closer p hpmem
    rw [hsock]
    refine ⟨sk, hsk, fun fd hmem => ?_⟩
    rcases hfd fd hmem with hpfd | heq
    · exact hown fd hpfd
    · exact heq sk hsk
  · refine forall_set (fun c hc hun => .inl (h.unlinked c hc hun)) (fun hun => ?_) i
    rw [hsock]
    exact (hq hun).imp (h.unlinked p hpmem) id

lemma Numbered.socket_set (h : Numbered s) {sk' : Socket}
    (hsk : s.sockets[k]? = some sk) (hnum : sk'.number = sk.number) (hfd : sk'.fd = -1 ∨ sk'.fd = sk.fd) :
    ∀ sn ∈ s.sockets.set k sk', 0 ≤ sn.number ∧ (sn.fd = -1 ∨ sn.fd = sn.number) := by
  obtain ⟨hpos, hold⟩ := h.socket sk (mem_of_getElem? hsk)
  refine forall_set h.socket ?_ k
  rw [hnum]
  refine ⟨hpos, ?_⟩
  rcases hfd with hfd | hfd
  · exact .inl hfd
  · rw [hfd]
    exact hold

lemma Numbered.fd_eq (h : Numbered s) (hsk : s.sockets[k]? = some sk)
    (hfd : sk.fd ≠ -1) : ∀ sn : Socket, s.sockets[k]? = some sn → sk.fd = sn.number := by
  intro sn hsn
  rw [hsk] at hsn
  cases hsn
  exact (h.socket sk (mem_of_getElem? hsk)).2.resolve_left hfd

structure Taken (s : State) : Prop where
  numbered : Numbered s
  locked : Locked s
  booked : Booked s

lemma Taken.fd_ne (h : Taken s) (hc : s.closers[i]? = some (.compare k)) (hsk : s.sockets[k]? = some sk)
    (hlink : sk.desc) : sk.fd ≠ -1 := by
  have halone : weight (on k clearing) s.closers = 0 := by
    rw [weight_eq_of_alone hc (clearing_le_inside k)]
    · exact on_self _ rfl
    · rw [h.locked]
      exact Bool.toNat_le _
  have hbook := (h.booked k sk hsk).linked
  rw [hlink, halone] at hbook
  intro hfd
  rw [Socket.kept, if_pos hfd] at hbook
  cases hbook

lemma Taken.fd_eq_of_unlinked (h : Taken s) (hsk : s.sockets[k]? = some sk) (hlink : sk.desc = false) : sk.fd = -1 := by
  have hbook := (h.booked k sk hsk).linked
  rw [hlink, Socket.kept] at hbook
  split at hbook
  · assumption
  · simp only [Bool.toNat_false] at hbook
    omega

lemma Taken.fd_eq_of_exchange (h : Taken s)
    (hc : s.closers[i]? = some (.exchange k)) (hsk : s.sockets[k]? = some sk) : sk.fd = -1 := by
  obtain ⟨sn, hsn, hlink⟩ := h.numbered.unlinked _ (mem_of_getElem? hc) rfl
  cases hsk.symm.trans hsn
  exact h.fd_eq_of_unlinked hsk hlink

lemma step_numbered (hs : Taken s) (hst : Step s t) : Numbered t := by
  have hfol := step_follows hst
  have h := hs.numbered
  cases hst with
  | attach fd hvac hlock hfd => exact ⟨h.socket, h.closer, h.unlinked, fun _ => hfd⟩
  | adopt hopen =>
    exact .of_follows hfol (forall_append h.socket ⟨h.opened (.inl hopen), .inr rfl⟩) h.closer
      (fun c hc hun => .inl (h.unlinked c hc hun)) (by simp)
  | fail hopen => exact ⟨h.socket, h.closer, h.unlinked, fun _ => h.opened (.inl hopen)⟩
  | abandon | free => exact ⟨h.socket, h.closer, h.unlinked, by simp⟩
  | adoptClose | operate | aside | capture | begin | finish | pin => exact { h with }
  | shut k hk =>
    exact .of_follows hfol h.socket (forall_append h.closer ⟨_, getElem?_eq_getElem hk, by simp [fd?]⟩)
      (forall_append (fun c hc hun => .inl (h.unlinked c hc hun)) nofun) h.opened
  | enterLinked i k hc | lock i k hc =>
    exact h.move hfol hc rfl rfl (by simp [fd?]) (by simp [unlinked]) h.socket h.opened
  | unlockOther i k hc | skip i k fd hc =>
    exact h.move hfol hc rfl rfl (by simp [fd?]) (fun _ => .inl rfl) h.socket h.opened
  | enterUnlinked i k sk hc hsk hlink | yield i k sk hc hsk hlink =>
    exact h.move hfol hc rfl rfl (by simp [fd?]) (fun _ => .inr ⟨sk, hsk, hlink⟩) h.socket h.opened
  | exchange i k sk hc hsk =>
    have hfd := hs.fd_eq_of_exchange hc hsk
    have hneg : ¬ 0 ≤ sk.fd := by omega
    refine h.move (q := .returned k) hfol hc ?_ rfl (by simp [fd?]) (fun _ => .inl rfl)
      (h.socket_set hsk rfl (.inl rfl)) h.opened
    rw [if_neg hneg]
    rfl
  | take i k sk hc hsk hlink =>
    refine h.move hfol hc rfl rfl (fun fd hfd => .inr ?_) (by simp [unlinked])
      (h.socket_set hsk rfl (.inl rfl)) h.opened
    cases hfd
    exact h.fd_eq hsk (hs.fd_ne hc hsk hlink)
  | clear i k fd sk hc hsk =>
    refine h.move hfol hc rfl rfl (fun _ hfd => .inl hfd) (fun _ => .inr ?_) (h.socket_set hsk rfl (.inr rfl)) h.opened
    exact ⟨_, getElem?_set_self (List.getElem?_eq_some_iff.mp hsk).1, rfl⟩
  | publish i k fd hc | unlockOwn i k fd hc | detach i k fd hc | waited i k fd dir rest hc =>
    exact h.move hfol hc rfl rfl (fun _ hfd => .inl hfd) (fun _ => .inl rfl) h.socket h.opened
  | release i k fd hc =>
    exact h.move hfol hc rfl rfl (fun _ hfd => .inl hfd) (fun _ => .inl rfl) h.socket (by simp [setCloser])
  | close i k fd sk hc hsk =>
    exact h.move hfol hc rfl rfl (by simp [fd?]) (fun _ => .inl rfl) (h.socket_set hsk rfl (.inr rfl)) h.opened

/-! ### Steps keep the books -/

lemma Socket.kept_of_ne (h : sk.fd ≠ -1) : sk.kept = 1 := if_neg h

lemma Booked.adopt (h : Booked s) (hnumbered : Numbered s) (hopen : s.owner = .opened) (sk : Socket)
    (hfd : sk.fd ≠ -1) (hdesc : sk.desc) (hend : sk.closes = 0) (hsks : t.sockets = s.sockets ++ [sk])
    (hcs : t.closers = s.closers) (howner : t.owner = .attached s.sockets.length) : Booked t := by
  intro k sn hsn
  rw [hsks] at hsn
  obtain hold | ⟨rfl, rfl⟩ := lookup_concat hsn
  · have hk := (List.getElem?_eq_some_iff.mp hold).1
    obtain ⟨h1, h2, h3⟩ := h k sn hold
    rw [← hcs] at h1 h2 h3
    refine ⟨h1, h2, ?_⟩
    rw [← h3, howner, hopen, owned, owned, if_neg, if_neg]
    · simp
    · rw [OwnerPc.attached.injEq]
      omega
  · have hnone : ∀ f : Closer → Nat, weight (on s.sockets.length f) t.closers = 0 := by
      intro f
      refine weight_eq_zero fun c hc => on_other f fun hsock => ?_
      obtain ⟨_, hold, -⟩ := hnumbered.closer c (hcs ▸ hc)
      have hlt := (List.getElem?_eq_some_iff.mp hold).1
      omega
    refine ⟨?_, ?_, ?_⟩
    · rw [hnone, hnone, Socket.kept_of_ne hfd, hend]
    · rw [hnone, Socket.kept_of_ne hfd, hdesc]
      rfl
    · rw [hnone, Socket.kept_of_ne hfd, howner, owned, if_pos rfl]

lemma Booked.owner_eq (h : Booked s) (hc : s.closers[i]? = some c) (hhold : c.holding = 1)
    (hsk : s.sockets[c.socket]? = some sk) : s.owner = .attached c.socket := by
  have hle := le_weight (on c.socket holding) (mem_of_getElem? hc)
  rw [on_self _ rfl, hhold] at hle
  have howned := (h _ sk hsk).owned
  rw [owned] at howned
  split at howned
  · assumption
  · omega

lemma step_booked (hs : Taken s) (hst : Step s t) : Booked t := by
  have h := hs.booked
  cases hst with
  | attach fd hvac => exact h.keep rfl rfl fun k => by rw [hvac]; rfl
  | adopt hopen =>
    have hpos := hs.numbered.opened (.inl hopen)
    refine h.adopt hs.numbered hopen
      { fd := s.desc.fd, desc := true, number := s.desc.fd, inc := s.inc } ?_ rfl rfl rfl rfl rfl
    show s.desc.fd ≠ -1
    omega
  | fail hopen => exact h.keep rfl rfl fun k => by rw [hopen]; rfl
  | abandon hfail => exact h.keep rfl rfl fun k => by rw [hfail]; rfl
  | free hgone => exact h.keep rfl rfl fun k => by rw [hgone]; rfl
  | adoptClose | operate | aside | capture | begin | finish | pin => exact h.keep rfl rfl fun _ => rfl
  | shut k =>
    intro n sn hsn
    obtain ⟨h1, h2, h3⟩ := h n sn hsn
    have happend : ∀ f : Closer → Nat, f (.enter k) = 0 →
        weight (on n f) (s.closers ++ [.enter k]) = weight (on n f) s.closers := by
      intro f hf
      rw [weight_concat]
      unfold on
      split
      · rw [hf, add_zero]
      · rfl
    refine ⟨?_, ?_, ?_⟩
    · rw [happend _ rfl, happend _ rfl]
      exact h1
    · rw [happend _ rfl]
      exact h2
    · rw [happend _ rfl]
      exact h3
  | enterLinked i k hc | enterUnlinked i k sk hc | lock i k hc | yield i k sk hc | publish i k fd hc
  | unlockOwn i k fd hc | unlockOther i k hc | detach i k fd hc | waited i k fd dir rest hc =>
    obtain ⟨sk, hsk, -⟩ := hs.numbered.closer _ (mem_of_getElem? hc)
    exact h.move hc ⟨sk, hsk⟩ rfl rfl rfl rfl rfl rfl rfl rfl
  | exchange i k sk hc hsk =>
    have hfd := hs.fd_eq_of_exchange hc hsk
    have hneg : ¬ 0 ≤ sk.fd := by omega
    refine h.step (q := .returned k) { sk with fd := -1 } hc hsk ?_ rfl rfl rfl (fun _ _ => rfl) ?_ ?_ ?_
    · rw [if_neg hneg]
      rfl
    all_goals simp only [Socket.kept, hfd, holding, calling, clearing]
    rfl
  | take i k sk hc hsk hlink =>
    have hkept := Socket.kept_of_ne (hs.fd_ne hc hsk hlink)
    have hkept' : ({ sk with fd := -1 } : Socket).kept = 0 := if_pos rfl
    refine h.step { sk with fd := -1 } hc hsk rfl rfl rfl rfl (fun _ _ => rfl) ?_ ?_ ?_ <;>
      simp only [hkept, hkept', holding, calling, clearing, setCloser, setSocket]
  | clear i k fd sk hc hsk =>
    have hself : (clear k fd).on k clearing = 1 := on_self _ rfl
    have hle := le_weight (on k clearing) (mem_of_getElem? hc)
    have hlink := (h k sk hsk).linked
    have hone := Bool.toNat_le sk.desc
    refine h.step { sk with desc := false } hc hsk rfl rfl rfl rfl (fun _ _ => rfl) ?_ ?_ ?_ <;>
      simp only [Socket.kept, holding, calling, clearing, setCloser, setSocket, Bool.toNat_false] at hlink ⊢ <;> omega
  | release i k fd hc =>
    obtain ⟨sk, hsk, -⟩ := hs.numbered.closer _ (mem_of_getElem? hc)
    have howner := h.owner_eq hc rfl hsk
    refine h.step sk hc hsk rfl (set_socket_self hsk).symm rfl rfl (fun n hn => ?_) rfl ?_ ?_
    · rw [howner, owned, owned, if_neg, if_neg]
      · rw [OwnerPc.attached.injEq]
        exact Ne.symm hn
      · simp [setCloser]
    · simp only [clearing]
    · rw [howner, owned, owned, if_pos rfl, if_neg]
      · simp only [holding]
        omega
      · simp [setCloser]
  | skip i k fd hc =>
    obtain ⟨sk, hsk, hnum⟩ := hs.numbered.closer _ (mem_of_getElem? hc)
    have hpos := (hs.numbered.socket sk (mem_of_getElem? hsk)).1
    rw [← hnum fd rfl] at hpos
    omega
  | close i k fd sk hc hsk =>
    refine h.step { sk with closes := sk.closes + 1 } hc hsk rfl rfl rfl rfl (fun _ _ => rfl) ?_ ?_ ?_ <;>
      simp only [Socket.kept, holding, calling, clearing, setCloser, setSocket] <;> omega

end Cio.Reactor.Lease
