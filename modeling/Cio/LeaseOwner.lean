import Cio.LeaseBooks

/-! A lease keeps the node and the number. While an operation is inside its system call the node belongs to
the socket it captured and the native number is that socket's; a close that has published `closing` waits for
the leases, and none begins after that. -/

namespace Cio.Reactor.Lease

open CallPool WrapCounter Function List Closer

/-! ### Incarnations -/

/-- The close has published `closing` and still holds the owner reference. -/
def Closer.past : Closer → Bool
  | .unlock _ (some _) | .detach _ _ | .wait _ _ _ => true
  | .enter _ | .exchange _ | .lock _ | .compare _ | .clear _ _ | .publish _ _ | .unlock _ none | .close _ _
  | .returned _ => false

lemma Closer.holding_of_past {c : Closer} (h : c.past) : c.holding = 1 := by
  unfold past at h
  split at h
  · rfl
  · rfl
  · rfl
  all_goals cases h

/-- The node belongs to the socket of its incarnation. -/
structure Owned (s : State) : Prop where
  generation : s.desc.generation = word s.inc
  attached : ∀ k, s.owner = .attached k →
    ∃ sk : Socket, s.sockets[k]? = some sk ∧ sk.inc = s.inc ∧ s.desc.fd = sk.number
  socket : ∀ (k : Nat) (sk : Socket), s.sockets[k]? = some sk →
    sk.inc ≤ s.inc ∧ (sk.inc = s.inc → s.owner = .attached k ∨ s.owner = .gone)
  closing : s.owner = .failed ∨ s.owner = .gone → s.desc.closing = true
  past : ∀ c ∈ s.closers, c.past = true → s.desc.closing = true
  token : ∀ op ∈ s.ops, ∀ tok ∈ op.token?, tok.generation = word tok.inc ∧
    ∃ sk : Socket, s.sockets[tok.socket]? = some sk ∧ sk.inc = tok.inc

variable {s t : State} {i : Nat} {op op' : Operation} {dir : Dir} {tok : Token}

lemma Taken.not_past (h : Taken s) (howner : ∀ k, s.owner ≠ .attached k) {c : Closer}
    (hc : c ∈ s.closers) : c.past = false := by
  rw [Bool.eq_false_iff]
  intro hpast
  obtain ⟨i, hi⟩ := mem_iff_getElem?.mp hc
  obtain ⟨sk, hsk, -⟩ := h.numbered.closer c hc
  exact howner _ (h.booked.owner_eq hi (holding_of_past hpast) hsk)

lemma Taken.owner_eq_of_linked (h : Taken s) {k : Nat} {sk : Socket} (hsk : s.sockets[k]? = some sk)
    (hlinked : sk.desc) (hlock : s.locked = false) : s.owner = .attached k := by
  have hin := weight_mono (clearing_le_inside k) s.closers
  rw [h.locked, hlock] at hin
  obtain ⟨-, hlink, howned⟩ := h.booked k sk hsk
  rw [hlinked] at hlink
  simp only [Bool.toNat_true, Bool.toNat_false, OwnerPc.owned] at hlink hin howned
  split at howned
  · assumption
  · omega

lemma Owned.keep (h : Owned s) (hfol : Follows s t)
    (hlen : t.sockets.length = s.sockets.length) (hgen : t.desc.generation = s.desc.generation)
    (hfd : t.desc.fd = s.desc.fd) (hinc : t.inc = s.inc) (howner : t.owner = s.owner)
    (hend : s.desc.closing → t.desc.closing) (hpast : ∀ c ∈ t.closers, c.past → c ∈ s.closers ∨ t.desc.closing)
    (htoken : ∀ op ∈ t.ops, ∀ tok ∈ op.token?, tok.generation = word tok.inc ∧
      ∃ sk : Socket, s.sockets[tok.socket]? = some sk ∧ sk.inc = tok.inc) : Owned t where
  generation := by rw [hgen, hinc, h.generation]
  attached k hk := by
    obtain ⟨sk, hsk, hsinc, hnum⟩ := h.attached k (howner ▸ hk)
    obtain ⟨sk', hsk', hn, hi, -⟩ := hfol k sk hsk
    exact ⟨sk', hsk', by rw [hi, hsinc, hinc], by rw [hfd, hnum, hn]⟩
  socket k sk' hsk' := by
    have hlt := (List.getElem?_eq_some_iff.mp hsk').1
    rw [hlen] at hlt
    have hsk := getElem?_eq_getElem hlt
    obtain ⟨sk'', hsk'', -, hi, -⟩ := hfol k _ hsk
    cases hsk'.symm.trans hsk''
    rw [hi, hinc, howner]
    exact h.socket k _ hsk
  closing ho := hend (h.closing (howner ▸ ho))
  past c hc hp := by
    rcases hpast c hc hp with hold | hnew
    · exact hend (h.past c hold hp)
    · exact hnew
  token op hop tok htok := by
    obtain ⟨hword, sk, hsk, hi⟩ := htoken op hop tok htok
    obtain ⟨sk', hsk', -, hi', -⟩ := hfol _ sk hsk
    exact ⟨hword, sk', hsk', hi'.trans hi⟩

lemma Owned.move (h : Owned s) (hfol : Follows s t) {p q : Closer}
    (hp : s.closers[i]? = some p) (hcs : t.closers = s.closers.set i q) (hops : t.ops = s.ops)
    (hlen : t.sockets.length = s.sockets.length) (hgen : t.desc.generation = s.desc.generation)
    (hfd : t.desc.fd = s.desc.fd) (hinc : t.inc = s.inc) (howner : t.owner = s.owner)
    (hend : s.desc.closing → t.desc.closing) (hq : q.past → p.past ∨ t.desc.closing) : Owned t := by
  refine h.keep hfol hlen hgen hfd hinc howner hend ?_ ?_
  · rw [hcs]
    refine forall_set (fun c hc _ => .inl hc) (fun hpast => .inr ((hq hpast).elim (fun hpp => ?_) id)) i
    exact hend (h.past p (mem_of_getElem? hp) hpp)
  · rw [hops]
    exact h.token

lemma Owned.operate (h : Owned s) (op' : Operation) (hsks : t.sockets = s.sockets)
    (hcs : t.closers = s.closers) (hops : ∀ op ∈ t.ops, op ∈ s.ops ∨ op = op')
    (hgen : t.desc.generation = s.desc.generation) (hfd : t.desc.fd = s.desc.fd)
    (hinc : t.inc = s.inc) (howner : t.owner = s.owner) (hend : t.desc.closing = s.desc.closing)
    (htoken : ∀ tok ∈ op'.token?, tok.generation = word tok.inc ∧
      ∃ sk : Socket, s.sockets[tok.socket]? = some sk ∧ sk.inc = tok.inc) : Owned t := by
  refine h.keep (.of_eq hsks) (by rw [hsks]) hgen hfd hinc howner (hend ▸ id)
    (fun c hc _ => .inl (hcs ▸ hc)) fun op hop => ?_
  rcases hops op hop with hold | rfl
  · exact h.token op hold
  · exact htoken

lemma mem_setOp (hops : t.ops = s.ops.set i op') : ∀ op ∈ t.ops, op ∈ s.ops ∨ op = op' :=
  fun _ hop => mem_or_eq_of_mem_set (hops ▸ hop)

lemma Owned.adopt (h : Owned s) (hfol : Follows s t) (hopened : s.owner = .opened)
    (hdesc : t.desc = s.desc) (hinc : t.inc = s.inc) (hcs : t.closers = s.closers)
    (hops : t.ops = s.ops) (howner : t.owner = .attached s.sockets.length)
    (hsks : t.sockets = s.sockets ++ [{ fd := s.desc.fd, desc := true, number := s.desc.fd, inc := s.inc }]) :
    Owned t where
  generation := by rw [hdesc, hinc, h.generation]
  attached k hk := by
    rw [howner, OwnerPc.attached.injEq] at hk
    subst hk
    exact ⟨_, by rw [hsks, getElem?_concat_length], hinc.symm, by rw [hdesc]⟩
  socket k sk hsk := by
    rw [hsks] at hsk
    rw [hinc, howner]
    obtain hold | ⟨rfl, rfl⟩ := lookup_concat hsk
    · obtain ⟨hle, hcur⟩ := h.socket k sk hold
      refine ⟨hle, fun heq => ?_⟩
      rw [hopened] at hcur
      rcases hcur heq with hc | hc <;> cases hc
    · exact ⟨le_refl _, fun _ => .inl rfl⟩
  closing ho := by
    rw [howner] at ho
    rcases ho with ho | ho <;> cases ho
  past c hc hp := by
    rw [hdesc]
    exact h.past c (hcs ▸ hc) hp
  token op hop tok htok := by
    obtain ⟨hword, sk, hsk, hi⟩ := h.token op (hops ▸ hop) tok htok
    obtain ⟨sk', hsk', -, hi', -⟩ := hfol _ sk hsk
    exact ⟨hword, sk', hsk', hi'.trans hi⟩

lemma step_owned (hs : Taken s) (h : Owned s) (hst : Step s t) : Owned t := by
  have hfol := step_follows hst
  cases hst with
  | attach fd hvac =>
    refine ⟨h.generation, nofun, fun k sk hsk => ?_, fun ho => ?_, fun c hc hp => ?_, h.token⟩
    · obtain ⟨hle, hcur⟩ := h.socket k sk hsk
      refine ⟨hle, fun heq => ?_⟩
      rw [hvac] at hcur
      rcases hcur heq with hc | hc <;> cases hc
    · rcases ho with ho | ho <;> cases ho
    · rw [hs.not_past (by simp [hvac]) hc] at hp
      cases hp
  | adopt hopened => exact h.adopt hfol hopened rfl rfl rfl rfl rfl rfl
  | fail hopened =>
    refine ⟨h.generation, nofun, fun k sk hsk => ?_, fun _ => rfl, fun _ _ _ => rfl, h.token⟩
    obtain ⟨hle, hcur⟩ := h.socket k sk hsk
    refine ⟨hle, fun heq => ?_⟩
    rw [hopened] at hcur
    rcases hcur heq with hc | hc <;> cases hc
  | abandon hfail =>
    have hend := h.closing (.inl hfail)
    refine ⟨h.generation, nofun, fun k sk hsk => ?_, fun _ => hend, h.past, h.token⟩
    exact ⟨(h.socket k sk hsk).1, fun _ => .inr rfl⟩
  | free =>
    have hword := word_add s.inc 1
    rw [← h.generation] at hword
    refine ⟨hword, nofun, fun k sk hsk => ?_, fun _ => rfl, fun _ _ _ => rfl, h.token⟩
    have hle := (h.socket k sk hsk).1
    refine ⟨Nat.le_succ_of_le hle, fun heq => ?_⟩
    exact absurd heq (Nat.ne_of_lt (Nat.lt_succ_of_le hle))
  | adoptClose | pin => exact { h with }
  | operate k dir =>
    refine h.operate (.load k dir) rfl rfl (fun op hop => ?_) rfl rfl rfl rfl rfl (by simp [Operation.token?])
    exact (mem_append.mp hop).imp id mem_singleton.mp
  | shut =>
    exact h.keep hfol rfl rfl rfl rfl rfl id (forall_append (fun c hc _ => .inl hc) nofun) h.token
  | aside i op op' hop hlease htoken =>
    exact h.operate _ rfl rfl (mem_setOp rfl) rfl rfl rfl rfl rfl (by simp [htoken])
  | capture i k dir sk hop hsk hlock hlinked =>
    refine h.operate _ rfl rfl (mem_setOp rfl) rfl rfl rfl rfl rfl fun tok htok => ?_
    cases htok
    obtain ⟨sn, hsn, hinc, -⟩ := h.attached k (hs.owner_eq_of_linked hsk hlinked hlock)
    exact ⟨h.generation, sn, hsn, hinc⟩
  | begin i tok dir hop =>
    have htoken := h.token _ (mem_of_getElem? hop)
    exact h.operate _ rfl rfl (mem_setOp rfl) rfl rfl rfl rfl rfl htoken
  | finish i tok dir fd op' hop hop' =>
    have htoken := h.token _ (mem_of_getElem? hop)
    refine h.operate _ rfl rfl (mem_setOp rfl) rfl rfl rfl rfl rfl ?_
    rcases hop' with rfl | rfl
    · exact htoken
    · simp [Operation.token?]
  | exchange i k sk hc =>
    refine h.move hfol hc rfl rfl length_set rfl rfl rfl rfl id ?_
    split <;> exact nofun
  | take i k sk hc | clear i k fd sk hc | close i k fd sk hc =>
    exact h.move hfol hc rfl rfl length_set rfl rfl rfl rfl id nofun
  | enterLinked i k hc | enterUnlinked i k sk hc | lock i k hc | yield i k sk hc | unlockOther i k hc
  | skip i k fd hc => exact h.move hfol hc rfl rfl rfl rfl rfl rfl rfl id nofun
  | unlockOwn i k fd hc | waited i k fd dir rest hc =>
    exact h.move hfol hc rfl rfl rfl rfl rfl rfl rfl id fun _ => .inl rfl
  | publish i k fd hc | detach i k fd hc =>
    exact h.move hfol hc rfl rfl rfl rfl rfl rfl rfl (fun _ => rfl) fun _ => .inr rfl
  | release i k fd hc =>
    have hend := h.past _ (mem_of_getElem? hc) rfl
    refine ⟨h.generation, nofun, fun k sk hsk => ?_, fun _ => hend, fun _ _ _ => hend, h.token⟩
    exact ⟨(h.socket k sk hsk).1, fun _ => .inr rfl⟩

/-! ### Leases -/

def Operation.leasing (dir : Dir) (op : Operation) : Nat := if op.leases = some dir then 1 else 0

lemma Operation.leasing_of_none (h : op.leases = none) (dir : Dir) : op.leasing dir = 0 := by
  rw [leasing, h]
  rfl

/-- Who leases the number, and what a close has waited for. -/
structure Leased (s : State) : Prop where
  active : ∀ dir, weight (Operation.leasing dir) s.ops = (s.desc.syscallActive dir).toNat
  held : ∀ tok dir fd, .leased tok dir fd ∈ s.ops → s.owner = .attached tok.socket ∧ fd = s.desc.fd
  waited : ∀ k fd rest, .wait k fd rest ∈ s.closers → ∀ dir, dir ∉ rest → s.desc.syscallActive dir = false

attribute [local simp] Operation.leasing Operation.leases

lemma Leased.of_idle (h : Leased s) (hidle : s.desc.syscallActive dir = false)
    (tok : Token) (fd : Int) : .leased tok dir fd ∉ s.ops := by
  intro hmem
  have hle := le_weight (Operation.leasing dir) hmem
  rw [h.active, hidle] at hle
  simp at hle

lemma Leased.not_held (h : Leased s) (howner : ∀ k, s.owner ≠ .attached k) (tok : Token) (dir : Dir)
    (fd : Int) : .leased tok dir fd ∉ s.ops :=
  fun hmem => howner _ (h.held tok dir fd hmem).1

lemma Leased.keep (h : Leased s) (hops : t.ops = s.ops) (hact : t.desc.syscallActive = s.desc.syscallActive)
    (hheld : ∀ tok dir fd, .leased tok dir fd ∈ s.ops → t.owner = s.owner ∧ t.desc.fd = s.desc.fd)
    (hway : ∀ k fd rest, .wait k fd rest ∈ t.closers → .wait k fd rest ∈ s.closers ∨
      ∀ dir, dir ∉ rest → s.desc.syscallActive dir = false) : Leased t where
  active dir := by rw [hops, hact, h.active]
  held tok dir fd hmem := by
    rw [hops] at hmem
    obtain ⟨ho, hf⟩ := hheld tok dir fd hmem
    rw [ho, hf]
    exact h.held tok dir fd hmem
  waited k fd rest hmem := by
    rw [hact]
    rcases hway k fd rest hmem with hold | hnew
    · exact h.waited k fd rest hold
    · exact hnew

lemma Leased.move (h : Leased s) {q : Closer} (hops : t.ops = s.ops)
    (hact : t.desc.syscallActive = s.desc.syscallActive) (howner : t.owner = s.owner) (hfd : t.desc.fd = s.desc.fd)
    (hcs : t.closers = s.closers.set i q)
    (hq : ∀ k fd rest, q = .wait k fd rest → ∀ dir, dir ∉ rest → s.desc.syscallActive dir = false) : Leased t := by
  refine h.keep hops hact (fun _ _ _ _ => ⟨howner, hfd⟩) fun k fd rest hmem => ?_
  rcases mem_or_eq_of_mem_set (hcs ▸ hmem) with hold | heq
  · exact .inl hold
  · exact .inr (hq k fd rest heq.symm)

/-- An incarnation that is found open under its generation is the one that was captured, and still belongs to
the socket it was captured from. -/
lemma Owned.owner_of_open (h : Owned s) (hop : op ∈ s.ops) (htok : op.token? = some tok)
    (hfresh : s.inc < tok.inc + 2 ^ 32) (hgen : s.desc.generation = tok.generation) (hopen : s.desc.closing = false) :
    s.owner = .attached tok.socket := by
  obtain ⟨hword, sk, hsk, hinc⟩ := h.token op hop tok htok
  obtain ⟨hle, hcur⟩ := h.socket _ sk hsk
  rw [hinc] at hle hcur
  rw [h.generation, hword] at hgen
  have hsame := eq_of_word_eq hle (by omega) hgen
  rcases hcur hsame.symm with hatt | hgone
  · exact hatt
  · rw [h.closing (.inr hgone)] at hopen
    cases hopen

lemma Leased.begin (h : Leased s) (hop : s.ops[i]? = some (.captured tok dir))
    (howner : s.owner = .attached tok.socket) (hfree : s.desc.syscallActive dir = false)
    (hnowait : ∀ k fd rest, .wait k fd rest ∉ s.closers) (hops : t.ops = s.ops.set i (.leased tok dir s.desc.fd))
    (hcs : t.closers = s.closers) (howner' : t.owner = s.owner) (hfd : t.desc.fd = s.desc.fd)
    (hact : t.desc.syscallActive = update s.desc.syscallActive dir true) : Leased t where
  active dir' := by
    have hsum := weight_set (Operation.leasing dir') hop (.leased tok dir s.desc.fd)
    rw [hops, hact]
    rw [h.active dir'] at hsum
    by_cases hdir : dir' = dir
    · subst hdir
      rw [hfree] at hsum
      simpa using hsum
    · rw [update_of_ne hdir]
      simpa [Ne.symm hdir] using hsum
  held tok' dir' fd' hmem := by
    rw [howner', hfd]
    rcases mem_or_eq_of_mem_set (hops ▸ hmem) with hold | heq
    · exact h.held tok' dir' fd' hold
    · cases heq
      exact ⟨howner, rfl⟩
  waited k fd rest hmem := absurd (hcs ▸ hmem) (hnowait k fd rest)

lemma Leased.finish (h : Leased s) {fd : Int} (hop : s.ops[i]? = some (.leased tok dir fd)) (hop' : op'.leases = none)
    (hops : t.ops = s.ops.set i op') (hcs : t.closers = s.closers) (howner : t.owner = s.owner)
    (hfd : t.desc.fd = s.desc.fd) (hact : t.desc.syscallActive = update s.desc.syscallActive dir false) : Leased t where
  active dir' := by
    have hsum := weight_set (Operation.leasing dir') hop op'
    have hone := Bool.toNat_le (s.desc.syscallActive dir')
    rw [hops, hact]
    rw [h.active dir', Operation.leasing_of_none hop'] at hsum
    by_cases hdir : dir' = dir
    · subst hdir
      simp only [Operation.leasing, Operation.leases, if_true] at hsum
      rw [update_self, Bool.toNat_false]
      omega
    · rw [update_of_ne hdir]
      simpa [Ne.symm hdir] using hsum
  held tok' dir' fd' hmem := by
    rw [howner, hfd]
    rcases mem_or_eq_of_mem_set (hops ▸ hmem) with hold | heq
    · exact h.held tok' dir' fd' hold
    · rw [← heq] at hop'
      cases hop'
  waited k n rest hmem dir' hdir' := by
    rw [hact]
    by_cases hdir : dir' = dir
    · rw [hdir, update_self]
    · rw [update_of_ne hdir]
      exact h.waited k n rest (hcs ▸ hmem) dir' hdir'

lemma Leased.aside (h : Leased s) (hop : s.ops[i]? = some op)
    (hlease : op.leases = none) (hleases' : op'.leases = none) (hops : t.ops = s.ops.set i op')
    (hcs : t.closers = s.closers) (howner : t.owner = s.owner) (hdesc : t.desc = s.desc) : Leased t where
  active dir := by
    have hsum := weight_set (Operation.leasing dir) hop op'
    rw [Operation.leasing_of_none hlease, Operation.leasing_of_none hleases'] at hsum
    rw [hops, hdesc, ← h.active]
    exact hsum
  held tok dir fd hmem := by
    rw [howner, hdesc]
    rcases mem_or_eq_of_mem_set (hops ▸ hmem) with hold | heq
    · exact h.held tok dir fd hold
    · rw [← heq] at hleases'
      cases hleases'
  waited k fd rest hmem := by
    rw [hdesc]
    exact h.waited k fd rest (hcs ▸ hmem)

lemma Operation.leases_of_token (h : op.token? = none) : op.leases = none := by
  cases op <;> first | rfl | cases h

lemma Leased.handover (h : Leased s) (hs : Taken s) (howner : ∀ k, s.owner ≠ .attached k) (hops : t.ops = s.ops)
    (hcs : t.closers = s.closers)
    (hact : t.desc.syscallActive = s.desc.syscallActive ∨ t.desc.syscallActive = fun _ => false) : Leased t where
  active dir := by
    have hzero : weight (Operation.leasing dir) s.ops = 0 := by
      refine weight_eq_zero fun op hop => if_neg fun hlease => ?_
      cases op <;> cases hlease
      exact h.not_held howner _ _ _ hop
    rw [hops]
    rcases hact with hact | hact
    · rw [hact, h.active]
    · rw [hact, hzero]
      rfl
  held tok dir fd hmem := absurd (hops ▸ hmem) (h.not_held howner tok dir fd)
  waited k fd rest hmem := by
    have hpast := hs.not_past howner (hcs ▸ hmem)
    cases hpast

lemma step_leased {act : Act} (hs : Taken s) (ho : Owned s) (h : Leased s)
    (hfresh : CapturesFresh s act) (hst : Step s t) : Leased t := by
  cases hst with
  | attach fd hvac => exact h.handover hs (by simp [hvac]) rfl rfl (.inr rfl)
  | adopt hopened | fail hopened => exact h.handover hs (by simp [hopened]) rfl rfl (.inl rfl)
  | abandon hfail => exact h.handover hs (by simp [hfail]) rfl rfl (.inl rfl)
  | free hgone => exact h.handover hs (by simp [hgone]) rfl rfl (.inl rfl)
  | adoptClose | pin => exact { h with }
  | operate =>
    refine ⟨fun dir' => ?_, fun tok dir' fd hmem => ?_, h.waited⟩
    · rw [weight_concat, h.active]
      rfl
    · rcases mem_append.mp hmem with hold | hnew
      · exact h.held tok dir' fd hold
      · cases mem_singleton.mp hnew
  | shut =>
    refine ⟨h.active, h.held, fun k' fd rest hmem => ?_⟩
    rcases mem_append.mp hmem with hold | hnew
    · exact h.waited k' fd rest hold
    · cases mem_singleton.mp hnew
  | aside i op op' hop hlease htoken =>
    exact h.aside hop hlease (Operation.leases_of_token htoken) rfl rfl rfl rfl
  | capture i k dir sk hop => exact h.aside hop rfl rfl rfl rfl rfl rfl
  | begin i tok dir hop hlock hgen hopen hfree =>
    have hmem := mem_of_getElem? hop
    have howner := ho.owner_of_open hmem rfl (hfresh _ hmem tok rfl) hgen hopen
    refine h.begin hop howner hfree (fun k fd rest hwait => ?_) rfl rfl rfl rfl rfl
    rw [ho.past _ hwait rfl] at hopen
    cases hopen
  | finish i tok dir fd op' hop hop' =>
    refine h.finish hop ?_ rfl rfl rfl rfl rfl
    rcases hop' with rfl | rfl <;> rfl
  | exchange =>
    refine h.move rfl rfl rfl rfl rfl fun k' fd rest heq => ?_
    split at heq <;> cases heq
  | enterLinked | enterUnlinked | lock | take | yield
  | clear | publish | unlockOwn | unlockOther | skip
  | close => exact h.move rfl rfl rfl rfl rfl nofun
  | detach =>
    refine h.move rfl rfl rfl rfl rfl fun k' fd' rest heq dir hdir => ?_
    cases heq
    cases dir <;> simp at hdir
  | waited i k fd dir rest hc hidle =>
    refine h.move rfl rfl rfl rfl rfl fun k' fd' rest' heq dir' hdir' => ?_
    cases heq
    by_cases hdir : dir' = dir
    · rw [hdir, hidle]
    · refine h.waited k fd _ (mem_of_getElem? hc) dir' fun hmem => ?_
      exact (mem_cons.mp hmem).elim hdir hdir'
  | release i k fd hc =>
    have hidle : ∀ dir, s.desc.syscallActive dir = false := fun dir =>
      h.waited k fd [] (mem_of_getElem? hc) dir not_mem_nil
    refine h.keep rfl rfl (fun tok dir fd' hmem => absurd hmem (h.of_idle (hidle dir) tok fd'))
      fun k' fd' rest hmem => .inr fun dir _ => hidle dir

end Cio.Reactor.Lease
