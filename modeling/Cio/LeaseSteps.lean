import Cio.LeaseModel

/-! What a step of an operation or a close can do, with the conditions under which the code does it. -/

namespace Cio.Reactor.Lease

open Function State

def Operation.leases : Operation → Option Dir
  | .leased _ dir _ => some dir
  | .load _ _ | .capture _ _ | .captured _ _ | .returned => none

inductive Step (s : State) : State → Prop
  | attach (fd : Int) (hvacant : s.owner = .vacant) (hlock : s.locked = false) (hfd : 0 ≤ fd)
      (hnew : fd ∉ s.native) :
      Step s { s with desc := s.desc.attachFields fd, owner := .opened, native := fd :: s.native }
  | adopt (hopened : s.owner = .opened) :
      Step s { s with
        owner := .attached s.sockets.length
        sockets := s.sockets ++ [{ fd := s.desc.fd, desc := true, number := s.desc.fd, inc := s.inc }] }
  | fail (hopened : s.owner = .opened) :
      Step s { s with desc := { s.desc with closing := true }, owner := .failed }
  | abandon (hfailed : s.owner = .failed) :
      Step s { s with
        desc := { s.desc with refs := s.desc.refs - 1 }, owner := .gone
        adopters := s.desc.fd :: s.adopters }
  | adoptClose (fd : Int) (hfd : fd ∈ s.adopters) :
      Step s { s with native := s.native.erase fd, adopters := s.adopters.erase fd }
  | operate (k : Nat) (dir : Dir) (hk : k < s.sockets.length) :
      Step s { s with ops := s.ops ++ [.load k dir] }
  | shut (k : Nat) (hk : k < s.sockets.length) : Step s { s with closers := s.closers ++ [.enter k] }
  | aside (i : Nat) (op op' : Operation) (hop : s.ops[i]? = some op) (hleases : op.leases = none)
      (htoken : op'.token? = none) : Step s (s.setOp i op')
  | capture (i k : Nat) (dir : Dir) (sk : Socket) (hop : s.ops[i]? = some (.capture k dir))
      (hsk : s.sockets[k]? = some sk) (hlock : s.locked = false) (hlinked : sk.desc = true)
      (hopen : s.desc.closing = false) :
      Step s (s.setOp i (.captured ⟨k, s.desc.generation, s.inc⟩ dir))
  | begin (i : Nat) (tok : Token) (dir : Dir) (hop : s.ops[i]? = some (.captured tok dir))
      (hlock : s.locked = false) (hgeneration : s.desc.generation = tok.generation)
      (hopen : s.desc.closing = false) (hfree : s.desc.syscallActive dir = false) :
      Step s ({ s with desc := { s.desc with
        syscallActive := update s.desc.syscallActive dir true } }.setOp i
          (.leased tok dir s.desc.fd))
  | finish (i : Nat) (tok : Token) (dir : Dir) (fd : Int) (op' : Operation)
      (hop : s.ops[i]? = some (.leased tok dir fd))
      (hop' : op' = .captured tok dir ∨ op' = .returned) :
      Step s ({ s with desc := { s.desc with
        syscallActive := update s.desc.syscallActive dir false } }.setOp i op')
  | enterLinked (i k : Nat) (hc : s.closers[i]? = some (.enter k)) : Step s (s.setCloser i (.lock k))
  | enterUnlinked (i k : Nat) (sk : Socket) (hc : s.closers[i]? = some (.enter k))
      (hsk : s.sockets[k]? = some sk) (hlinked : sk.desc = false) : Step s (s.setCloser i (.exchange k))
  | exchange (i k : Nat) (sk : Socket) (hc : s.closers[i]? = some (.exchange k))
      (hsk : s.sockets[k]? = some sk) :
      Step s ((s.setSocket k { sk with fd := -1 }).setCloser i
        (if 0 ≤ sk.fd then .close k sk.fd else .returned k))
  | lock (i k : Nat) (hc : s.closers[i]? = some (.lock k)) (hlock : s.locked = false) :
      Step s ({ s with locked := true }.setCloser i (.compare k))
  | take (i k : Nat) (sk : Socket) (hc : s.closers[i]? = some (.compare k))
      (hsk : s.sockets[k]? = some sk) (hlinked : sk.desc = true) :
      Step s ((s.setSocket k { sk with fd := -1 }).setCloser i (.clear k sk.fd))
  | yield (i k : Nat) (sk : Socket) (hc : s.closers[i]? = some (.compare k))
      (hsk : s.sockets[k]? = some sk) (hlinked : sk.desc = false) :
      Step s (s.setCloser i (.unlock k none))
  | clear (i k : Nat) (fd : Int) (sk : Socket) (hc : s.closers[i]? = some (.clear k fd))
      (hsk : s.sockets[k]? = some sk) :
      Step s ((s.setSocket k { sk with desc := false }).setCloser i (.publish k fd))
  | publish (i k : Nat) (fd : Int) (hc : s.closers[i]? = some (.publish k fd)) :
      Step s ({ s with desc := { s.desc with closing := true } }.setCloser i (.unlock k (some fd)))
  | unlockOwn (i k : Nat) (fd : Int) (hc : s.closers[i]? = some (.unlock k (some fd))) :
      Step s ({ s with locked := false }.setCloser i (.detach k fd))
  | unlockOther (i k : Nat) (hc : s.closers[i]? = some (.unlock k none)) :
      Step s ({ s with locked := false }.setCloser i (.returned k))
  | detach (i k : Nat) (fd : Int) (hc : s.closers[i]? = some (.detach k fd)) :
      Step s ({ s with desc := { s.desc with closing := true } }.setCloser i (.wait k fd [.read, .write]))
  | waited (i k : Nat) (fd : Int) (dir : Dir) (rest : List Dir)
      (hc : s.closers[i]? = some (.wait k fd (dir :: rest))) (hidle : s.desc.syscallActive dir = false) :
      Step s (s.setCloser i (.wait k fd rest))
  | release (i k : Nat) (fd : Int) (hc : s.closers[i]? = some (.wait k fd [])) :
      Step s ({ s with desc := { s.desc with refs := s.desc.refs - 1 }, owner := .gone }.setCloser i
        (.close k fd))
  | skip (i k : Nat) (fd : Int) (hc : s.closers[i]? = some (.close k fd)) (hfd : fd < 0) :
      Step s (s.setCloser i (.returned k))
  | close (i k : Nat) (fd : Int) (sk : Socket) (hc : s.closers[i]? = some (.close k fd))
      (hsk : s.sockets[k]? = some sk) :
      Step s (({ s with native := s.native.erase fd }.setSocket k
        { sk with closes := sk.closes + 1 }).setCloser i (.returned k))
  | pin (refs : Nat) : Step s { s with desc := { s.desc with refs := refs } }
  | free (hgone : s.owner = .gone) (hlock : s.locked = false) :
      Step s { s with desc := s.desc.freeFields, owner := .vacant, inc := s.inc + 1 }

lemma beginSyscall_ok {d d' : IoDesc Unit Unit} {env : Env Unit} {dir : Dir} {generation : UInt32} {fd : Int}
    (h : d.beginSyscall env dir generation = .ok (d', fd)) :
    d.generation = generation ∧ d.closing = false ∧ d.syscallActive dir = false ∧ fd = d.fd ∧
      d' = { d with syscallActive := update d.syscallActive dir true } := by
  unfold IoDesc.beginSyscall at h
  split_ifs at h with hshut hstop hcancelled htimedOut hact
  simp only [not_or, ne_eq, not_not, Bool.not_eq_true] at hshut
  cases h
  exact ⟨hshut.1, hshut.2.1, Bool.eq_false_iff.mpr hact, rfl, rfl⟩

variable {s t : State}

lemma opStep_cases {i : Nat} {env : Env Unit} {again : Bool} {op : Operation}
    (hop : s.ops[i]? = some op) (hs : s.opStep i env again op = some t) : Step s t := by
  cases op with
  | load =>
    obtain ⟨sk, -, ht⟩ := Option.bind_eq_some_iff.mp hs
    cases ht
    refine .aside i _ _ hop rfl ?_
    split <;> rfl
  | capture k dir =>
    obtain ⟨sk, hsk, ht⟩ := Option.bind_eq_some_iff.mp hs
    split_ifs at ht with hlock hshut hstop <;> cases ht
    · exact .aside i _ _ hop rfl rfl
    · exact .aside i _ _ hop rfl rfl
    · simp only [not_or, ne_eq, not_not, Bool.not_eq_true, Bool.not_eq_false] at hshut
      exact .capture i k dir sk hop hsk (Bool.eq_false_iff.mpr hlock) hshut.1 hshut.2.2
  | captured tok dir =>
    simp only [opStep] at hs
    split_ifs at hs with hlock
    split at hs
    · rename_i d fd hbegin
      obtain ⟨hgen, hopen, hfree, rfl, rfl⟩ := beginSyscall_ok hbegin
      cases hs
      exact .begin i tok dir hop (Bool.eq_false_iff.mpr hlock) hgen hopen hfree
    · cases hs
      exact .aside i _ _ hop rfl rfl
  | leased tok dir fd =>
    cases hs
    refine .finish i tok dir fd _ hop ?_
    cases again
    · exact .inr rfl
    · exact .inl rfl
  | returned => cases hs

lemma closerStep_cases {i : Nat} {c : Closer} (hc : s.closers[i]? = some c)
    (hs : s.closerStep i c = some t) : Step s t := by
  cases c with
  | enter k =>
    obtain ⟨sk, hsk, ht⟩ := Option.bind_eq_some_iff.mp hs
    cases ht
    split
    · exact .enterLinked i k hc
    · rename_i hlink
      exact .enterUnlinked i k sk hc hsk (Bool.eq_false_iff.mpr hlink)
  | exchange k =>
    obtain ⟨sk, hsk, ht⟩ := Option.bind_eq_some_iff.mp hs
    cases ht
    exact .exchange i k sk hc hsk
  | lock k =>
    simp only [closerStep] at hs
    split_ifs at hs with hlock
    cases hs
    exact .lock i k hc (Bool.eq_false_iff.mpr hlock)
  | compare k =>
    obtain ⟨sk, hsk, ht⟩ := Option.bind_eq_some_iff.mp hs
    split_ifs at ht with hlink <;> cases ht
    · exact .take i k sk hc hsk hlink
    · exact .yield i k sk hc hsk (Bool.eq_false_iff.mpr hlink)
  | clear k fd =>
    obtain ⟨sk, hsk, ht⟩ := Option.bind_eq_some_iff.mp hs
    cases ht
    exact .clear i k fd sk hc hsk
  | publish k fd =>
    cases hs
    exact .publish i k fd hc
  | unlock k own =>
    cases hs
    cases own with
    | none => exact .unlockOther i k hc
    | some fd => exact .unlockOwn i k fd hc
  | detach k fd =>
    simp only [closerStep] at hs
    split_ifs at hs
    cases hs
    exact .detach i k fd hc
  | wait k fd rest =>
    cases rest with
    | nil =>
      cases hs
      exact .release i k fd hc
    | cons dir rest =>
      simp only [closerStep] at hs
      split_ifs at hs with hact
      cases hs
      exact .waited i k fd dir rest hc (Bool.eq_false_iff.mpr hact)
  | close k fd =>
    obtain ⟨sk, hsk, ht⟩ := Option.bind_eq_some_iff.mp hs
    split_ifs at ht with hfd <;> cases ht
    · exact .skip i k fd hc hfd
    · exact .close i k fd sk hc hsk
  | returned => cases hs

lemma leaseStep_cases {act : Act} (hs : leaseStep s act = some t) : Step s t := by
  cases act with simp only [leaseStep] at hs
  | attach fd =>
    split_ifs at hs with h
    cases hs
    exact .attach fd h.1 h.2.1 h.2.2.1 h.2.2.2
  | adopt =>
    split_ifs at hs with hopened <;> cases hs
    · exact .adopt hopened
    · exact .fail hopened
  | abandon =>
    split_ifs at hs with hfail
    cases hs
    exact .abandon hfail
  | adoptClose fd =>
    split_ifs at hs with hfd
    cases hs
    exact .adoptClose fd hfd
  | operate k dir =>
    split_ifs at hs with hk
    cases hs
    exact .operate k dir hk
  | shut k =>
    split_ifs at hs with hk
    cases hs
    exact .shut k hk
  | op i env again =>
    split at hs
    · exact opStep_cases ‹_› hs
    · cases hs
  | closer i =>
    split at hs
    · exact closerStep_cases ‹_› hs
    · cases hs
  | pin | unpin =>
    split_ifs at hs
    cases hs
    exact .pin _
  | free =>
    split_ifs at hs with h
    cases hs
    exact .free h.1 h.2.2

end Cio.Reactor.Lease
