import Cio.OperationModel

/-! What a step on the operation queue can do, with the conditions under which the code does it. Most steps of
an operation change nothing but its own program counter; `Move` lists them. -/

namespace Cio.Reactor.Operation

open Function State IoDesc

/-! ### Owner words -/

variable (g : UInt32)

lemma operationTag_toNat : (operationTag g).toNat = 2 * (g.toNat + 1) := by
  have hlt := g.toNat_lt
  rw [operationTag, UInt64.toNat_shiftLeft, UInt64.toNat_add, UInt32.toNat_toUInt64]
  simp only [UInt64.toNat_one, Nat.shiftLeft_eq, Nat.reduceMod, Nat.pow_one]
  omega

lemma operationTag_or_toNat : (operationTag g ||| 1).toNat = 2 * (g.toNat + 1) + 1 := by
  rw [UInt64.toNat_or, operationTag_toNat, UInt64.toNat_one]
  exact Nat.two_pow_add_eq_or_of_lt (i := 1) (by decide) (g.toNat + 1) |>.symm

lemma operationTag_ne_zero : operationTag g ≠ 0 := by
  intro h
  have hnat := congrArg UInt64.toNat h
  rw [operationTag_toNat, UInt64.toNat_zero] at hnat
  omega

lemma operationTag_or_ne_zero : operationTag g ||| 1 ≠ 0 := by
  intro h
  have hnat := congrArg UInt64.toNat h
  rw [operationTag_or_toNat, UInt64.toNat_zero] at hnat
  omega

lemma operationTag_ne_or (g g' : UInt32) : operationTag g ≠ operationTag g' ||| 1 := by
  intro h
  have hnat := congrArg UInt64.toNat h
  rw [operationTag_toNat, operationTag_or_toNat] at hnat
  omega

lemma operationTag_injective : Injective operationTag := by
  intro g g' h
  have hnat := congrArg UInt64.toNat h
  rw [operationTag_toNat, operationTag_toNat] at hnat
  exact UInt32.toNat_inj.mp (by omega)

/-! ### The lock-protected updates in one piece -/

lemma pinOperation_eq (s : State) (d : Dir) : s.pinOperation d =
      { s with desc := { s.desc with refs := s.desc.refs + (!(s.queue d).pinned).toNat } }.setQueue d
        { s.queue d with pinned := true } := by
  unfold pinOperation
  cases hpin : (s.queue d).pinned with
  | true =>
    have hsame : { s.queue d with pinned := true } = s.queue d := by rw [← hpin]
    rw [if_pos rfl, hsame, setQueue, update_eq_self]
    rfl
  | false => rfl

variable {env : Env Unit} {s : State} {d : IoDesc Unit Unit} {dir : Dir} {generation : UInt32} {i : Nat}
variable {t : Task}

lemma publish_eq (hfor : t.foreign) : s.publishOperationLifetime t =
      { s with desc := { s.desc with refs := s.desc.refs + (!(s.queue t.dir).pinned).toNat } }.setQueue t.dir
        { s.queue t.dir with pinned := true, lifetime := true, owner := t.tag ||| 1 } := by
  rw [publishOperationLifetime, if_pos hfor]
  simp only [pinOperation_eq, setQueue, update_self, update_idem]

lemma publish_local (hlocal : t.foreign = false) : s.publishOperationLifetime t = s := by
  rw [publishOperationLifetime, if_neg (by simp [hlocal])]

lemma join_eq (howner : (s.queue t.dir).owner = t.tag ||| 1) : s.join i t =
      ({ s with desc := { s.desc with refs := s.desc.refs + (!(s.queue t.dir).pinned).toNat + 1 } }.setQueue
        t.dir { s.queue t.dir with
          pinned := true
          lifetime := (s.queue t.dir).lifetime || t.foreign
          waiters := (s.queue t.dir).waiters ++ [i]
          joined := (s.queue t.dir).joined ++ [i] }).setTask i { t with pc := .queued, waited := true } := by
  by_cases hfor : t.foreign
  · simp only [join, publish_eq hfor, pinOperation_eq, setQueue, update_self,
      update_idem, Bool.not_true, Bool.toNat_false, Nat.add_zero, hfor, Bool.or_true]
    rw [← howner]
  · rw [Bool.not_eq_true] at hfor
    simp only [join, publish_local hfor, pinOperation_eq, setQueue, update_self, update_idem, hfor, Bool.or_false]

/-! ### Steps -/

def Pc.err : Pc → Option Error
  | .reset err | .release err | .drop err _ | .dispatch err _ | .returned err => err
  | .enter | .validate | .suspend | .inspect | .takeIdle | .upgrade | .queued | .popped | .granted | .holding
  | .leased => none

/-- The steps that change the program counter of an operation and nothing else. -/
inductive Move (s : State) (spurious : Bool) (t : Task) : Pc → Prop
  | refused (hpc : t.pc = .enter) : Move s spurious t .suspend
  | busy (hpc : t.pc = .enter) : Move s spurious t (.returned (some (.errc .wouldBlock)))
  | validated (hpc : t.pc = .validate) (hlocal : t.foreign = false)
      (hgeneration : s.desc.generation = t.generation) (hopen : s.desc.closing = false) : Move s spurious t .holding
  | invalid (e : Error) (hpc : t.pc = .validate)
      (hclosed : e = .errc .closed → s.desc.generation ≠ t.generation ∨ s.desc.closing = true ∨
        ((s.queue t.dir).owner ≠ t.tag ∧ (s.queue t.dir).owner ≠ t.tag ||| 1)) : Move s spurious t (.reset (some e))
  | unsuspended (e : Error) (hpc : t.pc = .suspend)
      (hclosed : e = .errc .closed → s.desc.generation ≠ t.generation ∨ s.desc.closing = true) :
      Move s spurious t (.returned (some e))
  | idle (hpc : t.pc = .inspect) (howner : (s.queue t.dir).owner = 0) : Move s spurious t .takeIdle
  | owned (hpc : t.pc = .inspect) (howner : (s.queue t.dir).owner = t.tag) : Move s spurious t .upgrade
  | retryIdle (hpc : t.pc = .takeIdle) (hfailed : spurious = false → (s.queue t.dir).owner ≠ 0) :
      Move s spurious t .inspect
  | retryOwned (hpc : t.pc = .upgrade) (hfailed : spurious = false → (s.queue t.dir).owner ≠ t.tag) :
      Move s spurious t .inspect
  | finished (hpc : t.pc = .holding) : Move s spurious t (.reset none)
  | denied (e : Error) (hpc : t.pc = .holding)
      (hclosed : e = .errc .closed →
        s.desc.generation ≠ t.generation ∨ s.desc.closing = true ∨ s.desc.fd < 0) :
      Move s spurious t (.reset (some e))
  | slow (err : Option Error) (hpc : t.pc = .reset err) (howner : (s.queue t.dir).owner ≠ t.tag) :
      Move s spurious t (.release err)
  | stale (err : Option Error) (hpc : t.pc = .release err) (hgeneration : s.desc.generation ≠ t.generation) :
      Move s spurious t (.returned err)

inductive TaskStep (s : State) (i : Nat) (spurious again : Bool) (t : Task) : State → Prop
  | move (pc : Pc) (hmove : Move s spurious t pc) : TaskStep s i spurious again t (s.setPc i t pc)
  | enter (hpc : t.pc = .enter) (howner : (s.queue t.dir).owner = 0) :
      TaskStep s i spurious again t ((s.setOwner t.dir t.tag).setPc i t .validate)
  | publish (hpc : t.pc = .validate) (hgeneration : s.desc.generation = t.generation)
      (hopen : s.desc.closing = false)
      (howner : (s.queue t.dir).owner = t.tag ∨ (s.queue t.dir).owner = t.tag ||| 1) :
      TaskStep s i spurious again t (({ s with desc := { s.desc with
        refs := s.desc.refs + (!(s.queue t.dir).pinned).toNat } }.setQueue t.dir { s.queue t.dir with
          pinned := true, lifetime := true, owner := t.tag ||| 1 }).setPc i t .holding)
  | lock (hpc : t.pc = .suspend) (hlock : s.locked = false) (hgeneration : s.desc.generation = t.generation)
      (hopen : s.desc.closing = false) : TaskStep s i spurious again t ({ s with locked := true }.setPc i t .inspect)
  | expel (hpc : t.pc = .inspect) (hidle : (s.queue t.dir).owner ≠ 0)
      (howned : (s.queue t.dir).owner ≠ t.tag) (hcontended : (s.queue t.dir).owner ≠ t.tag ||| 1) :
      TaskStep s i spurious again t ({ s with locked := false }.setPc i t (.returned (some (.errc .closed))))
  | take (hpc : t.pc = .takeIdle) (howner : (s.queue t.dir).owner = 0) :
      TaskStep s i spurious again t (({ s with locked := false }.setOwner t.dir t.tag).setPc i t .holding)
  | takeForeign (hpc : t.pc = .takeIdle) (howner : (s.queue t.dir).owner = 0) :
      TaskStep s i spurious again t (({ s with
        locked := false
        desc := { s.desc with refs := s.desc.refs + (!(s.queue t.dir).pinned).toNat } }.setQueue t.dir {
          s.queue t.dir with pinned := true, lifetime := true, owner := t.tag ||| 1 }).setPc i t .holding)
  | join (hpc : t.pc = .upgrade ∨ t.pc = .inspect)
      (howner : (s.queue t.dir).owner = t.tag ∨ (s.queue t.dir).owner = t.tag ||| 1) :
      TaskStep s i spurious again t (({ s with
        locked := false
        desc := { s.desc with refs := s.desc.refs + (!(s.queue t.dir).pinned).toNat + 1 } }.setQueue t.dir {
          s.queue t.dir with
          owner := t.tag ||| 1
          pinned := true
          lifetime := (s.queue t.dir).lifetime || t.foreign
          waiters := (s.queue t.dir).waiters ++ [i]
          joined := (s.queue t.dir).joined ++ [i] }).setTask i { t with pc := .queued, waited := true })
  | resume (hpc : t.pc = .granted) :
      TaskStep s i spurious again t ((s.setQueue t.dir { s.queue t.dir with
        hand := none, served := (s.queue t.dir).served ++ [i] }).setPc i t .holding)
  | begin (hpc : t.pc = .holding) (hgeneration : s.desc.generation = t.generation)
      (hopen : s.desc.closing = false) (hfree : s.desc.syscallActive t.dir = false) (hagain : again = true) :
      TaskStep s i spurious again t ({ s with desc := { s.desc with
        syscallActive := update s.desc.syscallActive t.dir true } }.setPc i t .leased)
  | finish (hpc : t.pc = .leased) :
      TaskStep s i spurious again t ({ s with desc := { s.desc with
        syscallActive := update s.desc.syscallActive t.dir false } }.setPc i t .holding)
  | clear (err : Option Error) (hpc : t.pc = .reset err) (howner : (s.queue t.dir).owner = t.tag) :
      TaskStep s i spurious again t ((s.setOwner t.dir 0).setPc i t (.returned err))
  | pass (err : Option Error) (n : Nat) (rest : List Nat) (w : Task) (hpc : t.pc = .release err)
      (hlock : s.locked = false) (hgeneration : s.desc.generation = t.generation)
      (hwaiters : (s.queue t.dir).waiters = n :: rest) (hw : s.tasks[n]? = some w) :
      TaskStep s i spurious again t (((s.setQueue t.dir { s.queue t.dir with waiters := rest, hand := some n }).setPc n
        w .popped).setPc i t (if (s.queue t.dir).pinned then .drop err (some n) else .dispatch err n))
  | vacate (err : Option Error) (hpc : t.pc = .release err) (hlock : s.locked = false)
      (hgeneration : s.desc.generation = t.generation) (hwaiters : (s.queue t.dir).waiters = []) :
      TaskStep s i spurious again t ((s.setQueue t.dir { s.queue t.dir with
        owner := 0, pinned := false, lifetime := false }).setPc i t
          (if (s.queue t.dir).pinned then .drop err none else .returned err))
  | drop (err : Option Error) (next : Option Nat) (hpc : t.pc = .drop err next) :
      TaskStep s i spurious again t (s.releaseDesc.setPc i t (.dropped err next))
  | dispatch (err : Option Error) (n : Nat) (w : Task) (hpc : t.pc = .dispatch err n)
      (hw : s.tasks[n]? = some w) :
      TaskStep s i spurious again t
        ((s.setTask n { w with pc := .granted, wakes := w.wakes + 1 }).setPc i t (.returned err))

inductive Step (s : State) : Act → State → Prop
  | attach (fd : Int) (hphase : s.phase = .vacant) (hlock : s.locked = false) (hfd : 0 ≤ fd) :
      Step s (.attach fd) { s with desc := s.desc.attachFields fd, phase := .attached }
  | start (dir : Dir) (foreign awaits : Bool) (hphase : s.phase = .attached) :
      Step s (.start dir foreign awaits) { s with tasks := s.tasks ++ [{
        dir := dir, generation := s.desc.generation, inc := s.inc, foreign := foreign, awaits := awaits }] }
  | shut (hphase : s.phase = .attached) (hlock : s.locked = false) :
      Step s .close { s with desc := { s.desc with closing := true }, phase := .closing [.read, .write] }
  | awaited (d : Dir) (rest : List Dir) (hphase : s.phase = .closing (d :: rest))
      (hidle : s.desc.syscallActive d = false) : Step s .close { s with phase := .closing rest }
  | detach (hphase : s.phase = .closing []) : Step s .close { s.releaseDesc with phase := .released }
  | pin (hrefs : 0 < s.desc.refs) :
      Step s .pin { s with desc := { s.desc with refs := s.desc.refs + 1 }, awaiters := s.awaiters + 1 }
  | unpin (hawaiters : 0 < s.awaiters) : Step s .unpin { s.releaseDesc with awaiters := s.awaiters - 1 }
  | bump (hfreer : s.freer = .pending) (hlock : s.locked = false) :
      Step s .free { s with
        desc := s.desc.freeFields, inc := s.inc + 1, locked := true, freer := .resetting [.read, .write] }
  | resetOwner (d : Dir) (rest : List Dir) (hfreer : s.freer = .resetting (d :: rest)) :
      Step s .free { s.setOwner d 0 with freer := .resetting rest }
  | freed (hfreer : s.freer = .resetting []) :
      Step s .free { s with locked := false, freer := .idle, phase := .vacant }
  | task {env : Env Unit} {spurious again : Bool} {u : State} (i : Nat) (t : Task)
      (ht : s.tasks[i]? = some t) (hstep : TaskStep s i spurious again t u) : Step s (.task i env spurious again) u

lemma ioError_none (h : d.ioError env dir generation = none) : d.generation = generation ∧ d.closing = false := by
  unfold ioError at h
  split_ifs at h with hshut
  simp only [not_or, ne_eq, not_not, Bool.not_eq_true] at hshut
  exact hshut

lemma ioError_closed (h : d.ioError env dir generation = some (.errc .closed)) :
    d.generation ≠ generation ∨ d.closing = true := by
  unfold ioError at h
  split_ifs at h with hshut hstop hcut hout <;> first | exact hshut | cases h

lemma beginSyscall_closed (h : d.beginSyscall env dir generation = .error (.errc .closed)) :
    d.generation ≠ generation ∨ d.closing ∨ d.fd < 0 := by
  unfold beginSyscall at h
  split_ifs at h with hshut <;> first | exact hshut | cases h

lemma beginSyscall_broken
    (h : d.beginSyscall env dir generation = .error (.errc .broken)) : d.syscallActive dir = true := by
  unfold beginSyscall at h
  split_ifs at h with hshut hstop hcut hout hact <;> first | exact hact | cases h

lemma beginSyscall_ok {d' : IoDesc Unit Unit} {fd : Int} (h : d.beginSyscall env dir generation = .ok (d', fd)) :
    d.generation = generation ∧ d.closing = false ∧ d.syscallActive dir = false ∧
      d' = { d with syscallActive := update d.syscallActive dir true } := by
  unfold beginSyscall at h
  split_ifs at h with hshut hstop hcut hout hact
  simp only [not_or, ne_eq, not_not, Bool.not_eq_true] at hshut
  cases h
  exact ⟨hshut.1, hshut.2.1, Bool.eq_false_iff.mpr hact, rfl⟩

lemma validate_cases {t : State} {spurious again : Bool} {task : Task} (hpc : task.pc = .validate)
    (hs : (match s.validateOperationOwner task env with
      | some e => some (s.setPc i task (.reset (some e)))
      | none => some ((s.publishOperationLifetime task).setPc i task .holding)) = some t) :
    TaskStep s i spurious again task t := by
  unfold validateOperationOwner at hs
  cases hio : s.desc.ioError env task.dir task.generation with
  | some e =>
    rw [hio] at hs
    cases hs
    refine .move _ (.invalid e hpc fun he => ?_)
    subst he
    exact (ioError_closed hio).imp id .inl
  | none =>
    obtain ⟨hgen, hopen⟩ := ioError_none hio
    rw [hio] at hs
    by_cases hlost : task.foreign ∧ (s.queue task.dir).owner ≠ task.tag ∧ (s.queue task.dir).owner ≠ task.tag ||| 1
    · rw [if_pos hlost] at hs
      cases hs
      exact .move _ (.invalid _ hpc fun _ => .inr (.inr hlost.2))
    · rw [if_neg hlost] at hs
      cases hs
      by_cases hfor : task.foreign
      · simp only [hfor, true_and, ne_eq, not_and_or, not_not] at hlost
        rw [publish_eq hfor]
        exact .publish hpc hgen hopen hlost
      · rw [Bool.not_eq_true] at hfor
        rw [publish_local hfor]
        exact .move _ (.validated hpc hfor hgen hopen)

lemma taskStep_cases {t : State} {spurious again : Bool} {task : Task}
    (hs : s.taskStep i env spurious again task = some t) : TaskStep s i spurious again task t := by
  unfold taskStep at hs
  cases hpc : task.pc with simp only [hpc] at hs
  | enter =>
    split_ifs at hs with howner hawaits <;> cases hs
    · exact .enter hpc howner
    · exact .move _ (.refused hpc)
    · exact .move _ (.busy hpc)
  | validate =>
    split_ifs at hs with hlock
    exact validate_cases hpc hs
  | suspend =>
    split_ifs at hs with hlock
    split at hs <;> cases hs
    · rename_i e hio
      refine .move _ (.unsuspended e hpc fun he => ?_)
      subst he
      exact ioError_closed hio
    · rename_i hio
      obtain ⟨hgen, hopen⟩ := ioError_none hio
      exact .lock hpc (Bool.eq_false_iff.mpr hlock) hgen hopen
  | inspect =>
    split_ifs at hs with hidle howned hcont <;> cases hs
    · exact .move _ (.idle hpc hidle)
    · exact .move _ (.owned hpc howned)
    · rw [join_eq hcont]
      have hword : { s.queue task.dir with owner := task.tag ||| 1 } = s.queue task.dir := by
        rw [← hcont]
      exact hword ▸ .join (.inr hpc) (.inr hcont)
    · exact .expel hpc hidle howned hcont
  | takeIdle =>
    split_ifs at hs with howner <;> cases hs
    · by_cases hfor : task.foreign
      · rw [publish_eq hfor]
        simp only [setOwner, setQueue, update_self, update_idem]
        exact .takeForeign hpc howner.1
      · rw [Bool.not_eq_true] at hfor
        rw [publish_local hfor]
        exact .take hpc howner.1
    · exact .move _ (.retryIdle hpc fun hspurious hidle => howner ⟨hidle, hspurious⟩)
  | upgrade =>
    split_ifs at hs with howner <;> cases hs
    · rw [join_eq (by simp [setOwner, setQueue])]
      simp only [setOwner, setQueue, update_self, update_idem]
      exact .join (.inl hpc) (.inl howner.1)
    · exact .move _ (.retryOwned hpc fun hspurious howned => howner ⟨howned, hspurious⟩)
  | queued | popped | returned => cases hs
  | granted =>
    cases hs
    exact .resume hpc
  | holding =>
    split_ifs at hs with hagain hlock
    · cases hs
      exact .move _ (.finished hpc)
    · split at hs <;> cases hs
      · rename_i desc fd hbegin
        obtain ⟨hgen, hopen, hfree, rfl⟩ := beginSyscall_ok hbegin
        exact .begin hpc hgen hopen hfree (Bool.eq_true_of_not_eq_false hagain)
      · rename_i e hbegin
        refine .move _ (.denied e hpc fun he => ?_)
        subst he
        exact beginSyscall_closed hbegin
  | leased =>
    cases hs
    exact .finish hpc
  | reset err =>
    split_ifs at hs with howner <;> cases hs
    · exact .clear err hpc howner
    · exact .move _ (.slow err hpc howner)
  | release err =>
    split_ifs at hs with hlock hgen
    · cases hs
      exact .move _ (.stale err hpc hgen)
    · rw [not_not] at hgen
      simp only [releaseOperation] at hs
      split at hs
      · rename_i n rest hqueue
        obtain ⟨w, hw, hset⟩ := Option.bind_eq_some_iff.mp hs
        cases hset
        exact .pass err n rest w hpc (Bool.eq_false_iff.mpr hlock) hgen hqueue hw
      · rename_i hqueue
        cases hs
        exact .vacate err hpc (Bool.eq_false_iff.mpr hlock) hgen hqueue
  | drop err next =>
    cases hs
    exact .drop err next hpc
  | dispatch err n =>
    obtain ⟨w, hw, hset⟩ := Option.bind_eq_some_iff.mp hs
    cases hset
    exact .dispatch err n w hpc hw

lemma operationStep_cases {t : State} {act : Act} (hs : operationStep s act = some t) : Step s act t := by
  cases act with simp only [operationStep] at hs
  | attach fd =>
    split_ifs at hs with h
    cases hs
    exact .attach fd h.1 h.2.1 h.2.2
  | start dir foreign awaits =>
    split_ifs at hs with h
    cases hs
    exact .start dir foreign awaits h.1
  | close =>
    simp only [closeStep] at hs
    split at hs
    · cases hs
    · cases hs
    · rename_i hphase
      split_ifs at hs with hlock
      cases hs
      exact .shut hphase (Bool.eq_false_iff.mpr hlock)
    · rename_i d rest hphase
      split_ifs at hs with hact
      cases hs
      exact .awaited d rest hphase (Bool.eq_false_iff.mpr hact)
    · rename_i hphase
      cases hs
      exact .detach hphase
  | pin =>
    split_ifs at hs with hrefs
    cases hs
    exact .pin hrefs
  | unpin =>
    split_ifs at hs with haws
    cases hs
    exact .unpin haws
  | free =>
    simp only [freeStep] at hs
    split at hs
    · cases hs
    · rename_i hfreer
      split_ifs at hs with hlock
      cases hs
      exact .bump hfreer (Bool.eq_false_iff.mpr hlock)
    · rename_i d rest hfreer
      cases hs
      exact .resetOwner d rest hfreer
    · rename_i hfreer
      cases hs
      exact .freed hfreer
  | task i env spurious again =>
    split at hs
    · rename_i t ht
      exact .task i t ht (taskStep_cases hs)
    · cases hs

end Cio.Reactor.Operation
