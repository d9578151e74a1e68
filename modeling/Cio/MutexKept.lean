import Cio.MutexModel

/-! The books of the mutex: who owns it, who holds the queue lock, where the waiters are, and how the state word
tells. -/

namespace Cio.Mutex

open CallPool Parking Mutex.Task List Option

/-! ### What a program counter stands for -/

namespace Pc

def inside : Pc → Nat
  | .publish | .settle _ => 1
  | .load | .exchange | .suspend | .parked | .granted | .holding _ | .unlock | .unlockExchange | .unlockContended
  | .dispatch _ | .returned _ => 0

/-- The call has the mutex, for itself or for the waiter it is going to dispatch. -/
def owning : Pc → Nat
  | .granted | .holding _ | .unlock | .unlockExchange | .unlockContended | .dispatch _ => 1
  | .load | .exchange | .suspend | .publish | .settle _ | .parked | .returned _ => 0

def claiming : Pc → Nat
  | .settle previous => if previous &&& kLocked = 0 then 1 else 0
  | .load | .exchange | .suspend | .publish | .parked | .granted | .holding _ | .unlock | .unlockExchange
  | .unlockContended | .dispatch _ | .returned _ => 0

def waiting : Pc → Nat
  | .parked => 1
  | .load | .exchange | .suspend | .publish | .settle _ | .granted | .holding _ | .unlock | .unlockExchange
  | .unlockContended | .dispatch _ | .returned _ => 0

def resuming : Pc → Nat
  | .granted => 1
  | .load | .exchange | .suspend | .publish | .settle _ | .parked | .holding _ | .unlock | .unlockExchange
  | .unlockContended | .dispatch _ | .returned _ => 0

def carries : Pc → List Nat
  | .dispatch n => [n]
  | .load | .exchange | .suspend | .publish | .settle _ | .parked | .granted | .holding _ | .unlock
  | .unlockExchange | .unlockContended | .returned _ => []

def early : Pc → Bool
  | .load | .exchange | .suspend | .publish | .settle _ => true
  | .parked | .granted | .holding _ | .unlock | .unlockExchange | .unlockContended | .dispatch _
  | .returned _ => false

end Pc

def Task.count (f : Pc → Nat) (t : Task) : Nat := f t.pc

def Task.carries (t : Task) : List Nat := t.pc.carries

def ownBit (word : UInt8) : Nat := if word &&& kLocked = 0 then 0 else 1

def claimBit (word : UInt8) : Nat := if word = kContended then 1 else 0

def IsWord (word : UInt8) : Prop :=
  word = 0 ∨ word = kLocked ∨ word = kContended ∨ word = kLocked ||| kContended

/-! ### The invariant -/

/-- The state word and the queue lock. A call that saw the mutex locked under the queue lock can rely on it. -/
structure Booked (s : State) : Prop where
  word : IsWord s.state
  inside : weight (Task.count Pc.inside) s.tasks = s.locked.toNat
  owner : weight (Task.count Pc.owning) s.tasks = ownBit s.state
  claim : weight (Task.count Pc.claiming) s.tasks = claimBit s.state
  queued : s.waiters ≠ [] → s.state = kLocked ||| kContended
  seen : ∀ t ∈ s.tasks, ∀ previous, t.pc = .settle previous → previous &&& kLocked ≠ 0 →
    s.state = kLocked ||| kContended

/-- The waiters: where they are, who was taken from the queue, and in which order. -/
structure Placed (s : State) : Prop where
  lot : Lot (Task.count Pc.waiting) carries s.waiters s.tasks
  handed : ∀ n, s.hand.toList.count n =
    carried carries s.tasks n + entry (Task.count Pc.resuming) s.tasks n
  ordered : s.joined = s.obtained ++ s.hand.toList ++ s.waiters

def Task.Woken (t : Task) : Prop := Parking.Woken t.waited t.wakes t.pc.waiting t.pc.early

structure Kept (s : State) : Prop where
  booked : Booked s
  placed : Placed s
  woken : ∀ t ∈ s.tasks, t.Woken

structure Pc.Alike (pc pc' : Pc) : Prop where
  inside : pc.inside = pc'.inside
  owning : pc.owning = pc'.owning
  claiming : pc.claiming = pc'.claiming
  waiting : pc.waiting = pc'.waiting
  resuming : pc.resuming = pc'.resuming
  carries : pc.carries = pc'.carries

variable {s u : State} {t t' w : Task} {i n : Nat} {pc : Pc}

lemma Move.alike (h : Move s t pc) : pc.Alike t.pc := by
  cases h with
  | missed hpc =>
    unfold Task.missed
    rcases hpc with hpc | hpc <;> rw [hpc] <;> split <;> exact ⟨rfl, rfl, rfl, rfl, rfl, rfl⟩
  | exchange hpc | unlock hpc | unlockExchange hpc =>
    rw [hpc]
    exact ⟨rfl, rfl, rfl, rfl, rfl, rfl⟩
  | unlockContended hpc => rcases hpc with hpc | hpc | hpc <;> rw [hpc] <;> exact ⟨rfl, rfl, rfl, rfl, rfl, rfl⟩

lemma Move.not_settle (h : Move s t pc) (previous : UInt8) : pc ≠ .settle previous := by
  cases h with
  | missed =>
    unfold Task.missed
    split <;> simp
  | exchange | unlock | unlockExchange | unlockContended => simp

/-! ### The state word -/

section

variable (h : Booked s) (ht : s.tasks[i]? = some t)
include h ht

/-- One call advances. Whoever is inside the queue lock keeps a word that is locked and contended. -/
lemma Booked.set (htasks : u.tasks = s.tasks.set i t') (hword : IsWord u.state)
    (hin : u.locked.toNat + t.pc.inside = s.locked.toNat + t'.pc.inside)
    (howner : ownBit u.state + t.pc.owning = ownBit s.state + t'.pc.owning)
    (hclaim : claimBit u.state + t.pc.claiming = claimBit s.state + t'.pc.claiming)
    (hq : u.waiters ≠ [] → u.state = kLocked ||| kContended)
    (hseen : ∀ previous, t'.pc = .settle previous → previous &&& kLocked ≠ 0 → u.state = kLocked ||| kContended)
    (hkeep : s.state = kLocked ||| kContended → s.locked → u.state = kLocked ||| kContended) : Booked u := by
  refine ⟨hword, ?_, ?_, ?_, hq, htasks ▸ forall_set ?_ hseen i⟩
  · exact weight_of_set ht htasks h.inside hin
  · exact weight_of_set ht htasks h.owner howner
  · exact weight_of_set ht htasks h.claim hclaim
  · intro y hold previous hpc hprev
    refine hkeep (h.seen y hold previous hpc hprev) (locked_of_weight h.inside hold ?_)
    rw [Task.count, hpc]
    rfl

lemma Booked.move (htasks : u.tasks = s.tasks.set i t') (hin : t'.pc.inside = t.pc.inside)
    (hown : t'.pc.owning = t.pc.owning) (hclaiming : t'.pc.claiming = t.pc.claiming)
    (hseen : ∀ previous, t'.pc ≠ .settle previous) (hstate : u.state = s.state) (hlock : u.locked = s.locked)
    (hq : u.waiters ≠ [] → s.waiters ≠ []) : Booked u := by
  refine h.set ht htasks (hstate ▸ h.word) ?_ ?_ ?_ ?_ ?_ ?_
  · rw [hlock, hin]
  · rw [hstate, hown]
  · rw [hstate, hclaiming]
  · intro hne
    rw [hstate]
    exact h.queued (hq hne)
  · exact fun previous hpc => absurd hpc (hseen previous)
  · intro hold _
    rw [hstate, hold]

lemma Booked.unclaimed (hin : t.pc.inside = 1) (hclaiming : t.pc.claiming = 0) : s.state ≠ kContended := by
  have hle : ∀ y : Task, y.count Pc.claiming ≤ y.count Pc.inside := by
    intro y
    unfold Task.count
    cases y.pc with
    | settle =>
      rw [Pc.claiming, Pc.inside]
      split
      · exact le_refl 1
      · exact Nat.zero_le 1
    | _ => exact Nat.zero_le _
  have hall : weight (Task.count Pc.inside) s.tasks ≤ t.count Pc.inside := by
    rw [h.inside, Task.count, hin]
    exact Bool.toNat_le s.locked
  have halone := weight_eq_of_alone ht hle hall
  rw [h.claim, Task.count, hclaiming, claimBit] at halone
  intro hstate
  rw [if_pos hstate] at halone
  cases halone

lemma Booked.locked_of_owning (hown : t.pc.owning = 1) : s.state = kLocked ∨ s.state = kLocked ||| kContended := by
  have hle := le_weight (Task.count Pc.owning) (mem_of_getElem? ht)
  rw [h.owner, Task.count, hown] at hle
  rcases h.word with hw | hw | hw | hw
  · rw [hw] at hle
    cases hle
  · exact .inl hw
  · rw [hw] at hle
    cases hle
  · exact .inr hw

lemma Booked.claimed (hclaiming : t.pc.claiming = 1) : s.state = kContended := by
  have hle := le_weight (Task.count Pc.claiming) (mem_of_getElem? ht)
  rw [h.claim, Task.count, hclaiming, claimBit] at hle
  by_contra hne
  rw [if_neg hne] at hle
  cases hle

lemma Booked.locked (hin : t.pc.inside = 1) : s.locked = true := by
  exact locked_of_weight h.inside (mem_of_getElem? ht) hin

lemma booked_acquire (hpc : t.pc = .exchange) (hstate : s.state = 0) :
    Booked ({ s with state := kLocked }.setPc i t (.holding false)) := by
  refine h.set ht rfl (.inr (.inl rfl)) ?_ ?_ ?_ ?_ ?_ ?_
  · rw [hpc]
    rfl
  · rw [hpc, hstate]
    show ownBit kLocked + 0 = ownBit 0 + 1
    decide
  · rw [hpc, hstate]
    show claimBit kLocked + 0 = claimBit 0 + 0
    decide
  · intro hne
    have hfull := h.queued hne
    rw [hstate] at hfull
    cases hfull
  · exact nofun
  · intro hfull
    rw [hstate] at hfull
    cases hfull

lemma booked_enter (hpc : t.pc = .suspend) (hfree : s.locked = false)
    (hseen : pc = .publish ∨ pc = .settle s.state ∧ s.state &&& kContended ≠ 0) :
    Booked ({ s with locked := true }.setPc i t pc) := by
  -- with a free queue lock nobody is claiming, so a marked word is also locked
  have hnone : weight (Task.count Pc.claiming) s.tasks = 0 := by
    refine weight_eq_zero fun y hy => ?_
    have hle := le_weight (Task.count Pc.inside) hy
    rw [h.inside, hfree] at hle
    unfold Task.count at hle ⊢
    cases hy' : y.pc <;> simp [hy', Pc.inside] at hle <;> rfl
  have hfull : s.state &&& kContended ≠ 0 → s.state = kLocked ||| kContended := by
    rw [h.claim] at hnone
    intro hmark
    rcases h.word with hw | hw | hw | hw
    · exact absurd (by rw [hw]; rfl) hmark
    · exact absurd (hw ▸ rfl) hmark
    · rw [hw] at hnone
      cases hnone
    · exact hw
  rcases hseen with rfl | ⟨rfl, hmark⟩
  · refine h.set ht rfl h.word ?_ ?_ ?_ h.queued nofun (fun hold _ => hold)
    · rw [hpc, hfree]
      rfl
    · rw [hpc]
      rfl
    · rw [hpc]
      rfl
  · refine h.set ht rfl h.word ?_ ?_ ?_ h.queued (fun _ _ _ => hfull hmark) (fun hold _ => hold)
    · rw [hpc, hfree]
      rfl
    · rw [hpc]
      rfl
    · rw [hpc]
      simp only [Pc.claiming, hfull hmark]
      rfl

end

lemma IsWord.mark {word : UInt8} (h : IsWord word) (hunc : word ≠ kContended) :
    word = 0 ∨ word ||| kContended = kLocked ||| kContended ∧ word &&& kLocked ≠ 0 := by
  rcases h with rfl | rfl | rfl | rfl
  · exact .inl rfl
  · exact .inr (by decide)
  · exact absurd rfl hunc
  · exact .inr (by decide)

section

variable (h : Booked s) (ht : s.tasks[i]? = some t)

include h ht

lemma booked_publish (hpc : t.pc = .publish) :
    Booked ({ s with state := s.state ||| kContended }.setPc i t (.settle s.state)) := by
  have hunc := h.unclaimed ht (hpc ▸ rfl) (hpc ▸ rfl)
  have hclaimBit : claimBit s.state = 0 := if_neg hunc
  have hin : t.pc.inside = 1 ∧ t.pc.owning = 0 ∧ t.pc.claiming = 0 := by
    rw [hpc]
    exact ⟨rfl, rfl, rfl⟩
  rcases h.word.mark hunc with hw | ⟨hfull, hlock⟩
  · -- the mutex was released before the mark: the call is going to take it
    have hempty : ¬ s.waiters ≠ [] := fun hne => absurd ((h.queued hne).symm.trans hw) (by decide)
    refine h.set ht rfl ?_ ?_ ?_ ?_ (fun hne => absurd hne hempty) ?_ ?_
    · exact .inr (.inr (.inl (show s.state ||| kContended = kContended by rw [hw]; rfl)))
    · rw [hin.1]
      rfl
    · rw [hin.2.1]
      show ownBit (s.state ||| kContended) + 0 = ownBit s.state + 0
      rw [hw]
      decide
    · rw [hin.2.2]
      show claimBit (s.state ||| kContended) + 0 = claimBit s.state + (if s.state &&& kLocked = 0 then 1 else 0)
      rw [hw]
      decide
    · intro previous hnew hprev
      cases hnew
      exact absurd (by rw [hw]; rfl) hprev
    · exact fun hold _ => absurd (hold.symm.trans hw) (by decide)
  · refine h.set ht rfl (.inr (.inr (.inr hfull))) ?_ ?_ ?_ (fun _ => hfull) (fun _ _ _ => hfull) (fun _ _ => hfull)
    · rw [hin.1]
      rfl
    · rw [hin.2.1]
      show ownBit (s.state ||| kContended) + 0 = ownBit s.state + 0
      rw [hfull, ownBit, ownBit, if_neg hlock, if_neg (by decide)]
    · rw [hin.2.2]
      show claimBit (s.state ||| kContended) + 0 = claimBit s.state + (if s.state &&& kLocked = 0 then 1 else 0)
      rw [hfull, hclaimBit, if_neg hlock, claimBit, if_neg (by decide)]

lemma booked_claim {previous : UInt8} (hpc : t.pc = .settle previous) (hprev : previous &&& kLocked = 0) :
    Booked ({ s with state := kLocked ||| kContended, locked := false }.setPc i t (.holding true)) := by
  have hclaiming : t.pc.claiming = 1 := by rw [hpc, Pc.claiming, if_pos hprev]
  have hstate := h.claimed ht hclaiming
  have hlock := h.locked ht (hpc ▸ rfl)
  refine h.set ht rfl (.inr (.inr (.inr rfl))) ?_ ?_ ?_ (fun _ => rfl) (fun _ _ _ => rfl) (fun _ _ => rfl)
  · rw [hpc, hlock]
    rfl
  · rw [hpc, hstate]
    show ownBit (kLocked ||| kContended) + 0 = ownBit kContended + 1
    decide
  · rw [hclaiming, hstate]
    show claimBit (kLocked ||| kContended) + 1 = claimBit kContended + 0
    decide

lemma booked_park {previous : UInt8} (hpc : t.pc = .settle previous) (hprev : previous &&& kLocked ≠ 0) :
    Booked ({ s with locked := false, waiters := s.waiters ++ [i], joined := s.joined ++ [i] }.setTask i
      { t with pc := .parked, waited := true }) := by
  have hstate := h.seen t (mem_of_getElem? ht) previous hpc hprev
  have hlock := h.locked ht (hpc ▸ rfl)
  refine h.set ht rfl h.word ?_ ?_ ?_ (fun _ => hstate) (fun _ _ _ => hstate) (fun hold _ => hold)
  · rw [hpc, hlock]
    rfl
  · rw [hpc]
    rfl
  · rw [hpc, Pc.claiming, if_neg hprev]
    rfl

lemma booked_release
    (hpc : t.pc = .unlockExchange ∧ s.state = kLocked ∨ t.pc = .unlockContended ∧ s.locked = false ∧ s.waiters = []) :
    Booked ({ s with state := 0 }.setPc i t (.returned true)) := by
  have hown : t.pc.owning = 1 ∧ t.pc.inside = 0 ∧ t.pc.claiming = 0 := by
    rcases hpc with ⟨hpc, -⟩ | ⟨hpc, -⟩ <;> rw [hpc] <;> exact ⟨rfl, rfl, rfl⟩
  have hheld := h.locked_of_owning ht hown.1
  have hempty : s.waiters = [] := by
    rcases hpc with ⟨-, hstate⟩ | ⟨-, -, hempty⟩
    · by_contra hne
      exact absurd ((h.queued hne).symm.trans hstate) (by decide)
    · exact hempty
  refine h.set ht rfl (.inl rfl) ?_ ?_ ?_ (fun hne => absurd hempty hne) (by simp) ?_
  · rw [hown.2.1]
    rfl
  · rw [hown.1]
    show ownBit 0 + 1 = ownBit s.state + 0
    rcases hheld with hw | hw <;> rw [hw] <;> decide
  · rw [hown.2.2]
    rcases hheld with hw | hw <;> rw [hw] <;> rfl
  · intro hfull hlock
    rcases hpc with ⟨-, hstate⟩ | ⟨-, hfree, -⟩
    · exact absurd (hfull.symm.trans hstate) (by decide)
    · rw [hfree] at hlock
      cases hlock

lemma booked_dispatch (hpc : t.pc = .dispatch n) (hw : s.tasks[n]? = some w) (hwpc : w.pc = .parked) :
    Booked ((s.setTask n { w with pc := .granted, wakes := w.wakes + 1 }).setPc i t (.returned true)) := by
  have hne := ne_of_lookup Task.pc ht hw (by simp [hpc, hwpc])
  have hsame : ∀ f : Pc → Nat, f (.returned true) + f .granted = f (.dispatch n) + f .parked →
      weight (count f) ((s.tasks.set n { w with pc := .granted, wakes := w.wakes + 1 }).set i
        { t with pc := .returned true }) = weight (count f) s.tasks := by
    intro f hf
    have hset := weight_set_set (count f) ht hw hne { t with pc := .returned true }
      { w with pc := .granted, wakes := w.wakes + 1 }
    simp only [Task.count, hpc, hwpc] at hset ⊢
    omega
  refine ⟨h.word, ?_, ?_, ?_, h.queued, forall_set (forall_set h.seen (by nofun) n) (by nofun) i⟩
  · exact (hsame Pc.inside rfl).trans h.inside
  · exact (hsame Pc.owning rfl).trans h.owner
  · exact (hsame Pc.claiming rfl).trans h.claim

end

lemma booked_start (h : Booked s) (awaits : Bool) : Booked { s with tasks := s.tasks ++ [{ awaits := awaits }] } := by
  refine ⟨h.word, ?_, ?_, ?_, h.queued, forall_append h.seen nofun⟩
  · exact (weight_concat (Task.count Pc.inside) s.tasks _).trans h.inside
  · exact (weight_concat (Task.count Pc.owning) s.tasks _).trans h.owner
  · exact (weight_concat (Task.count Pc.claiming) s.tasks _).trans h.claim

/-! ### The waiters -/

section

variable (h : Placed s) (ht : s.tasks[i]? = some t)
include h ht

lemma Placed.set (htasks : u.tasks = s.tasks.set i t') (hlot : Lot (Task.count Pc.waiting) carries u.waiters u.tasks)
    (hhanded : ∀ n, u.hand.toList.count n + t.carries.count n + (if n = i then t.pc.resuming else 0) =
      s.hand.toList.count n + t'.carries.count n + (if n = i then t'.pc.resuming else 0))
    (hordered : u.joined = u.obtained ++ u.hand.toList ++ u.waiters) : Placed u := by
  refine ⟨hlot, fun n => ?_, hordered⟩
  have hcarried := carried_set carries ht t' n
  have hentry := entry_set (Task.count Pc.resuming) ht t' n
  have hold := h.handed n
  have hnew := hhanded n
  rw [htasks]
  simp only [Task.count] at hentry hold ⊢
  omega

lemma Placed.move (htasks : u.tasks = s.tasks.set i t') (hwait : t'.pc.waiting = t.pc.waiting)
    (hres : t'.pc.resuming = t.pc.resuming) (hcar : t'.pc.carries = t.pc.carries) (hqueue : u.waiters = s.waiters)
    (hhand : u.hand = s.hand) (hjoin : u.joined = s.joined) (hobt : u.obtained = s.obtained) : Placed u := by
  refine h.set ht htasks ?_ (fun n => ?_) ?_
  · rw [hqueue, htasks]
    exact h.lot.move ht hwait hcar
  · rw [hhand, carries, carries, hcar, hres]
  · rw [hjoin, hobt, hhand, hqueue]
    exact h.ordered

lemma placed_park (hwait : t.pc.waiting = 0) (hres : t.pc.resuming = 0) (hcar : t.pc.carries = []) :
    Placed ({ s with locked := false, waiters := s.waiters ++ [i], joined := s.joined ++ [i] }.setTask i
      { t with pc := .parked, waited := true }) := by
  refine h.set ht rfl ?_ (fun n => ?_) ?_
  · exact h.lot.park ht hwait rfl hcar.symm perm_append_comm
  · rw [carries, hcar, hres]
    rfl
  · show s.joined ++ [i] = s.obtained ++ s.hand.toList ++ (s.waiters ++ [i])
    rw [h.ordered, append_assoc]

lemma Placed.hand_of_granted (hpc : t.pc = .granted) : s.hand = some i := by
  have hcount := h.handed i
  have hentry : entry (Task.count Pc.resuming) s.tasks i = 1 := by rw [entry_eq ht, Task.count, hpc]; rfl
  cases hhand : s.hand with
  | none =>
    rw [hhand, hentry] at hcount
    simp at hcount
  | some =>
    have hmem : i ∈ s.hand.toList := count_pos_iff.mp (by omega)
    rw [hhand, toList_some, mem_singleton] at hmem
    rw [hmem]

end

attribute [local simp] carries Pc.resuming State.setPc State.setTask Pc.carries

section

variable (h : Placed s)

include h

lemma placed_resume (ht : s.tasks[i]? = some t) (hpc : t.pc = .granted) :
    Placed ({ s with hand := none, obtained := s.obtained ++ [i] }.setPc i t (.holding true)) := by
  have hhand := h.hand_of_granted ht hpc
  refine h.set ht rfl ?_ (fun n => ?_) ?_
  · refine h.lot.move ht ?_ ?_
    · rw [Task.count, Task.count, hpc]
      rfl
    · rw [carries, carries, hpc]
      rfl
  · rw [hhand, carries, hpc]
    by_cases hn : n = i
    · subst hn
      simp
    · simp [hn, Ne.symm hn]
  · show s.joined = s.obtained ++ [i] ++ [] ++ s.waiters
    rw [h.ordered, hhand, append_nil]
    rfl

lemma Placed.hand_none (hbook : Booked s) (ht : s.tasks[i]? = some t) (hown : t.pc.owning = 1)
    (hres : t.pc.resuming = 0) (hcar : t.pc.carries = []) : s.hand = none := by
  have hone : weight (Task.count Pc.owning) s.tasks ≤ 1 := by
    rw [hbook.owner, ownBit]
    split <;> omega
  have hself : ∀ (j : Nat) (y : Task), s.tasks[j]? = some y → 0 < y.pc.owning → y = t := by
    intro j y hy hpos
    have hij := eq_of_weight_le_one hy ht hpos (by rw [Task.count]; omega) hone
    rw [hij, ht] at hy
    exact (some.inj hy).symm
  cases hhand : s.hand with
  | none => rfl
  | some n =>
    have hcount := h.handed n
    rw [hhand, toList_some, count_singleton_self] at hcount
    by_cases hpos : 0 < entry (Task.count Pc.resuming) s.tasks n
    · obtain ⟨w, hw, hwpos⟩ := exists_of_entry_pos hpos
      have hwown : 0 < w.pc.owning := by
        rw [Task.count] at hwpos
        cases hwpc : w.pc <;> simp [hwpc] at hwpos <;> decide
      rw [hself n w hw hwown, Task.count, hres] at hwpos
      cases hwpos
    · obtain ⟨x, hx, hxpos⟩ := exists_of_weight_pos (show 0 < carried carries s.tasks n by omega)
      obtain ⟨j, hj⟩ := mem_iff_getElem?.mp hx
      have hxown : 0 < x.pc.owning := by
        rw [carries] at hxpos
        cases hxpc : x.pc <;> simp [hxpc] at hxpos <;> simp [Pc.owning]
      rw [hself j x hj hxown, carries, hcar] at hxpos
      cases hxpos

lemma placed_handOver (hbook : Booked s) {rest : List Nat} (ht : s.tasks[i]? = some t) (hpc : t.pc = .unlockContended)
    (hqueue : s.waiters = n :: rest) : Placed ({ s with waiters := rest, hand := some n }.setPc i t (.dispatch n)) := by
  have hhand := h.hand_none hbook ht (hpc ▸ rfl) (hpc ▸ rfl) (hpc ▸ rfl)
  refine h.set ht rfl ?_ (fun m => ?_) ?_
  · refine h.lot.take ht ?_ ?_ ?_
    · rw [Task.count, Task.count, hpc]
      rfl
    · rw [carries, hpc]
      rfl
    · rw [hqueue]
      exact Perm.refl _
  · rw [hhand, carries, hpc]
    simp
  · rw [h.ordered, hhand, hqueue]
    simp

lemma Placed.parked_of_dispatch (ht : s.tasks[i]? = some t)
    (hpc : t.pc = .dispatch n) (hw : s.tasks[n]? = some w) : w.pc = .parked := by
  have hmem : n ∈ t.carries := by
    rw [carries, hpc]
    exact mem_singleton_self n
  have hpark := h.lot.parked_pos ht hmem hw
  rw [Task.count] at hpark
  cases hwpc : w.pc <;> simp [hwpc, Pc.waiting] at hpark
  rfl

lemma placed_dispatch (ht : s.tasks[i]? = some t)
    (hpc : t.pc = .dispatch n) (hw : s.tasks[n]? = some w) (hwpc : w.pc = .parked) :
    Placed ((s.setTask n { w with pc := .granted, wakes := w.wakes + 1 }).setPc i t (.returned true)) := by
  have hne := ne_of_lookup Task.pc ht hw (by simp [hpc, hwpc])
  have ht' : (s.tasks.set n { w with pc := .granted, wakes := w.wakes + 1 })[i]? = some t := by
    rw [getElem?_set_ne hne, ht]
  refine ⟨?_, fun m => ?_, h.ordered⟩
  · refine h.lot.wake (x := t) (w := w) ht hw ?_ ?_ rfl ?_ rfl ?_
    · rw [carries, hpc]
      rfl
    · rw [Task.count, hpc]
      rfl
    · rw [Task.count, hwpc]
      rfl
    · rw [carries, carries, hwpc]
      rfl
  · have hold := h.handed m
    have hcfirst := carried_set carries hw { w with pc := .granted, wakes := w.wakes + 1 } m
    have hcsec := carried_set carries ht' { t with pc := .returned true } m
    have hefirst := entry_set (Task.count Pc.resuming) hw { w with pc := .granted, wakes := w.wakes + 1 } m
    have hesecond := entry_set (Task.count Pc.resuming) ht' { t with pc := .returned true } m
    rw [show w.carries = [] by rw [carries, hwpc]; rfl] at hcfirst
    rw [show t.carries = [n] by rw [carries, hpc]; rfl, count_singleton] at hcsec
    rw [Task.count, hwpc] at hefirst
    rw [Task.count, hpc] at hesecond
    simp only [beq_iff_eq, eq_comm (a := n)] at hcsec
    simp only [Task.count, carries, Pc.resuming, Pc.carries, count_nil, ite_self] at hcfirst hcsec hefirst hesecond
    show s.hand.toList.count m =
      carried carries ((s.tasks.set n { w with pc := .granted, wakes := w.wakes + 1 }).set i
        { t with pc := .returned true }) m +
      entry (Task.count Pc.resuming) ((s.tasks.set n { w with pc := .granted, wakes := w.wakes + 1 }).set i
        { t with pc := .returned true }) m
    omega

lemma placed_start (awaits : Bool) : Placed { s with tasks := s.tasks ++ [{ awaits := awaits }] } := by
  refine ⟨h.lot.append rfl rfl, fun n => ?_, h.ordered⟩
  rw [carried_append carries s.tasks rfl, entry_append (Task.count Pc.resuming) s.tasks rfl]
  exact h.handed n

end

end Cio.Mutex
