import Mathlib.Logic.Function.Basic

/-! Programs of threads that share state. A program is a tree: it asks for one atomic command at a
time and continues with the answer. What a thread owns (its local variables, and the shared words
only it writes) is tracked by a protocol: which commands it may ask for, and what it owns after each
answer. `wp` is the weakest precondition of a program in the protocol, so a routine has one
specification, and its callers use that instead of its body.
`advance` runs one command of one thread; a thread whose program meets its precondition keeps meeting
it, whatever the others do. -/

namespace ThreadProgram

/-- Programs over the commands `C`, where `A c` is the type of the answers to `c`. -/
inductive Prog (C : Type) (A : C → Type) (α : Type) where
  | ret (a : α)
  | call (c : C) (k : A c → Prog C A α)

namespace Prog

variable {C : Type} {A : C → Type} {α β : Type}

def bind (m : Prog C A α) (f : α → Prog C A β) : Prog C A β :=
  match m with
  | ret a => f a
  | call c k => call c fun a => (k a).bind f

instance : Monad (Prog C A) where
  pure := ret
  bind := bind

end Prog

def request {C : Type} {A : C → Type} (c : C) : Prog C A (A c) := .call c .ret

/-- The discipline of a thread: the commands it may ask for with what it owns, and what it may own
after an answer. -/
structure Protocol (C : Type) (A : C → Type) (L : Type) where
  may : L → C → Prop
  next : L → (c : C) → A c → L → Prop

section Rules

variable {C : Type} {A : C → Type} {L α β : Type} (P : Protocol C A L)

/-- Every command of the program is one the thread may ask for, and whatever the answers are it ends
in `post`. -/
def wp : Prog C A α → (α → L → Prop) → L → Prop
  | .ret a, post, own => post a own
  | .call c k, post, own => P.may own c ∧ ∀ a own', P.next own c a own' → wp (k a) post own'

variable {P}

variable {own : L}

lemma wp_pure {post : α → L → Prop} {a : α} (h : post a own) : wp P (pure a : Prog C A α) post own := h

variable {m : Prog C A α}

lemma wp_bind {f : α → Prog C A β} {post : β → L → Prop}
    (h : wp P m (fun a own' => wp P (f a) post own') own) : wp P (m >>= f) post own := by
  induction m generalizing own with
  | ret => exact h
  | call c k ih => exact ⟨h.1, fun a own' hnext => ih a (h.2 a own' hnext)⟩

lemma wp_mono {post post' : α → L → Prop} (h : wp P m post own)
    (himp : ∀ a own', post a own' → post' a own') : wp P m post' own := by
  induction m generalizing own with
  | ret a => exact himp a own h
  | call c k ih => exact ⟨h.1, fun a own' hnext => ih a (h.2 a own' hnext)⟩

lemma wp_seq {f : α → Prog C A β} {mid : α → L → Prop} {post : β → L → Prop} (hm : wp P m mid own)
    (hf : ∀ a own', mid a own' → wp P (f a) post own') : wp P (m >>= f) post own :=
  wp_bind (wp_mono hm hf)

lemma wp_request {c : C} {post : A c → L → Prop} (hmay : P.may own c)
    (h : ∀ a own', P.next own c a own' → post a own') : wp P (request c) post own :=
  ⟨hmay, h⟩

end Rules

/-- A thread in the middle of a program, with what it owns. -/
structure Thread (C : Type) (A : C → Type) (L α : Type) where
  prog : Prog C A α
  own : L

section Machine

variable {C : Type} {A : C → Type} {L α σ ι : Type}

/-- The next command of a thread, executed on the shared state. `i` is the environment's choice. -/
def advance (exec : σ → L → (c : C) → ι → Option (σ × A c × L)) (s : σ) (t : Thread C A L α) (i : ι) :
    Option (σ × Thread C A L α) :=
  match t.prog with
  | .ret _ => none
  | .call c k => (exec s t.own c i).map fun r => (r.1, ⟨k r.2.1, r.2.2⟩)

/-- A thread that meets its precondition asks for a command it may ask for, and meets the
precondition of what is left of its program afterwards. -/
lemma advance_wp {exec : σ → L → (c : C) → ι → Option (σ × A c × L)} {P : Protocol C A L}
    (hsound : ∀ s own c i s' a own', P.may own c → exec s own c i = some (s', a, own') → P.next own c a own')
    {s s' : σ} {t t' : Thread C A L α} {i : ι} {post : α → L → Prop} (hwp : wp P t.prog post t.own)
    (hs : advance exec s t i = some (s', t')) :
    ∃ c a, P.may t.own c ∧ exec s t.own c i = some (s', a, t'.own) ∧ P.next t.own c a t'.own ∧
      wp P t'.prog post t'.own := by
  obtain ⟨prog, own⟩ := t
  cases prog with
  | ret => cases hs
  | call c =>
    obtain ⟨⟨u, a, own'⟩, hexec, heq⟩ := Option.map_eq_some_iff.mp hs
    cases heq
    have hnext := hsound s own c i u a own' hwp.1 hexec
    exact ⟨c, a, hwp.1, hexec, hnext, hwp.2 a own' hnext⟩

end Machine
end ThreadProgram
