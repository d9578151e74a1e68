import Mathlib.Data.List.Basic
import Cio.ReactorDesc

/-! Addresses as `net.cpp` reads and writes them: `split_host_port` and `join_host_port`, `UnixAddr::parse` and its text
form, and the order in which `Dialer` tries the addresses of a name. Strings are lists of characters. -/

namespace Cio.Net

open List

/-! ### Host and port -/

def find (s : List Char) (c : Char) : Option Nat := s.findIdx? (· == c)

def rfind (s : List Char) (c : Char) : Option Nat := (find s.reverse c).map (s.length - 1 - ·)

def splitHostPort (s : List Char) : Except Error (List Char × List Char) :=
  if s = [] then .error .einval
  else if s.head? = some '[' then
    match find s ']' with
    | none => .error .einval
    | some close =>
      if s[close + 1]? ≠ some ':' then .error .einval
      else if (s.take close).drop 1 = [] ∨ s.drop (close + 2) = [] then .error .einval
      else .ok ((s.take close).drop 1, s.drop (close + 2))
  else
    match rfind s ':' with
    | none => .error .einval
    | some colon =>
      if find s ':' ≠ some colon then .error .einval
      else if s.drop (colon + 1) = [] then .error .einval
      else .ok (s.take colon, s.drop (colon + 1))

def joinHostPort (host port : List Char) : List Char :=
  if find host ':' ≠ none then '[' :: host ++ ']' :: ':' :: port else host ++ ':' :: port

variable {s host port before after : List Char} {c : Char}

lemma find_append (h : c ∉ before) : find (before ++ c :: after) c = some before.length := by
  have hnone : before.findIdx? (· == c) = none :=
    findIdx?_eq_none_iff.mpr fun x hx => beq_eq_false_iff_ne.mpr (ne_of_mem_of_not_mem hx h)
  rw [find, findIdx?_append, hnone, findIdx?_cons]
  simp

lemma rfind_append (h : c ∉ after) : rfind (before ++ c :: after) c = some before.length := by
  have hreverse : (before ++ c :: after).reverse = after.reverse ++ c :: before.reverse := by simp
  rw [rfind, hreverse, find_append (fun hmem => h (mem_reverse.mp hmem)), Option.map_some, length_append, length_cons,
    length_reverse]
  congr 1
  omega

lemma find_ne_none : find s c ≠ none ↔ c ∈ s := by
  rw [find, Ne, findIdx?_eq_none_iff]
  simp

lemma not_mem_take {i : Nat} (h : find s c = some i) : c ∉ s.take i := by
  obtain ⟨-, hbefore⟩ := (findIdx?_eq_some_iff_getElem.mp h).2
  intro hmem
  obtain ⟨j, hj, hat⟩ := getElem_of_mem hmem
  rw [length_take] at hj
  rw [getElem_take] at hat
  exact hbefore j (by omega) (beq_iff_eq.mpr hat)

lemma join_plain (h : ':' ∉ host) : joinHostPort host port = host ++ ':' :: port :=
  if_neg fun hne => h (find_ne_none.mp hne)

lemma head_join (h : host.head? ≠ some '[') : (host ++ ':' :: port).head? ≠ some '[' := by
  cases host with
  | nil => simp
  | cons => exact h

lemma split_join (hport : port ≠ []) (h : if ':' ∈ host then ']' ∉ host else host.head? ≠ some '[' ∧ ':' ∉ port) :
    splitHostPort (joinHostPort host port) = .ok (host, port) := by
  by_cases hcolon : ':' ∈ host
  · rw [if_pos hcolon] at h
    have hfind : find ('[' :: host ++ ']' :: ':' :: port) ']' = some (host.length + 1) :=
      @find_append ('[' :: host) _ _ (by simp [h])
    have hhost : host ≠ [] := ne_nil_of_mem hcolon
    rw [joinHostPort, if_pos (find_ne_none.mpr hcolon), splitHostPort, hfind]
    simp [hhost, hport]
  · rw [if_neg hcolon] at h
    rw [join_plain hcolon, splitHostPort, if_neg (by simp), if_neg (head_join h.1), rfind_append h.2,
      find_append hcolon]
    simp [hport]

/-- **Every host without brackets and every port without a colon come back from their joined form.** -/
theorem splitHostPort_joinHostPort (host port : List Char) (hopen : '[' ∉ host) (hclose : ']' ∉ host)
    (hport : port ≠ []) (hcolon : ':' ∉ port) : splitHostPort (joinHostPort host port) = .ok (host, port) := by
  refine split_join hport ?_
  split
  · exact hclose
  · exact ⟨fun hhead => hopen (mem_of_mem_head? hhead), hcolon⟩

theorem splitHostPort_joinHostPort_loopback :
    splitHostPort (joinHostPort [':', ':', '1'] ['8', '0']) = .ok ([':', ':', '1'], ['8', '0']) :=
  splitHostPort_joinHostPort _ _ (by decide) (by decide) (by decide) (by decide)

lemma split_ok (h : splitHostPort s = .ok (host, port)) : port ≠ [] ∧ (':' ∈ host → ']' ∉ host) := by
  rw [splitHostPort] at h
  split_ifs at h
  · split at h
    · cases h
    · rename_i close hfind
      split_ifs at h with _ hempty
      cases h
      exact ⟨fun hport => hempty (.inr hport), fun _ hmem => not_mem_take hfind (mem_of_mem_drop hmem)⟩
  · split at h
    · cases h
    · rename_i colon hrfind
      split_ifs at h with hfind hempty
      cases h
      exact ⟨hempty, fun hmem => absurd hmem (not_mem_take (not_not.mp hfind))⟩

lemma rfind_append_of_mem (h : c ∈ after) : rfind (before ++ c :: after) c ≠ some before.length := by
  have hreverse : (before ++ c :: after).reverse = after.reverse ++ c :: before.reverse := by simp
  obtain ⟨i, hi⟩ := Option.ne_none_iff_exists'.mp (find_ne_none.mpr (mem_reverse.mpr h))
  obtain ⟨hlt, -⟩ := findIdx?_eq_some_iff_getElem.mp hi
  rw [length_reverse] at hlt
  rw [rfind, hreverse, find, findIdx?_append, ← find, hi, Option.some_or, Option.map_some, length_append, length_cons]
  intro hlast
  have := Option.some.inj hlast
  omega

lemma join_bracket (hhead : host.head? = some '[') (hcolon : ':' ∉ host) :
    splitHostPort (joinHostPort host port) ≠ .ok (host, port) := by
  have hfront : (host ++ ':' :: port).head? = some '[' := by simp [head?_append, hhead]
  rw [join_plain hcolon, splitHostPort, if_neg (by simp), if_pos hfront]
  intro h
  split at h
  · cases h
  rename_i close _
  split_ifs at h with hat hempty
  obtain ⟨hhost, hport⟩ := Prod.mk.inj (Except.ok.inj h)
  have hlt : close + 1 < (host ++ ':' :: port).length := (List.getElem?_eq_some_iff.mp (not_not.mp hat)).1
  have hhostlen := congrArg length hhost
  have hportlen := congrArg length hport
  simp only [length_drop, length_take, length_append, length_cons] at hlt hhostlen hportlen
  omega

/-- **What `split_host_port` accepts survives being joined again, if and only if the host has a colon, or does not begin
with a bracket and the port has no colon.** -/
theorem splitHostPort_rejoined_iff (s host port : List Char) (h : splitHostPort s = .ok (host, port)) :
    splitHostPort (joinHostPort host port) = .ok (host, port) ↔
      ':' ∈ host ∨ host.head? ≠ some '[' ∧ ':' ∉ port := by
  obtain ⟨hport, hclose⟩ := split_ok h
  constructor
  · intro hjoined
    by_contra hplain
    obtain ⟨hcolon, hrest⟩ := not_or.mp hplain
    by_cases hhead : host.head? = some '['
    · exact join_bracket hhead hcolon hjoined
    have hmem : ':' ∈ port := not_not.mp fun hnone => hrest ⟨hhead, hnone⟩
    rw [join_plain hcolon, splitHostPort, if_neg (by simp), if_neg (head_join hhead)] at hjoined
    split at hjoined
    · cases hjoined
    rename_i colon hlast
    split_ifs at hjoined with hfind
    rw [find_append hcolon, not_not] at hfind
    exact rfind_append_of_mem hmem (hlast.trans hfind.symm)
  · intro hplain
    refine split_join hport ?_
    split
    · exact hclose ‹_›
    · exact hplain.resolve_left ‹_›

theorem splitHostPort_rejoined_iff_bracketed :
    splitHostPort (joinHostPort [':', ':', '1'] ['a', ':', 'b']) = .ok ([':', ':', '1'], ['a', ':', 'b']) :=
  (splitHostPort_rejoined_iff ['[', ':', ':', '1', ']', ':', 'a', ':', 'b'] _ _ (by decide)).mpr (by decide)

/-- `[a]:b:c` is accepted with the port `b:c`, and `a:b:c` is not accepted. -/
theorem splitHostPort_not_rejoined : ¬ ∀ s host port : List Char, splitHostPort s = .ok (host, port) →
      splitHostPort (joinHostPort host port) = .ok (host, port) := fun hall =>
  absurd (hall ['[', 'a', ']', ':', 'b', ':', 'c'] ['a'] ['b', ':', 'c'] (by decide)) (by decide)

/-! ### Unix addresses -/

structure UnixAddr where
  path : List Char
  isAbstract : Bool
  deriving DecidableEq

def sunPathBytes : Nat := 108

def UnixAddr.parse (s : List Char) : Except Error UnixAddr :=
  if s = [] then .error .einval
  else if s.head? = some '@' ∧ s.drop 1 = [] then .error .einval
  else
    let addr : UnixAddr := if s.head? = some '@' then ⟨s.drop 1, true⟩ else ⟨s, false⟩
    if sunPathBytes < addr.path.length + 1 then .error (.errno 36) else .ok addr

/-- `path()`, which is `to_string()`: both branches of the source are `path_`. -/
def UnixAddr.text (addr : UnixAddr) : List Char := addr.path

lemma UnixAddr.parse_ok {addr : UnixAddr} : parse s = .ok addr ↔ addr.path ≠ [] ∧ addr.path.length < sunPathBytes ∧
      (addr.isAbstract ∧ s = '@' :: addr.path ∨
        addr.isAbstract = false ∧ s = addr.path ∧ s.head? ≠ some '@') := by
  rw [parse]
  rcases addr with ⟨path, _ | _⟩ <;> cases s with
  | nil => simp +contextual
  | cons x rest => by_cases hx : x = '@' <;> simp [hx] <;> grind

/-- **A parsed address is read back from its text form exactly when it is a path, and addresses with one text form are
equal exactly when they are of one kind.** -/
theorem unixAddr_text (s : List Char) (a b : UnixAddr) (ha : UnixAddr.parse s = .ok a) :
    (UnixAddr.parse a.text = .ok a ↔ a.isAbstract = false) ∧
      (a.text = b.text → (a = b ↔ a.isAbstract = b.isAbstract)) := by
  obtain ⟨hne, hlength, hkind⟩ := UnixAddr.parse_ok.mp ha
  refine ⟨?_, fun htext => ?_⟩
  · rw [UnixAddr.parse_ok]
    constructor
    · rintro ⟨-, -, ⟨-, hself⟩ | ⟨hpath, -⟩⟩
      · exact absurd (congrArg length hself) (by simp [UnixAddr.text])
      · exact hpath
    · intro hpath
      rcases hkind with ⟨habstract, -⟩ | ⟨-, rfl, hhead⟩
      · cases hpath.symm.trans habstract
      · exact ⟨hne, hlength, .inr ⟨hpath, rfl, hhead⟩⟩
  · constructor
    · rintro rfl
      rfl
    · intro hsame
      cases a
      cases b
      exact congrArg₂ UnixAddr.mk htext hsame

theorem unixAddr_text_path : UnixAddr.parse (UnixAddr.mk ['/', 's'] false).text = .ok ⟨['/', 's'], false⟩ :=
  (unixAddr_text ['/', 's'] _ ⟨[], false⟩ (by decide)).1.mpr rfl

/-- The text form of `@x` is `x`, which is the text form of another address. -/
theorem unixAddr_text_abstract :
    (¬ ∀ (s : List Char) (a : UnixAddr), UnixAddr.parse s = .ok a → UnixAddr.parse a.text = .ok a) ∧
      ¬ ∀ (s s' : List Char) (a b : UnixAddr), UnixAddr.parse s = .ok a → UnixAddr.parse s' = .ok b →
        a ≠ b → a.text ≠ b.text :=
  ⟨fun hall => absurd (hall ['@', 'x'] ⟨['x'], true⟩ (by decide)) (by decide),
    fun hall => hall ['@', 'x'] ['x'] ⟨['x'], true⟩ ⟨['x'], false⟩ (by decide) (by decide) (by decide) rfl⟩

/-! ### The order of the attempts -/

variable {α : Type} {f : α → Bool} {first second l : List α}

/-- The loop of `interleave_families`: a turn takes one address of each list, and when one list is used up the other
goes on alone. -/
def turns : List α → List α → List α
  | [], rest => rest
  | rest, [] => rest
  | x :: first, y :: second => x :: y :: turns first second

/-- `isV6` is `family() == AF_INET6`. -/
def interleaveFamilies (isV6 : α → Bool) (addresses : List α) : List α :=
  if (addresses.head?.map isV6).getD true then turns (addresses.filter isV6) (addresses.filter (!isV6 ·))
  else turns (addresses.filter (!isV6 ·)) (addresses.filter isV6)

lemma turns_perm (first second : List α) : turns first second ~ first ++ second := by
  fun_induction turns first second with
  | case1 => exact .refl _
  | case2 => exact .of_eq (append_nil _).symm
  | case3 x first y second ih =>
    have hmiddle : first ++ y :: second ~ y :: (first ++ second) := perm_middle
    exact ((ih.cons y).trans hmiddle.symm).cons x

lemma filter_turns (hfirst : ∀ x ∈ first, f x) (hsecond : ∀ x ∈ second, f x = false) :
    (turns first second).filter f = first ∧ (turns first second).filter (!f ·) = second := by
  fun_induction turns first second with
  | case1 => simpa [filter_eq_nil_iff] using hsecond
  | case2 => simpa [filter_eq_nil_iff] using hfirst
  | case3 x first y second ih =>
    obtain ⟨hx, hfirst⟩ := forall_mem_cons.mp hfirst
    obtain ⟨hy, hsecond⟩ := forall_mem_cons.mp hsecond
    simp [hx, hy, ih hfirst hsecond]

lemma take_turns {k : Nat} (hfirst : k ≤ first.length) (hsecond : k ≤ second.length) :
    (turns first second).take (2 * k) = turns (first.take k) (second.take k) := by
  fun_induction turns first second generalizing k with
  | case1 => simp_all [turns]
  | case2 => simp_all [turns]
  | case3 x first y second ih =>
    cases k with
    | zero => rfl
    | succ k =>
      rw [Nat.mul_succ, take_succ_cons, take_succ_cons, take_succ_cons, take_succ_cons, turns,
        ih (Nat.le_of_succ_le_succ hfirst) (Nat.le_of_succ_le_succ hsecond)]

lemma getElem?_turns {i : Nat} (hfirst : i < first.length) (hsecond : i < second.length) :
    (turns first second)[2 * i]? = first[i]? ∧ (turns first second)[2 * i + 1]? = second[i]? := by
  fun_induction turns first second generalizing i with
  | case1 => cases hfirst
  | case2 => cases hsecond
  | case3 x first y second ih =>
    cases i with
    | zero => exact ⟨rfl, rfl⟩
    | succ i => exact ih (Nat.lt_of_succ_lt_succ hfirst) (Nat.lt_of_succ_lt_succ hsecond)

/-- A list in turns of two families: the order within each is kept, the first address stays first, and the families
alternate, beginning with its family, until one is used up. -/
structure Interleaved (f : α → Bool) (l out : List α) : Prop where
  perm : out ~ l
  head : out.head? = l.head?
  inOrder : out.filter f = l.filter f ∧ out.filter (!f ·) = l.filter (!f ·)
  balanced : ∀ k, k ≤ l.countP f → k ≤ l.countP (!f ·) →
    (out.take (2 * k)).countP f = k ∧ (out.take (2 * k)).countP (!f ·) = k
  alternates : ∀ i, i < l.countP f → i < l.countP (!f ·) →
    out[2 * i]?.map f = l.head?.map f ∧ out[2 * i + 1]?.map f = l.head?.map (!f ·)

lemma Interleaved.of_not {out : List α} (h : Interleaved (!f ·) l out) : Interleaved f l out where
  perm := h.perm
  head := h.head
  inOrder := by simpa using h.inOrder.symm
  balanced k hf hn := by simpa using (h.balanced k hn (by simpa using hf)).symm
  alternates i hf hn := by
    have hnot := h.alternates i hn (by simpa using hf)
    have hinj := Option.map_injective (f := not) fun _ _ => Bool.not_inj
    exact ⟨hinj (by simpa [Function.comp_def] using hnot.1), hinj (by simpa [Function.comp_def] using hnot.2)⟩

lemma interleaved_turns (hhead : ∀ x, l.head? = some x → f x) :
    Interleaved f l (turns (l.filter f) (l.filter (!f ·))) := by
  have hfirst : ∀ x ∈ l.filter f, f x = true := fun x hx => (mem_filter.mp hx).2
  have hsecond : ∀ x ∈ l.filter (!f ·), f x = false := fun x hx => by simpa using (mem_filter.mp hx).2
  refine ⟨(turns_perm _ _).trans (filter_append_perm f l), ?_, filter_turns hfirst hsecond, fun k hf hn => ?_,
    fun i hf hn => ?_⟩
  · cases l with
    | nil => rfl
    | cons x rest =>
      rw [filter_cons_of_pos (hhead x rfl)]
      cases (x :: rest).filter (!f ·) <;> rfl
  · rw [countP_eq_length_filter] at hf hn
    obtain ⟨hf', hn'⟩ := filter_turns (fun x hx => hfirst x (mem_of_mem_take hx)) fun x hx =>
      hsecond x (mem_of_mem_take (i := k) hx)
    rw [take_turns hf hn, countP_eq_length_filter, countP_eq_length_filter, hf', hn', length_take, length_take]
    exact ⟨Nat.min_eq_left hf, Nat.min_eq_left hn⟩
  · rw [countP_eq_length_filter] at hf hn
    obtain ⟨heven, hodd⟩ := getElem?_turns hf hn
    cases l with
    | nil => cases hf
    | cons x rest =>
      rw [heven, hodd, getElem?_eq_getElem hf, getElem?_eq_getElem hn, Option.map_some, Option.map_some,
        hfirst _ (getElem_mem hf), hsecond _ (getElem_mem hn)]
      simp [hhead x rfl]

/-- **`interleave_families` takes the families in turns, beginning with the first address.** -/
theorem interleaveFamilies_interleaved (isV6 : α → Bool) (addresses : List α) :
    Interleaved isV6 addresses (interleaveFamilies isV6 addresses) := by
  rw [interleaveFamilies]
  split
  · rename_i hv6
    exact interleaved_turns fun x hx => by simpa [hx] using hv6
  · rename_i hv4
    have hturns : Interleaved (!isV6 ·) addresses _ := interleaved_turns fun x hx => by simpa [hx] using hv4
    simpa using hturns.of_not

end Cio.Net
