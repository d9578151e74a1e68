import Cio.BufioReader

/-! `read_string` called again and again, also after a call that failed. A failing call has already taken what it
gathered out of the buffer. -/

namespace Cio.Bufio.Reader

open Buffer List

variable {source : Source} {r next last : Reader source} {delimiter : UInt8} {limit n : Nat} {out : List UInt8}

/-- `n` calls of `read_string`, the next one made whatever the last one returned. -/
def readStrings (delimiter : UInt8) (limit : Nat) :
    Nat → Reader source → List (Except Error (Option (List UInt8))) × Reader source
  | 0, r => ([], r)
  | n + 1, r =>
    ((r.readString delimiter limit).1 :: (readStrings delimiter limit n (r.readString delimiter limit).2).1,
      (readStrings delimiter limit n (r.readString delimiter limit).2).2)

def returnedBytes : Except Error (Option (List UInt8)) → List UInt8
  | .ok chunk => chunk.getD []
  | .error _ => []

/-! ### What the answers of the source say -/

/-- The bytes behind the last delimiter, one byte further. -/
def gather (delimiter : UInt8) (line : List UInt8) (byte : UInt8) : List UInt8 :=
  if byte = delimiter then [] else line ++ [byte]

/-- What a line has gathered before the `k`-th read, which is into `size` bytes: nothing at the start, behind the end of
the stream and behind an error. -/
def gathered (source : Source) (delimiter : UInt8) (size : Nat) : Nat → List UInt8
  | 0 => []
  | k + 1 =>
    match source k size with
    | .error _ => []
    | .ok bytes => if bytes.1 = [] then [] else bytes.1.foldl (gather delimiter) (gathered source delimiter size k)

/-- The `k`-th read finds no more than `limit` bytes of a line gathered, and nothing if it fails. -/
def Clean (source : Source) (delimiter : UInt8) (limit size k : Nat) : Prop :=
  (gathered source delimiter size k).length ≤ limit ∧
    ∀ e, source k size = .error e → gathered source delimiter size k = []

lemma foldl_gather {bytes : List UInt8} (h : delimiter ∉ bytes) (line : List UInt8) :
    bytes.foldl (gather delimiter) line = line ++ bytes := by
  induction bytes generalizing line with
  | nil => exact (append_nil line).symm
  | cons byte bytes ih =>
    obtain ⟨hbyte, hbytes⟩ := not_or.mp (mt mem_cons.mpr h)
    rw [foldl_cons, gather, if_neg (Ne.symm hbyte), ih hbytes, append_assoc]
    rfl

lemma clean_of_ok {size k : Nat} {bytes : { bytes : List UInt8 // bytes.length ≤ size }} (h : source k size = .ok bytes)
    (hle : (gathered source delimiter size k).length ≤ limit) : Clean source delimiter limit size k :=
  ⟨hle, fun e he => by cases h.symm.trans he⟩

/-! ### One call -/

lemma not_mem_pending (hfind : r.find delimiter = none) : delimiter ∉ r.pending := fun hmem => by
  simpa using findIdx?_eq_none_iff.mp hfind delimiter hmem

/-- The buffer at a delimiter. -/
lemma split_find {i : Nat} (hfind : r.find delimiter = some i) :
    ∃ front, delimiter ∉ front ∧ window r.storage_ r.begin_ (r.begin_ + (i + 1)) = front ++ [delimiter] ∧
      r.pending = front ++ delimiter :: (r.advance (i + 1) (find_lt hfind)).pending := by
  obtain ⟨fresh, hgave, hpend⟩ := took_advance r (find_lt hfind)
  rw [self_eq_append_right.mp hgave, append_nil] at hpend
  obtain ⟨hi, hat, hbefore⟩ := findIdx?_eq_some_iff_getElem.mp hfind
  have hlen : (window r.storage_ r.begin_ (r.begin_ + (i + 1))).length = i + 1 := by
    rw [length_window, Nat.add_sub_cancel_left]
  have hwindow : window r.storage_ r.begin_ (r.begin_ + (i + 1)) = r.pending.take i ++ [delimiter] := by
    rw [← take_left' hlen, ← hpend, take_succ_eq_append_getElem hi, beq_iff_eq.mp hat]
  refine ⟨r.pending.take i, fun hmem => ?_, hwindow, ?_⟩
  · obtain ⟨j, hj, hjat⟩ := getElem_of_mem hmem
    rw [length_take] at hj
    rw [getElem_take] at hjat
    exact hbefore j (by omega) (beq_iff_eq.mpr hjat)
  · rw [hwindow, append_assoc] at hpend
    exact hpend

/-- The refill of `read_string` is a read into the whole buffer. -/
lemma refill {answer : Except Error Unit} (hfill : (r.advance r.buffered (le_rfl)).fill = (answer, next)) :
    next.capacity_ = r.capacity_ ∧ next.reads = r.reads + 1 ∧
      ((∃ e, source r.reads r.capacity_ = .error e ∧ answer = .error e ∧ next.pending = []) ∨
        ∃ bytes, source r.reads r.capacity_ = .ok bytes ∧ answer = .ok () ∧ next.pending = bytes.1) := by
  have hends : (r.advance r.buffered (le_rfl)).begin_ = (r.advance r.buffered (le_rfl)).end_ :=
    Nat.add_sub_cancel' r.hbegin
  have hroom : (0 = r.capacity_) = False := eq_false (ne_of_lt r.hcapacity)
  rw [fill, compact, if_pos hends, readMore] at hfill
  simp only [advance, Nat.sub_zero, hroom, if_false] at hfill
  cases hsource : source r.reads r.capacity_ with
  | error e =>
    rw [hsource] at hfill
    cases hfill
    exact ⟨rfl, rfl, .inl ⟨e, rfl, rfl, window_self _ _⟩⟩
  | ok bytes =>
    rw [hsource] at hfill
    cases hfill
    exact ⟨rfl, rfl, .inr ⟨bytes, rfl, rfl, (window_store _ (le_refl 0) _).trans (nil_append _)⟩⟩

/-- What a call returns is what it took, and the reads that it made found nothing to lose; or it took more than it
returned. -/
def Accounted (delimiter : UInt8) (limit : Nat) (r : Reader source) (out : List UInt8)
    (answer : Except Error (Option (List UInt8))) (next : Reader source) : Prop :=
  ∃ taken, r.Took taken next ∧ next.capacity_ = r.capacity_ ∧
    (returnedBytes answer = out ++ taken ∧
        next.pending.foldl (gather delimiter) [] = gathered source delimiter r.capacity_ next.reads ∧
        (∀ k, r.reads ≤ k → k < next.reads → Clean source delimiter limit r.capacity_ k) ∨
      returnedBytes answer = [] ∧ out ++ taken ≠ [] ∧ ∃ k, ¬ Clean source delimiter limit r.capacity_ k)

lemma accounted_readStringLoop (limit : Nat)
    (hline : r.pending.foldl (gather delimiter) out = gathered source delimiter r.capacity_ r.reads) :
    Accounted delimiter limit r out (r.readStringLoop delimiter limit out).1
      (r.readStringLoop delimiter limit out).2 := by
  fun_induction readStringLoop delimiter limit r out with
  | case1 r out i hfind =>
    obtain ⟨front, hfront, hwindow, hpend⟩ := split_find hfind
    refine ⟨_, r.took_advance (find_lt hfind), rfl, .inl ⟨rfl, ?_, fun k hk hlt => absurd hk (Nat.not_le.mpr hlt)⟩⟩
    rw [hpend, foldl_append, foldl_cons, gather, if_pos rfl] at hline
    exact hline
  | case2 r out hfind hlimit =>
    rw [foldl_gather (not_mem_pending hfind)] at hline
    refine ⟨_, r.took_all, rfl, .inr ⟨rfl, fun hnil => ?_, r.reads, fun hclean => ?_⟩⟩
    · rw [hnil] at hlimit
      cases hlimit
    · exact absurd hclean.1 (by rw [← hline]; omega)
  | case3 r out hfind hlimit e next hfill =>
    rw [foldl_gather (not_mem_pending hfind)] at hline
    obtain ⟨hcapacity, hreads, ⟨_, hsource, -, hpend⟩ | ⟨_, _, ⟨⟩, _⟩⟩ := refill hfill
    refine ⟨_, r.took_all.trans (took_fill_eq hfill), hcapacity, ?_⟩
    rw [append_nil]
    by_cases hnil : out ++ r.pending = []
    · refine .inl ⟨hnil.symm, ?_, fun k hk hlt => ?_⟩
      · rw [hpend, hreads, gathered, hsource]
        rfl
      · obtain rfl : k = r.reads := Nat.le_antisymm (Nat.le_of_lt_succ (hlt.trans_eq hreads)) hk
        rw [Clean, ← hline, hnil]
        exact ⟨Nat.zero_le _, fun _ _ => rfl⟩
    · exact .inr ⟨rfl, hnil, r.reads, fun hclean => hnil (hline.trans (hclean.2 _ hsource))⟩
  | case4 r out hfind hlimit _ next hfill hempty =>
    rw [foldl_gather (not_mem_pending hfind)] at hline
    obtain ⟨hcapacity, hreads, ⟨_, _, ⟨⟩, _⟩ | ⟨bytes, hsource, -, hpend⟩⟩ := refill hfill
    have hnone := pending_of_empty hempty
    refine ⟨_, r.took_all.trans (took_fill_eq hfill), hcapacity, .inl ⟨?_, ?_, fun k hk hlt => ?_⟩⟩
    · rw [append_nil]
      by_cases hnil : out ++ r.pending = [] <;> simp [returnedBytes, hnil]
    · rw [hnone, hreads, gathered, hsource]
      exact (if_pos (hpend.symm.trans hnone)).symm
    · obtain rfl : k = r.reads := Nat.le_antisymm (Nat.le_of_lt_succ (hlt.trans_eq hreads)) hk
      exact clean_of_ok hsource (hline ▸ Nat.le_of_not_lt hlimit)
  | case5 r out hfind hlimit _ next hfill hempty ih =>
    rw [foldl_gather (not_mem_pending hfind)] at hline
    obtain ⟨hcapacity, hreads, ⟨_, _, ⟨⟩, _⟩ | ⟨bytes, hsource, -, hpend⟩⟩ := refill hfill
    have hsome : bytes.1 ≠ [] := fun hnil => hempty (by rw [← length_pending, hpend, hnil, length_nil])
    have hnext : next.pending.foldl (gather delimiter) (out ++ r.pending) =
        gathered source delimiter next.capacity_ next.reads := by
      rw [hcapacity, hreads, gathered, hsource, hline, hpend]
      exact (if_neg hsome).symm
    obtain ⟨taken, htook, hlastcap, hrest⟩ := ih hnext
    rw [hcapacity] at hrest
    refine ⟨_, (r.took_all.trans (took_fill_eq hfill)).trans htook, hlastcap.trans hcapacity, ?_⟩
    rw [append_nil, ← append_assoc]
    refine hrest.imp_left (.imp_right (.imp_right fun hclean k hk hlt => ?_))
    rcases Nat.lt_or_ge r.reads k with hlater | hle
    · exact hclean k (by omega) hlt
    · obtain rfl : k = r.reads := by omega
      exact clean_of_ok hsource (hline ▸ Nat.le_of_not_lt hlimit)

lemma readStringLoop_reads : r.reads ≤ (r.readStringLoop delimiter limit out).2.reads ∧ (out = [] →
      r.reads < (r.readStringLoop delimiter limit out).2.reads ∨
        (r.readStringLoop delimiter limit out).2.buffered < r.buffered) := by
  fun_induction readStringLoop delimiter limit r out with
  | case1 r out i hfind =>
    have hlt := find_lt hfind
    refine ⟨Nat.le_refl _, fun _ => .inr ?_⟩
    simp only [buffered, advance] at hlt ⊢
    omega
  | case2 r out hfind hlimit =>
    refine ⟨Nat.le_refl _, fun hnil => .inr ?_⟩
    rw [hnil, nil_append, length_pending] at hlimit
    simp only [buffered, advance] at hlimit ⊢
    omega
  | case3 r out hfind hlimit e next hfill =>
    have hreads := Nat.lt_of_lt_of_eq (Nat.lt_succ_self _) (refill hfill).2.1.symm
    exact ⟨hreads.le, fun _ => .inl hreads⟩
  | case4 r out hfind hlimit _ next hfill =>
    have hreads := Nat.lt_of_lt_of_eq (Nat.lt_succ_self _) (refill hfill).2.1.symm
    exact ⟨hreads.le, fun _ => .inl hreads⟩
  | case5 r out hfind hlimit _ next hfill hempty ih =>
    have hreads := Nat.lt_of_lt_of_le (Nat.lt_of_lt_of_eq (Nat.lt_succ_self _) (refill hfill).2.1.symm) ih.1
    exact ⟨hreads.le, fun _ => .inl hreads⟩

/-! ### Sequences of calls -/

/-- Whatever the calls return, they come to every read. -/
lemma exists_reads (delimiter : UInt8) (limit k : Nat) (r : Reader source) :
    ∃ n, k ≤ (r.readStrings delimiter limit n).2.reads := by
  by_cases hk : k ≤ r.reads
  · exact ⟨0, hk⟩
  · obtain ⟨n, hn⟩ := exists_reads delimiter limit k (r.readString delimiter limit).2
    exact ⟨n + 1, hn⟩
termination_by (k - r.reads, r.buffered)
decreasing_by
  obtain ⟨hle, hmore⟩ := @readStringLoop_reads _ r delimiter limit []
  rw [Prod.lex_def, readString]
  rcases hmore rfl with hreads | hbuffered <;> omega

lemma Took.unique {taken more : List UInt8} (h : r.Took taken next) (h' : r.Took more next) : taken = more := by
  obtain ⟨fresh, hgave, hpend⟩ := h
  obtain ⟨fresh', hgave', hpend'⟩ := h'
  obtain rfl := append_cancel_left (hgave.symm.trans hgave')
  exact append_cancel_right (hpend.symm.trans hpend')

lemma exists_took_readStrings : ∃ taken, r.Took taken (r.readStrings delimiter limit n).2 := by
  induction n generalizing r with
  | zero => exact ⟨[], .refl r⟩
  | succ n ih =>
    obtain ⟨taken, -, htook⟩ := took_readStringLoop (Prod.eta (r.readStringLoop delimiter limit [])).symm
    obtain ⟨more, hmore⟩ := ih (r := (r.readString delimiter limit).2)
    exact ⟨taken ++ more, htook.trans hmore⟩

variable (hline : r.pending.foldl (gather delimiter) [] = gathered source delimiter r.capacity_ r.reads)

include hline

lemma took_readStrings (hclean : ∀ k, Clean source delimiter limit r.capacity_ k) :
    r.Took ((r.readStrings delimiter limit n).1.flatMap returnedBytes) (r.readStrings delimiter limit n).2 := by
  induction n generalizing r with
  | zero => exact .refl r
  | succ n ih =>
    obtain ⟨taken, htook, hcapacity, ⟨hret, hnext, -⟩ | ⟨-, -, k, hk⟩⟩ := accounted_readStringLoop limit hline
    · rw [readStrings, flatMap_cons, readString, hret]
      refine htook.trans (ih ?_ ?_)
      · rw [hcapacity, hnext]
      · rwa [hcapacity]
    · exact absurd (hclean k) hk

lemma clean_of_took (htook : ∀ n,
      r.Took ((r.readStrings delimiter limit n).1.flatMap returnedBytes) (r.readStrings delimiter limit n).2) {k : Nat}
    (hk : r.reads ≤ k) (hlt : k < (r.readStrings delimiter limit n).2.reads) :
    Clean source delimiter limit r.capacity_ k := by
  induction n generalizing r with
  | zero => exact absurd hk (Nat.not_le.mpr hlt)
  | succ n ih =>
    obtain ⟨taken, hcall, hcapacity, hrest⟩ := accounted_readStringLoop limit hline
    have hfirst := htook 1
    rw [readStrings, readStrings, flatMap_cons, flatMap_nil, append_nil] at hfirst
    have htaken := hcall.unique hfirst
    obtain ⟨hret, hnext, hclean⟩ := hrest.resolve_right fun ⟨hret, hne, _⟩ => hne (htaken.trans hret)
    rcases Nat.lt_or_ge k (r.readString delimiter limit).2.reads with hnow | hlater
    · exact hclean k hk hnow
    · rw [← hcapacity]
      refine ih (by rw [hcapacity]; exact hnext) (fun m => ?_) hlater hlt
      -- what the later calls took is what they returned
      obtain ⟨more, hmore⟩ := exists_took_readStrings (r := (r.readString delimiter limit).2) (n := m)
      have hall := (hcall.trans hmore).unique (htook (m + 1))
      rw [readStrings, flatMap_cons, htaken, append_right_inj] at hall
      rwa [hall] at hmore

omit hline

lemma pending_of_none (h : (r.readStringLoop delimiter limit out).1 = .ok none) : out ++ r.pending = [] := by
  fun_induction readStringLoop delimiter limit r out with
  | case1 | case2 | case3 => cases h
  | case4 r out hfind hlimit _ filled hfill hempty =>
    by_contra hne
    rw [if_neg hne] at h
    cases h
  | case5 r out hfind hlimit _ filled hfill hempty ih => exact (append_eq_nil_iff.mp (ih h)).1

/-- The results of `n` calls and the buffered bytes are what the source has delivered; and when the stream has ended,
the results are the stream. -/
def Lossless (delimiter : UInt8) (limit n : Nat) (r : Reader source) : Prop :=
  let calls := r.readStrings delimiter limit n
  calls.1.flatMap returnedBytes ++ calls.2.pending = calls.2.delivered ∧
    ((calls.2.readString delimiter limit).1 = .ok none → calls.1.flatMap returnedBytes = calls.2.delivered)

/-- **Calls of `read_string` that go on after errors lose nothing, if and only if each read of the source that fails
finds no bytes gathered behind the last delimiter, and no read finds more of them than the limit.** -/
theorem readStrings_lossless_iff (source : Source) (delimiter : UInt8) (limit capacity : Nat) (storage : Nat → UInt8) :
    (∀ n, Lossless delimiter limit n (create source capacity storage)) ↔
      ∀ k, Clean source delimiter limit (create source capacity storage).capacity_ k := by
  have hline : (create source capacity storage).pending.foldl (gather delimiter) [] = [] := by
    rw [pending_of_empty rfl]
    rfl
  constructor
  · intro hall k
    obtain ⟨n, hn⟩ := exists_reads delimiter limit (k + 1) (create source capacity storage)
    refine clean_of_took hline (fun m => ?_) (Nat.zero_le k) hn
    refine ⟨_, (nil_append _).symm, ?_⟩
    rw [pending_of_empty rfl, nil_append]
    exact (hall m).1.symm
  · intro hclean n
    obtain ⟨fresh, hgave, hpend⟩ := took_readStrings (n := n) hline hclean
    rw [pending_of_empty rfl, nil_append] at hpend
    have hresults := hpend.symm.trans hgave.symm
    refine ⟨hresults, fun hend => ?_⟩
    have hnone := (append_eq_nil_iff.mp (pending_of_none hend)).2
    rwa [hnone, append_nil] at hresults

/-- A source that answers its reads from a script, and then is at the end of its stream. -/
def scripted (script : List (Except Error (List UInt8))) : Source := fun k size =>
  match script[k]? with
  | some (.error e) => .error e
  | some (.ok piece) => .ok ⟨piece.take size, List.length_take_le size _⟩
  | none => .ok ⟨[], Nat.zero_le _⟩

/-- A read times out in the middle of a line; what came before it is lost. -/
theorem readString_loses_line :
    ¬ ∀ (source : Source) (delimiter : UInt8) (limit capacity n : Nat) (storage : Nat → UInt8),
      let calls := (create source capacity storage).readStrings delimiter limit n
      (calls.2.readString delimiter limit).1 = .ok none → calls.1.flatMap returnedBytes = calls.2.delivered := by
  intro hall
  have hlost := hall (scripted [.ok [97], .error (.errc .timedOut), .ok [98, 10]]) 10 80 8 2 (fun _ => 0)
    (by decide +kernel)
  exact absurd hlost (by decide +kernel)

end Cio.Bufio.Reader
