import Mathlib.Data.List.Range
import Cio.ReactorDesc

/-! DNS messages as `dns.cpp` writes and reads them: `build_query` and `parse_response` with the name
encoding and the name skipping below them. Messages are byte lists; a read past the end yields zero,
and the parser bounds its reads before it makes them. -/

namespace Cio.Dns

open List

def kHeaderBytes : Nat := 12
def kMaxUdpMessage : Nat := 4096
def kMaxPointerHops : Nat := 64

inductive RecordType where
  | a
  | aaaa

def RecordType.code : RecordType → Nat
  | a => 1
  | aaaa => 28

inductive Family where
  | inet
  | inet6
  deriving DecidableEq

/-- `net::SocketAddr`: the raw address in network order and the port. -/
structure SocketAddr where
  family : Family
  address : List UInt8
  port : Nat
  deriving DecidableEq

structure Answer where
  addresses : List SocketAddr := []
  truncated : Bool := false
  deriving DecidableEq

def byteAt (m : List UInt8) (pos : Nat) : Nat := (m.getD pos 0).toNat

def readU16 (m : List UInt8) (pos : Nat) : Nat := byteAt m pos * 256 + byteAt m (pos + 1)

def u16 (value : Nat) : List UInt8 := [UInt8.ofNat (value / 256), UInt8.ofNat value]

/-! ### Queries -/

/-- The labels of a name, each behind its length, and the root behind the last. -/
def encodeLabels : List (List UInt8) → Except Error (List UInt8)
  | [] => .ok [0]
  | label :: rest =>
    if label.length = 0 ∨ 63 < label.length then .error .einval
    else (encodeLabels rest).map fun tail => UInt8.ofNat label.length :: (label ++ tail)

/-- `encode_name`: a single trailing dot (46) is the root and carries no label. -/
def encodeName (name : List UInt8) : Except Error (List UInt8) :=
  let stripped := if name.getLast? = some 46 then name.dropLast else name
  if 253 < name.length ∨ stripped = [] then .error .einval
  else encodeLabels (stripped.splitOn 46)

/-- `build_query`: one question, recursion desired, class IN. -/
def buildQuery (name : List UInt8) (type : RecordType) (id : Nat) : Except Error (List UInt8) :=
  (encodeName name).map fun encoded =>
    u16 id ++ u16 0x0100 ++ u16 1 ++ u16 0 ++ u16 0 ++ u16 0 ++ encoded ++ u16 type.code ++ u16 1

/-! ### Responses -/

/-- `skip_name` with the number of labels it may still walk over: the offset just past the name. -/
def skipNameFrom (m : List UInt8) : Nat → Nat → Except Error Nat
  | hops, pos =>
    if m.length ≤ pos then .error .ebadmsg
    else if byteAt m pos = 0 then .ok (pos + 1)
    else if 192 ≤ byteAt m pos then
      if m.length ≤ pos + 1 then .error .ebadmsg else .ok (pos + 2)
    else if 64 ≤ byteAt m pos then .error .ebadmsg
    else
      match hops with
      | 0 => .error .ebadmsg
      | hops + 1 => skipNameFrom m hops (pos + 1 + byteAt m pos)

def skipName (m : List UInt8) (pos : Nat) : Except Error Nat := skipNameFrom m kMaxPointerHops pos

def skipQuestions (m : List UInt8) : Nat → Nat → Except Error Nat
  | 0, pos => .ok pos
  | questions + 1, pos =>
    match skipName m pos with
    | .error err => .error err
    | .ok next =>
      if m.length < next + 4 then .error .ebadmsg else skipQuestions m questions (next + 4)

/-- The address of one record, when its type, class and length are those of an address. -/
def recordAddress (m : List UInt8) (type klass length pos port : Nat) : List SocketAddr :=
  if klass = 1 ∧ type = RecordType.a.code ∧ length = 4 then
    [⟨.inet, (m.drop pos).take 4, port⟩]
  else if klass = 1 ∧ type = RecordType.aaaa.code ∧ length = 16 then
    [⟨.inet6, (m.drop pos).take 16, port⟩]
  else []

def parseAnswers (m : List UInt8) (port : Nat) : Nat → Nat → List SocketAddr → Except Error (List SocketAddr)
  | 0, _, addresses => .ok addresses
  | answers + 1, pos, addresses =>
    match skipName m pos with
    | .error err => .error err
    | .ok next =>
      let length := readU16 m (next + 8)
      if m.length < next + 10 ∨ m.length < next + 10 + length then .error .ebadmsg
      else
        parseAnswers m port answers (next + 10 + length) (addresses ++
          recordAddress m (readU16 m next) (readU16 m (next + 2)) length (next + 10) port)

def parseSections (m : List UInt8) (port : Nat) (truncated : Bool) : Except Error Answer :=
  match skipQuestions m (readU16 m 4) kHeaderBytes with
  | .error err => .error err
  | .ok pos =>
    (parseAnswers m port (readU16 m 6) pos []).map fun addresses => { addresses, truncated }

/-- `parse_response`: bit 9 of the flags is TC, their low nibble the response code. -/
def parseResponse (m : List UInt8) (expectedId port : Nat) : Except Error Answer :=
  if m.length < kHeaderBytes then .error .ebadmsg
  else if readU16 m 0 ≠ expectedId then .error .ebadmsg
  else if readU16 m 2 % 16 = 3 then .error .enoent
  else if readU16 m 2 % 16 ≠ 0 ∧ (readU16 m 2).testBit 9 = false then .error .ebadmsg
  else parseSections m port ((readU16 m 2).testBit 9)

lemma readU16_of_parseResponse {m : List UInt8} {expectedId port : Nat}
    (h : parseResponse m expectedId port ≠ .error .ebadmsg) : readU16 m 0 = expectedId := by
  by_contra hid
  refine h ?_
  by_cases hlen : m.length < kHeaderBytes
  · rw [parseResponse, if_pos hlen]
  · rw [parseResponse, if_neg hlen, if_pos hid]

/-! ### Names -/

/-- Labels in the message, each behind its length. -/
def wireLabels (labels : List (List UInt8)) : List UInt8 :=
  labels.flatMap fun label => UInt8.ofNat label.length :: label

def ValidLabel (label : List UInt8) : Prop := label.length ≠ 0 ∧ label.length ≤ 63

/-- The labels of a name, as `encode_name` splits it. -/
def labelsOf (name : List UInt8) : List (List UInt8) :=
  (if name.getLast? = some 46 then name.dropLast else name).splitOn 46

/-- How a name in a message ends: with the root, or with a pointer. -/
def NameEnd (last : List UInt8) : Prop := last = [0] ∨ ∃ hi lo : UInt8, 192 ≤ hi.toNat ∧ last = [hi, lo]

/-- A name as a message holds it: at most `hops` labels, and an end. -/
def WireName (hops : Nat) (name : List UInt8) : Prop :=
  ∃ labels last, name = wireLabels labels ++ last ∧ (∀ label ∈ labels, ValidLabel label) ∧ labels.length ≤ hops ∧
    NameEnd last

variable {m enc bytes rest name : List UInt8} {labels : List (List UInt8)} {hops pos next : Nat}

lemma encodeLabels_ok (h : encodeLabels labels = .ok enc) :
    enc = wireLabels labels ++ [0] ∧ ∀ label ∈ labels, ValidLabel label := by
  induction labels generalizing enc with
  | nil =>
    cases h
    exact ⟨rfl, by simp⟩
  | cons label rest ih =>
    rw [encodeLabels] at h
    split at h
    · cases h
    rename_i hlabel
    cases htail : encodeLabels rest with
    | error => simp [htail, Except.map] at h
    | ok tail =>
      rw [htail] at h
      cases h
      obtain ⟨rfl, hrest⟩ := ih htail
      refine ⟨by simp [wireLabels], forall_mem_cons.mpr ⟨?_, hrest⟩⟩
      rwa [not_or, not_lt] at hlabel

lemma byteAt_drop (k : Nat) : byteAt (m.drop pos) k = byteAt m (pos + k) := by
  simp [byteAt]

lemma drop_behind (h : m.drop pos = bytes ++ rest) : m.drop (pos + bytes.length) = rest := by
  rw [← drop_drop, h, drop_left]

lemma exists_front {k : Nat} (h : k ≤ bytes.length) : ∃ front rest, bytes = front ++ rest ∧ front.length = k :=
  ⟨bytes.take k, bytes.drop k, (take_append_drop k bytes).symm, length_take_of_le h⟩

lemma skipNameFrom_nil (h : m.drop pos = []) : skipNameFrom m hops pos = .error .ebadmsg := by
  rw [skipNameFrom.eq_def]
  exact if_pos (drop_eq_nil_iff.mp h)

/-- What `skip_name` does with the byte it stands at. -/
lemma skipNameFrom_cons {byte : UInt8} (h : m.drop pos = byte :: rest) : skipNameFrom m hops pos =
      if byte.toNat = 0 then .ok (pos + 1)
      else if 192 ≤ byte.toNat then if rest = [] then .error .ebadmsg else .ok (pos + 2)
      else if 64 ≤ byte.toNat then .error .ebadmsg
      else
        match hops with
        | 0 => .error .ebadmsg
        | hops + 1 => skipNameFrom m hops (pos + (byte.toNat + 1)) := by
  have hbyte : byteAt m pos = byte.toNat := by
    rw [← Nat.add_zero pos, ← byteAt_drop, h]
    rfl
  have hlen := congrArg length h
  rw [length_drop, length_cons] at hlen
  rw [skipNameFrom.eq_def]
  dsimp only
  rw [if_neg (by omega), hbyte, Nat.add_assoc, Nat.add_comm 1]
  have hlast : m.length ≤ pos + 1 ↔ rest = [] := by
    rw [← length_eq_zero_iff]
    omega
  simp only [hlast]

lemma skipNameFrom_end {last : List UInt8} (hlast : NameEnd last) (h : m.drop pos = last ++ rest) :
    skipNameFrom m hops pos = .ok (pos + last.length) := by
  rcases hlast with rfl | ⟨hi, lo, hpointer, rfl⟩
  · rw [skipNameFrom_cons h, if_pos (by decide)]
    rfl
  · rw [skipNameFrom_cons h, if_neg (by omega), if_pos hpointer, if_neg (by simp)]
    rfl

/-- Every label takes one of the hops, and a name with too many labels is rejected. -/
lemma skipNameFrom_labels (hvalid : ∀ label ∈ labels, ValidLabel label) (h : m.drop pos = wireLabels labels ++ rest) :
    skipNameFrom m hops pos =
      if labels.length ≤ hops then skipNameFrom m (hops - labels.length) (pos + (wireLabels labels).length)
      else .error .ebadmsg := by
  induction labels generalizing pos hops with
  | nil => simp [wireLabels]
  | cons label labels ih =>
    obtain ⟨⟨hne, hle⟩, hrest⟩ := forall_mem_cons.mp hvalid
    have hwire : wireLabels (label :: labels) = UInt8.ofNat label.length :: label ++ wireLabels labels := rfl
    have hbyte : (UInt8.ofNat label.length).toNat = label.length := by
      rw [UInt8.toNat_ofNat', Nat.mod_eq_of_lt (by omega)]
    rw [hwire, append_assoc] at h
    rw [skipNameFrom_cons h, hbyte, if_neg hne, if_neg (by omega), if_neg (by omega)]
    cases hops with
    | zero => rfl
    | succ hops =>
      have hnext := @ih hops _ hrest (drop_behind h)
      rw [length_cons] at hnext
      dsimp only
      rw [hnext, hwire, length_append, length_cons, length_cons, Nat.add_sub_add_right, Nat.add_assoc]
      simp only [Nat.add_le_add_iff_right]

/-- `skip_name` accepts names and nothing else. -/
lemma skipNameFrom_ok_iff : skipNameFrom m hops pos = .ok next ↔
      ∃ name rest, WireName hops name ∧ m.drop pos = name ++ rest ∧ next = pos + name.length := by
  constructor
  · intro h
    induction hops using Nat.strong_induction_on generalizing pos with
    | _ hops ih =>
      cases hm : m.drop pos with
      | nil =>
        rw [skipNameFrom_nil hm] at h
        cases h
      | cons byte rest =>
        rw [skipNameFrom_cons hm] at h
        split at h
        · rename_i hroot
          cases h
          obtain rfl : byte = 0 := UInt8.toNat_inj.mp hroot
          exact ⟨[0], rest, ⟨[], [0], rfl, by simp, Nat.zero_le _, .inl rfl⟩, rfl, rfl⟩
        rename_i hne
        split at h
        · rename_i hpointer
          cases rest with
          | nil => cases h
          | cons lo rest =>
            cases h
            exact ⟨[byte, lo], rest, ⟨[], [byte, lo], rfl, by simp, Nat.zero_le _, .inr ⟨byte, lo, hpointer, rfl⟩⟩,
              rfl, rfl⟩
        split at h
        · cases h
        rename_i hlt
        cases hops with
        | zero => cases h
        | succ hops =>
          dsimp only at h
          rcases Nat.lt_or_ge rest.length byte.toNat with hcut | hlen
          · rw [skipNameFrom_nil (by rw [← drop_drop, hm, drop_succ_cons, drop_eq_nil_of_le hcut.le])] at h
            cases h
          obtain ⟨label, rest, rfl, hlabel⟩ := exists_front hlen
          have hbehind : m.drop (pos + (byte :: label).length) = rest := drop_behind hm
          rw [length_cons, hlabel] at hbehind
          obtain ⟨_, more, ⟨labels, last, rfl, hvalid, hhops, hlast⟩, hmore, rfl⟩ := ih hops (Nat.lt_succ_self hops) h
          obtain rfl := hbehind.symm.trans hmore
          refine ⟨_, more, ⟨label :: labels, last, rfl, ?_, Nat.succ_le_succ hhops, hlast⟩, ?_, ?_⟩
          · exact forall_mem_cons.mpr ⟨by rw [ValidLabel, hlabel]; omega, hvalid⟩
          · simp [wireLabels, hlabel]
          · simp [wireLabels]
            omega
  · rintro ⟨name, rest, ⟨labels, last, rfl, hvalid, hhops, hlast⟩, h, rfl⟩
    rw [append_assoc] at h
    rw [skipNameFrom_labels hvalid h, if_pos hhops, skipNameFrom_end hlast (drop_behind h), length_append,
      Nat.add_assoc]

/-- **A name that `encode_name` accepts is skipped exactly, whatever stands around it, and the question that
`build_query` makes of it passes wherever a response repeats it, if and only if it has at most 64 labels.** -/
theorem skipName_encodeName_iff (name : List UInt8) (type : RecordType) (id : Nat) (enc request : List UInt8)
    (h : encodeName name = .ok enc) (hrequest : buildQuery name type id = .ok request) (before after : List UInt8) :
    (skipName (before ++ enc ++ after) before.length = .ok (before.length + enc.length) ∧
        (before.length = kHeaderBytes →
          skipQuestions (before ++ request.drop kHeaderBytes ++ after) 1 kHeaderBytes = .ok request.length)) ↔
      (labelsOf name).length ≤ kMaxPointerHops := by
  have hencode : encodeLabels (labelsOf name) = .ok enc := by
    rw [encodeName] at h
    rw [labelsOf]
    generalize (if name.getLast? = some 46 then name.dropLast else name) = stripped at h ⊢
    split at h
    · cases h
    · exact h
  obtain ⟨rfl, hvalid⟩ := encodeLabels_ok hencode
  have hskip : ∀ rest, skipName (before ++ (wireLabels (labelsOf name) ++ [0] ++ rest)) before.length =
      if (labelsOf name).length ≤ kMaxPointerHops then .ok (before.length + (wireLabels (labelsOf name) ++ [0]).length)
      else .error .ebadmsg := by
    intro rest
    rw [skipName, append_assoc, skipNameFrom_labels hvalid (drop_left ..),
      skipNameFrom_end (.inl rfl) (drop_behind (drop_left ..)), length_append, Nat.add_assoc]
  constructor
  · rintro ⟨hname, -⟩
    by_contra hmore
    rw [append_assoc, hskip after, if_neg hmore] at hname
    cases hname
  intro hlabels
  refine ⟨?_, fun hheader => ?_⟩
  · rw [append_assoc, hskip after, if_pos hlabels]
  · rw [buildQuery, h] at hrequest
    cases hrequest
    have hdrop : ∀ encoded : List UInt8, (u16 id ++ u16 0x0100 ++ u16 1 ++ u16 0 ++ u16 0 ++ u16 0 ++ encoded ++
        u16 type.code ++ u16 1).drop kHeaderBytes = encoded ++ (u16 type.code ++ u16 1) := fun encoded => by
      simp [u16, kHeaderBytes]
    have hname := hskip (u16 type.code ++ u16 1 ++ after)
    rw [hheader, if_pos hlabels] at hname
    rw [hdrop, skipQuestions, append_assoc, append_assoc _ _ after, hname]
    dsimp only
    rw [if_neg (by simp [u16, hheader]; omega), skipQuestions]
    simp [u16, kHeaderBytes]
    omega

theorem skipName_encodeName_iff_labels : skipName ([9] ++ [1, 97, 1, 98, 1, 99, 0] ++ [7]) 1 = .ok 8 :=
  ((skipName_encodeName_iff [97, 46, 98, 46, 99] .a 1 [1, 97, 1, 98, 1, 99, 0] _ rfl rfl [9] [7]).mpr
    (by decide +kernel)).1

/-- A name of 65 labels is accepted, but the question made of it is rejected. -/
theorem encodeName_exceeds_skipName : ¬ ∀ (name enc before after : List UInt8), encodeName name = .ok enc →
      skipName (before ++ enc ++ after) before.length = .ok (before.length + enc.length) := by
  intro hall
  have hskip := hall ((replicate 65 [97, 46]).flatten) ((replicate 65 [1, 97]).flatten ++ [0]) [] [] (by decide +kernel)
  exact absurd hskip (by decide +kernel)

/-! ### Well-formed messages -/

/-- A name, `fixed` bytes behind it, and the data whose size these give. -/
def Entry (fixed : Nat) (size : List UInt8 → Nat) (entry : List UInt8) : Prop :=
  ∃ name head data, WireName kMaxPointerHops name ∧ head.length = fixed ∧ data.length = size head ∧
    entry = name ++ (head ++ data)

/-- A question: the type and the class behind the name. -/
def Question : List UInt8 → Prop := Entry 4 fun _ => 0

/-- A record: type, class, time to live and length behind the name, and as many bytes of data. -/
def Record : List UInt8 → Prop := Entry 10 (readU16 · 8)

/-- `n` items, one behind the other. -/
def Items (Item : List UInt8 → Prop) : Nat → List UInt8 → Prop
  | 0, bytes => bytes = []
  | n + 1, bytes => ∃ item more, Item item ∧ bytes = item ++ more ∧ Items Item n more

/-- The message holds its header and the questions and records that the header announces. -/
def Whole (m : List UInt8) : Prop :=
  ∃ header questions records rest, m = header ++ (questions ++ (records ++ rest)) ∧ header.length = kHeaderBytes ∧
    Items Question (readU16 header 4) questions ∧ Items Record (readU16 header 6) records

variable {n : Nat} {T : Nat → Prop}

lemma WireName.length_pos (h : WireName hops name) : 0 < name.length := by
  obtain ⟨labels, last, rfl, -, -, rfl | ⟨hi, lo, -, rfl⟩⟩ := h <;> simp

lemma entry_iff {fixed : Nat} {size : List UInt8 → Nat} :
    (∃ entry rest, Entry fixed size entry ∧ m.drop pos = entry ++ rest ∧ T (pos + entry.length)) ↔
      ∃ next, skipName m pos = .ok next ∧ next + fixed ≤ m.length ∧
        next + fixed + size ((m.drop next).take fixed) ≤ m.length ∧
          T (next + fixed + size ((m.drop next).take fixed)) := by
  constructor
  · rintro ⟨_, rest, ⟨name, head, data, hwire, rfl, hdata, rfl⟩, hm, h⟩
    rw [append_assoc] at hm
    have hbehind := drop_behind hm
    have hlen := congrArg length hm
    have hpos := hwire.length_pos
    simp only [length_drop, length_append] at hlen
    refine ⟨_, skipNameFrom_ok_iff.mpr ⟨name, _, hwire, hm, rfl⟩, ?_⟩
    rw [hbehind, append_assoc, take_left, ← hdata]
    rw [length_append, length_append, ← Nat.add_assoc, ← Nat.add_assoc] at h
    exact ⟨by omega, by omega, h⟩
  · rintro ⟨next, hname, hfixed, hsize, h⟩
    obtain ⟨name, bytes, hwire, hm, rfl⟩ := skipNameFrom_ok_iff.mp hname
    have hbehind := drop_behind hm
    have hlen := congrArg length hbehind
    rw [length_drop] at hlen
    obtain ⟨head, bytes, rfl, rfl⟩ := exists_front (show fixed ≤ bytes.length by omega)
    rw [hbehind, take_left] at hsize h
    rw [length_append] at hlen
    obtain ⟨data, rest, rfl, hdata⟩ := exists_front (show size head ≤ bytes.length by omega)
    refine ⟨_, rest, ⟨name, head, data, hwire, rfl, hdata, rfl⟩, by rw [hm]; simp, ?_⟩
    rwa [length_append, length_append, hdata, ← Nat.add_assoc, ← Nat.add_assoc]

/-- A loop that reads an entry in each turn reads `n` of them. -/
lemma items_iff {fixed : Nat} {size : List UInt8 → Nat} {S : Nat → Nat → Prop} (hzero : ∀ pos, S 0 pos ↔ T pos)
    (hstep : ∀ n pos, S (n + 1) pos ↔ ∃ next, skipName m pos = .ok next ∧ next + fixed ≤ m.length ∧
      next + fixed + size ((m.drop next).take fixed) ≤ m.length ∧
        S n (next + fixed + size ((m.drop next).take fixed))) :
    S n pos ↔
      ∃ items rest, Items (Entry fixed size) n items ∧ m.drop pos = items ++ rest ∧ T (pos + items.length) := by
  induction n generalizing pos with
  | zero =>
    rw [hzero]
    refine ⟨fun h => ⟨[], _, rfl, rfl, h⟩, ?_⟩
    rintro ⟨_, rest, rfl, -, h⟩
    exact h
  | succ n ih =>
    rw [hstep, ← entry_iff]
    simp only [ih]
    constructor
    · rintro ⟨item, _, hitem, hm, items, rest, hitems, hrest, h⟩
      rw [drop_behind hm] at hrest
      refine ⟨item ++ items, rest, ⟨item, items, hitem, rfl, hitems⟩, by rw [hm, hrest, append_assoc], ?_⟩
      rwa [length_append, ← Nat.add_assoc]
    · rintro ⟨_, rest, ⟨item, items, hitem, rfl, hitems⟩, hm, h⟩
      rw [append_assoc] at hm
      refine ⟨item, _, hitem, hm, items, rest, hitems, drop_behind hm, ?_⟩
      rwa [length_append, ← Nat.add_assoc] at h

lemma skipQuestions_ok_iff : skipQuestions m n pos = .ok next ↔
      ∃ questions rest, Items Question n questions ∧ m.drop pos = questions ++ rest ∧
        pos + questions.length = next := by
  refine items_iff (T := (· = next)) (S := (skipQuestions m · · = .ok next)) (fun pos => ?_) fun n pos => ?_
  · simp [skipQuestions]
  · rw [skipQuestions]
    cases skipName m pos with
    | error => simp
    | ok next =>
      dsimp only
      split
      · simp
        omega
      · simp
        omega

lemma parseAnswers_eq (port : Nat) (addresses : List SocketAddr) :
    parseAnswers m port n pos addresses = (parseAnswers m port n pos []).map (addresses ++ ·) := by
  induction n generalizing pos addresses with
  | zero => simp [parseAnswers, Except.map]
  | succ n ih =>
    rw [parseAnswers, parseAnswers]
    cases skipName m pos with
    | error => rfl
    | ok next =>
      dsimp only
      split
      · rfl
      · rw [ih, ih ([] ++ _)]
        cases parseAnswers m port n (next + 10 + readU16 m (next + 8)) [] with
        | error => rfl
        | ok found => simp [Except.map]

lemma parseAnswers_ok_iff (port : Nat) : (∃ found, parseAnswers m port n pos [] = .ok found) ↔
      ∃ records rest, Items Record n records ∧ m.drop pos = records ++ rest ∧ True := by
  refine items_iff (T := fun _ => True) (S := fun n pos => ∃ found, parseAnswers m port n pos [] = .ok found)
    (fun pos => by simp [parseAnswers]) fun n pos => ?_
  simp only [parseAnswers]
  cases skipName m pos with
  | error => simp
  | ok next =>
    have hsize : readU16 ((m.drop next).take 10) 8 = readU16 m (next + 8) := by simp [readU16, byteAt]
    simp only [Except.ok.injEq, exists_eq_left', hsize]
    split
    · simp
      omega
    · rw [parseAnswers_eq]
      cases parseAnswers m port n (next + 10 + readU16 m (next + 8)) [] with
      | error => simp [Except.map]
      | ok found =>
        simp [Except.map]
        omega

/-- The sections can be read if and only if the message holds them. -/
lemma parseSections_ok_iff (port : Nat) (hlen : kHeaderBytes ≤ m.length) (truncated : Bool) :
    (∃ addresses, parseSections m port truncated = .ok ⟨addresses, truncated⟩) ↔ Whole m := by
  obtain ⟨header, bytes, rfl, hheader⟩ := exists_front hlen
  have hcount : ∀ k, k + 1 < kHeaderBytes → readU16 (header ++ bytes) k = readU16 header k := by
    intro k hk
    simp [readU16, byteAt, getElem?_append_left, hheader, hk, Nat.lt_of_succ_lt hk]
  have hdrop : (header ++ bytes).drop kHeaderBytes = bytes := drop_left' hheader
  rw [Whole, parseSections, hcount 4 (by decide), hcount 6 (by decide)]
  constructor
  · rintro ⟨addresses, h⟩
    split at h
    · cases h
    rename_i hquestions
    obtain ⟨questions, rest, hitems, hm, rfl⟩ := skipQuestions_ok_iff.mp hquestions
    cases hanswers : parseAnswers (header ++ bytes) port (readU16 header 6) (kHeaderBytes + questions.length) [] with
    | error =>
      rw [hanswers] at h
      cases h
    | ok found =>
      obtain ⟨records, rest', hrecords, hrest, -⟩ := (parseAnswers_ok_iff port).mp ⟨found, hanswers⟩
      rw [drop_behind hm] at hrest
      exact ⟨header, questions, records, rest', by rw [← hrest, ← hm, hdrop], hheader, hitems, hrecords⟩
  · rintro ⟨header', questions, records, rest, heq, hheader', hitems, hrecords⟩
    obtain ⟨rfl, rfl⟩ := append_inj heq (hheader.trans hheader'.symm)
    rw [skipQuestions_ok_iff.mpr ⟨questions, _, hitems, hdrop, rfl⟩]
    obtain ⟨found, hanswers⟩ := (parseAnswers_ok_iff port).mpr ⟨records, rest, hrecords, drop_behind hdrop, trivial⟩
    refine ⟨found, ?_⟩
    dsimp only
    rw [hanswers]
    rfl

end Cio.Dns
