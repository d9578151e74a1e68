import Cio.DnsMessage

/-! One UDP attempt of the resolver. The socket is bound but not connected, so datagrams from any
source reach the receive loop of `query_udp_once`, which hands each one to `parse_response` and stops
at the first that is not rejected with `EBADMSG`. -/

namespace Cio.Dns

open List

structure Datagram where
  source : SocketAddr
  bytes : List UInt8
  deriving DecidableEq

def Datagram.received (d : Datagram) : List UInt8 := d.bytes.take kMaxUdpMessage

/-- `!answer && answer.error().is(EBADMSG)`: the loop goes on to the next datagram. -/
def Rejected (result : Except Error Answer) : Prop := result = .error .ebadmsg

instance : DecidablePred Rejected
  | .ok _ => isFalse (by simp [Rejected])
  | .error err => decidable_of_iff (err = .ebadmsg) (by simp [Rejected])

/-- The receive loop of `query_udp_once` over the datagrams that arrive before the deadline: the
datagram it stops at and what that one says. -/
def receiveLoop (id port : Nat) : List Datagram → Option (Datagram × Except Error Answer)
  | [] => none
  | d :: rest =>
    if Rejected (parseResponse d.received id port) then receiveLoop id port rest
    else some (d, parseResponse d.received id port)

/-- `query_udp_once` once the request is sent; `stop` is the error of the `read_from` that ends a
loop without an answer. -/
def queryUdpOnce (id port : Nat) (stop : Error) (arrived : List Datagram) : Except Error Answer :=
  match receiveLoop id port arrived with
  | some (_, result) => result
  | none => .error stop

inductive Next where
  | queryTcp (server : SocketAddr) (id : Nat)
  | finish (answer : Except Error Answer)

def afterUdp (server : SocketAddr) (id : Nat) : Except Error Answer → Next
  | .ok answer => if answer.truncated then .queryTcp server id else .finish (.ok answer)
  | .error e => .finish (.error e)

/-- The message repeats the question section of the request. -/
def RepeatsQuestion (request m : List UInt8) : Prop :=
  readU16 m 4 = readU16 request 4 ∧
    (m.drop kHeaderBytes).take (request.length - kHeaderBytes) = request.drop kHeaderBytes

/-- A response of the server to this request. -/
structure Genuine (server : SocketAddr) (request : List UInt8) (id : Nat) (d : Datagram) : Prop where
  source : d.source = server
  response : (readU16 d.received 2).testBit 15 = true
  id : readU16 d.received 0 = id
  question : RepeatsQuestion request d.received

/-- An answer is taken only from a genuine response, and the result is the same for any two sequences with the same
datagrams of the server. -/
structure OffPathSafe (server : SocketAddr) (request : List UInt8) (id port : Nat) (stop : Error) : Prop where
  genuine : ∀ (arrived : List Datagram) d result, receiveLoop id port arrived = some (d, result) →
    Genuine server request id d
  independent : ∀ arrived arrived' : List Datagram,
    arrived.filter (·.source = server) = arrived'.filter (·.source = server) →
    queryUdpOnce id port stop arrived = queryUdpOnce id port stop arrived'

variable {id port : Nat} {d : Datagram}

lemma receiveLoop_cons_of_rejected (rest : List Datagram) (h : Rejected (parseResponse d.received id port)) :
    receiveLoop id port (d :: rest) = receiveLoop id port rest := by
  rw [receiveLoop, if_pos h]

lemma receiveLoop_cons_of_read (rest : List Datagram) (h : ¬ Rejected (parseResponse d.received id port)) :
    receiveLoop id port (d :: rest) = some (d, parseResponse d.received id port) := by
  rw [receiveLoop, if_neg h]

lemma receiveLoop_spec {arrived : List Datagram}
    {result : Except Error Answer} (h : receiveLoop id port arrived = some (d, result)) :
    d ∈ arrived ∧ ¬ Rejected (parseResponse d.received id port) := by
  induction arrived with
  | nil => cases h
  | cons first rest ih =>
    by_cases hread : Rejected (parseResponse first.received id port)
    · rw [receiveLoop_cons_of_rejected rest hread] at h
      obtain ⟨hmem, hd⟩ := ih h
      exact ⟨mem_cons_of_mem first hmem, hd⟩
    · rw [receiveLoop_cons_of_read rest hread] at h
      cases h
      exact ⟨mem_cons_self, hread⟩

/-- Any host can send this: no response, no question, the id and one record. -/
def forged (id : Nat) (source : SocketAddr) (a b c d : UInt8) : Datagram :=
  ⟨source, u16 id ++ ([0, 0, 0, 0, 0, 1, 0, 0, 0, 0] ++ [0, 0, 1, 0, 1, 0, 0, 0, 0, 0, 4, a, b, c, d])⟩

lemma readU16_u16 (rest : List UInt8) (h : id < 65536) : readU16 (u16 id ++ rest) 0 = id := by
  simp [readU16, byteAt, u16]
  omega

lemma parseResponse_forged (port : Nat) (source : SocketAddr) (a b c d : UInt8) (h : id < 65536) :
    parseResponse (forged id source a b c d).received id port = .ok ⟨[⟨.inet, [a, b, c, d], port⟩], false⟩ := by
  have hid := readU16_u16 ([0, 0, 0, 0, 0, 1, 0, 0, 0, 0] ++ [0, 0, 1, 0, 1, 0, 0, 0, 0, 0, 4, a, b, c, d]) h
  rw [Datagram.received, take_of_length_le (by simp [forged, u16, kMaxUdpMessage]), forged, parseResponse, hid]
  simp [parseSections, skipQuestions, parseAnswers, skipName, skipNameFrom, recordAddress, readU16, byteAt, u16,
    kHeaderBytes, RecordType.code, kMaxPointerHops, Except.map]

/-- **No attempt is safe from datagrams off the path.** The parser only checks the id: whatever is asked and of which
server, a datagram with that id makes the attempt return the address it names, from every source. -/
theorem not_offPathSafe (server : SocketAddr) (request : List UInt8) (id : UInt16) (port : Nat) (stop : Error) :
    ¬ OffPathSafe server request id.toNat port stop ∧
      ∀ source a b c d, ∃ foreign : Datagram, foreign.source = source ∧
        ∀ rest, queryUdpOnce id.toNat port stop (foreign :: rest) = .ok ⟨[⟨.inet, [a, b, c, d], port⟩], false⟩ := by
  have hparse := fun source a b c d => parseResponse_forged port source a b c d id.toNat_lt
  have hloop : ∀ source a b c d rest, receiveLoop id.toNat port (forged id.toNat source a b c d :: rest) =
      some (forged id.toNat source a b c d, .ok ⟨[⟨.inet, [a, b, c, d], port⟩], false⟩) := by
    intro source a b c d rest
    rw [receiveLoop_cons_of_read rest (by rw [hparse]; simp [Rejected]), hparse]
  refine ⟨fun hsafe => ?_, fun source a b c d => ⟨forged id.toNat source a b c d, rfl, fun rest => ?_⟩⟩
  · have hsource := (hsafe.genuine _ _ _ (hloop { server with port := server.port + 1 } 6 6 6 6 [])).source
    have hport := congrArg SocketAddr.port hsource
    simp [forged] at hport
  · rw [queryUdpOnce, hloop]

/-- A query for `a` is sent to 10.0.0.53; a datagram from 6.6.6.6 that is no response and asks no
question, but carries the id and one record, is taken for the answer. -/
theorem offPath_datagram_answers :
    ¬ ∀ (name : List UInt8) (type : RecordType) (id port : Nat) (server : SocketAddr) (stop : Error)
        (request : List UInt8), buildQuery name type id = .ok request →
      OffPathSafe server request id port stop := by
  intro hall
  let server : SocketAddr := ⟨.inet, [10, 0, 0, 53], 53⟩
  have hsafe := hall [97] .a 0x1234 80 server (.errc .timedOut)
    [0x12, 0x34, 1, 0, 0, 1, 0, 0, 0, 0, 0, 0, 1, 97, 0, 0, 1, 0, 1] rfl
  have hread := parseResponse_forged 80 ⟨.inet, [6, 6, 6, 6], 9⟩ 6 6 6 6 (show 0x1234 < 65536 by decide)
  have hloop := receiveLoop_cons_of_read [] (show ¬ Rejected _ by rw [hread]; simp [Rejected])
  have hsrc := (hsafe.genuine _ _ _ hloop).source
  exact absurd hsrc (by decide)

/-! ### The reply an attempt ends with -/

/-- The datagram carries the id of the request. -/
def Datagram.Replies (id : Nat) (d : Datagram) : Prop := 2 ≤ d.received.length ∧ readU16 d.received 0 = id

instance (id : Nat) : DecidablePred (Datagram.Replies id) := fun _ => inferInstanceAs (Decidable (_ ∧ _))

/-- The attempt skips the datagrams before the first reply, and that one ends it, whatever it says. -/
def EndsWithFirstReply (id port : Nat) (stop : Error) (arrived : List Datagram) : Prop :=
  receiveLoop id port arrived =
      (arrived.find? (Datagram.Replies id ·)).map (fun d => (d, parseResponse d.received id port)) ∧
    queryUdpOnce id port stop arrived =
      ((arrived.find? (Datagram.Replies id ·)).map fun d => parseResponse d.received id port).getD (.error stop)

lemma rejected_of_not_replies (h : ¬ d.Replies id) : Rejected (parseResponse d.received id port) := by
  by_contra hread
  refine h ⟨?_, readU16_of_parseResponse hread⟩
  by_contra hshort
  refine hread ?_
  rw [Rejected, parseResponse, if_pos (by rw [kHeaderBytes]; omega)]

lemma receiveLoop_eq_find_iff (arrived : List Datagram) : receiveLoop id port arrived =
        (arrived.find? (Datagram.Replies id ·)).map (fun d => (d, parseResponse d.received id port)) ↔
      ∀ d, arrived.find? (Datagram.Replies id ·) = some d → ¬ Rejected (parseResponse d.received id port) := by
  induction arrived with
  | nil => simp [receiveLoop]
  | cons first rest ih =>
    by_cases hreply : first.Replies id
    · rw [find?_cons_of_pos (by simpa using hreply)]
      constructor
      · intro hloop d hd
        exact (receiveLoop_spec (hloop.trans (congrArg _ hd))).2
      · intro hread
        exact receiveLoop_cons_of_read rest (hread first rfl)
    · rw [find?_cons_of_neg (by simpa using hreply),
        receiveLoop_cons_of_rejected rest (rejected_of_not_replies hreply)]
      exact ih

/-- **An attempt ends with the first datagram that carries its id if and only if the parser does not reject that
one:** the loop takes a malformed reply and an error code for a foreign datagram, and reads on. -/
theorem endsWithFirstReply_iff (id port : Nat) (stop : Error) (arrived : List Datagram) :
    EndsWithFirstReply id port stop arrived ↔
      ∀ d, arrived.find? (Datagram.Replies id ·) = some d → ¬ Rejected (parseResponse d.received id port) := by
  rw [← receiveLoop_eq_find_iff]
  refine ⟨And.left, fun hloop => ⟨hloop, ?_⟩⟩
  rw [queryUdpOnce, hloop]
  cases arrived.find? (Datagram.Replies id ·) <;> rfl

/-- The server answers with SERVFAIL; the attempt waits on until its deadline. -/
theorem servfail_is_skipped :
    ¬ ∀ (id port : Nat) (stop : Error) (arrived : List Datagram), EndsWithFirstReply id port stop arrived := by
  intro hall
  let servfail : Datagram := ⟨⟨.inet, [10, 0, 0, 53], 53⟩, [0x12, 0x34, 0x81, 0x82, 0, 0, 0, 0, 0, 0, 0, 0]⟩
  have hends := hall 0x1234 80 (.errc .timedOut) [servfail]
  exact (receiveLoop_eq_find_iff [servfail]).mp hends.1 servfail (by decide +kernel) (by decide +kernel)

/-! ### Truncated replies -/

/-- A reply to the attempt that is marked as truncated and is not NXDOMAIN. -/
structure Datagram.Truncated (id : Nat) (d : Datagram) : Prop where
  replies : d.Replies id
  flag : (readU16 d.received 2).testBit 9 = true
  code : readU16 d.received 2 % 16 ≠ 3

lemma receiveLoop_append {before : List Datagram} (rest : List Datagram)
    (h : ∀ x ∈ before, Rejected (parseResponse x.received id port)) :
    receiveLoop id port (before ++ rest) = receiveLoop id port rest := by
  induction before with
  | nil => rfl
  | cons first before ih =>
    rw [cons_append, receiveLoop_cons_of_rejected _ (h first mem_cons_self)]
    exact ih fun x hx => h x (mem_cons_of_mem first hx)

/-- A truncated reply is read if and only if no section that it announces is cut. -/
lemma parseResponse_ok_iff_whole (port : Nat) (h : d.Truncated id) :
    (∃ addresses, parseResponse d.received id port = .ok ⟨addresses, true⟩) ↔ Whole d.received := by
  rcases Nat.lt_or_ge d.received.length kHeaderBytes with hshort | hlen
  · rw [parseResponse, if_pos hshort]
    constructor
    · rintro ⟨_, hparse⟩
      cases hparse
    · rintro ⟨header, questions, records, rest, heq, hheader, -, -⟩
      rw [heq, length_append] at hshort
      omega
  · rw [parseResponse, if_neg (Nat.not_lt.mpr hlen), if_neg (not_not.mpr h.replies.2), if_neg h.code,
      if_neg (by simp [h.flag]), h.flag]
    exact parseSections_ok_iff port hlen true

/-- **When the receive loop comes to a truncated reply, the attempt goes on over TCP with the same server and id,
whatever arrives later, if and only if the reply holds the questions and records that it announces.** -/
theorem truncated_retried_iff (server : SocketAddr) (id port : Nat) (stop : Error) (before : List Datagram)
    (d : Datagram) (hbefore : ∀ x ∈ before, Rejected (parseResponse x.received id port)) (h : d.Truncated id) :
    (∀ after, afterUdp server id (queryUdpOnce id port stop (before ++ d :: after)) = .queryTcp server id) ↔
      Whole d.received := by
  rw [← parseResponse_ok_iff_whole port h]
  constructor
  · intro hretried
    have hlast := hretried []
    rw [queryUdpOnce, receiveLoop_append _ hbefore] at hlast
    by_cases hread : Rejected (parseResponse d.received id port)
    · rw [receiveLoop_cons_of_rejected [] hread] at hlast
      cases hlast
    · rw [receiveLoop_cons_of_read [] hread] at hlast
      cases hparse : parseResponse d.received id port with
      | error e =>
        rw [hparse] at hlast
        cases hlast
      | ok answer =>
        obtain ⟨addresses, truncated⟩ := answer
        cases truncated with
        | true => exact ⟨addresses, rfl⟩
        | false =>
          rw [hparse] at hlast
          cases hlast
  · rintro ⟨addresses, hparse⟩ after
    have hread : ¬ Rejected (parseResponse d.received id port) := by simp [Rejected, hparse]
    rw [queryUdpOnce, receiveLoop_append _ hbefore, receiveLoop_cons_of_read after hread, hparse]
    rfl

/-- One question and one record, behind a datagram that is skipped. -/
theorem truncated_retried_iff_record : afterUdp ⟨.inet, [10, 0, 0, 53], 53⟩ 1 (queryUdpOnce 1 80 (.errc .timedOut)
        [⟨⟨.inet, [6, 6, 6, 6], 9⟩, []⟩, ⟨⟨.inet, [10, 0, 0, 53], 53⟩, [0, 1, 0x82, 0, 0, 1, 0, 1, 0, 0, 0, 0] ++
          ([1, 97, 0, 0, 1, 0, 1] ++ [192, 12, 0, 1, 0, 1, 0, 0, 0, 0, 0, 4, 10, 0, 0, 7])⟩]) =
      .queryTcp ⟨.inet, [10, 0, 0, 53], 53⟩ 1 := by
  refine (truncated_retried_iff _ 1 80 _ [_] _ (by decide +kernel)
    ⟨by decide +kernel, by decide +kernel, by decide +kernel⟩).mpr ?_ []
  refine ⟨[0, 1, 0x82, 0, 0, 1, 0, 1, 0, 0, 0, 0], [1, 97, 0, 0, 1, 0, 1],
    [192, 12, 0, 1, 0, 1, 0, 0, 0, 0, 0, 4, 10, 0, 0, 7], [], by decide +kernel, rfl, ?_, ?_⟩
  · exact ⟨_, [], ⟨[1, 97, 0], [0, 1, 0, 1], [], ⟨[[97]], [0], rfl, by simp [ValidLabel], by decide, .inl rfl⟩, rfl,
      rfl, rfl⟩, rfl, rfl⟩
  · exact ⟨_, [], ⟨[192, 12], [0, 1, 0, 1, 0, 0, 0, 0, 0, 4], [10, 0, 0, 7],
      ⟨[], [192, 12], rfl, by simp, by decide, .inr ⟨192, 12, by decide, rfl⟩⟩, rfl, rfl, rfl⟩, rfl, rfl⟩

/-- The server cut the reply before the question it announces: the reply is skipped. -/
theorem cut_reply_is_skipped :
    ¬ ∀ (server : SocketAddr) (id port : Nat) (stop : Error) (d : Datagram), d.Truncated id →
      afterUdp server id (queryUdpOnce id port stop [d]) = .queryTcp server id := by
  intro hall
  let cut : Datagram := ⟨⟨.inet, [10, 0, 0, 53], 53⟩, [0, 1, 0x82, 0, 0, 1, 0, 0, 0, 0, 0, 0]⟩
  have hretried := hall ⟨.inet, [10, 0, 0, 53], 53⟩ 1 80 (.errc .timedOut) cut
    ⟨by decide +kernel, by decide +kernel, by decide +kernel⟩
  have hskipped : receiveLoop 1 80 [cut] = none := receiveLoop_cons_of_rejected [] (by decide +kernel)
  rw [queryUdpOnce, hskipped] at hretried
  cases hretried

end Cio.Dns
