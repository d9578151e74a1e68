import Cio.DnsQuery

/-! `resolve_type`: the servers are asked in turn, for a number of rounds, over UDP and, when the reply is truncated,
again over TCP under the deadline of the same attempt. Time is counted in ticks. The network decides what each socket
operation returns and when, but none returns after the deadline of its descriptor. -/

namespace Cio

open List

def Error.etimedout : Error := .errno 110
def Error.econnrefused : Error := .errno 111

namespace Dns

def kDefaultTimeout : Nat := 2000000000

abbrev Timed (α : Type) := Nat × Except Error α

/-- The `co_await` of an operation whose error is returned at once. -/
def Timed.andThen {α β : Type} (op : Timed α) (next : Nat → α → Timed β) : Timed β :=
  match op with
  | (now, .error e) => (now, .error e)
  | (now, .ok value) => next now value

/-- A loop that awaits its next event tick by tick and times out when no tick is left. -/
def poll {σ α : Type} (step : Nat → σ → σ ⊕ Except Error α) : Nat → Nat → σ → Timed α
  | 0, now, _ => (now, .error (.errc .timedOut))
  | left + 1, now, state =>
    match step now state with
    | .inl state => poll step left (now + 1) state
    | .inr result => (now, result)

/-- What the network does to one attempt: how long an operation takes and how it ends, the datagrams that `read_from`
returns in each tick, and what a read of the stream gives there. -/
structure Network where
  cancelled : Bool
  id : Nat
  listen : Except Error Unit
  send : Timed Unit
  datagrams : Nat → Except Error (List Datagram)
  dial : Timed Unit
  write : Timed Unit
  stream : Nat → Except Error (List UInt8)

def operate (deadline now : Nat) (op : Timed Unit) : Timed Unit :=
  if now + op.1 < deadline then (now + op.1, op.2) else (deadline, .error (.errc .timedOut))

section

variable (net : Network) (port : Nat)

def receive (deadline now : Nat) : Timed Answer :=
  poll (fun now (_ : Unit) =>
    match net.datagrams now with
    | .error e => .inr (.error e)
    | .ok arrived => ((receiveLoop net.id port arrived).map Prod.snd).elim (.inl ()) .inr) (deadline - now) now ()

def queryUdp (deadline now : Nat) : Timed Answer :=
  Timed.andThen (now, net.listen) fun now _ =>
    (operate deadline now net.send).andThen fun now _ => receive net port deadline now

/-- `read_full` on the stream; `held` is what it has. -/
def readFull (size deadline now : Nat) (held : List UInt8) : Timed (List UInt8) :=
  poll (fun now held =>
    if size ≤ held.length then .inr (.ok held)
    else
      match net.stream now with
      | .error e => .inr (.error e)
      | .ok bytes => .inl (held ++ bytes)) (deadline - now) now held

/-- `query_tcp_once`: a length of two bytes, and a message of that length. -/
def queryTcp (deadline now : Nat) : Timed Answer :=
  (operate deadline now net.dial).andThen fun now _ =>
    (operate deadline now net.write).andThen fun now _ =>
      (readFull net 2 deadline now []).andThen fun now frame =>
        if readU16 frame 0 < kHeaderBytes then (now, .error .ebadmsg)
        else
          (readFull net (readU16 frame 0) deadline now (frame.drop 2)).andThen fun now message =>
            (now, parseResponse (message.take (readU16 frame 0)) net.id port)

/-- One attempt: whether it goes on over TCP, and what it returns. -/
def attempt (server : SocketAddr) (deadline now : Nat) : Bool × Timed Answer :=
  match afterUdp server net.id (queryUdp net port deadline now).2 with
  | .queryTcp _ _ => (true, queryTcp net port deadline (queryUdp net port deadline now).1)
  | .finish answer => (false, (queryUdp net port deadline now).1, answer)

end

/-- The queries made over UDP and TCP, the time, and what is returned when no server is left. -/
structure Run where
  udp : Nat
  tcp : Nat
  now : Nat
  result : Except Error (List SocketAddr)

/-- The two loops of `resolve_type` over the servers still to ask; `nets` is the network of each attempt. -/
def askServers (nets : Nat → Network) (name : List UInt8) (type : RecordType) (port timeout : Nat) :
    List SocketAddr → Nat → Run → Run
  | [], _, run => run
  | server :: rest, k, run =>
    if (nets k).cancelled then { run with result := .error (.errc .cancelled) }
    else
      match buildQuery name type (nets k).id with
      | .error e => { run with result := .error e }
      | .ok _ =>
        match attempt (nets k) port server (run.now + timeout) run.now with
        | (retried, now, .ok answer) => ⟨run.udp + 1, run.tcp + retried.toNat, now, .ok answer.addresses⟩
        | (retried, now, .error e) =>
          let run := ⟨run.udp + 1, run.tcp + retried.toNat, now, .error e⟩
          if e = .enoent ∨ e = .errc .cancelled then run
          else askServers nets name type port timeout rest (k + 1) run

structure RetryConfig where
  servers : List SocketAddr
  timeout : Int
  attempts : Nat

namespace RetryConfig

variable (config : RetryConfig) (system : List SocketAddr)

def asked : List SocketAddr := if config.servers = [] then system else config.servers

def perAttempt : Nat := if 0 < config.timeout then config.timeout.toNat else kDefaultTimeout

def rounds : Nat := if config.attempts = 0 then 1 else config.attempts

end RetryConfig

def resolveType (config : RetryConfig) (system : List SocketAddr) (nets : Nat → Network) (name : List UInt8)
    (type : RecordType) (port now : Nat) : Run :=
  if config.asked system = [] then ⟨0, 0, now, .error .econnrefused⟩
  else
    askServers nets name type port config.perAttempt (replicate config.rounds (config.asked system)).flatten 0
      ⟨0, 0, now, .error .etimedout⟩

/-! ### No attempt outlives its deadline -/

variable {net : Network} {port deadline now : Nat}

lemma Timed.andThen_le {α β : Type} {op : Timed α} {next : Nat → α → Timed β} (h : op.1 ≤ deadline)
    (hnext : ∀ now value, now ≤ deadline → (next now value).1 ≤ deadline) : (op.andThen next).1 ≤ deadline := by
  rcases op with ⟨now, e | value⟩
  · exact h
  · exact hnext now value h

lemma operate_le (op : Timed Unit) : (operate deadline now op).1 ≤ deadline := by
  rw [operate]
  split
  · exact le_of_lt ‹_›
  · exact le_rfl

lemma poll_le {σ α : Type} (step : Nat → σ → σ ⊕ Except Error α) (state : σ) (h : now ≤ deadline) :
    (poll step (deadline - now) now state).1 ≤ deadline := by
  obtain ⟨left, rfl⟩ := Nat.exists_eq_add_of_le h
  rw [Nat.add_sub_cancel_left]
  clear h
  induction left generalizing now state with
  | zero => exact le_refl now
  | succ left ih =>
    rw [poll]
    split
    · exact le_trans (ih _) (by omega)
    · exact Nat.le_add_right ..

lemma queryUdp_le (h : now ≤ deadline) : (queryUdp net port deadline now).1 ≤ deadline :=
  Timed.andThen_le h fun _ _ _ => Timed.andThen_le (operate_le _) fun _ _ hnow => poll_le _ _ hnow

lemma queryTcp_le : (queryTcp net port deadline now).1 ≤ deadline := by
  refine Timed.andThen_le (operate_le _) fun _ _ _ => Timed.andThen_le (operate_le _) fun now _ hnow =>
    Timed.andThen_le (poll_le _ _ hnow) fun now frame hnow => ?_
  split
  · exact hnow
  · exact Timed.andThen_le (poll_le _ _ hnow) fun _ _ hdone => hdone

lemma attempt_le (net : Network) (port : Nat) (server : SocketAddr) (h : now ≤ deadline) :
    (attempt net port server deadline now).2.1 ≤ deadline := by
  rw [attempt]
  split
  · exact queryTcp_le
  · exact queryUdp_le h

/-- What `n` attempts since `start` may cost: a query over UDP, one over TCP and a timeout each. -/
structure Run.Bounded (run : Run) (start n timeout : Nat) : Prop where
  udp : run.udp ≤ n
  tcp : run.tcp ≤ n
  now : run.now ≤ start + n * timeout

variable {run : Run} {start n timeout : Nat}

lemma Run.Bounded.more (h : run.Bounded start n timeout) (more : Nat) (result : Except Error (List SocketAddr)) :
    Run.Bounded { run with result } start (n + more) timeout where
  udp := Nat.le_add_right_of_le h.udp
  tcp := Nat.le_add_right_of_le h.tcp
  now := h.now.trans (Nat.add_le_add_left (Nat.mul_le_mul_right timeout (Nat.le_add_right n more)) start)

lemma Run.Bounded.attempt (h : run.Bounded start n timeout) (hnow : now ≤ run.now + timeout) (retried : Bool)
    (result : Except Error (List SocketAddr)) :
    Run.Bounded ⟨run.udp + 1, run.tcp + retried.toNat, now, result⟩ start (n + 1) timeout where
  udp := Nat.succ_le_succ h.udp
  tcp := Nat.add_le_add h.tcp (Bool.toNat_le retried)
  now := by
    have hrun := h.now
    dsimp only
    rw [Nat.succ_mul]
    omega

lemma askServers_bounded (nets : Nat → Network) (name : List UInt8) (type : RecordType) (port k : Nat)
    (servers : List SocketAddr) (h : run.Bounded start n timeout) :
    (askServers nets name type port timeout servers k run).Bounded start (n + servers.length) timeout := by
  induction servers generalizing k run n with
  | nil => exact h
  | cons server rest ih =>
    have htime := attempt_le (nets k) port server (Nat.le_add_right run.now timeout)
    rw [askServers]
    split
    · exact h.more _ _
    split
    · exact h.more _ _
    rw [length_cons, Nat.add_comm rest.length, ← Nat.add_assoc]
    revert htime
    rcases attempt (nets k) port server (run.now + timeout) run.now with ⟨retried, now, e | answer⟩ <;> intro htime
    · dsimp only
      split
      · exact (h.attempt htime retried run.result).more _ _
      · exact ih (k + 1) (h.attempt htime retried _)
    · exact (h.attempt htime retried run.result).more _ _

/-- **Whatever the servers do, `resolve_type` makes at most one query over UDP and one over TCP for each server of each
round, and returns within one timeout for each.** -/
theorem resolveType_bounded (config : RetryConfig) (system : List SocketAddr) (nets : Nat → Network) (name : List UInt8)
    (type : RecordType) (port start : Nat) : (resolveType config system nets name type port start).Bounded start
      (config.rounds * (config.asked system).length) config.perAttempt := by
  rw [resolveType]
  split
  · exact ⟨Nat.zero_le _, Nat.zero_le _, Nat.le_add_right ..⟩
  · have hasked := askServers_bounded nets name type port 0 (replicate config.rounds (config.asked system)).flatten
      (show Run.Bounded ⟨0, 0, start, .error .etimedout⟩ start 0 config.perAttempt from
        ⟨Nat.le_refl 0, Nat.le_refl 0, Nat.le_add_right ..⟩)
    rwa [length_flatten, map_replicate, sum_replicate_nat, Nat.zero_add] at hasked

end Dns

end Cio
