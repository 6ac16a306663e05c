import Peerscale.Foundation.Leb128
import Peerscale.Foundation.NetText
import Peerscale.Foundation.Program
import Peerscale.IrohRelay.Datagram

/-! # The handshake with a relay

The relay sends a challenge, the client signs it, and the relay confirms or denies. What a
relay sends is any bytes: an index or a bound of a slice that is out of range ends the process.
-/

namespace Peerscale.IrohRelay

open Program

def hsServerChallenge : UInt8 := 0
def hsClientAuth : UInt8 := 1
def hsServerConfirmsAuth : UInt8 := 2
def hsServerDeniesAuth : UInt8 := 3

def maxAlloc : Nat := 2 ^ 48

structure SocketMessage where
  bytes : Bytes
  spare : Bytes
  fits : bytes.length + spare.length ≤ maxAlloc

inductive HandshakePanic
  | index (index : Int) (length : Nat)
  | slice (low high : Int) (capacity : Nat)
  deriving DecidableEq

namespace SocketMessage

variable (msg : SocketMessage)

def capacity : Nat := msg.bytes.length + msg.spare.length

def first : Except HandshakePanic UInt8 :=
  match msg.bytes with
  | [] => .error (.index 0 0)
  | byte :: _ => .ok byte

/-- `msg[low:high]`. The upper bound may be above the length, but not above the capacity. -/
def slice (low high : Int) : Except HandshakePanic Bytes :=
  if 0 ≤ low ∧ low ≤ high ∧ high ≤ msg.capacity then
    .ok (((msg.bytes ++ msg.spare).take high.toNat).drop low.toNat)
  else .error (.slice low high msg.capacity)

end SocketMessage

inductive HandshakeError
  | readChallenge (err : GoString)
  | expectedChallenge (kind : UInt8) (length : Nat)
  | sendAuth (err : GoString)
  | readResponse (err : GoString)
  | emptyResponse
  | parseDenial
  | denied (reason : GoString)
  | unexpectedType (kind : UInt8)
  deriving DecidableEq

def HandshakeError.text : HandshakeError → GoString
  | .readChallenge err => ascii "read ServerChallenge: " ++ err
  | .expectedChallenge kind length =>
    ascii "expected ServerChallenge, got type " ++ itoa kind.toNat ++ ascii " len " ++ itoa length
  | .sendAuth err => ascii "send ClientAuth: " ++ err
  | .readResponse err => ascii "read auth response: " ++ err
  | .emptyResponse => ascii "empty auth response"
  | .parseDenial => ascii "parse denial: unexpected EOF"
  | .denied reason => ascii "server denied auth: " ++ reason
  | .unexpectedType kind => ascii "unexpected auth response type " ++ itoa kind.toNat

inductive SocketOp
  | readMessage
  | writeMessage (bytes : Bytes)

/-- A message or an error, and the error of a write if there is one. -/
abbrev SocketOp.Response : SocketOp → Type
  | .readMessage => Except GoString SocketMessage
  | .writeMessage _ => Option GoString

abbrev OnSocket := Program SocketOp SocketOp.Response HandshakePanic

def Socket.readMessage : OnSocket (Except GoString SocketMessage) := ask SocketOp.readMessage

def Socket.writeMessage (bytes : Bytes) : OnSocket (Option GoString) :=
  ask (SocketOp.writeMessage bytes)

/-- The answer to a challenge. `sign` derives the message that is signed and signs it. -/
def clientAuth (localPub : PublicKey) (sign : Bytes → Bytes) (challenge : Bytes) : Bytes :=
  hsClientAuth :: localPub.bytes ++ leb128 64 ++ sign challenge

def authResponse (msg : SocketMessage) : OnSocket (Option HandshakeError) :=
  match msg.bytes with
  | [] => return some .emptyResponse
  | kind :: body =>
    if kind = hsServerConfirmsAuth then return none
    else if kind = hsServerDeniesAuth then
      match consumeLEB128 body with
      | none => return some .parseDenial
      | some (reasonLen, n) => do
          let reason ← ofExcept (msg.slice (1 + n) (wrap64 (1 + n + wrap64 reasonLen)))
          return some (.denied reason)
    else return some (.unexpectedType kind)

/-- `none` is the `nil` that is returned when the relay confirms. -/
def handshake (localPub : PublicKey) (sign : Bytes → Bytes) :
    OnSocket (Option HandshakeError) := do
  match ← Socket.readMessage with
  | .error err => return some (.readChallenge err)
  | .ok msg =>
    if msg.bytes.length < 17 ∨ msg.bytes.head? ≠ some hsServerChallenge then
      -- The text of the error has the type of the message in it.
      let kind ← ofExcept msg.first
      return some (.expectedChallenge kind msg.bytes.length)
    else
      let challenge := (msg.bytes.take 17).drop 1
      match ← Socket.writeMessage (clientAuth localPub sign challenge) with
      | some err => return some (.sendAuth err)
      | none =>
        match ← Socket.readMessage with
        | .error err => return some (.readResponse err)
        | .ok msg => authResponse msg

/-- A relay: what it sends one after the other, whether a write to it fails, and what it has
been sent. -/
structure Server where
  messages : List SocketMessage
  writeError : Option GoString
  received : List Bytes

def Server.handle : (op : SocketOp) → Server → op.Response × Server
  | .readMessage, server =>
    match server.messages with
    | [] => (Except.error (ascii "EOF"), server)
    | msg :: messages => (Except.ok msg, { server with messages := messages })
  | .writeMessage bytes, server =>
    (server.writeError, { server with received := server.received ++ [bytes] })

def Server.handshake (server : Server) (localPub : PublicKey) (sign : Bytes → Bytes) :
    Except HandshakePanic (Option HandshakeError) :=
  ((IrohRelay.handshake localPub sign).run Server.handle server).1

/-- The bounds of the reason of a denial are in range exactly if it ends within the array,
whatever the length is that the relay gives. -/
theorem SocketMessage.slice_reason {msg : SocketMessage} {reasonLen n : Nat}
    (wide : reasonLen < 2 ^ 64) (within : n ≤ maxAlloc) :
    msg.slice (1 + n) (wrap64 (1 + n + wrap64 reasonLen)) = if 1 + n + reasonLen ≤ msg.capacity then
        .ok (((msg.bytes ++ msg.spare).take (1 + n + reasonLen)).drop (1 + n))
      else .error (.slice (1 + n) (wrap64 (1 + n + wrap64 reasonLen)) msg.capacity) := by
  have limit : msg.capacity ≤ 2 ^ 48 := msg.fits
  rw [maxAlloc] at within
  rw [slice]
  by_cases ends : 1 + n + reasonLen ≤ msg.capacity
  · have same : wrap64 (1 + n + wrap64 reasonLen) = ((1 + n + reasonLen : Nat) : Int) := by
      rw [@wrap64_of_mem (reasonLen : Int) (by omega) (by omega),
        wrap64_of_mem (by omega) (by omega)]
      omega
    rw [same, if_pos ends, if_pos (by omega)]
    rfl
  have beyond : ¬(wrap64 (1 + n + wrap64 reasonLen) ≤ msg.capacity ∧
      (1 + n : Int) ≤ wrap64 (1 + n + wrap64 reasonLen)) := by
    simp only [wrap64, Int.bmod_def]
    omega
  rw [if_neg ends, if_neg (fun inside => beyond ⟨inside.2.2, inside.2.1⟩)]

namespace SocketMessage

structure IsChallenge (msg : SocketMessage) : Prop where
  long : 17 ≤ msg.bytes.length
  kind : msg.bytes.head? = some hsServerChallenge

/-- If the message is a denial whose length can be read, its reason ends within the array. -/
def DenialFits (msg : SocketMessage) : Prop :=
  ∀ body reasonLen n, msg.bytes = hsServerDeniesAuth :: body →
    consumeLEB128 body = some (reasonLen, n) → 1 + n + reasonLen ≤ msg.capacity

end SocketMessage

theorem length_body_le {msg : SocketMessage} (message : msg.bytes = kind :: body) :
    body.length ≤ maxAlloc := by
  have fits := msg.fits
  rw [message, List.length_cons] at fits
  omega

theorem authResponse_denial {msg : SocketMessage} {body : Bytes} {reasonLen n : Nat}
    (message : msg.bytes = hsServerDeniesAuth :: body)
    (read : consumeLEB128 body = some (reasonLen, n)) :
    authResponse msg = if 1 + n + reasonLen ≤ msg.capacity then
        .done (some (.denied (((msg.bytes ++ msg.spare).take (1 + n + reasonLen)).drop (1 + n))))
      else .halt (.slice (1 + n) (wrap64 (1 + n + wrap64 reasonLen)) msg.capacity) := by
  have bounds := consumeLEB128_bounds read
  have within : n ≤ maxAlloc := bounds.2.2.trans (length_body_le message)
  rw [authResponse, message]
  have other : hsServerDeniesAuth ≠ hsServerConfirmsAuth := by decide
  simp only [other, if_false, if_true, read, SocketMessage.slice_reason bounds.1 within, message]
  split <;> rfl

theorem authResponse_returns_iff (msg : SocketMessage) (srv : Server) :
    (∃ res, ((authResponse msg).run Server.handle srv).1 = .ok res) ↔
      msg.DenialFits := by
  by_cases denial : ∃ body reasonLen n, msg.bytes = hsServerDeniesAuth :: body ∧
      consumeLEB128 body = some (reasonLen, n)
  · obtain ⟨body, reasonLen, n, message, read⟩ := denial
    have same : msg.DenialFits ↔ 1 + n + reasonLen ≤ msg.capacity := by
      constructor
      · intro fits
        exact fits body reasonLen n message read
      intro fits other length taken isOther isRead
      rw [message, List.cons.injEq] at isOther
      rw [← isOther.2, read, Option.some.injEq, Prod.mk.injEq] at isRead
      omega
    rw [same, authResponse_denial message read]
    split
    · rename_i ends
      simp [ends]
    · rename_i beyond
      simp [beyond]
  have fits : msg.DenialFits := by
    intro body reasonLen n message read
    exact absurd ⟨body, reasonLen, n, message, read⟩ denial
  refine iff_of_true ?_ fits
  rw [authResponse]
  split
  · simp
  rename_i kind body message
  split
  · simp
  split
  · rename_i isDenial
    subst isDenial
    cases read : consumeLEB128 body with
    | none => simp
    | some pair => exact absurd ⟨body, pair.1, pair.2, message, read⟩ denial
  · simp

theorem authResponse_nil (confirmed : ((authResponse msg).run Server.handle srv).1 = .ok none) :
    msg.bytes.head? = some hsServerConfirmsAuth := by
  rw [authResponse] at confirmed
  split at confirmed
  · simp at confirmed
  rename_i kind body message
  rw [message]
  split at confirmed
  · rename_i isConfirmed
    rw [isConfirmed]
    rfl
  split at confirmed
  · cases read : consumeLEB128 body with
    | none => simp [read] at confirmed
    | some pair =>
      cases cut : msg.slice (1 + pair.2) (wrap64 (1 + pair.2 + wrap64 pair.1)) with
      | error | ok => simp [read, cut] at confirmed
  · simp at confirmed

variable (localPub : PublicKey) (sign : Bytes → Bytes) (first second : SocketMessage)
  (writeError : Option GoString)

theorem handshake_of_other (other : ¬first.IsChallenge) :
    Server.handshake ⟨[first, second], writeError, []⟩ localPub sign =
      first.first.map fun kind => some (.expectedChallenge kind first.bytes.length) := by
  have condition : first.bytes.length < 17 ∨ first.bytes.head? ≠ some hsServerChallenge := by
    by_contra neither
    rw [not_or, not_lt, not_not] at neither
    exact other ⟨neither.1, neither.2⟩
  simp only [Server.handshake, handshake, Socket.readMessage, ask_bind, run_perform,
    Server.handle, condition, if_true]
  cases first.first with
  | error | ok => rfl

theorem handshake_of_challenge {first : SocketMessage} (challenge : first.IsChallenge) :
    Server.handshake ⟨[first, second], writeError, []⟩ localPub sign = match writeError with
      | some err => .ok (some (.sendAuth err))
      | none =>
        ((authResponse second).run Server.handle
          ⟨[], none, [clientAuth localPub sign ((first.bytes.take 17).drop 1)]⟩).1 := by
  have condition : ¬(first.bytes.length < 17 ∨ first.bytes.head? ≠ some hsServerChallenge) := by
    rw [not_or, not_lt, not_not]
    exact ⟨challenge.long, challenge.kind⟩
  simp only [Server.handshake, handshake, Socket.readMessage, Socket.writeMessage, ask_bind,
    run_perform, Server.handle, condition, if_false]
  cases writeError with
  | some | none => rfl

/-- The handshake returns exactly if the first message is not empty and, where the second one
is looked at, the reason of a denial ends within the array. It returns nil only if the relay
has sent a challenge and has confirmed. -/
theorem handshake_returns_iff :
    ((∃ result, Server.handshake ⟨[first, second], writeError, []⟩ localPub sign = .ok result) ↔
        first.bytes ≠ [] ∧ (first.IsChallenge → writeError = none → second.DenialFits)) ∧
      (Server.handshake ⟨[first, second], writeError, []⟩ localPub sign = .ok none →
        first.IsChallenge ∧ second.bytes.head? = some hsServerConfirmsAuth) := by
  by_cases challenge : first.IsChallenge
  · have filled : first.bytes ≠ [] := by
      intro empty
      have long := challenge.long
      simp [empty] at long
    rw [handshake_of_challenge localPub sign second writeError challenge]
    cases writeError with
    | some => simp [filled]
    | none =>
      constructor
      · simp only [filled, challenge, ne_eq, not_false_eq_true, true_and, true_implies]
        exact authResponse_returns_iff second _
      · intro confirmed
        exact ⟨challenge, authResponse_nil confirmed⟩
  rw [handshake_of_other localPub sign first second writeError challenge, SocketMessage.first]
  cases content : first.bytes with
  | nil => simp [Except.map]
  | cons => simp [Except.map, challenge]

def shortMessage (bytes : Bytes) (short : bytes.length ≤ 512) : SocketMessage where
  bytes := bytes
  spare := List.replicate (512 - bytes.length) 0
  fits := by
    rw [List.length_replicate, maxAlloc]
    omega

def emptyMessage : SocketMessage := shortMessage [] (by decide)

def challengeMessage : SocketMessage := shortMessage (List.replicate 17 0) (by decide)

def bareDenial : SocketMessage := shortMessage [hsServerDeniesAuth, 0xff, 0x7f] (by decide)

/-- A denial whose reason has the length `2 ^ 63`, which is negative as an `int`. -/
def endlessDenial : SocketMessage :=
  shortMessage (hsServerDeniesAuth :: List.replicate 9 0x80 ++ [1]) (by decide)

theorem capacity_shortMessage (bytes : Bytes) (short : bytes.length ≤ 512) :
    (shortMessage bytes short).capacity = 512 := by
  simp [SocketMessage.capacity, shortMessage, short]

theorem handshake_of_denial {body : Bytes} {short : (hsServerDeniesAuth :: body).length ≤ 512}
    {reasonLen n : Nat} (read : consumeLEB128 body = some (reasonLen, n))
    (beyond : 512 < 1 + n + reasonLen) :
    Server.handshake ⟨[challengeMessage, shortMessage _ short], none, []⟩ localPub sign =
      .error (.slice (1 + n) (wrap64 (1 + n + wrap64 reasonLen)) 512) := by
  have challenge : challengeMessage.IsChallenge := ⟨by decide, rfl⟩
  rw [handshake_of_challenge _ _ _ _ challenge, authResponse_denial rfl read,
    capacity_shortMessage, if_neg (Nat.not_le.mpr beyond), run_halt]

def clientKey : PublicKey := ⟨List.replicate 32 7, List.length_replicate⟩

/-- A panic at an empty message, at a reason that is too long, and at one of negative length. -/
theorem handshake_panics :
    Server.handshake ⟨[emptyMessage, emptyMessage], none, []⟩ clientKey id = .error (.index 0 0) ∧
      Server.handshake ⟨[challengeMessage, bareDenial], none, []⟩ clientKey id =
        .error (.slice 3 16386 512) ∧
      Server.handshake ⟨[challengeMessage, endlessDenial], none, []⟩ clientKey id =
        .error (.slice 11 (-9223372036854775797) 512) := by
  have bare : consumeLEB128 [0xff, 0x7f] = some (16383, 2) := by decide
  have endless : consumeLEB128 (List.replicate 9 0x80 ++ [1]) = some (2 ^ 63, 10) := by decide
  exact ⟨rfl, handshake_of_denial clientKey id bare (by decide),
    handshake_of_denial clientKey id endless (by decide)⟩

def appendLEB128 (buf : Bytes) (v : UInt64) : Bytes := buf ++ leb128 v.toNat

/-- The next numbers, one after the other, and what follows them. -/
def consumeAll : Nat → Bytes → Option (List UInt64 × Bytes)
  | 0, bytes => some ([], bytes)
  | count + 1, bytes => do
    let (value, taken) ← consumeLEB128 bytes
    let (values, rest) ← consumeAll count (bytes.drop taken)
    pure (.ofNat value :: values, rest)

theorem consume_append (v : UInt64) (rest : Bytes) :
    consumeLEB128 (appendLEB128 [] v ++ rest) = some (v.toNat, (appendLEB128 [] v).length) :=
  consumeLEB128_leb128 v.toNat_lt rest

theorem consumeAll_append (values : List UInt64) (rest : Bytes) :
    consumeAll values.length ((values.map (appendLEB128 [])).flatten ++ rest) =
      some (values, rest) := by
  induction values with
  | nil => rfl
  | cons v values ih =>
    rw [List.map_cons, List.flatten_cons, List.append_assoc, List.length_cons, consumeAll,
      consume_append]
    simp [ih]

theorem consume_eq_none {short : Bytes} (isPrefix : short <+: appendLEB128 [] v)
    (proper : short ≠ appendLEB128 [] v) : consumeLEB128 short = none := by
  rcases isPrefix with ⟨rest, whole⟩
  cases read : consumeLEB128 short with
  | none => rfl
  | some result =>
    have extended := consumeFrom_append read rest
    have complete := consume_append v []
    rw [List.append_nil, ← whole, consumeLEB128, extended] at complete
    cases complete
    have bounds := consumeLEB128_bounds read
    rw [List.length_append] at bounds
    have nothing : rest = [] := List.eq_nil_of_length_eq_zero (by omega)
    rw [nothing, List.append_nil] at whole
    exact (proper whole).elim

theorem length_append_le (read : consumeLEB128 bytes = some (v.toNat, taken)) :
    (appendLEB128 [] v).length ≤ bytes.length := by
  have bounds := consumeLEB128_bounds read
  have fits := consumeFrom_lt (by decide) read
  rcases Nat.exists_eq_succ_of_ne_zero bounds.2.1.ne' with ⟨k, rfl⟩
  exact (length_leb128_le fits).trans bounds.2.2

theorem leb128_codec (v : UInt64) (rest : Bytes) (values : List UInt64) :
    consumeLEB128 (appendLEB128 [] v ++ rest) = some (v.toNat, (appendLEB128 [] v).length) ∧
      1 ≤ (appendLEB128 [] v).length ∧ (appendLEB128 [] v).length ≤ 10 ∧
      (∀ w, appendLEB128 [] v <+: appendLEB128 [] w → v = w) ∧
      consumeAll values.length ((values.map (appendLEB128 [])).flatten ++ rest) =
        some (values, rest) ∧
      (∀ short, short <+: appendLEB128 [] v → short ≠ appendLEB128 [] v →
        consumeLEB128 short = none) ∧
      ∀ bytes taken, consumeLEB128 bytes = some (v.toNat, taken) →
        (appendLEB128 [] v).length ≤ bytes.length := by
  have bounds := consumeLEB128_bounds (consume_append v [])
  have ten : v.toNat < 2 ^ (7 * (9 + 1)) := v.toNat_lt.trans (by decide)
  refine ⟨consume_append v rest, bounds.2.1, length_leb128_le ten, ?_,
    consumeAll_append values rest, fun _ => consume_eq_none, fun _ _ => length_append_le⟩
  rintro w ⟨rest, whole⟩
  have same := consume_append v rest
  rw [whole, ← List.append_nil (appendLEB128 [] w), consume_append w, Option.some.injEq,
    Prod.mk.injEq] at same
  exact UInt64.toNat_inj.mp same.1.symm

end Peerscale.IrohRelay
