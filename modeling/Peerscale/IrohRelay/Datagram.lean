import Peerscale.Foundation.GoValue

/-! # IrohRelay datagrams

Stream frames, the messages that carry them to a relay and from there to the other
endpoint, and the choice of a relay for each of them. The relay is a server of its
own: it passes a datagram on to the endpoint it is addressed to, with the sender's
key in the place of the receiver's.
-/

namespace Peerscale.IrohRelay

open List

/-- An endpoint's `[32]byte` key. -/
structure PublicKey where
  bytes : Bytes
  length_eq : bytes.length = 32
  deriving DecidableEq

def maxDatagramPayload : Nat := 64000

def frameClientToRelayDatagram : UInt8 := 4
def frameRelayToClientDatagram : UInt8 := 6
def frameRelayToClientDatagramBatch : UInt8 := 7
def frameEndpointGone : UInt8 := 8

def flagDATA : UInt8 := 0
def flagCLOSE : UInt8 := 1
def flagRESET : UInt8 := 2

def streamFrame (id : UInt64) (flags : UInt8) (data : Bytes) : Bytes :=
  littleEndian 8 id.toNat ++ flags :: data

@[simp] theorem drop_streamFrame (id : UInt64) (flags : UInt8) (data : Bytes) :
    (streamFrame id flags data).drop 9 = data := by
  simp [streamFrame, drop_append]

def datagramMessage (remotePub : PublicKey) (payload : Bytes) : Bytes :=
  frameClientToRelayDatagram :: remotePub.bytes ++ 0 :: payload

def forward (src : PublicKey) (message : Bytes) : Bytes :=
  frameRelayToClientDatagram :: src.bytes ++ message.drop 33

structure Datagram where
  src : PublicKey
  sid : UInt64
  flags : UInt8
  data : Bytes
  deriving DecidableEq

def parseDatagram (body : Bytes) : Option Datagram :=
  if long : 33 ≤ body.length then
    let src : PublicKey := ⟨body.take 32, by rw [List.length_take]; omega⟩
    let payload := body.drop 33
    if payload.length < 9 then none
    else
      some {
        src := src
        sid := UInt64.ofNat (ofLittleEndian (payload.take 8))
        flags := payload.getD 8 0
        data := payload.drop 9 }
  else none

theorem parseDatagram_forward (src dst : PublicKey) (id : UInt64) (flags : UInt8) (data : Bytes) :
    parseDatagram ((forward src (datagramMessage dst (streamFrame id flags data))).drop 1) =
      some ⟨src, id, flags, data⟩ := by
  have srcLength := src.length_eq
  have dstLength := dst.length_eq
  have body : (forward src (datagramMessage dst (streamFrame id flags data))).drop 1 =
      src.bytes ++ 0 :: streamFrame id flags data := by
    simp [forward, datagramMessage, drop_append, dstLength]
  have pl : (src.bytes ++ 0 :: streamFrame id flags data).drop 33 =
      streamFrame id flags data := by
    simp [drop_append, srcLength]
  have long : 33 ≤ (src.bytes ++ 0 :: streamFrame id flags data).length := by
    simp [srcLength]
    omega
  have enough : ¬(streamFrame id flags data).length < 9 := by
    simp [streamFrame]
    omega
  have fits : id.toNat < 256 ^ 8 := id.toNat_lt
  have sid : UInt64.ofNat (ofLittleEndian ((streamFrame id flags data).take 8)) = id := by
    simp [streamFrame, ofLittleEndian_littleEndian fits]
  have flag : (streamFrame id flags data).getD 8 0 = flags := by simp [streamFrame]
  have key : (src.bytes ++ 0 :: streamFrame id flags data).take 32 = src.bytes := by
    simp [srcLength]
  rw [body, parseDatagram, dif_pos long]
  simp only [pl, if_neg enough, sid, flag, drop_streamFrame, key]

/-- What a message from a relay is to the pool. Pings, pongs and status reports are the
connection's own business. -/
inductive Arrival
  | datagram (datagram : Datagram)
  | endpointGone (key : PublicKey)
  | ignored
  deriving DecidableEq

def readMessage : Bytes → Arrival
  | [] => .ignored
  | frameType :: body =>
    if frameType = frameRelayToClientDatagram ∨
        frameType = frameRelayToClientDatagramBatch then
      match parseDatagram body with
      | some datagram => .datagram datagram
      | none => .ignored
    else if frameType = frameEndpointGone then
      if long : 32 ≤ body.length then
        .endpointGone ⟨body.take 32, by rw [List.length_take]; omega⟩
      else .ignored
    else .ignored

theorem readMessage_forward (src dst : PublicKey) (id : UInt64) (flags : UInt8) (data : Bytes) :
    readMessage (forward src (datagramMessage dst (streamFrame id flags data))) =
      .datagram ⟨src, id, flags, data⟩ := by
  have parsed := parseDatagram_forward src dst id flags data
  rw [forward, cons_append, drop_one, tail_cons] at parsed
  rw [forward, cons_append, readMessage, if_pos (.inl rfl), parsed]

theorem readMessage_gone (key : PublicKey) :
    readMessage (frameEndpointGone :: key.bytes) = .endpointGone key := by
  have long : 32 ≤ key.bytes.length := Nat.le_of_eq key.length_eq.symm
  have whole : key.bytes.take 32 = key.bytes := take_of_length_le (Nat.le_of_eq key.length_eq)
  rw [readMessage, if_neg (by decide), if_pos rfl, dif_pos long]
  simp only [whole]

inductive IrohRelayState
  | disconnected
  | connecting
  | authenticating
  | alive
  | reconnecting
  deriving DecidableEq

inductive Websocket
  | absent
  | failing (error : GoString)
  | working
  deriving DecidableEq

structure RelayConn where
  url : GoString
  state : IrohRelayState
  ws : Websocket
  deriving DecidableEq

def RelayConn.sendDatagram (conn : RelayConn) (remotePub : PublicKey) (payload : Bytes) :
    Except GoString (GoString × Bytes) :=
  match conn.ws with
  | .absent => .error (ascii "relay " ++ conn.url ++ ascii ": ws closed")
  | .failing error => .error error
  | .working => .ok (conn.url, datagramMessage remotePub payload)

/-- The relays of a pool in the order in which a loop over the map meets them: the
first one that is alive carries the frame. -/
def sendTo (remotePub : PublicKey) (frame : Bytes) :
    List RelayConn → Except GoString (GoString × Bytes)
  | [] => .error (ascii "irohrelay: no alive relay to send")
  | conn :: relays =>
    if conn.state ≠ .alive then sendTo remotePub frame relays
    else conn.sendDatagram remotePub frame

theorem sendTo_eq_ok (sent : sendTo remotePub fr relays = .ok (url, msg)) :
    msg = datagramMessage remotePub fr := by
  induction relays with
  | nil => cases sent
  | cons conn relays ih =>
    rw [sendTo] at sent
    split at sent
    · exact ih sent
    rw [RelayConn.sendDatagram] at sent
    split at sent
    · cases sent
    · cases sent
    · simp only [Except.ok.injEq, Prod.mk.injEq] at sent
      exact sent.2.symm

theorem sendTo_of_single {relays : List RelayConn}
    (single : relays.filter (fun relay => relay.state = .alive) = [conn])
    (permuted : List.Perm order relays) :
    sendTo remotePub fr order = conn.sendDatagram remotePub fr := by
  have onlyAlive : order.filter (fun relay => relay.state = .alive) = [conn] := by
    have filtered := permuted.filter fun relay => relay.state = .alive
    rw [single] at filtered
    exact perm_singleton.mp filtered
  clear single permuted
  induction order with
  | nil => cases onlyAlive
  | cons cand order ih =>
    rw [sendTo]
    by_cases isAlive : cand.state = .alive
    · rw [filter_cons_of_pos (by simpa using isAlive), cons.injEq] at onlyAlive
      rw [if_neg (not_not.mpr isAlive), onlyAlive.1]
    · rw [filter_cons_of_neg (by simpa using isAlive)] at onlyAlive
      rw [if_pos isAlive, ih onlyAlive]

end Peerscale.IrohRelay
