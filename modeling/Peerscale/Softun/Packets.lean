import Peerscale.Foundation.GoValue

/-! # TCP packets of the software tun

What `pktkit` and `vtcp` make of a packet, and what softun derives from it: the key of a
connection that is being established, and the reset that answers a segment.
-/

namespace Peerscale.Softun

structure Addr where
  is6 : Bool
  bytes : Bytes
  deriving DecidableEq

/-- A valid IP packet, as the accessors of `pktkit.Packet` show it. -/
structure Packet where
  is6 : Bool
  src : Bytes
  dst : Bytes
  protocol : UInt8
  payload : Bytes
  deriving DecidableEq

def vlanContains (addr : Addr) : Bool :=
  if addr.is6 then addr.bytes.take 8 == 0xfd :: List.replicate 7 0
  else addr.bytes.take 3 == [10, 0, 0]

def protocolTCP : UInt8 := 6

def flagFIN : UInt8 := 1
def flagSYN : UInt8 := 2
def flagRST : UInt8 := 4
def flagACK : UInt8 := 16

def Packet.srcAddr (pkt : Packet) : Addr := ⟨pkt.is6, pkt.src⟩

def Packet.dstAddr (pkt : Packet) : Addr := ⟨pkt.is6, pkt.dst⟩

def field (bytes : Bytes) (offset width : Nat) : Nat :=
  ofBigEndian ((bytes.drop offset).take width)

structure SynKey where
  remote : Addr
  remotePort : Nat
  localPort : Nat
  deriving DecidableEq

def synKeyForPacket (pkt : Packet) : Option SynKey :=
  if pkt.payload.length < 4 then none
  else some ⟨pkt.srcAddr, field pkt.payload 0 2, field pkt.payload 2 2⟩

def synAckKeyFromPacket (pkt : Packet) : Option SynKey :=
  if pkt.payload.length < 4 then none
  else some ⟨pkt.dstAddr, field pkt.payload 2 2, field pkt.payload 0 2⟩

def tcpFlags (pkt : Packet) : Option UInt8 :=
  if pkt.payload.length < 14 then none else pkt.payload[13]?

def isSynOnly (pkt : Packet) : Bool :=
  (tcpFlags pkt).any fun flags => flags &&& flagSYN ≠ 0 && flags &&& flagACK = 0

def isSynAck (pkt : Packet) : Bool :=
  (tcpFlags pkt).any fun flags => flags &&& (flagSYN ||| flagACK) = flagSYN ||| flagACK

def Packet.tuple (pkt : Packet) : Addr × Nat × Addr × Nat :=
  (pkt.srcAddr, field pkt.payload 0 2, pkt.dstAddr, field pkt.payload 2 2)

theorem synKeyForPacket_eq_some (found : synKeyForPacket pkt = some key) :
    4 ≤ pkt.payload.length ∧ key = ⟨pkt.srcAddr, field pkt.payload 0 2, field pkt.payload 2 2⟩ := by
  rw [synKeyForPacket] at found
  split at found
  · cases found
  · rename_i long
    exact ⟨Nat.le_of_not_lt long, (Option.some.inj found).symm⟩

structure Segment where
  srcPort : Nat
  dstPort : Nat
  seq : Nat
  ack : Nat
  flags : UInt8
  payload : Bytes
  deriving DecidableEq

def dataOffset (bytes : Bytes) : Nat := field bytes 12 1 / 16 * 4

/-- The fields of a segment where RFC 9293 has them. -/
def segmentOf (bytes : Bytes) : Segment where
  srcPort := field bytes 0 2
  dstPort := field bytes 2 2
  seq := field bytes 4 4
  ack := field bytes 8 4
  flags := (bytes[13]?).getD 0
  payload := bytes.drop (dataOffset bytes)

/-- The functions of the library `vtcp` that take a segment apart. -/
structure Parser where
  parseSegment : Bytes → Option Segment
  segLen : Segment → Nat

structure Reset where
  is6 : Bool
  src : Bytes
  dst : Bytes
  segment : Segment
  deriving DecidableEq

def buildRST (vtcp : Parser) (req : Packet) : Option Reset :=
  if req.payload.length < 20 then none
  else
    (vtcp.parseSegment req.payload).map fun seg =>
      { is6 := req.is6
        src := req.dst
        dst := req.src
        segment := if seg.flags &&& flagACK ≠ 0 then
            ⟨seg.dstPort, seg.srcPort, seg.ack, 0, flagRST, []⟩
          else
            ⟨seg.dstPort, seg.srcPort, 0, (seg.seq + vtcp.segLen seg) % 2 ^ 32, flagRST ||| flagACK,
              []⟩ }

end Peerscale.Softun
