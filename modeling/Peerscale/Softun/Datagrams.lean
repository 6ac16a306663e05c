import Peerscale.Foundation.Slice
import Peerscale.Softun.Packets

/-! # UDP datagrams of the software tun

`WriteTo` puts a datagram into a packet and routes it, and `handleInboundUDP` takes it out at the
other end. The lengths in both headers have 16 bits.
-/

namespace Peerscale.Softun

open List

def protocolUDP : UInt8 := 17

def ipLength (pkt : Bytes) : Nat :=
  if field pkt 0 1 / 16 = 6 then 40 + field pkt 4 2 else field pkt 2 2

/-- `pktkit.Packet.IsValid`. -/
def isValid (pkt : Bytes) : Bool := ipLength pkt ≤ pkt.length

/-- What the accessors of `pktkit.Packet` show of the bytes. -/
def ofBytes (pkt : Bytes) : Packet :=
  if field pkt 0 1 / 16 = 6 then
    ⟨true, window pkt 8 16, window pkt 24 16, (pkt[6]?).getD 0, (pkt.take (ipLength pkt)).drop 40⟩
  else
    ⟨false, window pkt 12 4, window pkt 16 4, (pkt[9]?).getD 0, (pkt.take (ipLength pkt)).drop 20⟩

/-- The addresses of this node, and the checksums of `slirp`. -/
structure Origin where
  addr4 : Bytes
  addr6 : Option Bytes
  ipChecksum : Bytes → Nat
  udpChecksum : Bytes → Bytes → Bytes → Nat
  length4 : addr4.length = 4
  length6 : ∀ addr ∈ addr6, addr.length = 16

namespace Origin

variable (origin : Origin)

/-- `fillChecksum4` and `fillChecksum6` for UDP. -/
def fillChecksum (src dst l4 : Bytes) : Bytes :=
  if 8 ≤ l4.length then
    let cleared := overwrite l4 6 [0, 0]
    overwrite cleared 6 (bigEndian 2 (origin.udpChecksum src dst cleared))
  else l4

def wrapIPv4 (src dst l4 : Bytes) : Bytes :=
  let header := [0x45, 0] ++ bigEndian 2 (20 + l4.length) ++
    [0, 0, 0, 0, 64, protocolUDP, 0, 0] ++ src ++ dst
  overwrite header 10 (bigEndian 2 (origin.ipChecksum header)) ++ origin.fillChecksum src dst l4

def wrapIPv6 (src dst l4 : Bytes) : Bytes :=
  [0x60, 0, 0, 0] ++ bigEndian 2 l4.length ++ [protocolUDP, 64] ++ src ++ dst ++
    origin.fillChecksum src dst l4

def udpPayload (port dstPort : UInt16) (p : Bytes) : Bytes :=
  bigEndian 2 port.toNat ++ bigEndian 2 dstPort.toNat ++ bigEndian 2 (8 + p.length) ++ [0, 0] ++ p

end Origin

/-- What routing depends on: the packets that are broadcast or multicast, the addresses of this
node, the peers of others, and how a write to a peer ends. -/
structure Routes where
  isBroadcast : Bytes → Bool
  isLocalAddr : Addr → Bool
  peerIDByVirtAddr : Addr → GoString
  writeToPeer : GoString → Bytes → Except GoString Unit

inductive Routed
  | dropped
  | hairpin (pkt : Bytes)
  | sent (peerID : GoString) (pkt : Bytes)
  deriving DecidableEq

def Routed.packet : Routed → Option Bytes
  | .dropped => none
  | .hairpin pkt => some pkt
  | .sent _ pkt => some pkt

namespace Routes

variable (routes : Routes)

def routeToPeer (pkt : Bytes) (dst : Addr) : Except GoString Routed :=
  let pid := routes.peerIDByVirtAddr dst
  if pid = [] then .ok .dropped
  else do
    routes.writeToPeer pid pkt
    return .sent pid pkt

def routeWrite (pkt : Bytes) : Except GoString Routed :=
  let dst := (ofBytes pkt).dstAddr
  if isValid pkt = false ∨ routes.isBroadcast pkt then .ok .dropped
  else if routes.isLocalAddr dst then .ok (.hairpin pkt)
  else if vlanContains dst then routes.routeToPeer pkt dst
  else .ok .dropped

/-- The length that is reported, and what has become of the packet. -/
def writeTo (origin : Origin) (port : UInt16) (dst : Addr) (dstPort : UInt16) (p : Bytes) :
    Except GoString (Nat × Routed) := do
  let payload := Origin.udpPayload port dstPort p
  let pkt ← if dst.is6 then
      match origin.addr6 with
      | none => .error (ascii "softun: local IPv6 address not configured")
      | some src => .ok (origin.wrapIPv6 src dst.bytes payload)
    else .ok (origin.wrapIPv4 origin.addr4 dst.bytes payload)
  let routed ← routes.routeWrite pkt
  return (p.length, routed)

end Routes

structure UdpDatagram where
  data : Bytes
  addr : Addr
  port : Nat
  deriving DecidableEq

/-- Whether the packet is consumed, and what is queued for the listener of its port. -/
def handleInboundUDP (listens : Nat → Bool) (pkt : Packet) : Bool × Option UdpDatagram :=
  let pl := pkt.payload
  if pl.length < 8 then (false, none)
  else if listens (field pl 2 2) = false then (false, none)
  else
    let udpLen := field pl 4 2
    if udpLen < 8 ∨ pl.length < udpLen then (true, none)
    else (true, some ⟨(pl.take udpLen).drop 8, pkt.srcAddr, field pl 0 2⟩)

def sealedPayload (port dstPort : UInt16) (checksum : Nat) (p : Bytes) : Bytes :=
  bigEndian 2 port.toNat ++ bigEndian 2 dstPort.toNat ++ bigEndian 2 (8 + p.length) ++
    bigEndian 2 checksum ++ p

section

variable {origin : Origin} {port dstPort : UInt16} {p src dst : Bytes} {checksum : Nat}

theorem length_sealedPayload : (sealedPayload port dstPort checksum p).length = 8 + p.length := by
  simp [sealedPayload]
  omega

theorem length_udpPayload (port dstPort : UInt16) (p : Bytes) :
    (Origin.udpPayload port dstPort p).length = 8 + p.length := by
  simp [Origin.udpPayload]
  omega

theorem fillChecksum_udpPayload (src dst : Bytes) :
    ∃ checksum, origin.fillChecksum src dst (Origin.udpPayload port dstPort p) =
      sealedPayload port dstPort checksum p := by
  rw [Origin.fillChecksum, if_pos (by simp [Origin.udpPayload]; omega)]
  exact ⟨_, rfl⟩

theorem length_fillChecksum (src dst l4 : Bytes) :
    (origin.fillChecksum src dst l4).length = l4.length := by
  rw [Origin.fillChecksum]
  split
  · rw [length_overwrite, length_overwrite]
  · rfl

/-- What the receiver sees of a packet around `l4`, of which the header announces `n` bytes. -/
structure Carries (origin : Origin) (src dst : Addr) (l4 : Bytes) (n : Nat) (pkt : Bytes) :
    Prop where
  valid : isValid pkt
  srcAddr : (ofBytes pkt).srcAddr = src
  dstAddr : (ofBytes pkt).dstAddr = dst
  payload : (ofBytes pkt).payload = (origin.fillChecksum src.bytes dst.bytes l4).take n

theorem windows_of_drop {pkt : Bytes} (addresses : pkt.drop start = src ++ (dst ++ rest))
    (srcIs : src.length = k) (dstIs : dst.length = k) :
    window pkt start k = src ∧ window pkt (start + k) k = dst := by
  rw [window, window, ← drop_drop, addresses, take_left' srcIs, drop_left' srcIs, take_left' dstIs]
  exact ⟨rfl, rfl⟩

theorem carries_wrapIPv4 (srcIs : src.length = 4) (dstIs : dst.length = 4) (l4 : Bytes) :
    Carries origin ⟨false, src⟩ ⟨false, dst⟩ l4 ((20 + l4.length) % 2 ^ 16 - 20)
      (origin.wrapIPv4 src dst l4) := by
  have version : ¬ field (origin.wrapIPv4 src dst l4) 0 1 / 16 = 6 :=
    show ¬ ofBigEndian [0x45] / 16 = 6 by decide
  have length : ipLength (origin.wrapIPv4 src dst l4) = (20 + l4.length) % 2 ^ 16 :=
    (if_neg version).trans (ofBigEndian_two _)
  have behind : (origin.wrapIPv4 src dst l4).drop 20 = origin.fillChecksum src dst l4 :=
    drop_left' (by simp [srcIs, dstIs])
  have addresses : (origin.wrapIPv4 src dst l4).drop 12 =
      src ++ (dst ++ origin.fillChecksum src dst l4) := append_assoc ..
  have valid : ipLength (origin.wrapIPv4 src dst l4) ≤ (origin.wrapIPv4 src dst l4).length := by
    rw [length, Origin.wrapIPv4, length_append, length_fillChecksum, length_overwrite]
    simp [srcIs, dstIs]
    omega
  refine ⟨decide_eq_true valid, ?_, ?_, ?_⟩ <;> rw [ofBytes, if_neg version]
  · exact congrArg (Addr.mk false) (windows_of_drop addresses srcIs dstIs).1
  · exact congrArg (Addr.mk false) (windows_of_drop addresses srcIs dstIs).2
  · rw [length, ← behind, ← drop_take]

theorem carries_wrapIPv6 (srcIs : src.length = 16) (dstIs : dst.length = 16) (l4 : Bytes) :
    Carries origin ⟨true, src⟩ ⟨true, dst⟩ l4 (l4.length % 2 ^ 16)
      (origin.wrapIPv6 src dst l4) := by
  have version : field (origin.wrapIPv6 src dst l4) 0 1 / 16 = 6 :=
    show ofBigEndian [0x60] / 16 = 6 by decide
  have length : ipLength (origin.wrapIPv6 src dst l4) = 40 + l4.length % 2 ^ 16 :=
    (if_pos version).trans (congrArg (40 + ·) (ofBigEndian_two _))
  have behind : (origin.wrapIPv6 src dst l4).drop 40 = origin.fillChecksum src dst l4 :=
    drop_left' (by simp [srcIs, dstIs])
  have addresses : (origin.wrapIPv6 src dst l4).drop 8 =
      src ++ (dst ++ origin.fillChecksum src dst l4) := append_assoc ..
  have valid : ipLength (origin.wrapIPv6 src dst l4) ≤ (origin.wrapIPv6 src dst l4).length := by
    rw [length, Origin.wrapIPv6, length_append, length_fillChecksum]
    simp [srcIs, dstIs]
    omega
  refine ⟨decide_eq_true valid, ?_, ?_, ?_⟩ <;> rw [ofBytes, if_pos version]
  · exact congrArg (Addr.mk true) (windows_of_drop addresses srcIs dstIs).1
  · exact congrArg (Addr.mk true) (windows_of_drop addresses srcIs dstIs).2
  · rw [length, drop_take, behind, Nat.add_sub_cancel_left]

theorem handleInboundUDP_sealedPayload {pkt : Packet}
    (payload : pkt.payload = sealedPayload port dstPort checksum p) (fits : p.length ≤ 65527)
    (bound : listens dstPort.toNat) :
    handleInboundUDP listens pkt = (true, some ⟨p, pkt.srcAddr, port.toNat⟩) := by
  have small : port.toNat < 2 ^ 16 ∧ dstPort.toNat < 2 ^ 16 := ⟨port.toNat_lt, dstPort.toNat_lt⟩
  have size := @length_sealedPayload port dstPort p checksum
  have srcPort : field (sealedPayload port dstPort checksum p) 0 2 = port.toNat :=
    (ofBigEndian_two _).trans (Nat.mod_eq_of_lt small.1)
  have toPort : field (sealedPayload port dstPort checksum p) 2 2 = dstPort.toNat :=
    (ofBigEndian_two _).trans (Nat.mod_eq_of_lt small.2)
  have udpLen : field (sealedPayload port dstPort checksum p) 4 2 = 8 + p.length :=
    (ofBigEndian_two _).trans (Nat.mod_eq_of_lt (by omega))
  rw [handleInboundUDP, payload, toPort, udpLen, srcPort]
  rw [if_neg (by omega), if_neg (by rw [bound]; decide), if_neg (by omega),
    take_of_length_le (by omega)]
  rfl

end

def Delivers (port dstPort : UInt16) (src : Addr) (p pkt : Bytes) : Prop :=
  isValid pkt ∧ ∀ listens : Nat → Bool, listens dstPort.toNat →
    handleInboundUDP listens (ofBytes pkt) = (true, some ⟨p, src, port.toNat⟩)

def Origin.addr (origin : Origin) (is6 : Bool) : Addr :=
  if is6 then ⟨true, origin.addr6.getD []⟩ else ⟨false, origin.addr4⟩

/-- The datagram arrives exactly if the header announces all of it. -/
theorem Carries.received_iff {origin : Origin}
    (carries : Carries origin src dst (Origin.udpPayload port dstPort p) n pkt)
    (small : n < 2 ^ 16) : Delivers port dstPort src p pkt ↔ 8 + p.length ≤ n := by
  obtain ⟨checksum, filled⟩ := @fillChecksum_udpPayload origin port dstPort p src.bytes dst.bytes
  have payload := carries.payload
  rw [filled] at payload
  constructor
  · intro delivers
    by_contra short
    have received := delivers.2 (fun _ => true) rfl
    have size : (ofBytes pkt).payload.length ≤ n := payload ▸ length_take_le _ _
    rw [handleInboundUDP] at received
    dsimp only at received
    split at received
    · cases received
    rw [if_neg (by decide)] at received
    split at received
    · cases received
    have all := (UdpDatagram.mk.inj (Option.some.inj (Prod.mk.inj received).2)).1
    have length := congrArg List.length all
    have fewer := length_take_le' (field (ofBytes pkt).payload 4 2) (ofBytes pkt).payload
    rw [length_drop] at length
    omega
  intro all
  rw [take_of_length_le (by rwa [length_sealedPayload])] at payload
  refine ⟨carries.valid, fun listens bound => ?_⟩
  rw [handleInboundUDP_sealedPayload payload (by omega) bound, carries.srcAddr]

/-- The address of this node or of a peer, which is neither broadcast nor multicast. -/
structure Routes.Reaches (routes : Routes) (dst : Addr) : Prop where
  unicast : ∀ pkt, (ofBytes pkt).dstAddr = dst → routes.isBroadcast pkt = false
  peer : routes.isLocalAddr dst = false →
    vlanContains dst ∧ routes.peerIDByVirtAddr dst ≠ []

theorem Routes.Reaches.packet_eq {routes : Routes} (reaches : routes.Reaches dst)
    (carries : Carries origin src dst l4 n pkt) (done : routes.routeWrite pkt = .ok routed) :
    routed.packet = some pkt := by
  rw [routeWrite, carries.valid, carries.dstAddr, reaches.unicast pkt carries.dstAddr,
    if_neg (by decide)] at done
  split at done
  · rw [← Except.ok.inj done, Routed.packet]
  rename_i notLocal
  obtain ⟨inside, known⟩ := reaches.peer (Bool.eq_false_iff.mpr notLocal)
  rw [inside, if_pos rfl, routeToPeer, if_neg known] at done
  cases written : routes.writeToPeer (routes.peerIDByVirtAddr dst) pkt with
  | error => rw [written] at done; cases done
  | ok => rw [written] at done; rw [← Except.ok.inj done, Routed.packet]

/-- A datagram for which no error is returned arrives as it was written, exactly if its packet has
a length of 16 bits. -/
theorem datagrams_arrive_iff {routes : Routes} {origin : Origin} {port dstPort : UInt16}
    {dst : Addr} {p : Bytes} (width : dst.bytes.length = if dst.is6 then 16 else 4)
    (reaches : routes.Reaches dst) {written : Nat} {routed : Routed}
    (done : routes.writeTo origin port dst dstPort p = .ok (written, routed)) :
    (written = p.length ∧ ∃ pkt, routed.packet = some pkt ∧
        Delivers port dstPort (origin.addr dst.is6) p pkt) ↔
      p.length ≤ if dst.is6 then 65527 else 65507 := by
  have size := length_udpPayload port dstPort p
  have finish : ∀ {n : Nat} {pkt : Bytes},
      Carries origin (origin.addr dst.is6) dst (Origin.udpPayload port dstPort p) n pkt →
      n < 2 ^ 16 →
      (do let routed ← routes.routeWrite pkt; return (p.length, routed)) =
        Except.ok (written, routed) →
      ((written = p.length ∧ ∃ pkt, routed.packet = some pkt ∧
        Delivers port dstPort (origin.addr dst.is6) p pkt) ↔ 8 + p.length ≤ n) := by
    intro n pkt carries small done
    cases route : routes.routeWrite pkt with
    | error =>
      rw [route] at done
      cases done
    | ok =>
      rw [route] at done
      obtain ⟨rfl, rfl⟩ := Prod.mk.inj (Except.ok.inj done)
      rw [reaches.packet_eq carries route, ← carries.received_iff small]
      simp
  obtain ⟨is6, bytes⟩ := dst
  rw [Routes.writeTo] at done
  cases is6 with
  | false =>
    refine (finish (carries_wrapIPv4 origin.length4 width _) (by omega) done).trans ?_
    simp only [Bool.false_eq_true, if_false]
    omega
  | true =>
    cases has6 : origin.addr6 with
    | none =>
      rw [has6] at done
      cases done
    | some src =>
      rw [has6] at done
      have isAddr : origin.addr true = ⟨true, src⟩ := by rw [Origin.addr, has6]; rfl
      rw [isAddr] at finish ⊢
      refine (finish (carries_wrapIPv6 (origin.length6 src has6) width _) (by omega) done).trans ?_
      simp only [if_true]
      omega

theorem length_home : ([10, 0, 0, 1] : Bytes).length = 4 := rfl

theorem no_home6 : ∀ addr ∈ (none : Option Bytes), addr.length = 16 :=
  fun _ mem => absurd mem (Option.not_mem_none _)

def home : Origin :=
  ⟨[10, 0, 0, 1], none, fun _ => 0, fun _ _ _ => 0, length_home, no_home6⟩

def toBob : Routes := ⟨fun _ => false, fun _ => false, fun _ => ascii "bob", fun _ _ => .ok ()⟩

theorem datagrams_arrive_short :
    ∃ pkt, toBob.writeTo home 4000 ⟨false, [10, 0, 0, 9]⟩ 53 [1, 2, 3] =
      .ok (3, .sent (ascii "bob") pkt) ∧ Delivers 4000 53 ⟨false, [10, 0, 0, 1]⟩ [1, 2, 3] pkt := by
  have done : toBob.writeTo home 4000 ⟨false, [10, 0, 0, 9]⟩ 53 [1, 2, 3] =
    .ok (3, .sent _ _) := rfl
  obtain ⟨-, pkt, sent, delivers⟩ := (datagrams_arrive_iff rfl
    ⟨fun _ _ => rfl, fun _ => ⟨rfl, by decide⟩⟩ done).mpr (by decide)
  cases sent
  exact ⟨_, rfl, delivers⟩

def oversized : Bytes := List.replicate 65508 0

def oversizedPacket : Bytes :=
  home.wrapIPv4 [10, 0, 0, 1] [10, 0, 0, 9] (Origin.udpPayload 4000 53 oversized)

theorem datagrams_lost :
    toBob.writeTo home 4000 ⟨false, [10, 0, 0, 9]⟩ 53 oversized =
        .ok (65508, .sent (ascii "bob") oversizedPacket) ∧
      ∀ listens, handleInboundUDP listens (ofBytes oversizedPacket) = (false, none) := by
  have length : oversized.length = 65508 := List.length_replicate
  have size : (Origin.udpPayload 4000 53 oversized).length = 65516 := by
    rw [length_udpPayload, length]
  obtain ⟨valid, -, dstAddr, payload⟩ := @carries_wrapIPv4 home [10, 0, 0, 1] [10, 0, 0, 9] rfl rfl
    (Origin.udpPayload 4000 53 oversized)
  have routed : toBob.routeWrite oversizedPacket = .ok (.sent (ascii "bob") oversizedPacket) := by
    rw [Routes.routeWrite, show (ofBytes oversizedPacket).dstAddr = _ from dstAddr,
      show isValid oversizedPacket from valid]
    rfl
  constructor
  · have reports : ∀ {p : Bytes} {routed : Routed}, toBob.routeWrite (home.wrapIPv4 [10, 0, 0, 1]
        [10, 0, 0, 9] (Origin.udpPayload 4000 53 p)) = .ok routed →
          toBob.writeTo home 4000 ⟨false, [10, 0, 0, 9]⟩ 53 p = .ok (p.length, routed) :=
      fun {p} _ routed =>
        congrArg (fun routed => (fun routed => (p.length, routed)) <$> routed) routed
    rw [reports routed, length]
  intro listens
  rw [size] at payload
  rw [handleInboundUDP, show (ofBytes oversizedPacket).payload = [] from payload]
  rfl

end Peerscale.Softun
