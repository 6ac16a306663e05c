import Peerscale.Fbvirtun.ReadLoop

/-! # What the handlers do with a packet

Each handler is followed for a packet of any length: it panics, it leaves the buffer alone, or it
rewrites the packet in place.
-/

namespace Peerscale.Fbvirtun

open Keeps InBuffer

structure Holds (data buffer : Bytes) : Prop where
  size : buffer.length = bufferSize
  same : ∀ index < data.length, buffer[index]? = data[index]?

namespace Holds

theorem overwrite (fits : data.length ≤ bufferSize) (size : buf.length = bufferSize) :
    Holds data (overwrite buf 0 data) where
  size := (touches_overwrite buf 0 data).length.trans size
  same index within := by
    have written : (Peerscale.overwrite buf 0 data)[0 + index]? = data[index]? :=
      getElem?_overwrite (by omega) within
    rw [Nat.zero_add] at written
    exact written

theorem getD (holds : Holds data buf) {index : Nat} (within : index < data.length) :
    buf.getD index 0 = data.getD index 0 := by
  rw [List.getD_eq_getElem?_getD, List.getD_eq_getElem?_getD, holds.same index within]

theorem window (holds : Holds data buf) (within : start + k ≤ data.length) :
    window buf start k = window data start k := by
  apply List.ext_getElem?
  intro index
  rw [Peerscale.window, Peerscale.window, List.getElem?_take, List.getElem?_take]
  split
  · rw [List.getElem?_drop, List.getElem?_drop, holds.same _ (by omega)]
  · rfl

theorem drop (holds : Holds data buf) (within : start ≤ data.length) :
    Peerscale.window buf start (data.length - start) = data.drop start := by
  rw [holds.window (by omega), Peerscale.window, List.take_of_length_le (by rw [List.length_drop])]

end Holds

theorem read_part (holds : Holds data buf) (ordered : start ≤ stop) (within : stop ≤ data.length)
    (small : stop ≤ 1904) :
    ((packet data.length).sub start stop >>= fun part => part.bytes >>= next) buf =
      next (window data start (stop - start)) buf := by
  have read : window buf start (stop - start) = window data start (stop - start) :=
    holds.window (by omega)
  rw [packet_sub ordered small, pure_bind, bind_of_ok (Slice.bytes_eq _ _), read]

def headerOf (data : Bytes) : Option Header :=
  let first := data.getD 0 0
  let version := first.toNat / 16
  if version = 4 then
    if data.length < 20 then none
    else
      some ⟨version, window data 12 4, window data 16 4, data.getD 9 0, first.toNat % 16 * 4⟩
  else if version = 6 then
    if data.length < 40 then none
    else some ⟨version, window data 8 16, window data 24 16, data.getD 6 0, 40⟩
  else none

theorem readHeader_eq (holds : Holds data buf) (nonempty : 0 < data.length) :
    readHeader (packet data.length) buf = .ok (headerOf data, buf) := by
  rw [readHeader, bind_of_ok (packet_get nonempty buf), holds.getD nonempty, headerOf,
    length_packet]
  split
  · split
    · rfl
    rename_i long
    rw [read_part holds (by omega) (by omega) (by omega),
      read_part holds (by omega) (by omega) (by omega),
      bind_of_ok (packet_get (by omega) _), holds.getD (by omega)]
    rfl
  split
  · split
    · rfl
    rename_i long
    rw [read_part holds (by omega) (by omega) (by omega),
      read_part holds (by omega) (by omega) (by omega),
      bind_of_ok (packet_get (by omega) _), holds.getD (by omega)]
    rfl
  · rfl

section

theorem keeps_parsePorts : Keeps places (parsePorts (packet n) ihl) := by
  rw [parsePorts, length_packet]
  split
  · exact pure _
  rw [packet_dropFirst (by omega), pure_bind]
  refine (Slice.keeps_unsigned (by dsimp only; omega)).bind fun sport => ?_
  rw [packet_dropFirst (by omega), pure_bind]
  exact (Slice.keeps_unsigned (by dsimp only; omega)).bind fun dport => pure _

theorem keeps_icmpTypeStr : Keeps places (icmpTypeStr (packet n) ihl) := by
  rw [icmpTypeStr, length_packet]
  split
  · exact pure _
  · rename_i long
    exact (Slice.keeps_get (Nat.le_of_not_lt long)).bind fun type => pure _

theorem sealSegment_ok {tcpSeg : Bytes} (header : 20 ≤ tcpSeg.length) :
    ∃ tcp, sealSegment psum tcpSeg = .ok tcp :=
  ⟨_, if_neg (by omega)⟩

theorem buildPacket4_ok (srcIP dstIP : Bytes) {tcpSeg : Bytes} (header : 20 ≤ tcpSeg.length) :
    ∃ pkt, buildPacket4 srcIP dstIP tcpSeg = .ok pkt := by
  rcases sealSegment_ok header with ⟨tcp, made⟩
  rw [buildPacket4, made]
  exact ⟨_, rfl⟩

theorem buildPacket6_ok (srcIP dstIP : Bytes) {tcpSeg : Bytes} (header : 20 ≤ tcpSeg.length) :
    ∃ pkt, buildPacket6 srcIP dstIP tcpSeg = .ok pkt := by
  rcases sealSegment_ok header with ⟨tcp, made⟩
  rw [buildPacket6, made]
  exact ⟨_, rfl⟩

theorem keeps_field {slice : Slice} (ordered : low + k ≤ high) (within : high ≤ slice.capacity)
    (later : ∀ val, Keeps places (next val)) :
    Keeps places (slice.sub low high >>= fun part => part.unsigned k >>= next) := by
  rw [Slice.sub_eq (by omega) within, pure_bind]
  exact (Slice.keeps_unsigned (by dsimp only; omega)).bind later

theorem keeps_resetSegment {tcp : Slice} (header : 20 ≤ tcp.length)
    (inside : tcp.length ≤ tcp.capacity) : Keeps places (resetSegment tcp) := by
  refine (Slice.keeps_get (by omega)).bind fun flags => ?_
  refine keeps_field (by omega) (by omega) fun srcPort => ?_
  refine keeps_field (by omega) (by omega) fun dstPort => ?_
  split
  · exact keeps_field (by omega) (by omega) fun seq => pure _
  · refine (Slice.keeps_get (by omega)).bind fun off => ?_
    exact keeps_field (by omega) (by omega) fun seq => pure _

section

variable (vtcp : Vtcp) (outcome : Outcome)

/-- A segment for a connection without a remote address can be parsed. -/
def Fed (key : TcpKey) (tcp : Bytes) : Prop :=
  20 ≤ tcp.length → outcome.tcpConns key = some false → (vtcp.parseSegment tcp).isSome

/-- What `handleTCP4` and `handleTCP6` do with the segment. -/
def answerSegment (build : Bytes → Except Panic Bytes) (key : TcpKey) (tcp : Slice) :
    InBuffer (List Bytes) := do
  if tcp.length < 20 then return []
  let flags ← tcp.get 13
  answerTCP vtcp outcome key tcp flags (flush vtcp outcome build) (sendReset vtcp build tcp)

section

variable {vtcp : Vtcp} {outcome : Outcome} {tcp : Slice}
  (bytes : window buffer tcp.start tcp.length = data) (size : data.length = tcp.length)

include bytes size

theorem answerSegment_of_fed (builds : ∀ tcpSeg, 20 ≤ tcpSeg.length → ∃ pkt, build tcpSeg = .ok pkt)
    (inside : tcp.length ≤ tcp.capacity) (fed : Fed vtcp outcome key data) :
    ∃ packets, answerSegment vtcp outcome build key tcp buffer = .ok (packets, buffer) := by
  rw [answerSegment]
  split
  · exact ⟨[], rfl⟩
  have built : ∀ segment, Keeps (fun _ => False)
      (liftM (build (vtcp.marshal segment)) : InBuffer Bytes) := by
    intro segment
    rcases builds _ (vtcp.header segment) with ⟨pkt, made⟩
    exact lift made
  have reset : Keeps (fun _ => False) (sendReset vtcp build tcp) :=
    (keeps_resetSegment (by omega) inside).bind fun seg => (built seg).bind fun pkt => pure _
  have sent : Keeps (fun _ => False) (flush vtcp outcome build) :=
    mapM fun segment => (built segment).bind fun pkt => pure _
  rw [bind_of_ok (Slice.get_eq (by omega) _), answerTCP]
  cases stored : outcome.tcpConns key with
  | none =>
    split
    · exact reset.reads buffer
    split
    · exact sent.reads buffer
    · exact reset.reads buffer
  | some addressed =>
    dsimp only
    rw [feedTCP, bind_of_ok (Slice.bytes_eq _ _), bytes]
    cases parsed : vtcp.parseSegment data with
    | some => exact sent.reads buffer
    | none =>
      cases addressed with
      | true => exact ⟨[], rfl⟩
      | false =>
        have isSome := fed (by omega) stored
        rw [parsed] at isSome
        cases isSome

theorem answerSegment_of_not_fed (stuck : ¬Fed vtcp outcome key data) :
    ∃ panic, answerSegment vtcp outcome build key tcp buffer = .error panic := by
  rw [Fed, Classical.not_imp, Classical.not_imp, Option.not_isSome_iff_eq_none] at stuck
  rcases stuck with ⟨long, stored, unparsed⟩
  rw [answerSegment, if_neg (by omega), bind_of_ok (Slice.get_eq (by omega) _), answerTCP, stored]
  dsimp only
  rw [feedTCP, bind_of_ok (Slice.bytes_eq _ _), bytes, unparsed]
  exact ⟨.nilDereference, rfl⟩

end

def tcpKeyAt (srcIP dstIP data : Bytes) (start : Nat) : TcpKey :=
  ⟨srcIP, ofBigEndian (window data start 2), dstIP, ofBigEndian (window data (start + 2) 2)⟩

theorem fails_handleTCP4 (beyond : n < ihl) :
    Fails (handleTCP4 vtcp outcome (packet n) ihl srcIP dstIP) :=
  (Slice.fails_dropFirst beyond).bind

theorem unsigned_eq {slice : Slice} (holds : Holds data buffer) (long : k ≤ slice.length)
    (within : slice.start + k ≤ data.length) :
    slice.unsigned k buffer = .ok (ofBigEndian (window data slice.start k), buffer) := by
  rw [← holds.window within]
  exact if_pos long

section

variable {data buffer : Bytes} (holds : Holds data buffer) (fits : data.length ≤ 1904)

include holds

theorem handleTCP4_eq (within : ihl ≤ data.length) :
    handleTCP4 vtcp outcome (packet data.length) ihl srcIP dstIP buffer =
      answerSegment vtcp outcome (buildPacket4 dstIP srcIP) (tcpKeyAt srcIP dstIP data ihl)
        ⟨ihl, data.length - ihl, 1904 - ihl⟩ buffer := by
  rw [handleTCP4, packet_dropFirst within, pure_bind, answerSegment]
  dsimp only
  split
  · rfl
  have key : tcpKeyFrom4 (packet data.length) ihl srcIP dstIP buffer =
      .ok (tcpKeyAt srcIP dstIP data ihl, buffer) := by
    rw [tcpKeyFrom4, packet_dropFirst within, pure_bind,
      bind_of_ok (unsigned_eq holds (by dsimp only; omega) (by dsimp only; omega)),
      packet_dropFirst (by omega), pure_bind,
      bind_of_ok (unsigned_eq holds (by dsimp only; omega) (by dsimp only; omega))]
    rfl
  rw [bind_of_ok (Slice.get_eq (by dsimp only; omega) _), bind_of_ok key,
    bind_of_ok (Slice.get_eq (by dsimp only; omega) _)]
  rfl

include fits

theorem handleTCP6_eq (within : 40 ≤ data.length) :
    handleTCP6 vtcp outcome (packet data.length) srcIP dstIP buffer =
      answerSegment vtcp outcome (buildPacket6 dstIP srcIP) (tcpKeyAt srcIP dstIP data 40)
        ⟨40, data.length - 40, 1904 - 40⟩ buffer := by
  rw [handleTCP6, packet_dropFirst within, pure_bind, answerSegment]
  dsimp only
  split
  · rfl
  rw [bind_of_ok (Slice.get_eq (by dsimp only; omega) _),
    Slice.sub_eq (by omega) (by dsimp only; omega), pure_bind,
    bind_of_ok (unsigned_eq holds (by dsimp only; omega) (by dsimp only; omega)),
    Slice.sub_eq (by omega) (by dsimp only; omega), pure_bind,
    bind_of_ok (unsigned_eq holds (by dsimp only; omega) (by dsimp only; omega)),
    bind_of_ok (Slice.get_eq (by dsimp only; omega) _)]
  rfl

theorem handleTCP4_of_fed (within : ihl ≤ data.length)
    (fed : Fed vtcp outcome (tcpKeyAt srcIP dstIP data ihl) (data.drop ihl)) :
    ∃ packets, handleTCP4 vtcp outcome (packet data.length) ihl srcIP dstIP buffer =
      .ok (packets, buffer) := by
  rw [handleTCP4_eq vtcp outcome holds within]
  exact answerSegment_of_fed (holds.drop within) List.length_drop (fun _ => buildPacket4_ok _ _)
    (by dsimp only; omega) fed

theorem handleTCP6_of_fed (within : 40 ≤ data.length)
    (fed : Fed vtcp outcome (tcpKeyAt srcIP dstIP data 40) (data.drop 40)) :
    ∃ packets, handleTCP6 vtcp outcome (packet data.length) srcIP dstIP buffer =
      .ok (packets, buffer) := by
  rw [handleTCP6_eq vtcp outcome holds fits within]
  exact answerSegment_of_fed (holds.drop within) List.length_drop (fun _ => buildPacket6_ok _ _)
    (by dsimp only; omega) fed

end

end

theorem keeps_datagramAt (within : off ≤ n) (fits : n ≤ 1904) :
    Keeps places (datagramAt off (packet n)) := by
  rw [datagramAt, packet_dropFirst within, pure_bind]
  split
  · exact pure none
  rename_i long
  dsimp only at long
  refine keeps_field (by omega) (by dsimp only; omega) fun srcPort => ?_
  refine keeps_field (by omega) (by dsimp only; omega) fun dstPort => ?_
  rw [Slice.dropFirst_eq (by dsimp only; omega), pure_bind]
  exact Slice.keeps_bytes.bind fun pl => pure _

theorem fails_datagramAt (beyond : n < off) : Fails (datagramAt off (packet n)) :=
  (Slice.fails_dropFirst beyond).bind

end

def Echo4 (data : Bytes) (ihl : Nat) : Prop := ihl + 8 ≤ data.length ∧ data.getD ihl 0 = 8

def Echo6 (data : Bytes) : Prop := 48 ≤ data.length ∧ data.getD 40 0 = 128

section

variable (dialing : Dialing)

theorem fails_handleICMP4 (beyond : n < ihl) : Fails (handleICMP4 dialing (packet n) ihl) :=
  (Slice.fails_dropFirst beyond).bind

theorem handleICMP4_of_not_echo (holds : Holds data buf) (within : ihl ≤ data.length)
    (other : ¬Echo4 data ihl) :
    handleICMP4 dialing (packet data.length) ihl buf = .ok (none, buf) := by
  rw [handleICMP4, packet_dropFirst within, pure_bind]
  split
  · rfl
  rename_i long
  dsimp only at long
  have type : data.getD ihl 0 ≠ 8 := fun eight => other ⟨by omega, eight⟩
  rw [bind_of_ok (Slice.get_eq (by dsimp only; omega) _)]
  dsimp only
  rw [Nat.add_zero, holds.getD (by omega), if_pos type]
  rfl

theorem handleICMP4_of_echo (holds : Holds data buf) (echo : Echo4 data ihl) :
    handleICMP4 dialing (packet data.length) ihl buf =
      (answerEcho4 dialing (packet data.length) ihl >>= fun _ => some <$> writeTunBuf) buf := by
  have long := echo.1
  rw [handleICMP4, packet_dropFirst (by omega), pure_bind, if_neg (by dsimp only; omega),
    bind_of_ok (Slice.get_eq (by dsimp only; omega) _)]
  dsimp only
  rw [Nat.add_zero, holds.getD (by omega), if_neg (not_not_intro echo.2)]
  rfl

theorem handleICMP6_of_not_echo (holds : Holds data buf) (other : ¬Echo6 data) :
    handleICMP6 dialing (packet data.length) buf = .ok (none, buf) := by
  rw [handleICMP6, length_packet]
  split
  · rfl
  have type : data.getD 40 0 ≠ 128 := fun eq => other ⟨by omega, eq⟩
  rw [bind_of_ok (packet_get (by omega) _), holds.getD (by omega), if_pos type]
  rfl

theorem handleICMP6_of_echo (holds : Holds data buf) (echo : Echo6 data) :
    handleICMP6 dialing (packet data.length) buf =
      (answerEcho6 dialing (packet data.length) >>= fun _ => some <$> writeTunBuf) buf := by
  have long := echo.1
  rw [handleICMP6, length_packet, if_neg (by omega),
    bind_of_ok (packet_get (by omega) _), holds.getD (by omega),
    if_neg (not_not_intro echo.2)]
  rfl

theorem answerEcho4_error {dialing : Dialing} (unreached : dialing ≠ .reached) (pkt : Slice)
    (ihl : Nat) : ∃ type code, answerEcho4 dialing pkt ihl = writeICMPError4 type pkt ihl code := by
  cases dialing with
  | noPeer | failed => exact ⟨3, 1, rfl⟩
  | reached => exact absurd rfl unreached
  | deadline => exact ⟨11, 1, rfl⟩
  | refused => exact ⟨3, 3, rfl⟩

theorem answerEcho6_error {dialing : Dialing} (unreached : dialing ≠ .reached) (pkt : Slice) :
    ∃ type code, answerEcho6 dialing pkt = writeICMPError6 type pkt code := by
  cases dialing with
  | noPeer | failed => exact ⟨1, 3, rfl⟩
  | reached => exact absurd rfl unreached
  | deadline => exact ⟨3, 1, rfl⟩
  | refused => exact ⟨1, 4, rfl⟩

end

end Peerscale.Fbvirtun
