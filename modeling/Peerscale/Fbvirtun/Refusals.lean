import Peerscale.Fbvirtun.Checksums6

/-! # Resets of refused segments

A segment that no connection takes is answered with a reset. The standard prescribes it, softun
computes it from the parsed segment, and fbvirtun from the bytes.
-/

namespace Peerscale.Fbvirtun

open List

open Softun (Parser Segment dataOffset flagACK flagFIN flagRST flagSYN segmentOf)

/-- SEG.LEN of RFC 9293. -/
def segmentLength (segment : Segment) : Nat :=
  segment.payload.length + (if segment.flags &&& flagSYN ≠ 0 then 1 else 0) +
    (if segment.flags &&& flagFIN ≠ 0 then 1 else 0)

/-- The data of a segment begin behind a whole header. -/
def WellFormed (bytes : Bytes) : Prop := 20 ≤ dataOffset bytes ∧ dataOffset bytes ≤ bytes.length
  deriving Decidable

/-- The library reads a segment as the standard does. -/
structure Standard (vtcp : Parser) : Prop where
  parses : ∀ {bytes}, WellFormed bytes → vtcp.parseSegment bytes = some (segmentOf bytes)
  counts : ∀ segment, vtcp.segLen segment = segmentLength segment

/-- The reset of RFC 9293 for a segment that arrives at a closed port. -/
def prescribed (segment : Segment) : Option Segment :=
  if segment.flags &&& flagRST ≠ 0 then none
  else if segment.flags &&& flagACK ≠ 0 then
    some ⟨segment.dstPort, segment.srcPort, segment.ack, 0, flagRST, []⟩
  else
    some ⟨segment.dstPort, segment.srcPort, 0, (segment.seq + segmentLength segment) % 2 ^ 32,
      flagRST ||| flagACK, []⟩

/-- What `sendRST4` and `sendRST6` make of a segment: a SYN is not counted. -/
def refusal (segment : Segment) : Segment :=
  if segment.flags &&& flagACK ≠ 0 then
    ⟨segment.dstPort, segment.srcPort, segment.ack, 0, flagRST, []⟩
  else
    ⟨segment.dstPort, segment.srcPort, 0, (segment.seq + segment.payload.length +
      (if segment.flags &&& flagFIN ≠ 0 then 1 else 0)) % 2 ^ 32, flagRST ||| flagACK, []⟩

theorem prescribed_eq_refusal_iff (segment : Segment) :
    prescribed segment = some (refusal segment) ↔ segment.flags &&& flagRST = 0 ∧
        (segment.flags &&& flagACK ≠ 0 ∨ segment.flags &&& flagSYN = 0) := by
  rw [prescribed, refusal]
  by_cases rst : segment.flags &&& flagRST = 0
  · by_cases ack : segment.flags &&& flagACK = 0
    · by_cases syn : segment.flags &&& flagSYN = 0
      · simp [rst, ack, syn, segmentLength, Nat.add_assoc]
      · simp only [rst, ack, syn, segmentLength, ne_eq, not_true_eq_false, not_false_eq_true,
          if_true, if_false, Option.some.injEq, Segment.mk.injEq, true_and, and_true, or_false,
          iff_false]
        omega
    · simp [rst, ack]
  · simp [rst]

section

variable {tcp : Slice}

theorem field_window (within : off + k ≤ tcp.length) :
    Softun.field (window buf tcp.start tcp.length) off k =
      ofBigEndian (window buf (tcp.start + off) k) := by
  rw [Softun.field, window, window, drop_take, take_take, drop_drop, Nat.min_eq_left (by omega)]

variable (cap : tcp.length ≤ tcp.capacity)

include cap

theorem unsigned_bind (size : high = low + k) (within : high ≤ tcp.length) :
    (tcp.sub low high >>= fun slice => slice.unsigned k >>= cont) buf =
      cont (Softun.field (window buf tcp.start tcp.length) low k) buf := by
  have read : (⟨tcp.start + low, high - low, tcp.capacity - low⟩ : Slice).unsigned k buf =
      .ok (ofBigEndian (window buf (tcp.start + low) k), buf) :=
    if_pos (by dsimp only; omega)
  rw [Slice.sub_eq (by omega) (by omega), pure_bind, InBuffer.bind_of_ok read,
    field_window (by omega)]

theorem resetSegment_eq (fits : tcp.start + tcp.length ≤ buf.length)
    (wellFormed : WellFormed (window buf tcp.start tcp.length)) :
    resetSegment tcp buf = .ok (refusal (segmentOf (window buf tcp.start tcp.length)), buf) := by
  obtain ⟨least, off⟩ := wellFormed
  rw [length_window fits] at off
  rw [dataOffset] at least off
  have flags : ((window buf tcp.start tcp.length)[13]?).getD 0 = buf.getD (tcp.start + 13) 0 := by
    rw [window, getElem?_take_of_lt (by omega), getElem?_drop, getD_eq_getElem?_getD]
  have offsetByte : (buf.getD (tcp.start + 12) 0).toNat =
      Softun.field (window buf tcp.start tcp.length) 12 1 := by
    rw [field_window (by omega), window, take_one_drop_eq_of_lt_length (by omega),
      getD_eq_getElem?_getD, getElem?_eq_getElem (by omega)]
    simp [ofBigEndian]
  rw [resetSegment, InBuffer.bind_of_ok (Slice.get_eq (by omega) _),
    unsigned_bind cap (by omega) (by omega), unsigned_bind cap (by omega) (by omega),
    refusal, segmentOf]
  rw [flags]
  split
  · rw [unsigned_bind cap (by omega) (by omega)]
    rfl
  rw [InBuffer.bind_of_ok (Slice.get_eq (by omega) _),
    unsigned_bind cap (by omega) (by omega), offsetByte, dataOffset, length_drop,
    length_window fits]
  have modular : ∀ seq fin : Nat, (seq + (tcp.length + 2 ^ 32 -
      Softun.field (window buf tcp.start tcp.length) 12 1 / 16 * 4 + fin)) % 2 ^ 32 =
        (seq + (tcp.length - Softun.field (window buf tcp.start tcp.length) 12 1 / 16 * 4) +
          fin) % 2 ^ 32 := by
    omega
  rw [modular]
  rfl

end

/-- A packet has the addresses from `low` on, and behind a header of `start` bytes the segment,
except for its checksum. -/
structure Wraps (low start : Nat) (addresses segment packet : Bytes) : Prop where
  addresses : window packet low addresses.length = addresses
  segment : Touches (Between 16 18) segment (packet.drop start)

section

variable {tcpSeg : Bytes} (long : 20 ≤ tcpSeg.length)

include long

theorem wraps_buildPacket4 (src : srcIP.length = 4) (dst : dstIP.length = 4) :
    ∃ pkt, buildPacket4 srcIP dstIP tcpSeg = .ok pkt ∧
      pkt.length = 20 + tcpSeg.length ∧ Wraps 12 20 (srcIP ++ dstIP) tcpSeg pkt := by
  obtain ⟨size, addresses, -⟩ := verifies_header4 src dst 6 (20 + tcpSeg.length)
  refine ⟨_, build4_eq 6 srcIP dstIP (by omega), ?_, ?_, ?_⟩
  · rw [length_append, size, length_sealed]
  · rw [window, drop_append_of_le_length (by omega), addresses, take_left]
  · rw [drop_left' size]
    exact touches_sealed

theorem wraps_buildPacket6 (src : srcIP.length = 16) (dst : dstIP.length = 16) :
    ∃ pkt, buildPacket6 srcIP dstIP tcpSeg = .ok pkt ∧
      pkt.length = 40 + tcpSeg.length ∧ Wraps 8 40 (srcIP ++ dstIP) tcpSeg pkt := by
  have size : (header6 6 srcIP dstIP tcpSeg.length).length = 40 := by simp [header6, src, dst]
  refine ⟨_, build6_eq 6 srcIP dstIP (by omega), ?_, ?_, ?_⟩
  · rw [length_append, size, length_sealed]
  · rw [header6, append_assoc _ srcIP dstIP, window_append (by simp) rfl]
  · rw [drop_left' size]
    exact touches_sealed

end

theorem sendReset_eq {vtcp : Vtcp} {build : Bytes → Except Panic Bytes} {buf pkt : Bytes}
    (read : resetSegment tcp buf = .ok (reset, buf))
    (built : build (vtcp.marshal reset) = .ok pkt) (fits : pkt.length ≤ bufferSize) :
    sendReset vtcp build tcp buf = .ok ([pkt], buf) := by
  have whole : writeTun pkt = pkt := take_of_length_le fits
  rw [sendReset, InBuffer.bind_of_ok read, built]
  exact congrArg (fun pkt => Except.ok ([pkt], buf)) whole

/-- The reset that is written is the prescribed one, and that of softun, exactly if the segment
has no RST, and no SYN without ACK. -/
theorem resets_prescribed_iff {vtcp : Vtcp} {tcp : Slice} {buffer : Bytes}
    (header : ∀ segment : Segment, segment.payload = [] → (vtcp.marshal segment).length ≤ 60)
    (standard : Standard vtcp.toParser) (capacity : tcp.length ≤ tcp.capacity)
    (fits : tcp.start + tcp.length ≤ buffer.length)
    (wellFormed : WellFormed (window buffer tcp.start tcp.length)) :
    let segment := segmentOf (window buffer tcp.start tcp.length)
    ∃ reset, resetSegment tcp buffer = .ok (reset, buffer) ∧
      (∀ srcIP dstIP : Bytes, srcIP.length = 4 → dstIP.length = 4 → ∃ packet,
        sendRST4 vtcp tcp srcIP dstIP buffer = .ok ([packet], buffer) ∧
          Wraps 12 20 (dstIP ++ srcIP) (vtcp.marshal reset) packet) ∧
      (∀ srcIP dstIP : Bytes, srcIP.length = 16 → dstIP.length = 16 → ∃ packet,
        sendRST6 vtcp tcp srcIP dstIP buffer = .ok ([packet], buffer) ∧
          Wraps 8 40 (dstIP ++ srcIP) (vtcp.marshal reset) packet) ∧
      ((prescribed segment = some reset ∧
          ∀ req : Softun.Packet, req.payload = window buffer tcp.start tcp.length →
            (Softun.buildRST vtcp.toParser req).map Softun.Reset.segment = some reset) ↔
        segment.flags &&& flagRST = 0 ∧
          (segment.flags &&& flagACK ≠ 0 ∨ segment.flags &&& flagSYN = 0)) := by
  intro segment
  have room : bufferSize = 1904 := rfl
  have empty : (refusal segment).payload = [] := by
    rw [refusal]
    split <;> rfl
  have least := vtcp.header (refusal segment)
  have most := header _ empty
  have read := resetSegment_eq capacity fits wellFormed
  refine ⟨refusal segment, read, ?_, ?_, ?_⟩
  · intro srcIP dstIP src dst
    obtain ⟨packet, built, size, wraps⟩ := wraps_buildPacket4 least dst src
    exact ⟨packet, sendReset_eq read built (by omega), wraps⟩
  · intro srcIP dstIP src dst
    obtain ⟨packet, built, size, wraps⟩ := wraps_buildPacket6 least dst src
    exact ⟨packet, sendReset_eq read built (by omega), wraps⟩
  rw [prescribed_eq_refusal_iff, and_iff_left_iff_imp]
  intro counted req payload
  have long : ¬req.payload.length < 20 := Nat.not_lt.mpr (payload ▸ wellFormed.1.trans wellFormed.2)
  have isPrescribed := (prescribed_eq_refusal_iff segment).mpr counted
  rw [prescribed, if_neg (not_not.mpr counted.1)] at isPrescribed
  rw [Softun.buildRST, if_neg long, payload, standard.parses wellFormed, Option.map_some,
    Option.map_some, standard.counts, ← isPrescribed]
  exact apply_ite some _ _ _

def opening (flags : UInt8) : Bytes :=
  bigEndian 2 4000 ++ bigEndian 2 80 ++ bigEndian 4 7 ++ bigEndian 4 0 ++ [0x50, flags] ++
    List.replicate 6 0

def plainVtcp : Vtcp where
  parseSegment bytes := some (segmentOf bytes)
  segLen := segmentLength
  marshal segment := bigEndian 2 segment.srcPort ++ bigEndian 2 segment.dstPort ++
    bigEndian 4 segment.seq ++ bigEndian 4 segment.ack ++ [0x50, segment.flags] ++
    List.replicate 6 0 ++ segment.payload
  header segment := by simp; omega

theorem resets_prescribed_fin :
    ∃ reset, prescribed (segmentOf (opening flagFIN)) = some reset ∧ ∃ packet,
      sendRST4 plainVtcp ⟨0, 20, 20⟩ [10, 0, 0, 1] [10, 0, 0, 9] (opening flagFIN) =
          .ok ([packet], opening flagFIN) ∧
        Wraps 12 20 [10, 0, 0, 9, 10, 0, 0, 1] (plainVtcp.marshal reset) packet := by
  have header : ∀ segment : Segment, segment.payload = [] →
      (plainVtcp.marshal segment).length ≤ 60 := by
    intro segment empty
    simp [plainVtcp, empty]
  obtain ⟨reset, -, resets, -, exactly⟩ := @resets_prescribed_iff plainVtcp ⟨0, 20, 20⟩
    (opening flagFIN) header ⟨fun _ => rfl, fun _ => rfl⟩ (by decide) (by decide)
    (by decide +kernel)
  exact ⟨reset, (exactly.mpr ⟨by decide +kernel, .inr (by decide +kernel)⟩).1, resets _ _ rfl rfl⟩

/-- The sequence number of a SYN is acknowledged without counting it, and an RST is answered. -/
theorem resets_uncounted :
    prescribed ⟨4000, 80, 7, 0, flagSYN, []⟩ = some ⟨80, 4000, 0, 8, flagRST ||| flagACK, []⟩ ∧
      (sendRST4 plainVtcp ⟨0, 20, 20⟩ [10, 0, 0, 1] [10, 0, 0, 9] (opening flagSYN)).map
        (fun written => written.1.map fun packet => Softun.field packet 28 4) = .ok [7] ∧
      prescribed ⟨4000, 80, 7, 0, flagRST, []⟩ = none ∧
      (sendRST4 plainVtcp ⟨0, 20, 20⟩ [10, 0, 0, 1] [10, 0, 0, 9] (opening flagRST)).map
        (fun written => written.1.length) = .ok 1 := by
  decide +kernel

end Peerscale.Fbvirtun
