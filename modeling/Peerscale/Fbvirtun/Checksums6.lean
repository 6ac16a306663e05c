import Peerscale.Fbvirtun.Quotes

/-! # Checksums of IPv6 packets

The sum over the pseudo-header takes the half of the length that is zero and leaves out the other
one, so that a packet verifies only if that half makes no difference.
-/

namespace Peerscale.Fbvirtun

open OnesComplement (Verifies total)

/-- The pseudo-header of RFC 8200. -/
def pseudoHeader6 (addresses : Bytes) (proto : UInt8) (length : Nat) : Bytes :=
  addresses ++ bigEndian 4 length ++ [0, 0, 0, proto]

/-- The upper layer of an IPv6 packet verifies, with the addresses that the packet has. -/
def Checks6 (proto : UInt8) (length : Nat) (packet : Bytes) : Prop :=
  Verifies (pseudoHeader6 (window packet 8 32) proto length ++ window packet 40 length)

section

variable {src dst : Bytes} (srcIs : src.length = 16) (dstIs : dst.length = 16)

include srcIs dstIs

theorem total_pseudoHeader6 (proto : UInt8) (fits : length < 2 ^ 16) :
    total (pseudoHeader6 (src ++ dst) proto length) =
      pseudoChecksum6 src dst proto.toNat length + length := by
  have halves : bigEndian 4 length = [0, 0] ++ bigEndian 2 length := by
    simp [bigEndian, show length / 256 / 256 = 0 by omega]
  rw [pseudoHeader6, pseudoChecksum6, halves, OnesComplement.total_append (by simp [srcIs, dstIs]),
    OnesComplement.total_append (by simp [srcIs, dstIs]),
    OnesComplement.total_append (by rw [srcIs]), OnesComplement.total_append rfl,
    OnesComplement.total_bigEndian fits, wordSum_eq_total, wordSum_eq_total]
  simp [OnesComplement.total_cons, ofBigEndian]
  omega

theorem pseudoChecksum6_lt (proto : UInt8) (fits : length < 2 ^ 16) :
    pseudoChecksum6 src dst proto.toNat length < 2 ^ 24 := by
  have srcBound := OnesComplement.total_le src
  have dstBound := OnesComplement.total_le dst
  have protoBound := proto.toNat_lt
  rw [srcIs] at srcBound
  rw [dstIs] at dstBound
  have upper : ofBigEndian ((bigEndian 4 length).take 2) = 0 := by
    simp [bigEndian, ofBigEndian, show length / 256 / 256 = 0 by omega]
  rw [pseudoChecksum6, wordSum_eq_total, wordSum_eq_total, upper]
  omega

theorem verifies_sealed6_iff (proto : UInt8) {pos : Nat} {msg : Bytes}
    (even : pos % 2 = 0) (within : pos + 2 ≤ msg.length) (short : msg.length ≤ 65535) :
    Verifies (pseudoHeader6 (src ++ dst) proto msg.length ++
        sealed pos (pseudoChecksum6 src dst proto.toNat msg.length) msg) ↔
      msg.length = 65535 := by
  have whole := total_pseudoHeader6 srcIs dstIs proto (show msg.length < 2 ^ 16 by omega)
  have never := neverWraps (pseudoChecksum6_lt srcIs dstIs proto
    (show msg.length < 2 ^ 16 by omega)) (show (overwrite msg pos [0, 0]).length ≤ _ by
      rwa [length_overwrite])
  rw [verifies_sealed_iff (by simp [pseudoHeader6, srcIs, dstIs]) even within never (by omega),
    whole, Nat.add_sub_cancel_left]
  omega

end

def header6 (proto : UInt8) (srcIP dstIP : Bytes) (length : Nat) : Bytes :=
  [0x60, 0, 0, 0] ++ bigEndian 2 length ++ [proto, 64] ++ srcIP ++ dstIP

def build6 (proto : UInt8) (position : Nat) (srcIP dstIP segment : Bytes) :
    Except Panic Bytes := do
  let ip := header6 proto srcIP dstIP segment.length
  let transport ← sealAt position
    (pseudoChecksum6 srcIP dstIP proto.toNat (segment.length % 2 ^ 16)) segment
  return ip ++ transport

def buildUDP6 (srcIP dstIP udpSeg : Bytes) : Except Panic Bytes :=
  build6 17 6 srcIP dstIP udpSeg

theorem build6_eq (proto : UInt8) (srcIP dstIP : Bytes) {seg : Bytes}
    (long : pos + 2 ≤ seg.length) :
    build6 proto pos srcIP dstIP seg = .ok (header6 proto srcIP dstIP seg.length ++ sealed pos
        (pseudoChecksum6 srcIP dstIP proto.toNat (seg.length % 2 ^ 16)) seg) := by
  rw [build6, sealAt, if_neg (by omega)]
  rfl

theorem checks6_build6 (proto : UInt8) {srcIP dstIP seg : Bytes} (src : srcIP.length = 16)
    (dst : dstIP.length = 16) (even : pos % 2 = 0) (long : pos + 2 ≤ seg.length)
    (short : seg.length ≤ 65535) :
    ∃ packet, build6 proto pos srcIP dstIP seg = .ok packet ∧
      (Checks6 proto seg.length packet ↔ seg.length = 65535) := by
  have size : (sealed pos (pseudoChecksum6 srcIP dstIP proto.toNat seg.length)
      seg).length = seg.length := length_sealed
  refine ⟨_, build6_eq proto srcIP dstIP long, ?_⟩
  rw [Nat.mod_eq_of_lt (by omega), ← verifies_sealed6_iff src dst proto even long short, Checks6,
    header6, List.append_assoc _ srcIP dstIP, window_append (by simp) (by simp [src, dst]),
    window_append_last (by simp [src, dst]) size]

theorem not_checks6_sealIn {base : Bytes} (size : base.length = bufferSize) (least : 4 ≤ k)
    (fits : 40 + k ≤ bufferSize) :
    ¬ Checks6 58 k (sealIn base 40 k 2
      (pseudoChecksum6 (window base 8 16) (window base 24 16) 58 k)) := by
  have cap : bufferSize = 1904 := rfl
  have src := @length_window 8 16 base (by omega)
  have dst := @length_window 24 16 base (by omega)
  have msg := @length_window 40 k base (by omega)
  have verifies := @verifies_sealed6_iff _ _ src dst 58 2 (window base 40 k) rfl
    (by omega) (by omega)
  rw [msg] at verifies
  rw [Checks6, window_sealIn_apart (by omega), window_sealIn (by omega) (by omega),
    window_add base 8 16 16]
  exact fun checks => absurd (verifies.mp checks) (by omega)

theorem writeICMPEchoReply6_eq {buf : Bytes} (size : buf.length = bufferSize)
    (fits : n ≤ bufferSize) (long : 44 ≤ n) :
    ∃ base, base.length = bufferSize ∧ writeICMPEchoReply6 (packet n) buf =
      .ok ((), sealIn base 40 (n - 40) 2
        (pseudoChecksum6 (window base 8 16) (window base 24 16) 58 (n - 40))) := by
  have cap : bufferSize = 1904 := rfl
  have swapped := @swapAddresses_eq n buf size fits 8 24 40 rfl (by decide) (by decide) (by omega)
  let base := overwrite (overwrite (overwrite buf 8 (window buf 24 (24 - 8))) 24
    (window buf 8 (24 - 8))) 40 [129, 0]
  have baseSize : base.length = bufferSize := by simp [base, size]
  have addresses : ∀ {start : Nat}, start + 16 ≤ 40 →
      window (overwrite base (40 + 2) [0, 0]) start 16 = window base start 16 :=
    fun within => @window_overwrite_apart _ _ base [0, 0] 42 2 rfl (by omega)
  have sealedOnce := @overwrite_eq_sealIn base 40 (n - 40) 2 (by omega) (by omega)
    (pseudoChecksum6 (window (overwrite base (40 + 2) [0, 0]) 8 16)
      (window (overwrite base (40 + 2) [0, 0]) 24 16) 58 (n - 40))
  refine ⟨base, baseSize, ?_⟩
  rw [writeICMPEchoReply6, swap6, InBuffer.bind_of_ok swapped, packet_dropFirst (by omega),
    pure_bind, InBuffer.bind_of_ok (Slice.setAll_eq (by simp; omega) _),
    packet_sub (by omega) (by omega), pure_bind, packet_sub (by omega) (by omega), pure_bind,
    InBuffer.bind_of_ok (Slice.bytes_eq _ _), InBuffer.bind_of_ok (Slice.bytes_eq _ _),
    InBuffer.bind_of_ok (Slice.bytes_eq _ _),
    Slice.setAll_eq (by simp [length_bigEndian]; omega)]
  exact congrArg (fun post => Except.ok ((), post))
    (sealedOnce.trans (by rw [addresses (by decide), addresses (by decide)]))

/-- A segment verifies if it has 65535 bytes, and a message in the read buffer never does. -/
theorem checks6_iff (srcIP dstIP segment buffer : Bytes) (n : Nat) :
    (srcIP.length = 16 → dstIP.length = 16 → segment.length ≤ 65535 →
      (20 ≤ segment.length → ∃ packet, buildPacket6 srcIP dstIP segment = .ok packet ∧
        (Checks6 6 segment.length packet ↔ segment.length = 65535)) ∧
      (8 ≤ segment.length → ∃ packet, buildUDP6 srcIP dstIP segment = .ok packet ∧
        (Checks6 17 segment.length packet ↔ segment.length = 65535))) ∧
    (buffer.length = bufferSize → n ≤ bufferSize →
      (44 ≤ n → ∃ reply, writeICMPEchoReply6 (packet n) buffer = .ok ((), reply) ∧
        ¬ Checks6 58 (n - 40) reply) ∧
      (88 ≤ n → ∀ code, ∀ write ∈ [writeICMPDestUnreach6, writeICMPTimeExceed6],
        ∃ reply, write (packet n) code buffer = .ok ((), reply) ∧ ¬ Checks6 58 56 reply)) := by
  have capacity : bufferSize = 1904 := rfl
  constructor
  · intro src dst short
    exact ⟨fun least => checks6_build6 6 src dst rfl (by omega) short,
      fun least => checks6_build6 17 src dst rfl least short⟩
  intro size fits
  constructor
  · intro long
    obtain ⟨base, baseSize, written⟩ := writeICMPEchoReply6_eq size fits long
    exact ⟨_, written, not_checks6_sealIn baseSize (by omega) (by omega)⟩
  intro long code
  have each : ∀ type : UInt8, ∃ reply,
      writeICMPError6 type (packet n) code buffer = .ok ((), reply) ∧ ¬ Checks6 58 56 reply := by
    intro type
    have addresses := @addresses_quoted n 8 16 4 56 40 buffer type code (by decide) (by decide)
      (by omega)
    refine ⟨_, writeICMPError6_eq size fits type code long, ?_⟩
    rw [← addresses.1, ← addresses.2]
    exact not_checks6_sealIn (by simp [quoted, size]) (by decide) (by decide)
  intro write member
  rcases List.mem_pair.mp member with rfl | rfl
  · exact each 1
  · exact each 3

theorem checks6_zeros :
    ∃ packet, buildPacket6 (List.replicate 16 0) (List.replicate 16 0) (List.replicate 20 0) =
      .ok packet ∧ ¬ Checks6 6 20 packet := by
  refine ⟨_, rfl, ?_⟩
  unfold Checks6 Verifies
  decide +kernel

/-! ## Checksums of zero -/

/-- What is summed up is a positive multiple of 65535, so that the complement of its folded sum is
zero. -/
def ComplementsToZero (initial : Nat) (data : Bytes) : Prop :=
  let sum := (initial + wordSum data) % 2 ^ 32
  0 < sum ∧ sum % 0xffff = 0

theorem bigEndian_eq_zero_iff (initial : Nat) (data : Bytes) :
    bigEndian 2 (onesComplementSumFold data initial) = [0, 0] ↔ ComplementsToZero initial data := by
  have folds := folds_foldCarries (Nat.mod_lt (initial + wordSum data) (Nat.two_pow_pos 32))
  have small := folds.fits
  rw [ComplementsToZero, ← folds.eq_ones_iff, onesComplementSumFold]
  constructor
  · intro zero
    have value := congrArg ofBigEndian zero
    rw [ofBigEndian_bigEndian (by omega)] at value
    have : ofBigEndian [0, 0] = 0 := rfl
    omega
  · intro ones
    rw [ones]
    rfl

theorem window_append_sealed {front bytes : Bytes} (size : front.length = n)
    (within : pos + 2 ≤ bytes.length) : window (front ++ sealed pos initial bytes) (n + pos) 2 =
      bigEndian 2 (onesComplementSumFold (overwrite bytes pos [0, 0]) initial) := by
  rw [window, ← size, List.drop_length_add_append]
  exact window_overwrite_same (length_bigEndian 2 _) (by rwa [length_overwrite])

theorem checksum_nonzero_iff (srcIP dstIP udpSeg : Bytes) (pkt : Slice) (ihl : Nat) (buf : Bytes) :
    (srcIP.length = 4 → dstIP.length = 4 → 8 ≤ udpSeg.length →
      ∃ packet, buildUDP4 srcIP dstIP udpSeg = .ok packet ∧
        (window packet 26 2 ≠ [0, 0] ↔ ¬ComplementsToZero
          (pseudoChecksum srcIP dstIP 17 (udpSeg.length % 2 ^ 16)) (overwrite udpSeg 6 [0, 0]))) ∧
      (srcIP.length = 16 → dstIP.length = 16 → 8 ≤ udpSeg.length →
        ∃ packet, buildUDP6 srcIP dstIP udpSeg = .ok packet ∧
          (window packet 46 2 ≠ [0, 0] ↔ ¬ComplementsToZero
            (pseudoChecksum6 srcIP dstIP 17 (udpSeg.length % 2 ^ 16))
            (overwrite udpSeg 6 [0, 0]))) ∧
      (Whole pkt ihl buf → ihl + 8 ≤ pkt.length →
        ∃ after, fixUDPChecksum pkt ihl buf = .ok ((), after) ∧
          (window after (pkt.start + ihl + 6) 2 ≠ [0, 0] ↔ ¬ComplementsToZero
            (pseudoChecksum (window buf (pkt.start + 12) 4) (window buf (pkt.start + 16) 4) 17
              (pkt.length - ihl))
            (overwrite (window buf (pkt.start + ihl) (pkt.length - ihl)) 6 [0, 0]))) := by
  refine ⟨?_, ?_, ?_⟩
  · intro src dst long
    refine ⟨_, build4_eq 17 srcIP dstIP long, not_congr ?_⟩
    rw [← bigEndian_eq_zero_iff, window_append_sealed _ long]
    · rfl
    · simp [clearedHeader4, src, dst]
  · intro src dst long
    refine ⟨_, build6_eq 17 srcIP dstIP long, not_congr ?_⟩
    rw [← bigEndian_eq_zero_iff, window_append_sealed _ long]
    · rfl
    · simp [header6, src, dst]
  intro whole long
  have fits := whole.fits
  refine ⟨_, whole.fixTransportChecksum_eq long (by decide), not_congr ?_⟩
  rw [← bigEndian_eq_zero_iff, sealIn, window_overwrite_same (length_bigEndian 2 _) (by omega)]

theorem transmitted_zero : ∃ packet,
    buildUDP4 (List.replicate 4 0) (List.replicate 4 0) [0xff, 0xde, 0, 0, 0, 8, 0, 0] =
      .ok packet ∧ window packet 26 2 = [0, 0] :=
  ⟨_, rfl, by decide +kernel⟩

end Peerscale.Fbvirtun
