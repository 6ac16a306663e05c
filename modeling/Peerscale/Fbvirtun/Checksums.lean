import Peerscale.Fbvirtun.ReadLoop
import Peerscale.Foundation.OnesComplement

/-! # Checksums of IPv4 packets

A checksum is computed while its own field is zero, and then put there. The packets that are
built with checksums and the packets that get them in place verify.
-/

namespace Peerscale.Fbvirtun

open InBuffer

open OnesComplement (Folds Verifies total)

theorem wordSum_eq_total (data : Bytes) : wordSum data = total data := by
  induction data using wordSum.induct with
  | case1 => simp [wordSum]
  | case2 => simp [wordSum, OnesComplement.total_singleton]
  | case3 high low rest ih => simp [wordSum, OnesComplement.total_cons, ih]

theorem folds_foldCarries (fits : sum < 2 ^ 32) : Folds sum (foldCarries 2 sum) := by
  have once : sum / 2 ^ 16 + sum % 2 ^ 16 ≤ 0x1fffe := by omega
  simp only [foldCarries]
  split
  · split <;> exact ⟨by omega, by omega, by omega⟩
  · exact ⟨by omega, rfl, Iff.rfl⟩

/-- The accumulator has no more than 32 bits, from the first word to the last. -/
def NeverWraps (initial : Nat) (data : Bytes) : Prop :=
  ∀ count, initial + wordSum (data.take count) < 2 ^ 32

theorem neverWraps {data : Bytes} (small : initial < 2 ^ 24) (short : data.length ≤ 0xffff) :
    NeverWraps initial data := by
  intro n
  have bound := OnesComplement.total_le data
  have part := OnesComplement.total_take_le data n
  rw [wordSum_eq_total]
  omega

theorem NeverWraps.total_lt (never : NeverWraps initial data) : initial + total data < 2 ^ 32 := by
  have all := never data.length
  rw [List.take_length, wordSum_eq_total] at all
  exact all

def sealed (pos initial : Nat) (bytes : Bytes) : Bytes :=
  overwrite (overwrite bytes pos [0, 0]) pos
    (bigEndian 2 (onesComplementSumFold (overwrite bytes pos [0, 0]) initial))

section

variable {pos initial : Nat} {bytes : Bytes}

theorem length_sealed : (sealed pos initial bytes).length = bytes.length := by
  rw [sealed, length_overwrite, length_overwrite]

theorem touches_sealed : Touches (Between pos (pos + 2)) bytes (sealed pos initial bytes) := by
  have cleared := touches_overwrite bytes pos [0, 0]
  have filled := touches_overwrite (overwrite bytes pos [0, 0]) pos
    (bigEndian 2 (onesComplementSumFold (overwrite bytes pos [0, 0]) initial))
  rw [length_bigEndian] at filled
  exact cleared.trans filled

theorem verifies_sealed_iff {header : Bytes} (headerEven : header.length % 2 = 0)
    (even : pos % 2 = 0) (within : pos + 2 ≤ bytes.length)
    (never : NeverWraps initial (overwrite bytes pos [0, 0])) (atMost : initial ≤ total header) :
    Verifies (header ++ sealed pos initial bytes) ↔ (total header - initial) % 0xffff = 0 := by
  have cleared : overwrite bytes pos [0, 0] =
      bytes.take pos ++ [0, 0] ++ bytes.drop (pos + 2) := overwrite_eq within
  have front : (bytes.take pos).length = pos := List.length_take_of_le (by omega)
  have lt := never.total_lt
  have folds := folds_foldCarries lt
  have written : sealed pos initial bytes = bytes.take pos ++ bigEndian 2 (0xffff - foldCarries 2
        (initial + total (overwrite bytes pos [0, 0]))) ++ bytes.drop (pos + 2) := by
    rw [sealed, overwrite_overwrite within (length_bigEndian 2 _), overwrite_eq (by simpa),
      length_bigEndian, onesComplementSumFold, wordSum_eq_total, Nat.mod_eq_of_lt lt]
  rw [cleared] at folds
  rw [written, cleared]
  exact OnesComplement.verifies_sealed_iff headerEven (by rw [front]; exact even) folds atMost

end

def pseudoHeader (addresses : Bytes) (proto : UInt8) (length : Nat) : Bytes :=
  addresses ++ [0, proto] ++ bigEndian 2 length

theorem total_pseudoHeader {src dst : Bytes} (srcEven : src.length % 2 = 0)
    (dstEven : dst.length % 2 = 0) (proto : UInt8) (fits : length < 2 ^ 16) :
    total (pseudoHeader (src ++ dst) proto length) = pseudoChecksum src dst proto.toNat length := by
  rw [pseudoHeader, OnesComplement.total_append (by simp; omega),
    OnesComplement.total_append (by simp; omega), OnesComplement.total_append srcEven,
    OnesComplement.total_bigEndian fits, OnesComplement.total_cons, pseudoChecksum,
    wordSum_eq_total, wordSum_eq_total]
  simp

theorem pseudoChecksum_lt {src dst : Bytes} (srcIs : src.length = 4) (dstIs : dst.length = 4)
    (proto : UInt8) (fits : length < 2 ^ 16) :
    pseudoChecksum src dst proto.toNat length < 2 ^ 24 := by
  have srcBound := OnesComplement.total_le src
  have dstBound := OnesComplement.total_le dst
  have protoBound := proto.toNat_lt
  rw [srcIs] at srcBound
  rw [dstIs] at dstBound
  rw [pseudoChecksum, wordSum_eq_total, wordSum_eq_total]
  omega

def clearedHeader4 (proto : UInt8) (srcIP dstIP : Bytes) (length : Nat) : Bytes :=
  [0x45, 0] ++ bigEndian 2 length ++ [0, 0, 0, 0, 64, proto, 0, 0] ++ srcIP ++ dstIP

def sealAt (pos psum : Nat) (segment : Bytes) : Except Panic Bytes :=
  if segment.length < pos + 2 then .error (.slice pos (pos + 2) segment.length)
  else .ok (sealed pos psum segment)

def build4 (proto : UInt8) (pos : Nat) (srcIP dstIP segment : Bytes) :
    Except Panic Bytes := do
  let cleared := clearedHeader4 proto srcIP dstIP (20 + segment.length)
  let ip := overwrite cleared 10 (bigEndian 2 (onesComplementSum cleared))
  let transport ← sealAt pos
    (pseudoChecksum srcIP dstIP proto.toNat (segment.length % 2 ^ 16)) segment
  return ip ++ transport

def buildUDP4 (srcIP dstIP udpSeg : Bytes) : Except Panic Bytes :=
  build4 17 6 srcIP dstIP udpSeg

theorem build4_eq (proto : UInt8) (srcIP dstIP : Bytes) {seg : Bytes}
    (long : pos + 2 ≤ seg.length) :
    let cleared := clearedHeader4 proto srcIP dstIP (20 + seg.length)
    build4 proto pos srcIP dstIP seg =
      .ok (overwrite cleared 10 (bigEndian 2 (onesComplementSum cleared)) ++ sealed pos
        (pseudoChecksum srcIP dstIP proto.toNat (seg.length % 2 ^ 16)) seg) := by
  rw [build4, sealAt, if_neg (by omega)]
  rfl

/-- Both checksums of a packet verify, and nothing else of the segment has changed. -/
def Built4 (proto : UInt8) (pos : Nat) (srcIP dstIP segment : Bytes)
    (built : Except Panic Bytes) : Prop :=
  ∃ header transport, built = .ok (header ++ transport) ∧ header.length = 20 ∧
    header.drop 12 = srcIP ++ dstIP ∧ Verifies header ∧
    Verifies (pseudoHeader (srcIP ++ dstIP) proto segment.length ++ transport) ∧
    Touches (Between pos (pos + 2)) segment transport

section

variable {srcIP dstIP : Bytes} (src : srcIP.length = 4) (dst : dstIP.length = 4)

include src dst

theorem verifies_header4 (proto : UInt8) (length : Nat) :
    let cleared := clearedHeader4 proto srcIP dstIP length
    let header := overwrite cleared 10 (bigEndian 2 (onesComplementSum cleared))
    header.length = 20 ∧ header.drop 12 = srcIP ++ dstIP ∧ Verifies header := by
  intro cleared header
  have size : cleared.length = 20 := by simp [cleared, clearedHeader4, length_bigEndian, src, dst]
  have zero : overwrite cleared 10 [0, 0] = cleared := rfl
  have isSealed : header = sealed 10 0 cleared := by rw [sealed, zero]; rfl
  refine ⟨by rw [isSealed, length_sealed, size], ?_, ?_⟩
  · rw [show header = _ from overwrite_eq (by rw [length_bigEndian, size]; decide),
      length_bigEndian, List.drop_append_of_le_length (by simp [size, length_bigEndian])]
    rfl
  have verifies := @verifies_sealed_iff 10 0 cleared [] rfl rfl (by omega)
    (neverWraps (by decide) (by rw [zero, size]; decide)) (Nat.le_refl 0)
  rw [isSealed]
  exact verifies.mpr rfl

theorem built4_build4 (proto : UInt8) {seg : Bytes} (even : pos % 2 = 0)
    (long : pos + 2 ≤ seg.length) (short : seg.length ≤ 65515) :
    Built4 proto pos srcIP dstIP seg (build4 proto pos srcIP dstIP seg) := by
  obtain ⟨size, addresses, verifies⟩ := verifies_header4 src dst proto (20 + seg.length)
  have whole := total_pseudoHeader (by rw [src]) (by rw [dst]) proto
    (show seg.length < 2 ^ 16 by omega)
  refine ⟨_, _, build4_eq proto srcIP dstIP long, size, addresses, verifies, ?_, touches_sealed⟩
  rw [Nat.mod_eq_of_lt (by omega), verifies_sealed_iff _ even long _ (by rw [whole]), whole,
    Nat.sub_self]
  · simp [pseudoHeader, src, dst, length_bigEndian]
  · exact neverWraps (pseudoChecksum_lt src dst proto (by omega)) (by rw [length_overwrite]; omega)

end

def sealIn (buf : Bytes) (start k pos initial : Nat) : Bytes :=
  overwrite buf (start + pos)
    (bigEndian 2 (onesComplementSumFold (overwrite (window buf start k) pos [0, 0]) initial))

section

variable {buf : Bytes} {start k pos : Nat}

theorem touches_sealIn (initial : Nat) :
    Touches (Between (start + pos) (start + pos + 2)) buf (sealIn buf start k pos initial) := by
  have touches := touches_overwrite buf (start + pos) (bigEndian 2
    (onesComplementSumFold (overwrite (window buf start k) pos [0, 0]) initial))
  rwa [length_bigEndian] at touches

theorem window_sealIn_apart (apart : low + n ≤ start + pos ∨ start + pos + 2 ≤ low) :
    window (sealIn buf start k pos initial) low n = window buf low n :=
  window_overwrite_apart (length_bigEndian 2 _) apart

variable (inside : pos + 2 ≤ k) (fits : start + k ≤ buf.length)

include inside fits

theorem window_sealIn (initial : Nat) :
    window (sealIn buf start k pos initial) start k = sealed pos initial (window buf start k) := by
  rw [sealIn, window_overwrite_inside (by rwa [length_bigEndian]) fits, sealed,
    overwrite_overwrite (by rwa [length_window fits]) (length_bigEndian 2 _)]

theorem verifies_window_sealIn (even : pos % 2 = 0) (short : k ≤ 65535) :
    Verifies (window (sealIn buf start k pos 0) start k) := by
  have size := length_window fits
  have verifies := @verifies_sealed_iff pos 0 (window buf start k) [] rfl even
    (by rwa [size]) (neverWraps (by decide) (by rwa [length_overwrite, size])) (Nat.le_refl 0)
  rw [window_sealIn inside fits]
  exact verifies.mpr rfl

theorem overwrite_eq_sealIn (initial : Nat) :
    overwrite (overwrite buf (start + pos) [0, 0]) (start + pos) (bigEndian 2 (onesComplementSumFold
          (window (overwrite buf (start + pos) [0, 0]) start k) initial)) =
      sealIn buf start k pos initial := by
  rw [overwrite_overwrite (Nat.le_trans (by simp; omega) fits) (length_bigEndian 2 _),
    window_overwrite_inside inside fits]
  rfl

end

structure Whole (pkt : Slice) (ihl : Nat) (buffer : Bytes) : Prop where
  isIhl : (buffer.getD pkt.start 0).toNat % 16 * 4 = ihl
  least : 20 ≤ ihl
  within : ihl ≤ pkt.length
  small : pkt.length ≤ 65535
  capacity : pkt.length ≤ pkt.capacity
  fits : pkt.start + pkt.length ≤ buffer.length

namespace Whole

variable {pkt : Slice} {ihl : Nat} {buf : Bytes} (whole : Whole pkt ihl buf)

include whole

theorem fixIPChecksum_eq : fixIPChecksum pkt buf = .ok ((), sealIn buf pkt.start ihl 10 0) := by
  have least := whole.least
  have within := whole.within
  have fits := whole.fits
  rw [fixIPChecksum, bind_of_ok (Slice.get_eq (by omega) buf), Nat.add_zero,
    whole.isIhl, bind_of_ok (Slice.setAll_eq (by simp; omega) buf),
    Slice.sub_eq (Nat.zero_le _) (by have := whole.capacity; omega), pure_bind,
    bind_of_ok (Slice.bytes_eq _ _), Slice.setAll_eq (by simp [length_bigEndian]; omega)]
  dsimp only
  rw [Nat.add_zero, Nat.sub_zero]
  exact congrArg (fun post => Except.ok ((), post)) (overwrite_eq_sealIn (by omega) (by omega) 0)

theorem fixTransportChecksum_eq (long : ihl + minimum ≤ pkt.length) (inside : pos + 2 ≤ minimum) :
    fixTransportChecksum minimum pos proto pkt ihl buf =
      .ok ((), sealIn buf (pkt.start + ihl) (pkt.length - ihl) pos
        (pseudoChecksum (window buf (pkt.start + 12) 4) (window buf (pkt.start + 16) 4) proto
          (pkt.length - ihl))) := by
  have least := whole.least
  have cap := whole.capacity
  have fits := whole.fits
  have addresses : ∀ {off : Nat}, off + 4 ≤ 20 →
      window (overwrite buf (pkt.start + (ihl + pos)) [0, 0]) (pkt.start + off) 4 =
        window buf (pkt.start + off) 4 :=
    fun pre => window_overwrite_apart rfl (by omega)
  rw [fixTransportChecksum, if_neg (by omega)]
  rw [bind_of_ok (Slice.setAll_eq (by simp; omega) buf),
    Slice.sub_eq (by decide) (by omega), pure_bind, Slice.sub_eq (by decide) (by omega), pure_bind,
    bind_of_ok (Slice.bytes_eq _ _), bind_of_ok (Slice.bytes_eq _ _),
    Slice.dropFirst_eq (by omega), pure_bind, bind_of_ok (Slice.bytes_eq _ _),
    Slice.setAll_eq (by simp [length_bigEndian]; omega)]
  dsimp only
  rw [addresses (by omega), addresses (by omega), ← Nat.add_assoc]
  exact congrArg (fun post => Except.ok ((), post)) (overwrite_eq_sealIn (by omega) (by omega) _)

end Whole

/-- The checksum of the bytes from `start` on is right afterwards, behind a header that may depend
on the packet, and nothing else has changed. -/
def Rechecked (pos start k : Nat) (header : Bytes → Bytes) (program : InBuffer Unit)
    (buf : Bytes) : Prop :=
  ∃ after, program buf = .ok ((), after) ∧
    Touches (Between (start + pos) (start + pos + 2)) buf after ∧
    Verifies (header after ++ window after start k)

def pseudoHeaderOf (pkt : Slice) (ihl : Nat) (proto : UInt8) (buf : Bytes) : Bytes :=
  pseudoHeader (window buf (pkt.start + 12) 4 ++ window buf (pkt.start + 16) 4) proto
    (pkt.length - ihl)

namespace Whole

variable {pkt : Slice} {ihl : Nat} {buf : Bytes} (whole : Whole pkt ihl buf)

include whole

theorem rechecked_fixIPChecksum :
    Rechecked 10 pkt.start ihl (fun _ => []) (fixIPChecksum pkt) buf := by
  have least := whole.least
  have within := whole.within
  have small := whole.small
  have fits := whole.fits
  exact ⟨_, whole.fixIPChecksum_eq, touches_sealIn 0,
    verifies_window_sealIn (by omega) (by omega) rfl (by omega)⟩

theorem rechecked_fixTransportChecksum (proto : UInt8) (long : ihl + minimum ≤ pkt.length)
    (inside : pos + 2 ≤ minimum) (even : pos % 2 = 0) :
    Rechecked pos (pkt.start + ihl) (pkt.length - ihl) (pseudoHeaderOf pkt ihl proto)
      (fixTransportChecksum minimum pos proto.toNat pkt ihl) buf := by
  have least := whole.least
  have small := whole.small
  have fits := whole.fits
  have src := @length_window (pkt.start + 12) 4 buf (by omega)
  have dst := @length_window (pkt.start + 16) 4 buf (by omega)
  have seg := @length_window (pkt.start + ihl) (pkt.length - ihl) buf (by omega)
  have pseudo := total_pseudoHeader (by rw [src]) (by rw [dst]) proto
    (show pkt.length - ihl < 2 ^ 16 by omega)
  refine ⟨_, whole.fixTransportChecksum_eq long inside, touches_sealIn _, ?_⟩
  rw [pseudoHeaderOf, window_sealIn_apart (by omega), window_sealIn_apart (by omega),
    window_sealIn (by omega) (by omega), verifies_sealed_iff _ even _ _ (by rw [pseudo]), pseudo,
    Nat.sub_self]
  · simp [pseudoHeader, src, dst, length_bigEndian]
  · omega
  · exact neverWraps (pseudoChecksum_lt src dst proto (by omega)) (by rw [length_overwrite]; omega)

end Whole

/-- The checksums of IPv4 packets verify, whether they are built or completed in place, nothing
else changes, and no sum wraps. -/
theorem checksums4_verify :
    (∀ srcIP dstIP segment : Bytes, srcIP.length = 4 → dstIP.length = 4 → segment.length ≤ 65515 →
      (20 ≤ segment.length → Built4 6 16 srcIP dstIP segment (buildPacket4 srcIP dstIP segment)) ∧
        (8 ≤ segment.length → Built4 17 6 srcIP dstIP segment (buildUDP4 srcIP dstIP segment))) ∧
      (∀ (pkt : Slice) (ihl : Nat) (buffer : Bytes), Whole pkt ihl buffer →
        Rechecked 10 pkt.start ihl (fun _ => []) (fixIPChecksum pkt) buffer ∧
          (ihl + 20 ≤ pkt.length → Rechecked 16 (pkt.start + ihl) (pkt.length - ihl)
            (pseudoHeaderOf pkt ihl 6) (fixTCPChecksum pkt ihl) buffer) ∧
          (ihl + 8 ≤ pkt.length → Rechecked 6 (pkt.start + ihl) (pkt.length - ihl)
            (pseudoHeaderOf pkt ihl 17) (fixUDPChecksum pkt ihl) buffer)) ∧
      ∀ data : Bytes, data.length ≤ 65535 → NeverWraps 0 data ∧
        ∀ (src dst : Bytes) (proto : UInt8) (length : Nat), src.length = 4 → dst.length = 4 →
          length < 2 ^ 16 → NeverWraps (pseudoChecksum src dst proto.toNat length) data := by
  refine ⟨?_, ?_, ?_⟩
  · intro srcIP dstIP segment src dst short
    exact ⟨fun long => built4_build4 src dst 6 rfl (by omega) short,
      fun long => built4_build4 src dst 17 rfl (by omega) short⟩
  · intro pkt ihl buffer whole
    exact ⟨whole.rechecked_fixIPChecksum,
      fun long => whole.rechecked_fixTransportChecksum 6 long (by decide) rfl,
      fun long => whole.rechecked_fixTransportChecksum 17 long (by decide) rfl⟩
  intro data short
  refine ⟨neverWraps (by decide) short, ?_⟩
  intro src dst proto length srcIs dstIs fits
  exact neverWraps (pseudoChecksum_lt srcIs dstIs proto fits) short

end Peerscale.Fbvirtun
