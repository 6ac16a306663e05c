import Peerscale.Foundation.Slice
import Peerscale.Softun.Packets

/-! # Packets rewritten in place

The writers of fbvirtun that turn the packet in the read buffer into its answer. A writer returns
for every packet that is long enough, and then it has changed bytes of the packet only.
-/

namespace Peerscale.Fbvirtun

def wordSum : Bytes → Nat
  | [] => 0
  | [last] => last.toNat * 256
  | high :: low :: rest => high.toNat * 256 + low.toNat + wordSum rest

def foldCarries : (turns : Nat) → Nat → Nat
  | 0, sum => sum
  | turns + 1, sum => if sum > 0xffff then foldCarries turns (sum / 2 ^ 16 + sum % 2 ^ 16) else sum

def onesComplementSumFold (data : Bytes) (initial : Nat) : Nat :=
  0xffff - foldCarries 2 ((initial + wordSum data) % 2 ^ 32)

def onesComplementSum (data : Bytes) : Nat := onesComplementSumFold data 0

def pseudoChecksum (src dst : Bytes) (proto totalLen : Nat) : Nat :=
  wordSum src + wordSum dst + proto + totalLen

/-- The sum takes the upper half of the length, which is zero. -/
def pseudoChecksum6 (src dst : Bytes) (proto totalLen : Nat) : Nat :=
  wordSum src + wordSum dst + ofBigEndian ((bigEndian 4 totalLen).take 2) + proto

def fixIPChecksum (pkt : Slice) : InBuffer Unit := do
  let ihl := (← pkt.get 0).toNat % 16 * 4
  pkt.setAll 10 [0, 0]
  let header ← pkt.sub 0 ihl
  let csum := onesComplementSum (← header.bytes)
  pkt.setAll 10 (bigEndian 2 csum)

/-- The checksum of a transport header that has at least `minimum` bytes, with the checksum at
`position`. -/
def fixTransportChecksum (minimum position proto : Nat) (pkt : Slice) (ihl : Nat) :
    InBuffer Unit := do
  if pkt.length < ihl + minimum then return
  let totalLen := pkt.length - ihl
  pkt.setAll (ihl + position) [0, 0]
  let src ← pkt.sub 12 16
  let dst ← pkt.sub 16 20
  let psum := pseudoChecksum (← src.bytes) (← dst.bytes) proto totalLen
  let segment ← pkt.dropFirst ihl
  let csum := onesComplementSumFold (← segment.bytes) psum
  pkt.setAll (ihl + position) (bigEndian 2 csum)

def fixTCPChecksum (pkt : Slice) (ihl : Nat) : InBuffer Unit :=
  fixTransportChecksum 20 16 6 pkt ihl

def fixUDPChecksum (pkt : Slice) (ihl : Nat) : InBuffer Unit :=
  fixTransportChecksum 8 6 17 pkt ihl

def swapAddresses (low middle high : Nat) (pkt : Slice) : InBuffer Unit := do
  let src ← pkt.sub low middle
  let dst ← pkt.sub middle high
  let tmp ← src.bytes
  src.copy (← dst.bytes)
  dst.copy tmp

def swap4 (pkt : Slice) : InBuffer Unit := swapAddresses 12 16 20 pkt

def swap6 (pkt : Slice) : InBuffer Unit := swapAddresses 8 24 40 pkt

def writeICMPEchoReply4 (pkt : Slice) (ihl : Nat) : InBuffer Unit := do
  swap4 pkt
  let icmp ← pkt.dropFirst ihl
  icmp.setAll 0 [0, 0, 0, 0]
  let csum := onesComplementSum (← icmp.bytes)
  icmp.setAll 2 (bigEndian 2 csum)
  fixIPChecksum pkt

/-- The header of an error: the addresses change places, and the length and the start of the
message are set. -/
def writeErrorHeader (swap : InBuffer Unit) (position length start : Nat) (type code : UInt8)
    (pkt : Slice) : InBuffer Unit := do
  swap
  pkt.setAll position (bigEndian 2 length)
  pkt.setAll start [type, code, 0, 0, 0, 0, 0, 0]

def quoteICMP4 (pkt : Slice) (ihl : Nat) (origHdr origIcmp : Bytes) : InBuffer Unit := do
  (← pkt.dropFirst (ihl + 8)).copy origHdr
  (← pkt.dropFirst (ihl + 8 + ihl)).copy origIcmp
  let icmp ← pkt.sub ihl (ihl + (8 + ihl + 8))
  pkt.setAll (ihl + 2) [0, 0]
  let csum := onesComplementSum (← icmp.bytes)
  pkt.setAll (ihl + 2) (bigEndian 2 csum)
  fixIPChecksum pkt

def writeICMPError4 (type : UInt8) (pkt : Slice) (ihl : Nat) (code : UInt8) : InBuffer Unit := do
  let origHdr ← (← pkt.sub 0 ihl).bytes
  let origIcmp ← (← pkt.sub ihl (ihl + 8)).bytes
  writeErrorHeader (swap4 pkt) 2 (ihl + 8 + ihl + 8) ihl type code pkt
  quoteICMP4 pkt ihl origHdr origIcmp

def writeICMPDestUnreach4 (pkt : Slice) (ihl : Nat) (code : UInt8) : InBuffer Unit :=
  writeICMPError4 3 pkt ihl code

def writeICMPTimeExceed4 (pkt : Slice) (ihl : Nat) (code : UInt8) : InBuffer Unit :=
  writeICMPError4 11 pkt ihl code

def writeICMPEchoReply6 (pkt : Slice) : InBuffer Unit := do
  swap6 pkt
  let icmp ← pkt.dropFirst 40
  icmp.setAll 0 [129, 0, 0, 0]
  let src ← pkt.sub 8 24
  let dst ← pkt.sub 24 40
  let psum := pseudoChecksum6 (← src.bytes) (← dst.bytes) 58 icmp.length
  let csum := onesComplementSumFold (← icmp.bytes) psum
  icmp.setAll 2 (bigEndian 2 csum)

def quoteICMP6 (pkt : Slice) (origHdr origIcmp : Bytes) : InBuffer Unit := do
  (← pkt.dropFirst 48).copy origHdr
  (← pkt.dropFirst (48 + 40)).copy origIcmp
  let icmp ← pkt.sub 40 (40 + (8 + 40 + 8))
  pkt.setAll 42 [0, 0]
  let src ← pkt.sub 8 24
  let dst ← pkt.sub 24 40
  let psum := pseudoChecksum6 (← src.bytes) (← dst.bytes) 58 (8 + 40 + 8)
  let csum := onesComplementSumFold (← icmp.bytes) psum
  pkt.setAll 42 (bigEndian 2 csum)

def writeICMPError6 (type : UInt8) (pkt : Slice) (code : UInt8) : InBuffer Unit := do
  let origHdr ← (← pkt.sub 0 40).bytes
  let origIcmp ← (← pkt.sub 40 48).bytes
  writeErrorHeader (swap6 pkt) 4 (8 + 40 + 8) 40 type code pkt
  quoteICMP6 pkt origHdr origIcmp

def writeICMPDestUnreach6 (pkt : Slice) (code : UInt8) : InBuffer Unit :=
  writeICMPError6 1 pkt code

def writeICMPTimeExceed6 (pkt : Slice) (code : UInt8) : InBuffer Unit :=
  writeICMPError6 3 pkt code

def tunMTU : Nat := 1900

def bufferSize : Nat := tunMTU + 4

def packet (n : Nat) : Slice := ⟨0, n, bufferSize⟩

@[simp] theorem start_packet (n : Nat) : (packet n).start = 0 := rfl

@[simp] theorem length_packet (n : Nat) : (packet n).length = n := rfl

@[simp] theorem capacity_packet (n : Nat) : (packet n).capacity = 1904 := rfl

section

variable {n : Nat}

theorem keeps_assign {bytes : Bytes} (within : index + bytes.length ≤ n) (above : low ≤ index) :
    Keeps (Between low n) ((packet n).setAll index bytes) :=
  Slice.keeps_setAll within (by simpa using above) (by simpa using within)

theorem packet_sub (ordered : start ≤ stop) (within : stop ≤ 1904) :
    (packet n).sub start stop = pure ⟨start, stop - start, 1904 - start⟩ := by
  rw [Slice.sub_eq ordered within, start_packet, Nat.zero_add, capacity_packet]

theorem packet_dropFirst (within : start ≤ n) :
    (packet n).dropFirst start = pure ⟨start, n - start, 1904 - start⟩ := by
  rw [Slice.dropFirst_eq within, start_packet, Nat.zero_add, length_packet, capacity_packet]

theorem packet_get (within : index < n) (buf : Bytes) :
    (packet n).get index buf = .ok (buf.getD index 0, buf) := by
  rw [Slice.get_eq within, start_packet, Nat.zero_add]

theorem keeps_copy_from (within : start ≤ n) (above : low ≤ start) (source : Bytes) :
    Keeps (Between low n) ((⟨start, n - start, 1904 - start⟩ : Slice).copy source) := by
  refine Slice.keeps_copy above ?_ source
  change start + (n - start) ≤ n
  omega

theorem keeps_fixIPChecksum (header : 12 ≤ n) (below : low ≤ 10) :
    Keeps (Between low n) (fixIPChecksum (packet n)) := by
  refine (Slice.keeps_get (by simpa using by omega)).bind fun x => ?_
  refine (keeps_assign header below).bind fun _ => ?_
  rw [packet_sub (Nat.zero_le _) (by omega), pure_bind]
  refine Slice.keeps_bytes.bind fun bytes => ?_
  exact keeps_assign (by simpa using header) below

theorem keeps_fixTransportChecksum (inside : pos + 2 ≤ minimum) (below : low ≤ ihl + pos) :
    Keeps (Between low n) (fixTransportChecksum minimum pos proto (packet n) ihl) := by
  rw [fixTransportChecksum, length_packet]
  split
  · exact Keeps.pure ()
  rename_i long
  refine (keeps_assign (by simpa using by omega) below).bind fun _ => ?_
  rw [packet_sub (by omega) (by omega), pure_bind, packet_sub (by omega) (by omega), pure_bind]
  refine Slice.keeps_bytes.bind fun src => Slice.keeps_bytes.bind fun dst => ?_
  rw [packet_dropFirst (by omega), pure_bind]
  refine Slice.keeps_bytes.bind fun seg => ?_
  exact keeps_assign (by simpa using by omega) below

theorem keeps_swapAddresses (ordered : x ≤ mid) (above : mid ≤ last) (within : last ≤ n)
    (fits : n ≤ 1904) (below : low ≤ x) :
    Keeps (Between low n) (swapAddresses x mid last (packet n)) := by
  rw [swapAddresses, packet_sub ordered (by omega), pure_bind, packet_sub above (by omega),
    pure_bind]
  refine Slice.keeps_bytes.bind fun src => Slice.keeps_bytes.bind fun dst => ?_
  refine (Slice.keeps_copy below ?_ dst).bind fun _ => Slice.keeps_copy ?_ ?_ src
  · change x + (mid - x) ≤ n
    omega
  · change low ≤ mid
    omega
  · change mid + (last - mid) ≤ n
    omega

theorem keeps_writeICMPEchoReply4 (header : 20 ≤ n) (long : ihl + 8 ≤ n) (fits : n ≤ 1904)
    (below : low ≤ ihl) (early : low ≤ 10) :
    Keeps (Between low n) (writeICMPEchoReply4 (packet n) ihl) := by
  refine (keeps_swapAddresses (by omega) (by omega) header fits (by omega)).bind fun _ => ?_
  rw [packet_dropFirst (by omega), pure_bind]
  refine (Slice.keeps_setAll ?_ ?_ ?_).bind fun _ => ?_
  · change 4 ≤ n - ihl
    omega
  · exact below
  · change ihl + 0 + 4 ≤ n
    omega
  refine Slice.keeps_bytes.bind fun bytes => (Slice.keeps_setAll ?_ ?_ ?_).bind fun _ => ?_
  · change 2 + 2 ≤ n - ihl
    omega
  · change low ≤ ihl + 2
    omega
  · change ihl + 2 + 2 ≤ n
    omega
  exact keeps_fixIPChecksum (by omega) early

theorem keeps_writeICMPEchoReply6 (long : 48 ≤ n) (fits : n ≤ 1904) (below : low ≤ 8) :
    Keeps (Between low n) (writeICMPEchoReply6 (packet n)) := by
  refine (keeps_swapAddresses (by omega) (by omega) (by omega) fits below).bind fun _ => ?_
  rw [packet_dropFirst (by omega), pure_bind]
  refine (Slice.keeps_setAll ?_ ?_ ?_).bind fun _ => ?_
  · change 4 ≤ n - 40
    omega
  · change low ≤ 40
    omega
  · change 44 ≤ n
    omega
  rw [packet_sub (by omega) (by omega), pure_bind, packet_sub (by omega) (by omega), pure_bind]
  refine Slice.keeps_bytes.bind fun src => Slice.keeps_bytes.bind fun dst => ?_
  refine Slice.keeps_bytes.bind fun bytes => Slice.keeps_setAll ?_ ?_ ?_
  · change 4 ≤ n - 40
    omega
  · change low ≤ 42
    omega
  · change 44 ≤ n
    omega

/-! ### ICMP errors

The packet must have room for what is quoted, up to the start of the last eight bytes. -/

theorem writes_writeErrorHeader (length : Nat) (swaps : Keeps (Between low n) swap)
    (type code : UInt8) (within : start + 8 ≤ n) (ordered : pos + 2 ≤ start) (below : low ≤ pos) :
    Writes (Between low n) pos (bigEndian 2 length)
      (writeErrorHeader swap pos length start type code (packet n)) := by
  have sized : Writes (Between low n) (0 + pos) (bigEndian 2 length)
      ((packet n).setAll pos (bigEndian 2 length)) := by
    refine Slice.writes_setAll ?_ ?_ ?_
    · rw [length_bigEndian, length_packet]
      omega
    · rw [start_packet]
      omega
    · rw [length_bigEndian, start_packet]
      omega
  rw [Nat.zero_add] at sized
  have marked : Keeps (Between start n) ((packet n).setAll start [type, code, 0, 0, 0, 0, 0, 0]) :=
    keeps_assign within (Nat.le_refl _)
  refine swaps.writes fun _ => sized.bind (fun _ => marked) ?_ (by omega)
  rw [length_bigEndian]
  exact ordered

theorem keeps_quoteICMP4 (header : 20 ≤ n) (long : ihl + 8 + ihl ≤ n) (bound : ihl ≤ 60)
    (below : low ≤ ihl) (early : low ≤ 10) :
    Keeps (Between low n) (quoteICMP4 (packet n) ihl origHdr origIcmp) := by
  rw [quoteICMP4, packet_dropFirst (by omega), pure_bind]
  refine (keeps_copy_from (by omega) (by omega) origHdr).bind fun _ => ?_
  rw [packet_dropFirst long, pure_bind]
  refine (keeps_copy_from (by omega) (by omega) origIcmp).bind fun _ => ?_
  rw [packet_sub (by omega) (by omega), pure_bind]
  refine (keeps_assign ?_ (by omega)).bind fun _ => ?_
  · change ihl + 2 + 2 ≤ n
    omega
  refine Slice.keeps_bytes.bind fun bytes => (keeps_assign ?_ (by omega)).bind fun _ => ?_
  · rw [length_bigEndian]
    omega
  exact keeps_fixIPChecksum (by omega) early

theorem fails_quoteICMP4 (echo : ihl + 8 ≤ n) (short : n < ihl + 8 + ihl) :
    Fails (quoteICMP4 (packet n) ihl origHdr origIcmp) := by
  rw [quoteICMP4, packet_dropFirst echo, pure_bind]
  exact (keeps_copy_from echo (Nat.zero_le _) origHdr).fails fun _ =>
    (Slice.fails_dropFirst short).bind

section

variable {ihl : Nat} (type code : UInt8) (header : 20 ≤ n) (fits : n ≤ 1904) (four : 4 ≤ ihl)

include header fits four

theorem writes_errorHeader4 (echo : ihl + 8 ≤ n) :
    Writes (Between 2 n) 2 (bigEndian 2 (ihl + 8 + ihl + 8))
      (writeErrorHeader (swap4 (packet n)) 2 (ihl + 8 + ihl + 8) ihl type code (packet n)) := by
  have swap : Keeps (Between 2 n) (swap4 (packet n)) :=
    keeps_swapAddresses (by omega) (by omega) header fits (by omega)
  exact writes_writeErrorHeader (ihl + 8 + ihl + 8) swap type code echo four (Nat.le_refl 2)

theorem writes_writeICMPError4 (bound : ihl ≤ 60) (long : ihl + 8 + ihl ≤ n) :
    Writes (Between 2 n) 2 (bigEndian 2 (ihl + 8 + ihl + 8))
      (writeICMPError4 type (packet n) ihl code) := by
  rw [writeICMPError4, packet_sub (by omega) (by omega), pure_bind]
  refine Slice.keeps_bytes.writes fun origHdr => ?_
  rw [packet_sub (by omega) (by omega), pure_bind]
  refine Slice.keeps_bytes.writes fun origIcmp => ?_
  refine (writes_errorHeader4 type code header fits four (by omega)).bind (fun _ => ?_) ?_
    (by omega : 2 ≤ 4)
  · exact keeps_quoteICMP4 header long bound four (by omega)
  · exact Nat.le_refl 4

theorem fails_writeICMPError4 (echo : ihl + 8 ≤ n) (short : n < ihl + 8 + ihl) :
    Fails (writeICMPError4 type (packet n) ihl code) := by
  rw [writeICMPError4, packet_sub (by omega) (by omega), pure_bind]
  refine Slice.fails_after_bytes fun origHdr => ?_
  rw [packet_sub (by omega) (by omega), pure_bind]
  refine Slice.fails_after_bytes fun origIcmp => ?_
  exact (writes_errorHeader4 type code header fits four echo).keeps.fails fun _ =>
    fails_quoteICMP4 echo short

end

theorem keeps_quoteICMP6 (long : 88 ≤ n) (below : low ≤ 42) :
    Keeps (Between low n) (quoteICMP6 (packet n) origHdr origIcmp) := by
  rw [quoteICMP6, packet_dropFirst (by omega), pure_bind]
  refine (keeps_copy_from (by omega) (by omega) origHdr).bind fun _ => ?_
  rw [packet_dropFirst long, pure_bind]
  refine (keeps_copy_from (by omega) (by omega) origIcmp).bind fun _ => ?_
  rw [packet_sub (by omega) (by omega), pure_bind]
  refine (keeps_assign ?_ below).bind fun _ => ?_
  · change 42 + 2 ≤ n
    omega
  rw [packet_sub (by omega) (by omega), pure_bind, packet_sub (by omega) (by omega), pure_bind]
  refine Slice.keeps_bytes.bind fun src => Slice.keeps_bytes.bind fun dst => ?_
  refine Slice.keeps_bytes.bind fun bytes => keeps_assign ?_ below
  rw [length_bigEndian]
  omega

theorem fails_quoteICMP6 (echo : 48 ≤ n) (short : n < 88) :
    Fails (quoteICMP6 (packet n) origHdr origIcmp) := by
  rw [quoteICMP6, packet_dropFirst echo, pure_bind]
  exact (keeps_copy_from echo (Nat.zero_le _) origHdr).fails fun _ =>
    (Slice.fails_dropFirst short).bind

section

variable (type code : UInt8) (fits : n ≤ 1904)

include fits

theorem writes_errorHeader6 (echo : 48 ≤ n) :
    Writes (Between 4 n) 4 (bigEndian 2 (8 + 40 + 8))
      (writeErrorHeader (swap6 (packet n)) 4 (8 + 40 + 8) 40 type code (packet n)) := by
  have swap : Keeps (Between 4 n) (swap6 (packet n)) :=
    keeps_swapAddresses (by omega) (by omega) (by omega) fits (by omega)
  exact writes_writeErrorHeader (8 + 40 + 8) swap type code echo (by omega) (Nat.le_refl 4)

theorem writes_writeICMPError6 (long : 88 ≤ n) :
    Writes (Between 4 n) 4 (bigEndian 2 (8 + 40 + 8)) (writeICMPError6 type (packet n) code) := by
  rw [writeICMPError6, packet_sub (by omega) (by omega), pure_bind]
  refine Slice.keeps_bytes.writes fun origHdr => ?_
  rw [packet_sub (by omega) (by omega), pure_bind]
  refine Slice.keeps_bytes.writes fun origIcmp => ?_
  refine (writes_errorHeader6 type code fits (by omega)).bind (fun _ => ?_) ?_ (by omega : 4 ≤ 6)
  · exact keeps_quoteICMP6 long (by omega)
  · exact Nat.le_refl 6

theorem fails_writeICMPError6 (echo : 48 ≤ n) (short : n < 88) :
    Fails (writeICMPError6 type (packet n) code) := by
  rw [writeICMPError6, packet_sub (by omega) (by omega), pure_bind]
  refine Slice.fails_after_bytes fun origHdr => ?_
  rw [packet_sub (by omega) (by omega), pure_bind]
  refine Slice.fails_after_bytes fun origIcmp => ?_
  exact (writes_errorHeader6 type code fits echo).keeps.fails fun _ => fails_quoteICMP6 echo short

end

end

end Peerscale.Fbvirtun
