import Peerscale.Fbvirtun.Checksums
import Peerscale.Fbvirtun.Handlers

/-! # What ICMP errors quote

An error is built in the buffer of the request. What it quotes is copied to the place where it
belongs as far as the request reaches, so that an error is whole if the request is as long as it.
-/

namespace Peerscale.Fbvirtun

open InBuffer

open OnesComplement (Verifies)

/-- A reply with a header of `start` bytes quotes the header of the request and eight bytes behind
it. The addresses, of `width` bytes from `low` on, have changed places, and the length is set. -/
structure Quotes (low k position length start : Nat) (request reply : Bytes) : Prop where
  header : window reply (start + 8) start = window request 0 start
  message : window reply (start + 8 + start) 8 = window request start 8
  source : window reply low k = window request (low + k) k
  destination : window reply (low + k) k = window request low k
  length : window reply position 2 = bigEndian 2 length

/-- The error for a request of `n` bytes. -/
def quoted (n low k pos length start : Nat) (type code : UInt8) (req : Bytes) : Bytes :=
  let swapped := overwrite (overwrite req low (window req (low + k) k)) (low + k) (window req low k)
  let headed := overwrite (overwrite swapped pos (bigEndian 2 length)) start
    [type, code, 0, 0, 0, 0, 0, 0]
  overwrite (overwrite headed (start + 8) ((window req 0 start).take (n - (start + 8))))
    (start + 8 + start) ((window req start 8).take (n - (start + 8 + start)))

section

variable {n low k pos length start : Nat} {req : Bytes}

section

variable (type code : UInt8) (before : pos + 2 ≤ low) (behind : low + k + k ≤ start)
  (fits : start ≤ req.length)

include before behind fits

theorem addresses_quoted :
    window (quoted n low k pos length start type code req) low k = window req (low + k) k ∧
      window (quoted n low k pos length start type code req) (low + k) k = window req low k := by
  have src := @length_window low k req (by omega)
  have dst := @length_window (low + k) k req (by omega)
  have size := length_bigEndian 2 length
  unfold quoted
  constructor
  · rw [window_overwrite_apart rfl (by omega), window_overwrite_apart rfl (by omega),
      window_overwrite_apart rfl (by omega), window_overwrite_apart size (by omega),
      window_overwrite_apart src (by omega), window_overwrite_same dst (by omega)]
  · rw [window_overwrite_apart rfl (by omega), window_overwrite_apart rfl (by omega),
      window_overwrite_apart rfl (by omega), window_overwrite_apart size (by omega),
      window_overwrite_same src (by simp; omega)]

theorem quotes_quoted (whole : start + 8 + start + 8 ≤ n) (room : n ≤ req.length) :
    Quotes low k pos length start req (quoted n low k pos length start type code req) := by
  have addresses := @addresses_quoted n low k pos length start req type code before behind fits
  have header := @length_window 0 start req (by omega)
  have msg := @length_window start 8 req (by omega)
  refine ⟨?_, ?_, addresses.1, addresses.2, ?_⟩ <;>
    rw [quoted, List.take_of_length_le (by omega), List.take_of_length_le (by omega)]
  · rw [window_overwrite_apart msg (by omega), window_overwrite_same header (by simp; omega)]
  · rw [window_overwrite_same msg (by simp; omega)]
  · rw [window_overwrite_apart msg (by omega), window_overwrite_apart header (by omega),
      window_overwrite_apart rfl (by omega),
      window_overwrite_same (length_bigEndian 2 length) (by simp; omega)]

end

theorem Quotes.sealIn (quotes : Quotes low k pos length start req reply)
    (initial : Nat) (behind : low + k + k ≤ start) (pre : pos + 2 ≤ low)
    (apart : origin + off = start + 2 ∨ pos + 2 ≤ origin + off ∧ origin + off + 2 ≤ low) :
    Quotes low k pos length start req (sealIn reply origin count off initial) where
  header := by rw [window_sealIn_apart (by omega), quotes.header]
  message := by rw [window_sealIn_apart (by omega), quotes.message]
  source := by rw [window_sealIn_apart (by omega), quotes.source]
  destination := by rw [window_sealIn_apart (by omega), quotes.destination]
  length := by rw [window_sealIn_apart (by omega), quotes.length]

end

section

variable {n : Nat} {buf : Bytes} (size : buf.length = bufferSize) (fits : n ≤ bufferSize)

include size fits

theorem swapAddresses_eq {low mid high : Nat} (same : high - mid = mid - low)
    (ordered : low ≤ mid) (above : mid ≤ high) (within : high ≤ n) :
    swapAddresses low mid high (packet n) buf =
      .ok ((), overwrite (overwrite buf low (window buf mid (mid - low))) mid
        (window buf low (mid - low))) := by
  have cap : bufferSize = 1904 := rfl
  have src := @length_window low (mid - low) buf (by omega)
  have dst := @length_window mid (mid - low) buf (by omega)
  rw [swapAddresses, packet_sub ordered (by omega), pure_bind, packet_sub above (by omega),
    pure_bind, same, bind_of_ok (Slice.bytes_eq _ _),
    bind_of_ok (Slice.bytes_eq _ _), bind_of_ok (Slice.copy_eq _ _ _),
    Slice.copy_eq]
  rw [List.take_of_length_le (Nat.le_of_eq dst), List.take_of_length_le (Nat.le_of_eq src)]

theorem writeErrorHeader_eq {low k pos length start : Nat} (type code : UInt8)
    (pre : pos + 2 ≤ low) (behind : low + k + k ≤ start) (long : start + 8 ≤ n) :
    writeErrorHeader (swapAddresses low (low + k) (low + k + k) (packet n)) pos
        length start type code (packet n) buf =
      .ok ((), overwrite (overwrite (overwrite (overwrite buf low
        (window buf (low + k) k)) (low + k) (window buf low k)) pos
        (bigEndian 2 length)) start [type, code, 0, 0, 0, 0, 0, 0]) := by
  have swapped := @swapAddresses_eq n buf size fits low (low + k) (low + k + k)
    (by omega) (by omega) (by omega) (by omega)
  rw [Nat.add_sub_cancel_left] at swapped
  have sized : pos + (bigEndian 2 length).length ≤ (packet n).length := by
    rw [length_bigEndian, length_packet]
    omega
  rw [writeErrorHeader, bind_of_ok swapped, bind_of_ok (Slice.setAll_eq sized _),
    Slice.setAll_eq (by simpa using long), start_packet, Nat.zero_add, Nat.zero_add]

omit size fits in
theorem bytes_bind (ordered : low ≤ high) (within : high ≤ 1904) :
    ((packet n).sub low high >>= fun slice => slice.bytes >>= next) buf =
      next (window buf low (high - low)) buf := by
  rw [packet_sub ordered within, pure_bind, InBuffer.bind_of_ok (Slice.bytes_eq _ _)]

omit size fits in
theorem copy_bind {bytes : Bytes} (within : start ≤ n) :
    ((packet n).dropFirst start >>= fun slice => slice.copy bytes >>= fun _ => next) buf =
      next (overwrite buf start (bytes.take (n - start))) := by
  rw [packet_dropFirst within, pure_bind, InBuffer.bind_of_ok (Slice.copy_eq _ _ _)]

theorem writeICMPError4_eq (type code : UInt8) (isIhl : (buf.getD 0 0).toNat % 16 * 4 = ihl)
    (least : 20 ≤ ihl) (long : ihl + 8 + ihl + 8 ≤ n) :
    writeICMPError4 type (packet n) ihl code buf =
      .ok ((), sealIn (sealIn (quoted n 12 4 2 (ihl + 8 + ihl + 8) ihl type code buf) ihl
        (8 + ihl + 8) 2 0) 0 ihl 10 0) := by
  have cap : bufferSize = 1904 := rfl
  have headed := @writeErrorHeader_eq n buf size fits 12 4 2 (ihl + 8 + ihl + 8) ihl type code
    (by decide) (by omega) (by omega)
  have quotedSize : (quoted n 12 4 2 (ihl + 8 + ihl + 8) ihl type code buf).length = 1904 := by
    simp [quoted, size, cap]
  have sealedOnce := @overwrite_eq_sealIn (quoted n 12 4 2 (ihl + 8 + ihl + 8) ihl type code buf)
    ihl (8 + ihl + 8) 2 (by omega) (by omega) 0
  rw [writeICMPError4, bytes_bind (by omega) (by omega), Nat.sub_zero,
    bytes_bind (by omega) (by omega), Nat.add_sub_cancel_left, swap4, bind_of_ok headed,
    quoteICMP4, copy_bind (by omega), copy_bind (by omega), packet_sub (by omega) (by omega),
    pure_bind, bind_of_ok (Slice.setAll_eq (by simp; omega) _),
    bind_of_ok (Slice.bytes_eq _ _),
    bind_of_ok (Slice.setAll_eq (by simp [length_bigEndian]; omega) _), start_packet,
    Nat.zero_add, Nat.add_sub_cancel_left]
  refine (congrArg (fixIPChecksum (packet n)) sealedOnce).trans (Whole.fixIPChecksum_eq
    ⟨?_, least, by simp; omega, by simp; omega, by simp; omega, ?_⟩)
  · simp (disch := omega) only [start_packet, sealIn, quoted, getD_overwrite_of_lt, isIhl]
  · simp [sealIn, quotedSize]
    omega

theorem writeICMPError6_eq (type code : UInt8) (long : 88 ≤ n) :
    writeICMPError6 type (packet n) code buf =
      .ok ((), sealIn (quoted n 8 16 4 56 40 type code buf) 40 56 2
        (pseudoChecksum6 (window buf 24 16) (window buf 8 16) 58 56)) := by
  have cap : bufferSize = 1904 := rfl
  have headed := @writeErrorHeader_eq n buf size fits 8 16 4 56 40 type code (by decide)
    (by decide) (by omega)
  have addresses := @addresses_quoted n 8 16 4 56 40 buf type code (by decide) (by decide)
    (by omega)
  have quotedSize : (quoted n 8 16 4 56 40 type code buf).length = 1904 := by
    simp [quoted, size, cap]
  have source := (@window_overwrite_apart 8 16 (quoted n 8 16 4 56 40 type code buf) [0, 0]
    (40 + 2) 2 rfl (by decide)).trans addresses.1
  have destination := (@window_overwrite_apart 24 16 (quoted n 8 16 4 56 40 type code buf) [0, 0]
    (40 + 2) 2 rfl (by decide)).trans addresses.2
  have sealedOnce := @overwrite_eq_sealIn (quoted n 8 16 4 56 40 type code buf) 40 56 2
    (by omega) (by omega) (pseudoChecksum6
      (window (overwrite (quoted n 8 16 4 56 40 type code buf) (40 + 2) [0, 0]) 8 16)
      (window (overwrite (quoted n 8 16 4 56 40 type code buf) (40 + 2) [0, 0]) 24 16) 58 56)
  rw [writeICMPError6, bytes_bind (by omega) (by omega), bytes_bind (by omega) (by omega), swap6,
    bind_of_ok headed, quoteICMP6, copy_bind (by omega), copy_bind (by omega),
    packet_sub (by omega) (by omega), pure_bind,
    bind_of_ok (Slice.setAll_eq (by simp; omega) _), packet_sub (by omega) (by omega),
    pure_bind, packet_sub (by omega) (by omega), pure_bind,
    bind_of_ok (Slice.bytes_eq _ _), bind_of_ok (Slice.bytes_eq _ _),
    bind_of_ok (Slice.bytes_eq _ _),
    Slice.setAll_eq (by simp [length_bigEndian]; omega)]
  exact congrArg (fun post => Except.ok ((), post)) (sealedOnce.trans (by rw [source, destination]))

end

structure Quotes4 (ihl : Nat) (request reply : Bytes) : Prop extends
    Quotes 12 4 2 (ihl + 8 + ihl + 8) ihl request reply where
  headerChecksum : Verifies (window reply 0 ihl)
  icmpChecksum : Verifies (window reply ihl (8 + ihl + 8))

/-- The last byte that an error for a shorter request quotes is one that the buffer held before. -/
theorem long_of_quotes {start : Nat} {data : Bytes} {write : InBuffer Unit}
    (echo : start + 8 ≤ data.length) (bound : start ≤ 60) (fits : data.length ≤ bufferSize)
    (keeps : start + 8 + start ≤ data.length → Keeps (Between 2 data.length) write)
    (fails : data.length < start + 8 + start → Fails write)
    (quotes : ∀ buffer, Holds data buffer → ∃ reply, write buffer = .ok ((), reply) ∧
      window reply (start + 8 + start) 8 = window buffer start 8) :
    start + 8 + start + 8 ≤ data.length := by
  by_contra short
  have capacity : bufferSize = 1904 := rfl
  let other : UInt8 := if data.getD (start + 7) 0 = 0 then 1 else 0
  have holds : Holds data (data ++ List.replicate (bufferSize - data.length) other) :=
    ⟨by simp; omega, fun index within => List.getElem?_append_left within⟩
  rcases quotes _ holds with ⟨reply, ran, message⟩
  by_cases room : start + 8 + start ≤ data.length
  · have kept := ((keeps room).touches ran).elsewhere (start + 8 + start + 7) fun inside => by
      have := inside.2
      omega
    rw [List.getElem?_append_right (by omega), List.getElem?_replicate, if_pos (by omega)] at kept
    have same := congrArg (·[7]?) message
    simp only [window, List.getElem?_take_of_lt (show 7 < 8 by decide), List.getElem?_drop] at same
    rw [kept, holds.same (start + 7) (by omega)] at same
    have last : data.getD (start + 7) 0 = other := by
      rw [List.getD_eq_getElem?_getD, ← same]
      rfl
    grind
  · rcases fails (Nat.lt_of_not_le room) _ with ⟨panic, panicked⟩
    rw [ran] at panicked
    cases panicked

theorem quotes4_iff {data : Bytes} (fits : data.length ≤ bufferSize) (type code : UInt8)
    (isIhl : (data.getD 0 0).toNat % 16 * 4 = ihl) (least : 20 ≤ ihl)
    (echo : ihl + 8 ≤ data.length) :
    (∀ buffer, Holds data buffer → ∃ reply,
        writeICMPError4 type (packet data.length) ihl code buffer = .ok ((), reply) ∧
          Quotes4 ihl buffer reply) ↔
      ihl + 8 + ihl + 8 ≤ data.length := by
  constructor
  · intro quotes
    refine long_of_quotes echo (by omega) fits ?_
      (fails_writeICMPError4 type code (by omega) fits (by omega) echo) fun buffer holds => ?_
    · intro room
      exact (writes_writeICMPError4 type code (by omega) fits (by omega) (by omega) room).keeps
    rcases quotes buffer holds with ⟨reply, ran, quotes⟩
    exact ⟨reply, ran, quotes.message⟩
  intro long buffer holds
  have size := holds.size
  have capacity : bufferSize = 1904 := rfl
  rw [← holds.getD (by omega)] at isIhl
  have quotedSize : (quoted data.length 12 4 2 (ihl + 8 + ihl + 8) ihl type code
      buffer).length = 1904 := by
    simp [quoted, size, capacity]
  have quotes := @quotes_quoted data.length 12 4 2 (ihl + 8 + ihl + 8) ihl buffer type code
    (by decide) (by omega) (by omega) long (by omega)
  refine ⟨_, writeICMPError4_eq size fits type code isIhl least long, ?_, ?_, ?_⟩
  · exact (quotes.sealIn 0 (by omega) (by decide) (.inl rfl)).sealIn 0 (by omega) (by decide)
      (.inr ⟨by decide, by decide⟩)
  · exact verifies_window_sealIn (by omega) (by simp [sealIn]; omega) rfl (by omega)
  · rw [window_sealIn_apart (by omega)]
    exact verifies_window_sealIn (by omega) (by omega) rfl (by omega)

theorem quotes6_iff {data : Bytes} (fits : data.length ≤ bufferSize) (type code : UInt8)
    (echo : 48 ≤ data.length) :
    (∀ buffer, Holds data buffer → ∃ reply,
        writeICMPError6 type (packet data.length) code buffer = .ok ((), reply) ∧
          Quotes 8 16 4 56 40 buffer reply) ↔
      96 ≤ data.length := by
  constructor
  · intro quotes
    refine @long_of_quotes 40 _ _ echo (by decide) fits ?_
      (fails_writeICMPError6 type code fits echo) fun buffer holds => ?_
    · intro room
      exact (writes_writeICMPError6 type code fits room).keeps.mono fun _ =>
        Between.mono (by decide)
    rcases quotes buffer holds with ⟨reply, ran, quotes⟩
    exact ⟨reply, ran, quotes.message⟩
  intro long buffer holds
  have size := holds.size
  have capacity : bufferSize = 1904 := rfl
  exact ⟨_, writeICMPError6_eq size fits type code (by omega),
    (quotes_quoted type code (by decide) (by decide) (by omega) long (by omega)).sealIn _
      (by decide) (by decide) (.inl rfl)⟩

/-- Whatever the buffer holds behind the request, the error quotes the request, exactly if the
request is as long as the error. -/
theorem errors_quote_iff {data : Bytes} (fits : data.length ≤ bufferSize) (code : UInt8) :
    (∀ ihl, (data.getD 0 0).toNat % 16 * 4 = ihl → 20 ≤ ihl → ihl + 8 ≤ data.length →
      ∀ write ∈ [writeICMPDestUnreach4, writeICMPTimeExceed4],
        ((∀ buffer, Holds data buffer → ∃ reply,
            write (packet data.length) ihl code buffer = .ok ((), reply) ∧
              Quotes4 ihl buffer reply) ↔
          ihl + 8 + ihl + 8 ≤ data.length)) ∧
      (48 ≤ data.length → ∀ write ∈ [writeICMPDestUnreach6, writeICMPTimeExceed6],
        ((∀ buffer, Holds data buffer → ∃ reply,
            write (packet data.length) code buffer = .ok ((), reply) ∧
              Quotes 8 16 4 56 40 buffer reply) ↔
          96 ≤ data.length)) := by
  constructor
  · intro ihl isIhl least echo write member
    rcases List.mem_pair.mp member with rfl | rfl
    · exact quotes4_iff fits 3 code isIhl least echo
    · exact quotes4_iff fits 11 code isIhl least echo
  intro echo write member
  rcases List.mem_pair.mp member with rfl | rfl
  · exact quotes6_iff fits 1 code echo
  · exact quotes6_iff fits 3 code echo

def echoRequest : Bytes :=
  0x45 :: List.replicate 19 0 ++ 8 :: List.replicate 7 1 ++ List.replicate 1876 0

theorem errors_quote_echoRequest :
    ∃ reply, writeICMPDestUnreach4 (packet 56) 20 1 echoRequest = .ok ((), reply) ∧
      Quotes4 20 echoRequest reply := by
  have holds : Holds (echoRequest.take 56) echoRequest := by
    refine ⟨by decide +kernel, fun index within => (List.getElem?_take_of_lt ?_).symm⟩
    exact (List.length_take ▸ within).trans_le (Nat.min_le_left ..)
  exact ((@errors_quote_iff (echoRequest.take 56) (by decide) 1).1 20 rfl (Nat.le_refl 20)
    (by decide) _ List.mem_cons_self).mpr (by decide) echoRequest holds

/-- The error for an echo request of 48 bytes quotes what is left from another packet, and there is
none for a shorter one. -/
theorem errors_quote_leftovers :
    (writeICMPDestUnreach4 (packet 48) 20 1 echoRequest).map
        (fun done => window done.2 48 8) = .ok (List.replicate 8 0) ∧
      window echoRequest 20 8 = 8 :: List.replicate 7 1 ∧
      (writeICMPDestUnreach4 (packet 47) 20 1 echoRequest).isOk = false := by
  decide +kernel

end Peerscale.Fbvirtun
