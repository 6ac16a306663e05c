import Peerscale.Fbvirtun.Checksums6

/-! # Datagrams that return through a flow

A packet for the device is built around each datagram that the connection of a flow delivers.
What the device gets is a copy of it in a buffer for the MTU.
-/

namespace Peerscale.Fbvirtun

open List

/-- The part of `udpFlow4` and `udpFlow6` that a packet is built from, with addresses of `width`
bytes. -/
structure UdpFlow (k : Nat) where
  clientIP : Bytes
  clientPort : UInt16
  serverIP : Bytes
  serverPort : UInt16
  client_length : clientIP.length = k
  server_length : serverIP.length = k

namespace UdpFlow

variable {k : Nat} (flow : UdpFlow k)

def udpData (dgram : Bytes) : Bytes :=
  bigEndian 2 flow.serverPort.toNat ++ bigEndian 2 flow.clientPort.toNat ++
    bigEndian 2 (8 + dgram.length) ++ [0, 0] ++ dgram

/-- The loop with all that `Read` returns, one datagram at a time. -/
def udpReadLoop (build : Bytes → Bytes → Bytes → Except Panic Bytes) (reads : List Bytes) :
    Except Panic (List Bytes) :=
  reads.mapM fun dgram => do
    return writeTun (← build flow.serverIP flow.clientIP (flow.udpData dgram))

end UdpFlow

def udpReadLoop4 (flow : UdpFlow 4) (reads : List Bytes) : Except Panic (List Bytes) :=
  flow.udpReadLoop buildUDP4 reads

def udpReadLoop6 (flow : UdpFlow 16) (reads : List Bytes) : Except Panic (List Bytes) :=
  flow.udpReadLoop buildUDP6 reads

/-- A packet with an IP header of `start` bytes carries the datagram. The length in the IP header,
which leaves out `uncounted` bytes, and the one in the UDP header are those of the packet. -/
structure Complete (start position uncounted : Nat) (datagram packet : Bytes) : Prop where
  size : packet.length = start + 8 + datagram.length
  ipLength : uncounted + ofBigEndian (window packet position 2) = packet.length
  udpLength : start + ofBigEndian (window packet (start + 4) 2) = packet.length
  payload : packet.drop (start + 8) = datagram

section

variable {k : Nat} {dgram : Bytes}

theorem Complete.writeTun_iff {pkt : Bytes} (complete : Complete start pos uncounted dgram pkt) :
    Complete start pos uncounted dgram (writeTun pkt) ↔ start + 8 + dgram.length ≤ bufferSize := by
  constructor
  · intro whole
    have size := whole.size
    rw [writeTun, length_take] at size
    omega
  · intro fits
    rwa [writeTun, take_of_length_le (by rw [complete.size]; exact fits)]

theorem length_udpData (flow : UdpFlow k) : (flow.udpData dgram).length = 8 + dgram.length := by
  simp [UdpFlow.udpData]
  omega

theorem complete_append (flow : UdpFlow k) {ip : Bytes} (psum : Nat)
    (header : ip.length = start) (pre : pos + 2 ≤ start) (short : dgram.length ≤ 65507)
    (counted : uncounted + ofBigEndian (window ip pos 2) = start + 8 + dgram.length) :
    Complete start pos uncounted dgram (ip ++ sealed 6 psum (flow.udpData dgram)) := by
  have size := @length_udpData k dgram flow
  have field : window (sealed 6 psum (flow.udpData dgram)) 4 2 =
      bigEndian 2 (8 + dgram.length) := by
    rw [sealed, window_overwrite_apart (length_bigEndian 2 _) (by decide),
      window_overwrite_apart rfl (by decide), UdpFlow.udpData, append_assoc _ [0, 0],
      window_append (by simp) (by simp)]
  have rest : (sealed 6 psum (flow.udpData dgram)).drop 8 = dgram := by
    rw [sealed, overwrite_overwrite (by simp; omega) (length_bigEndian 2 _),
      overwrite_eq (by simp; omega), drop_left' (by simp; omega), length_bigEndian,
      UdpFlow.udpData, drop_left' (by simp)]
  have whole : (ip ++ sealed 6 psum (flow.udpData dgram)).length = start + 8 + dgram.length := by
    rw [length_append, length_sealed, size]
    omega
  refine ⟨whole, ?_, ?_, ?_⟩
  · rw [whole, ← counted, window, drop_append_of_le_length (by omega),
      take_append_of_le_length (by rw [length_drop]; omega)]
    rfl
  · rw [whole, window, ← header, drop_append, drop_of_length_le (by omega),
      Nat.add_sub_cancel_left, nil_append, ← window, field,
      ofBigEndian_bigEndian (by omega)]
    omega
  · rw [← header, drop_append, drop_of_length_le (by omega), Nat.add_sub_cancel_left, nil_append,
      rest]

theorem UdpFlow.udpReadLoop_eq (flow : UdpFlow k) (builds : ∀ dgram ∈ reads, ∃ pkt,
      build flow.serverIP flow.clientIP (flow.udpData dgram) = .ok pkt ∧
        Complete start pos uncounted dgram pkt) :
    ∃ packets, flow.udpReadLoop build reads = .ok packets ∧
      (List.Forall₂ (Complete start pos uncounted) reads packets ↔
        ∀ dgram ∈ reads, start + 8 + dgram.length ≤ bufferSize) := by
  induction reads with
  | nil => exact ⟨[], rfl, by simp⟩
  | cons dgram reads ih =>
    obtain ⟨pkt, built, complete⟩ := builds dgram mem_cons_self
    obtain ⟨packets, loop, iff⟩ := ih fun other mem => builds other (mem_cons_of_mem dgram mem)
    refine ⟨writeTun pkt :: packets, ?_, ?_⟩
    · rw [udpReadLoop] at loop ⊢
      rw [mapM_cons, built, loop]
      rfl
    · rw [forall₂_cons, complete.writeTun_iff, iff, forall_mem_cons]

end

/-- A datagram returns in a complete packet if the packet fits into the buffer. -/
theorem returns_complete_iff (reads : List Bytes) :
    ((∀ datagram ∈ reads, datagram.length ≤ 65507) → ∀ flow : UdpFlow 4,
      ∃ packets, udpReadLoop4 flow reads = .ok packets ∧
        (List.Forall₂ (Complete 20 2 0) reads packets ↔
          ∀ datagram ∈ reads, 28 + datagram.length ≤ bufferSize)) ∧
    ((∀ datagram ∈ reads, datagram.length ≤ 65507) → ∀ flow : UdpFlow 16,
      ∃ packets, udpReadLoop6 flow reads = .ok packets ∧
        (List.Forall₂ (Complete 40 4 40) reads packets ↔
          ∀ datagram ∈ reads, 48 + datagram.length ≤ bufferSize)) := by
  constructor
  · intro short flow
    refine flow.udpReadLoop_eq fun datagram member => ?_
    have small := short datagram member
    have size := @length_udpData 4 datagram flow
    have long : 6 + 2 ≤ (flow.udpData datagram).length := by omega
    refine ⟨_, build4_eq 17 flow.serverIP flow.clientIP long,
      complete_append flow _ ?_ (by decide) small ?_⟩
    · simp [clearedHeader4, flow.server_length, flow.client_length]
    rw [window_overwrite_apart (length_bigEndian 2 _) (by decide), clearedHeader4,
      append_assoc _ flow.serverIP, append_assoc _ _ (flow.serverIP ++ flow.clientIP),
      window_append (by simp) (length_bigEndian 2 _), ofBigEndian_bigEndian (by omega), size]
    omega
  intro short flow
  refine flow.udpReadLoop_eq fun datagram member => ?_
  have small := short datagram member
  have size := @length_udpData 16 datagram flow
  have long : 6 + 2 ≤ (flow.udpData datagram).length := by omega
  refine ⟨_, build6_eq 17 flow.serverIP flow.clientIP long,
    complete_append flow _ ?_ (by decide) small ?_⟩
  · simp [header6, flow.server_length, flow.client_length]
  rw [header6, append_assoc _ flow.serverIP, append_assoc _ _ (flow.serverIP ++ flow.clientIP),
    window_append (by simp) (length_bigEndian 2 _), ofBigEndian_bigEndian (by omega), size]
  omega

def nameserver : UdpFlow 4 :=
  ⟨[10, 0, 0, 1], 4000, [10, 0, 0, 9], 53, rfl, rfl⟩

theorem returns_truncated :
    ∃ packet, udpReadLoop4 nameserver [List.replicate 1877 1] = .ok [packet] ∧
      packet.length = 1904 ∧ ofBigEndian (window packet 2 2) = 1905 ∧
      ¬ Complete 20 2 0 (List.replicate 1877 1) packet := by
  have lengths : (udpReadLoop4 nameserver [List.replicate 1877 1]).map
      (fun packets => packets.map fun packet =>
        (packet.length, ofBigEndian (window packet 2 2))) = .ok [(1904, 1905)] := by
    decide +kernel
  cases loop : udpReadLoop4 nameserver [List.replicate 1877 1] with
  | error =>
    rw [loop] at lengths
    cases lengths
  | ok =>
    rw [loop] at lengths
    obtain ⟨packet, rfl, fields⟩ := map_eq_singleton_iff.mp (Except.ok.inj lengths)
    obtain ⟨short, stated⟩ := Prod.mk.inj fields
    refine ⟨packet, rfl, short, stated, fun complete => ?_⟩
    have same := complete.ipLength
    omega

end Peerscale.Fbvirtun
