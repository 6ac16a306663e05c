import Peerscale.RelayFile.Following
import Peerscale.RelayFile.Integrity

/-! # Resuming a transfer

A receiver that finds a `.part` file goes on after the chunks it seems to hold. A
partial chunk at its end is counted as whole, so what the resumed transfer leaves
is the file itself only where the missing part of that chunk does not matter.
-/

namespace Peerscale.RelayFile

open Program

def resumedEvents (library : Library) (outgoing : Outgoing) (startSeq : Nat) : List Event :=
  (List.range' startSeq (outgoing.totalChunks - startSeq)).map
    (fun seq => .frame (outgoing.dataFrame library seq)) ++
    [.frame (outgoing.finFrame library)]

def Completed (outgoing : Outgoing) (config : Config) (world : World) : Prop :=
  Reply.done ∈ world.self.sent ∧
    world.files.read (finalPath config outgoing.name) = some outgoing.bytes

def chunkBoundary (length : Nat) : Nat := pieceCount chunkSize length * chunkSize

/-- From where a transfer can be resumed: at the end of a chunk, at the end of the
file, or within a chunk that goes on with zeros and is not the last one. -/
def Resumable (bytes : Bytes) (length : Nat) : Prop :=
  length % chunkSize = 0 ∨ length = bytes.length ∨ (chunkBoundary length < bytes.length ∧
      ∀ byte ∈ (bytes.drop length).take (chunkBoundary length - length), byte = 0)

section Bytes

theorem le_chunkBoundary (length : Nat) : length ≤ chunkBoundary length :=
  le_pieceCount_mul Outgoing.chunkSize_pos length

theorem chunkBoundary_eq_iff (length : Nat) :
    chunkBoundary length = length ↔ length % chunkSize = 0 := by
  have division := Nat.div_add_mod length chunkSize
  have remainder := Nat.mod_lt length Outgoing.chunkSize_pos
  rw [Nat.mul_comm] at division
  unfold chunkBoundary pieceCount
  split
  · rw [Nat.add_mul]
    omega
  · omega

theorem resumed_eq_iff_of_le (shorter : length ≤ bytes.length)
    (last : bytes.length ≤ chunkBoundary length) :
    splice (bytes.take length) (chunkBoundary length) (bytes.drop (chunkBoundary length)) =
      bytes ↔ length = bytes.length := by
  rw [List.drop_eq_nil_of_le last, splice_nil]
  constructor
  · intro eq
    have lengths := congrArg List.length eq
    rw [List.length_take] at lengths
    omega
  · intro complete
    exact List.take_of_length_le (by omega)

theorem resumed_eq_iff_of_lt (inner : chunkBoundary length < bytes.length) :
    splice (bytes.take length) (chunkBoundary length) (bytes.drop (chunkBoundary length)) = bytes ↔
      ∀ byte ∈ (bytes.drop length).take (chunkBoundary length - length), byte = 0 := by
  have boundary := le_chunkBoundary length
  have taken : (bytes.take length).length = length := by
    rw [List.length_take]
    omega
  have remaining : bytes.drop (chunkBoundary length) ≠ [] := by
    rw [Ne, List.drop_eq_nil_iff]
    omega
  have split : bytes =
      bytes.take length ++ (bytes.drop length).take (chunkBoundary length - length) ++
        bytes.drop (chunkBoundary length) := by
    rw [List.append_assoc, show bytes.drop (chunkBoundary length) =
      (bytes.drop length).drop (chunkBoundary length - length) by
        rw [List.drop_drop, Nat.add_sub_cancel' boundary], List.take_append_drop,
      List.take_append_drop]
  have k : ((bytes.drop length).take (chunkBoundary length - length)).length =
      chunkBoundary length - length := by
    rw [List.length_take, List.length_drop]
    omega
  rw [splice_of_length_le (by omega) remaining, taken]
  constructor
  · intro eq
    have same := eq.trans split
    rw [List.append_left_inj, List.append_right_inj] at same
    intro byte mem
    rw [← same] at mem
    exact List.eq_of_mem_replicate mem
  intro zeros
  have filled := List.eq_replicate_iff.mpr ⟨k, zeros⟩
  rw [← filled]
  exact split.symm

theorem resumed_eq_iff_resumable (shorter : length ≤ bytes.length) :
    splice (bytes.take length) (chunkBoundary length) (bytes.drop (chunkBoundary length)) =
      bytes ↔ Resumable bytes length := by
  have boundary := le_chunkBoundary length
  have whole := chunkBoundary_eq_iff length
  by_cases inner : chunkBoundary length < bytes.length
  · rw [resumed_eq_iff_of_lt inner]
    constructor
    · intro zeros
      exact .inr (.inr ⟨inner, zeros⟩)
    rintro (aligned | complete | ⟨-, zeros⟩)
    · rw [whole.mpr aligned]
      simp
    · omega
    · exact zeros
  rw [resumed_eq_iff_of_le shorter (by omega)]
  constructor
  · intro complete
    exact .inr (.inl complete)
  rintro (aligned | complete | ⟨inside, -⟩)
  · have aligned := whole.mpr aligned
    omega
  · exact complete
  · omega

end Bytes

section Transfer

variable {library : Library} {outgoing : Outgoing} {config : Config} {offset : Int64}
  {files : Files}

theorem resumedEvents_eq (start : Nat) :
    resumedEvents library outgoing start =
      ((List.range' start (outgoing.totalChunks - start)).map some).map
        (deliveryEvent library outgoing) ++ [.frame (outgoing.finFrame library)] := by
  rw [List.map_map]
  rfl

theorem Represents.completed_iff (represents : Represents outgoing config base asm ses w)
    (repeated : (library.unmarshalFin (library.marshalFin outgoing.finMessage)).checksum =
      outgoing.checksum) (noDone : Reply.done ∉ w.self.sent) (cb : Bool) (startSeq lastAck : Int) :
    Completed outgoing config (((Receiver.receiving ses cb startSeq lastAck).receive library config
          (.frame (outgoing.finFrame library))).run handle w).2 ↔
      heldBytes outgoing base asm = outgoing.bytes := by
  rcases represents.fin repeated cb startSeq lastAck with ⟨ending, post, ran, delivers, refuses⟩
  rw [ran, Completed]
  by_cases certified : Certifies outgoing.checksum (heldBytes outgoing base asm)
  · rcases delivers certified with ⟨-, found, sent⟩
    rw [found, sent, Option.some.injEq]
    simp
  rcases refuses certified with ⟨-, why, sent⟩
  constructor
  · rintro ⟨mem, -⟩
    rw [sent] at mem
    simp [noDone] at mem
  intro eq
  rw [eq] at certified
  exact absurd rfl certified

/-- A resumed transfer ends well exactly from resumable lengths. -/
theorem resume_completed_iff {length : Nat} (asked : 0 < offset.toInt)
    (part : files.read (tmpPath config outgoing.name) = some (outgoing.bytes.take length))
    (shorter : length ≤ outgoing.bytes.length) (lossless : outgoing.Lossless library)
    (repeated : (library.unmarshalFin (library.marshalFin outgoing.finMessage)).checksum =
      outgoing.checksum) (callback : Bool) :
    ((handleFileStream config (outgoing.initMessage offset)).run handle
        ⟨files, Local.fresh callback⟩).2.self.sent = [.accept (pieceCount chunkSize length)] ∧
    (Completed outgoing config ((session library config (outgoing.initMessage offset)
            (resumedEvents library outgoing (pieceCount chunkSize length))).run handle
          ⟨files, Local.fresh callback⟩).2 ↔
      Resumable outgoing.bytes length) := by
  rcases Option.map_eq_some_iff.mp part with ⟨inode, linked, content⟩
  have size : (outgoing.bytes.take length).length = length := by
    rw [List.length_take]
    omega
  have start_le : pieceCount chunkSize length ≤ outgoing.totalChunks :=
    pieceCount_mono Outgoing.chunkSize_pos shorter
  rcases @accepted_of_linked outgoing config offset files callback inode _ asked linked length
    content size start_le with ⟨ses, opened, handled, accepted⟩
  have ordered : ((List.range' (pieceCount chunkSize length)
      (outgoing.totalChunks - pieceCount chunkSize length)).map some).reduceOption =
        List.range' (pieceCount chunkSize length)
          (outgoing.totalChunks - pieceCount chunkSize length) := by
    simp [List.reduceOption]
  rcases accepted.receiveAll lossless ordered (by omega) callback with
    ⟨assembly, next, after, ran, represents, started, inOrder, sent, -⟩
  have rest : (outgoing.bytes.drop (pieceCount chunkSize length * chunkSize)).take
      ((outgoing.totalChunks - pieceCount chunkSize length) * chunkSize) =
        outgoing.bytes.drop (pieceCount chunkSize length * chunkSize) := by
    have covered := le_pieceCount_mul Outgoing.chunkSize_pos outgoing.bytes.length
    apply List.take_of_length_le
    rw [List.length_drop, Nat.sub_mul]
    unfold Outgoing.totalChunks
    omega
  constructor
  · rw [handled]
    exact accepted.sent
  rw [run_session handled, resumedEvents_eq, run_receiveAll_append ran, receiveAll_singleton,
    represents.completed_iff repeated (by rw [sent]; simp [acks]), heldBytes_inOrder inOrder,
    started, rest]
  exact resumed_eq_iff_resumable shorter

def greeting : Outgoing := ⟨ascii "greeting.txt", ascii "hi", .none, by decide⟩

def filesWithPart (bytes : Bytes) : Files :=
  let created := FileSystem.empty.create (tmpPath greetingConfig greeting.name)
  created.2.write created.1 bytes

theorem Library.ofTransfer_fin (outgoing : Outgoing) (offset : Int64) :
    ((Library.ofTransfer (outgoing.initMessage offset)).unmarshalFin
      ((Library.ofTransfer (outgoing.initMessage offset)).marshalFin
        outgoing.finMessage)).checksum = outgoing.checksum := by
  simp [Library.ofTransfer, Outgoing.finMessage, Outgoing.initMessage]

theorem read_filesWithPart (bytes : Bytes) :
    (filesWithPart bytes).read (tmpPath greetingConfig greeting.name) = some bytes :=
  congrArg some (splice_length [] bytes)

def twoChunks : Outgoing where
  name := greeting.name
  bytes := List.replicate chunkSize 0 ++ [1]
  compression := .none
  fits := by
    rw [List.length_append, List.length_replicate]
    decide

theorem resume_completed_from_first_chunk :
    Completed twoChunks greetingConfig
      ((session (.ofTransfer (twoChunks.initMessage 65536)) greetingConfig
          (twoChunks.initMessage 65536)
          (resumedEvents (.ofTransfer (twoChunks.initMessage 65536)) twoChunks
            (pieceCount chunkSize chunkSize))).run handle
        ⟨filesWithPart (List.replicate chunkSize 0), Local.fresh false⟩).2 := by
  have part : (filesWithPart (List.replicate chunkSize 0)).read
      (tmpPath greetingConfig twoChunks.name) = some (twoChunks.bytes.take chunkSize) := by
    rw [twoChunks, List.take_left' List.length_replicate]
    exact read_filesWithPart _
  have shorter : chunkSize ≤ twoChunks.bytes.length := by
    rw [twoChunks, List.length_append, List.length_replicate]
    exact Nat.le_add_right _ _
  exact (resume_completed_iff (by decide) part shorter nofun
    (Library.ofTransfer_fin twoChunks 65536) false).2.mpr (.inl (Nat.mod_self _))

/-- One byte of two is counted as the whole chunk: nothing more is sent, and the
checksum refuses what is there. -/
theorem not_resume_completed_from_first_byte :
    (filesWithPart (ascii "h")).read (tmpPath greetingConfig greeting.name) =
        some (greeting.bytes.take 1) ∧
      ((handleFileStream greetingConfig (greeting.initMessage 1)).run handle
        ⟨filesWithPart (ascii "h"), Local.fresh false⟩).2.self.sent = [.accept 1] ∧
      ¬Completed greeting greetingConfig
        ((session (.ofTransfer (greeting.initMessage 1)) greetingConfig (greeting.initMessage 1)
            (resumedEvents (.ofTransfer (greeting.initMessage 1)) greeting 1)).run handle
          ⟨filesWithPart (ascii "h"), Local.fresh false⟩).2 := by
  refine ⟨by decide, by decide +kernel, fun completed => ?_⟩
  have refused : Reply.done ∉ ((session (.ofTransfer (greeting.initMessage 1)) greetingConfig
      (greeting.initMessage 1) (resumedEvents (.ofTransfer (greeting.initMessage 1)) greeting
        1)).run handle ⟨filesWithPart (ascii "h"), Local.fresh false⟩).2.self.sent := by
    decide +kernel
  exact refused completed.1

end Transfer

end Peerscale.RelayFile
