import Peerscale.Foundation.ByteStream
import Peerscale.RelayFile.Wire

/-! # RelayFile frames in a stream

A frame is its length, its type and its payload, one after the other. Whatever the pieces in
which a stream delivers them, frames are read as they have been written.
-/

namespace Peerscale.RelayFile

inductive FramePart
  | len
  | type
  | payload
  deriving DecidableEq

structure FrameError where
  part : FramePart
  err : StreamError
  deriving DecidableEq

def Frame.writes (frame : Frame) : List (FramePart × Bytes) :=
  [(.len, bigEndian 4 (frame.payload.length % 2 ^ 32)), (.type, [frame.typ])] ++
    if frame.payload.length > 0 then [(.payload, frame.payload)] else []

/-- `frameWrite`, with the part that could not be written. -/
def frameWrite (writer : Writer) (frame : Frame) : Option FramePart × Writer :=
  writer.writeAll frame.writes

def writeFrames (writer : Writer) : List Frame → Option FramePart × Writer
  | [] => (none, writer)
  | frame :: frames =>
    match frameWrite writer frame with
    | (some part, writer) => (some part, writer)
    | (none, writer) => writeFrames writer frames

def Written (frames : List Frame) (bytes : Bytes) : Prop :=
  ∃ room after, writeFrames ⟨[], room⟩ frames = (none, after) ∧ after.written = bytes

def Frame.bytes (frame : Frame) : Bytes :=
  bigEndian 4 (frame.payload.length % 2 ^ 32) ++ ([frame.typ] ++ frame.payload)

@[simp] theorem Frame.length_bytes (frame : Frame) :
    frame.bytes.length = frame.payload.length + 5 := by
  simp [Frame.bytes, Nat.add_comm]

theorem Frame.payload_writes (frame : Frame) : Writer.payload frame.writes = frame.bytes := by
  rw [Frame.writes, Frame.bytes, Writer.payload]
  split
  · simp
  rename_i empty
  have none : frame.payload = [] := List.length_eq_zero_iff.mp (by omega)
  simp [none]

theorem written_writeFrames (all : writeFrames wr frames = (none, post)) :
    post.written = wr.written ++ frames.flatMap Frame.bytes := by
  induction frames generalizing wr with
  | nil =>
    cases all
    exact (List.append_nil _).symm
  | cons frame frames ih =>
    rw [writeFrames] at all
    cases res : frameWrite wr frame with
    | mk failure mid =>
      rw [res] at all
      cases failure with
      | some => cases all
      | none =>
        have fits := (wr.writeAll_eq_none_iff frame.writes).mp (congrArg Prod.fst res)
        have written := wr.written_writeAll frame.writes
        rw [List.take_of_length_le fits, frame.payload_writes] at written
        have here : mid.written = wr.written ++ frame.bytes :=
          (congrArg (fun outcome => outcome.2.written) res).symm.trans written
        rw [ih all, here, List.flatMap_cons, List.append_assoc]

theorem Written.eq (written : Written frames bytes) : bytes = frames.flatMap Frame.bytes := by
  rcases written with ⟨room, post, all, rfl⟩
  rw [written_writeFrames all, List.nil_append]

def frameRead (reader : Reader) : Except FrameError Frame × Reader :=
  match reader.readFull 4 with
  | (.error err, reader) => (.error ⟨.len, err⟩, reader)
  | (.ok lenBytes, reader) =>
    match reader.readFull 1 with
    | (.error err, reader) => (.error ⟨.type, err⟩, reader)
    | (.ok typBuf, reader) =>
      if ofBigEndian lenBytes > 0 then
        match reader.readFull (ofBigEndian lenBytes) with
        | (.error err, reader) => (.error ⟨.payload, err⟩, reader)
        | (.ok payload, reader) => (.ok ⟨typBuf.headD 0, payload⟩, reader)
      else (.ok ⟨typBuf.headD 0, []⟩, reader)

inductive Reads : Reader → List Frame → FrameError → Reader → Prop
  | stop {reader left : Reader} {err : FrameError} :
      frameRead reader = (.error err, left) → Reads reader [] err left
  | next {reader middle left : Reader} {frame : Frame} {frames : List Frame} {err : FrameError} :
      frameRead reader = (.ok frame, middle) → Reads middle frames err left →
        Reads reader (frame :: frames) err left

variable {reader : Reader} {frame : Frame}

theorem frameRead_of_header (fits : length < 2 ^ 32)
    (rest : reader.rest = bigEndian 4 length ++ ([typ] ++ tail)) :
    ∃ left, left.rest = tail ∧ frameRead reader = if length > 0 then
        match left.readFull length with
        | (.error err, left) => (.error ⟨.payload, err⟩, left)
        | (.ok pl, left) => (.ok ⟨typ, pl⟩, left)
      else (.ok ⟨typ, []⟩, left) := by
  rcases Reader.readFull_append rest with ⟨mid, readLen, middleRest, -⟩
  rcases Reader.readFull_append middleRest with ⟨left, readTyp, leftRest, -⟩
  rw [length_bigEndian] at readLen
  rw [List.length_singleton] at readTyp
  refine ⟨left, leftRest, ?_⟩
  rw [frameRead, readLen]
  dsimp only
  rw [readTyp, ofBigEndian_bigEndian (by omega)]
  rfl

theorem frameRead_bytes (fits : frame.payload.length < 2 ^ 32)
    (rest : reader.rest = frame.bytes ++ tail) :
    ∃ left, frameRead reader = (.ok frame, left) ∧ left.rest = tail := by
  rw [Frame.bytes, Nat.mod_eq_of_lt fits, List.append_assoc, List.append_assoc] at rest
  rcases frameRead_of_header fits rest with ⟨mid, middleRest, read⟩
  rw [read]
  split
  · rcases Reader.readFull_append middleRest with ⟨left, readPayload, leftRest, -⟩
    rw [readPayload]
    exact ⟨left, rfl, leftRest⟩
  rename_i empty
  have none : frame.payload = [] := List.length_eq_zero_iff.mp (by omega)
  rw [none, List.nil_append] at middleRest
  exact ⟨mid, by rw [← none], middleRest⟩

theorem frameRead_cut (fits : frame.payload.length < 2 ^ 32) (inside : cut < frame.bytes.length)
    (rest : reader.rest = frame.bytes.take cut) :
    ∃ err left, frameRead reader = (.error err, left) := by
  have length : reader.rest.length = cut := by
    rw [rest, List.length_take]
    omega
  rw [Frame.length_bytes] at inside
  rw [Frame.bytes, Nat.mod_eq_of_lt fits, List.take_append, length_bigEndian] at rest
  by_cases noLen : cut < 4
  · rcases Reader.readFull_of_lt (length.trans_lt noLen) with ⟨err, failed⟩
    exact ⟨⟨.len, err⟩, _, by rw [frameRead, failed]⟩
  rw [List.take_of_length_le (by rw [length_bigEndian]; omega)] at rest
  by_cases noType : cut = 4
  · rcases Reader.readFull_append rest with ⟨mid, readLen, middleRest, -⟩
    rw [length_bigEndian] at readLen
    have short : mid.rest.length < 1 := by
      rw [middleRest, noType, Nat.sub_self, List.take_zero]
      exact Nat.one_pos
    rcases Reader.readFull_of_lt short with ⟨err, failed⟩
    exact ⟨⟨.type, err⟩, _, by rw [frameRead, readLen]; dsimp only; rw [failed]⟩
  have more : 0 < cut - 4 := by omega
  rw [List.singleton_append, List.take_cons more, ← List.singleton_append] at rest
  rcases frameRead_of_header fits rest with ⟨mid, middleRest, read⟩
  have short : mid.rest.length < frame.payload.length := by
    rw [middleRest, List.length_take]
    omega
  rcases Reader.readFull_of_lt short with ⟨err, failed⟩
  exact ⟨⟨.payload, err⟩, _, by rw [read, if_pos (by omega), failed]⟩

/-- A stream that is cut inside a frame gives the frames before it, and then an error. -/
theorem reads_cut (fits : ∀ frame ∈ frames, frame.payload.length < 2 ^ 32)
    (lastFits : frame.payload.length < 2 ^ 32) (inside : cut < frame.bytes.length)
    (rest : reader.rest = frames.flatMap Frame.bytes ++ frame.bytes.take cut) :
    ∃ err left, Reads reader frames err left := by
  induction frames generalizing reader with
  | nil =>
    rcases frameRead_cut lastFits inside rest with ⟨err, left, failed⟩
    exact ⟨err, left, .stop failed⟩
  | cons x frames ih =>
    rw [List.flatMap_cons, List.append_assoc] at rest
    rcases frameRead_bytes (fits x List.mem_cons_self) rest with ⟨mid, read, middleRest⟩
    rcases ih (fun other mem => fits other (List.mem_cons_of_mem _ mem))
      middleRest with ⟨err, left, reads⟩
    exact ⟨err, left, .next read reads⟩

theorem reads_all (fits : ∀ frame ∈ frames, frame.payload.length < 2 ^ 32)
    (rest : reader.rest = frames.flatMap Frame.bytes) :
    ∃ err left, Reads reader frames err left := by
  -- As if nothing had come of another frame.
  have nothing : frames.flatMap Frame.bytes =
      frames.flatMap Frame.bytes ++ (Frame.bytes ⟨0, []⟩).take 0 := by
    rw [List.take_zero, List.append_nil]
  have empty : (⟨0, []⟩ : Frame).payload.length < 2 ^ 32 := by decide
  exact reads_cut fits empty (Nat.zero_lt_succ 4) (rest.trans nothing)

theorem unpackDataFrame_empty {seq : Nat} (compression : Compression) (seqFits : seq < 2 ^ 63) :
    unpackDataFrame library (packDataFrame library seq [] compression) compression =
      .ok ((seq : Int), []) := by
  have seqBits : toUint64 seq = seq := toUint64_natCast (by omega)
  have seqBack : wrap64 (ofBigEndian (bigEndian 8 seq)) = seq := by
    rw [ofBigEndian_bigEndian (by omega), wrap64_of_mem (by omega) (by omega)]
  have whole : (bigEndian 8 seq).take 8 = bigEndian 8 seq :=
    List.take_of_length_le (length_bigEndian 8 seq).le
  cases compression with
  | none => simp [unpackDataFrame, packDataFrame, seqBits, whole, seqBack]
  | zstd =>
    simp [unpackDataFrame, packDataFrame, zstdCompressBlock, zstdDecompressBlock, seqBits, seqBack]

structure RoundTrip (library : Library) : Prop where
  frames : ∀ {frames : List Frame} {bytes : Bytes} {reader : Reader},
    (∀ frame ∈ frames, frame.payload.length < 2 ^ 32) → Written frames bytes →
      reader.rest = bytes → ∃ err left, Reads reader frames err left
  next : ∀ {frame : Frame} {bytes tail : Bytes} {reader : Reader},
    frame.payload.length < 2 ^ 32 → Written [frame] bytes → reader.rest = bytes ++ tail →
      ∃ left, frameRead reader = (.ok frame, left) ∧ left.rest = tail
  cut : ∀ {frames : List Frame} {frame : Frame} {before bytes : Bytes} {cut : Nat}
      {reader : Reader},
    (∀ frame ∈ frames, frame.payload.length < 2 ^ 32) → frame.payload.length < 2 ^ 32 →
      Written frames before → Written [frame] bytes → cut < bytes.length →
        reader.rest = before ++ bytes.take cut → ∃ err left, Reads reader frames err left
  data : ∀ (seq : Nat) (chunk : Bytes) (compression : Compression), seq < 2 ^ 63 →
    chunk.length < 2 ^ 32 →
      unpackDataFrame library (packDataFrame library seq chunk compression) compression =
        .ok ((seq : Int), chunk)

theorem roundTrip {library : Library}
    (lossless : ∀ chunk, chunk ≠ [] → library.ZstdLossless chunk) : RoundTrip library where
  frames fits written rest := reads_all fits (rest.trans written.eq)
  next fits written rest := by
    rw [written.eq, List.flatMap_singleton] at rest
    exact frameRead_bytes fits rest
  cut fits lastFits before written inside rest := by
    rw [written.eq, List.flatMap_singleton] at inside rest
    exact reads_cut fits lastFits inside (before.eq ▸ rest)
  data seq chunk compression seqFits fits := by
    by_cases empty : chunk = []
    · rw [empty]
      exact unpackDataFrame_empty compression seqFits
    · exact unpackDataFrame_packDataFrame compression seqFits fits empty
        fun _ => lossless chunk empty

theorem reads_pieces :
    let reader : Reader := ⟨[[0, 0], [0, 1, 3, 9, 0], [0, 0, 0, 6]], .eof⟩
    Written [⟨3, [9]⟩, ⟨6, []⟩] reader.rest ∧
      ∃ err left, Reads reader [⟨3, [9]⟩, ⟨6, []⟩] err left := by
  have written : Written [⟨3, [9]⟩, ⟨6, []⟩] [0, 0, 0, 1, 3, 9, 0, 0, 0, 0, 6] := ⟨11, _, rfl, rfl⟩
  have trip := @roundTrip (.ofTransfer ⟨[], 0, 0, 0, [], 0, []⟩)
    fun chunk _ => Library.ofTransfer_zstdLossless _ chunk
  exact ⟨written, trip.frames (by decide) written rfl⟩

end Peerscale.RelayFile
