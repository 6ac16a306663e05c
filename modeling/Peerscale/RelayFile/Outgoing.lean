import Peerscale.Foundation.Pieces
import Peerscale.Foundation.Sha256
import Peerscale.RelayFile.Wire

/-! # What a sender offers

The file `SendFile` reads and the messages it derives from it. A chunk is what
`file.Read` returns into a full buffer at a multiple of the chunk size.
-/

namespace Peerscale.RelayFile

structure Outgoing where
  name : GoString
  bytes : Bytes
  compression : Compression
  fits : bytes.length < 2 ^ 63

namespace Outgoing

def totalChunks (outgoing : Outgoing) : Nat := pieceCount chunkSize outgoing.bytes.length

def chunk (outgoing : Outgoing) (seq : Nat) : Bytes := piece chunkSize outgoing.bytes seq

def checksum (outgoing : Outgoing) : GoString :=
  ascii "sha256:" ++ hexEncode (sha256 outgoing.bytes)

def initMessage (outgoing : Outgoing) (offset : Int64) : InitMessage where
  name := outgoing.name
  size := Int64.ofNat outgoing.bytes.length
  chunkSize := Int64.ofNat RelayFile.chunkSize
  totalChunks := Int64.ofNat outgoing.totalChunks
  checksum := outgoing.checksum
  offset := offset
  compression := outgoing.compression.text

def finMessage (outgoing : Outgoing) : FinMessage where
  totalChunks := Int64.ofNat outgoing.totalChunks
  checksum := outgoing.checksum

def dataFrame (library : Library) (outgoing : Outgoing) (seq : Nat) : Frame :=
  ⟨frameTypeData, packDataFrame library seq (outgoing.chunk seq) outgoing.compression⟩

def finFrame (library : Library) (outgoing : Outgoing) : Frame :=
  ⟨frameTypeFin, library.marshalFin outgoing.finMessage⟩

def Lossless (library : Library) (outgoing : Outgoing) : Prop :=
  outgoing.compression = .zstd →
    ∀ seq, seq < outgoing.totalChunks → library.ZstdLossless (outgoing.chunk seq)

theorem chunkSize_pos : 0 < chunkSize := by decide

theorem lt_totalChunks_iff (file : Outgoing) (seq : Nat) :
    seq < file.totalChunks ↔ seq * chunkSize < file.bytes.length :=
  lt_pieceCount_iff chunkSize_pos _ _

theorem totalChunks_le (file : Outgoing) : file.totalChunks ≤ 2 ^ 47 := by
  by_contra larger
  have within := (file.lt_totalChunks_iff (2 ^ 47)).mp (by omega)
  have fits := file.fits
  simp only [chunkSize] at within
  omega

@[simp] theorem toInt_totalChunks (file : Outgoing) (off : Int64) :
    (file.initMessage off).totalChunks.toInt = file.totalChunks := by
  have bound := file.totalChunks_le
  exact Int64.toInt_ofNat_of_lt (by omega)

@[simp] theorem toInt_chunkSize (file : Outgoing) (off : Int64) :
    (file.initMessage off).chunkSize.toInt = chunkSize := by
  rfl

theorem chunk_ne_nil (file : Outgoing) (within : seq < file.totalChunks) : file.chunk seq ≠ [] :=
  piece_ne_nil chunkSize_pos within

theorem unpackDataFrame_dataFrame {file : Outgoing} (lossless : file.Lossless library)
    (within : seq < file.totalChunks) :
    unpackDataFrame library (file.dataFrame library seq).payload file.compression =
      .ok ((seq : Int), file.chunk seq) := by
  have bound := file.totalChunks_le
  have short : (file.chunk seq).length ≤ chunkSize := length_piece_le _ _ _
  simp only [chunkSize] at short
  exact unpackDataFrame_packDataFrame file.compression (by omega) (by omega)
    (file.chunk_ne_nil within) fun zstd => lossless zstd seq within

end Outgoing

end Peerscale.RelayFile
