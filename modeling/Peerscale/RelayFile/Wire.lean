import Peerscale.Foundation.GoValue

/-! # RelayFile frames and messages

The frame types of the protocol, the JSON messages carried by control frames and
the binary layout of data frames. JSON and zstd are what the code calls for them;
`Library` stands for both.
-/

namespace Peerscale.RelayFile

structure Frame where
  typ : UInt8
  payload : Bytes
  deriving DecidableEq

def frameTypeInit : UInt8 := 0
def frameTypeAccept : UInt8 := 1
def frameTypeReject : UInt8 := 2
def frameTypeData : UInt8 := 3
def frameTypeAck : UInt8 := 4
def frameTypeFin : UInt8 := 5
def frameTypeDone : UInt8 := 6
def frameTypeError : UInt8 := 7
def frameTypeCancel : UInt8 := 8

def chunkSize : Nat := 65536

def ackBatch : Nat := 8

/-- The payload of an INIT frame after `json.Unmarshal`. -/
structure InitMessage where
  name : GoString
  size : Int64
  chunkSize : Int64
  totalChunks : Int64
  checksum : GoString
  offset : Int64
  compression : GoString
  deriving DecidableEq

structure FinMessage where
  totalChunks : Int64
  checksum : GoString
  deriving DecidableEq

/-- What a zstd reader delivers before it stops, and the error `io.ReadFull`
reports when that was too little. -/
structure ZstdReading where
  delivered : Bytes
  stopped : GoString

/-- The encoders this code calls. `json.Unmarshal` fails on INIT, ACCEPT, ACK and
DONE payloads are reported as `none`; for FIN and for the reasons of ERROR and
CANCEL the code ignores them and goes on with what the struct then holds. -/
structure Library where
  zstdWrite : Bytes → Bytes
  zstdRead : Bytes → ZstdReading
  marshalInit : InitMessage → Bytes
  unmarshalInit : Bytes → Option InitMessage
  marshalAccept : Int64 → Bytes
  unmarshalAccept : Bytes → Option Int64
  marshalAck : Int64 → Bytes
  unmarshalAck : Bytes → Option Int64
  marshalFin : FinMessage → Bytes
  unmarshalFin : Bytes → FinMessage
  marshalDone : Bool → Bytes
  unmarshalDone : Bytes → Option Bool
  marshalReason : GoString → Bytes
  unmarshalReason : Bytes → GoString
  marshalByteSlice : Bytes → Bytes

inductive Reply
  | accept (offset : Int)
  | reject (reason : GoString)
  | ack (cs : Int)
  | done
  | error (reason : GoString)
  deriving DecidableEq

/-- ERROR reasons are marshalled twice: `writeJSONFrame` is handed the bytes that
`mustJSON` already produced. -/
def Reply.frame (library : Library) : Reply → Frame
  | .accept offset => ⟨frameTypeAccept, library.marshalAccept (Int64.ofInt offset)⟩
  | .reject reason => ⟨frameTypeReject, library.marshalReason reason⟩
  | .ack cs => ⟨frameTypeAck, library.marshalAck (Int64.ofInt cs)⟩
  | .done => ⟨frameTypeDone, library.marshalDone true⟩
  | .error reason => ⟨frameTypeError, library.marshalByteSlice (library.marshalReason reason)⟩

inductive ReadError
  | stream
  | remoteError (reason : GoString)
  | remoteCancelled (reason : GoString)
  | unexpectedType (got want : UInt8)
  | malformed
  deriving DecidableEq

/-- `readJSONFrame` on the outcome of `frameRead`, `none` being a failed read. -/
def readJSONFrame (library : Library) (want : UInt8) (decode : Bytes → Option α) :
    Option Frame → Except ReadError α
  | none => .error .stream
  | some frame =>
    if frame.typ = frameTypeError then
      .error (.remoteError (library.unmarshalReason frame.payload))
    else if frame.typ = frameTypeCancel then
      .error (.remoteCancelled (library.unmarshalReason frame.payload))
    else if frame.typ ≠ want then .error (.unexpectedType frame.typ want)
    else
      match decode frame.payload with
      | some value => .ok value
      | none => .error .malformed

theorem readJSONFrame_of_decoded (noError : want ≠ frameTypeError)
    (noCancel : want ≠ frameTypeCancel) (decoded : decode pl = some val) :
    readJSONFrame library want decode (some ⟨want, pl⟩) = .ok val := by
  simp [readJSONFrame, noError, noCancel, decoded]

inductive Compression
  | none
  | zstd
  deriving DecidableEq

/-- Anything but `"zstd"` is taken as `"none"`. -/
def Compression.ofString (text : GoString) : Compression :=
  if text = ascii "zstd" then .zstd else .none

def Compression.text : Compression → GoString
  | .none => ascii "none"
  | .zstd => ascii "zstd"

@[simp] theorem Compression.ofString_text (compression : Compression) :
    Compression.ofString compression.text = compression := by
  cases compression <;> decide

def zstdCompressBlock (library : Library) (src : Bytes) : Bytes :=
  if src = [] then [] else library.zstdWrite src

def zstdDecompressBlock (library : Library) (src : Bytes) (uncompLen : Nat) :
    Except GoString Bytes :=
  if src = [] then .ok []
  else if uncompLen ≤ (library.zstdRead src).delivered.length then
    .ok ((library.zstdRead src).delivered.take uncompLen)
  else .error (library.zstdRead src).stopped

def packDataFrame (library : Library) (seq : Int) (data : Bytes) :
    Compression → Bytes
  | .zstd => bigEndian 8 (toUint64 seq) ++ bigEndian 4 (data.length % 2 ^ 32) ++
      zstdCompressBlock library data
  | .none => bigEndian 8 (toUint64 seq) ++ data

def unpackDataFrame (library : Library) (payload : Bytes) (compression : Compression) :
    Except GoString (Int × Bytes) :=
  if payload.length < 8 then .error (ascii "unexpected EOF")
  else
    let seq := wrap64 (ofBigEndian (payload.take 8))
    match compression with
    | .zstd =>
      if payload.length < 12 then .error (ascii "unexpected EOF")
      else
        let uncompLen := ofBigEndian ((payload.drop 8).take 4)
        match zstdDecompressBlock library (payload.drop 12) uncompLen with
        | .ok data => .ok (seq, data)
        | .error reason => .error reason
    | .none => .ok (seq, payload.drop 8)

/-- zstd gives back what it was given, and never encodes something as nothing. -/
structure Library.ZstdLossless (library : Library) (src : Bytes) : Prop where
  nonempty : library.zstdWrite src ≠ []
  delivered : (library.zstdRead (library.zstdWrite src)).delivered = src

theorem unpackDataFrame_packDataFrame {library : Library} {seq : Nat} {data : Bytes}
    (compression : Compression) (seqFits : seq < 2 ^ 63) (lengthFits : data.length < 2 ^ 32)
    (nonempty : data ≠ []) (lossless : compression = .zstd → library.ZstdLossless data) :
    unpackDataFrame library (packDataFrame library seq data compression) compression =
      .ok ((seq : Int), data) := by
  have seqBits : toUint64 seq = seq := toUint64_natCast (by omega)
  have seqBack : wrap64 (ofBigEndian (bigEndian 8 seq)) = seq := by
    rw [ofBigEndian_bigEndian (by omega), wrap64_of_mem (by omega) (by omega)]
  cases compression with
  | none => simp [unpackDataFrame, packDataFrame, seqBits, seqBack]
  | zstd =>
    have zstd := lossless rfl
    have lengthBack : ofBigEndian (bigEndian 4 data.length) = data.length :=
      ofBigEndian_bigEndian (by omega)
    have compressed : zstdCompressBlock library data = library.zstdWrite data := by
      simp [zstdCompressBlock, nonempty]
    have seqField : (packDataFrame library seq data .zstd).take 8 = bigEndian 8 seq := by
      simp [packDataFrame, seqBits]
    have lengthField : ((packDataFrame library seq data .zstd).drop 8).take 4 =
        bigEndian 4 data.length := by
      show ((bigEndian 8 (toUint64 seq) ++ bigEndian 4 (data.length % 2 ^ 32) ++
        zstdCompressBlock library data).drop 8).take 4 = _
      rw [Nat.mod_eq_of_lt lengthFits]
      simp
    have body : (packDataFrame library seq data .zstd).drop 12 = library.zstdWrite data := by
      simp [packDataFrame, compressed, List.drop_append]
    have long : 12 ≤ (packDataFrame library seq data .zstd).length := by
      simp only [packDataFrame, List.length_append, length_bigEndian]
      omega
    simp only [unpackDataFrame, seqField, lengthField, body, seqBack, lengthBack,
      zstdDecompressBlock, zstd.nonempty, zstd.delivered, List.take_length, Nat.le_refl,
      if_true, if_false]
    rw [if_neg (by omega), if_neg (by omega)]

def jsonText (text : GoString) : Bytes := ascii "\"" ++ text ++ ascii "\""

def jsonNumber (value : Int64) : Bytes :=
  (if value.toInt < 0 then ascii "-" else []) ++
    (Nat.toDigits 10 value.toInt.natAbs).map fun digit => digit.toNat.toUInt8

def jsonObject (fields : List (String × Bytes)) : Bytes :=
  ascii "\x7b" ++ (ascii ",").intercalate
    (fields.map fun field => jsonText (ascii field.1) ++ ascii ":" ++ field.2) ++ ascii "\x7d"

def findNumber (marshal : Int64 → Bytes) (payload : Bytes) (bound : Nat) : Option Int64 :=
  ((List.range bound).map Int64.ofNat).find? fun number => marshal number == payload

/-- JSON as `encoding/json` writes it, read back for the messages of one honest
transfer; zstd frames hold one raw block. Nothing here is assumed elsewhere: it
shows that what is assumed of a library can be had. -/
def Library.ofTransfer (init : InitMessage) : Library where
  zstdWrite src := [40, 181, 47, 253, 160] ++ littleEndian 4 src.length ++
    littleEndian 3 (8 * src.length + 1) ++ src
  zstdRead frame := ⟨frame.drop 12, ascii "unexpected EOF"⟩
  marshalInit := marshalInit
  unmarshalInit payload := if payload = marshalInit init then some init else none
  marshalAccept := marshalAccept
  unmarshalAccept payload := findNumber marshalAccept payload (init.totalChunks.toInt.toNat + 1)
  marshalAck := marshalAck
  unmarshalAck payload := findNumber marshalAck payload init.totalChunks.toInt.toNat
  marshalFin := marshalFin
  unmarshalFin payload := if payload = marshalFin ⟨init.totalChunks, init.checksum⟩ then
      ⟨init.totalChunks, init.checksum⟩
    else ⟨0, []⟩
  marshalDone := marshalDone
  unmarshalDone payload := if payload = marshalDone true then some true else none
  marshalReason reason := jsonObject [("Reason", jsonText reason)]
  unmarshalReason _ := []
  marshalByteSlice bytes := jsonText bytes
where
  marshalInit (init : InitMessage) : Bytes :=
    jsonObject [("name", jsonText init.name), ("size", jsonNumber init.size),
      ("chunk_size", jsonNumber init.chunkSize), ("total_chunks", jsonNumber init.totalChunks),
      ("checksum", jsonText init.checksum), ("offset", jsonNumber init.offset),
      ("compression", jsonText init.compression)]
  marshalAccept (offset : Int64) : Bytes := jsonObject [("offset", jsonNumber offset)]
  marshalAck (cs : Int64) : Bytes := jsonObject [("cs", jsonNumber cs)]
  marshalFin (fin : FinMessage) : Bytes :=
    jsonObject [("total_chunks", jsonNumber fin.totalChunks), ("checksum", jsonText fin.checksum)]
  marshalDone (ok : Bool) : Bytes := jsonObject [("ok", if ok then ascii "true" else ascii "false")]

theorem Library.ofTransfer_zstdLossless (init : InitMessage) (src : Bytes) :
    (Library.ofTransfer init).ZstdLossless src where
  nonempty := by simp [Library.ofTransfer]
  delivered := by simp [Library.ofTransfer, List.drop_append]

example : Library.ofTransfer.marshalAck 15 = ascii "\x7b\"cs\":15\x7d" := by decide +kernel

end Peerscale.RelayFile
