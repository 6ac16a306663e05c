import Peerscale.Foundation.Filepath
import Peerscale.Foundation.Sha256
import Peerscale.RelayFile.Bitmap
import Peerscale.RelayFile.Effects

/-! # The receiving side of RelayFile

`HandleFileStream`, `receiveLoop`, `cleanupSession` and `verifyFileHash` as
programs. `Receiver` is where a session stands between two reads of its stream;
`Receiver.receive` is what it does with what it read next.
-/

namespace Peerscale.RelayFile

open Program Filepath

/-- What a session knows before it reads anything: the receive directory, the
remote peer and the identifier drawn for it. -/
structure Config where
  recvDir : GoString
  peer : GoString
  sessionID : GoString

structure Session where
  filename : GoString
  savePath : GoString
  size : Int
  totalChunks : Int
  checksum : GoString
  compression : Compression
  tmpFile : Option Nat
  bitmap : Bitmap
  tmpPath : GoString
  doneBytes : Int
  deriving DecidableEq

inductive Ending
  | noInit
  | rejected
  | unanswered
  | failed
  | delivered
  deriving DecidableEq

inductive Receiver
  | waitInit
  | receiving (ses : Session) (cb : Bool) (startSeq lastAck : Int)
  | ended (ending : Ending)
  deriving DecidableEq

/-- What reaches a session: a frame, a failed `frameRead`, or a
`CancelFileSession` call made by the application. -/
inductive Event
  | frame (frame : Frame)
  | readError (reason : GoString)
  | cancel

def partSuffix : GoString := ascii ".relayfile.part"

def saveDir (config : Config) : GoString :=
  if config.recvDir = [] then ascii "." else config.recvDir

def finalPath (config : Config) (name : GoString) : GoString :=
  join (saveDir config) (base name)

def tmpPath (config : Config) (name : GoString) : GoString :=
  finalPath config name ++ partSuffix

def finish (ending : Ending) : Prog Receiver := do
  call .closeStream
  return .ended ending

def progressOf (config : Config) (ses : Session) (state : TransferState)
    (doneBytes doneChunks : Int) (err : Option GoString) : FileProgress where
  sessionID := config.sessionID
  peerID := config.peer
  name := ses.filename
  totalBytes := ses.size
  doneBytes := doneBytes
  totalChunks := ses.totalChunks
  doneChunks := doneChunks
  state := state
  err := err

def closeTmpFile (ses : Session) : Prog Unit :=
  match ses.tmpFile with
  | some descriptor => call (.close descriptor)
  | none => return ()

def removeTmpPath (ses : Session) : Prog Unit :=
  if ses.tmpPath ≠ [] then call (.remove ses.tmpPath) else return ()

def reportError (config : Config) (ses : Session) (err : GoString) : Prog Unit := do
  if ← call .getRecvCB then
    let doneChunks ← ofExcept (bitmapMaxContinuous ses.bitmap ses.totalChunks)
    call (.report (progressOf config ses .error ses.doneBytes doneChunks (some err)))
  else return ()

def cleanupSession (config : Config) (ses : Session) (err : GoString) : Prog Unit := do
  if ← call .beginCleanup then
    closeTmpFile ses
    removeTmpPath ses
    reportError config ses err
    call .deleteSession
  else return ()

def abandon (config : Config) (ses : Session) (err : GoString) : Prog Receiver := do
  cleanupSession config ses err
  finish .failed

def writeTmpFile (ses : Session) (chunkData : Bytes) : Prog (Option GoString) :=
  match ses.tmpFile with
  | some descriptor => call (.write descriptor chunkData)
  | none => return some (ascii "invalid argument")

def storeChunk (ses : Session) (dataSeq : Int) (chunkData : Bytes) :
    Prog (Except GoString Session) := do
  match ← writeTmpFile ses chunkData with
  | some err => return .error err
  | none =>
    let bitmap ← ofExcept (bitmapSet ses.bitmap dataSeq)
    return .ok { ses with
      bitmap := bitmap
      doneBytes := wrap64 (ses.doneBytes + chunkData.length) }

/-- Acknowledge when a whole batch or the rest of the file is there. Returns the
new `lastAck`, or the error of a failed write. -/
def acknowledge (ses : Session) (lastAck newSeq : Int) : Prog (Except GoString Int) := do
  if (ackBatch ≤ wrap64 (newSeq - lastAck) ∨ ses.totalChunks ≤ newSeq) ∧ lastAck < newSeq then
    match ← call (.send (.ack (newSeq - 1))) with
    | some err => return .error err
    | none => return .ok newSeq
  else return .ok lastAck

def reportTransfer (config : Config) (ses : Session) (cb : Bool) (startSeq newSeq : Int) :
    Prog Unit :=
  if cb ∧ startSeq < newSeq then
    call (.report (progressOf config ses .transfer ses.doneBytes newSeq none))
  else return ()

def afterChunk (config : Config) (ses : Session) (cb : Bool) (startSeq lastAck : Int) :
    Prog Receiver := do
  let newSeq ← ofExcept (bitmapMaxContinuous ses.bitmap ses.totalChunks)
  match ← acknowledge ses lastAck newSeq with
  | .error err => abandon config ses (ascii "write ack: " ++ err)
  | .ok lastAck =>
    reportTransfer config ses cb startSeq newSeq
    return .receiving ses cb startSeq lastAck

def refuse (config : Config) (ses : Session) (reason err : GoString) : Prog Receiver := do
  let _ ← call (.send (.error reason))
  abandon config ses err

def receiveData (library : Library) (config : Config) (ses : Session) (cb : Bool)
    (startSeq lastAck : Int) (payload : Bytes) : Prog Receiver := do
  match unpackDataFrame library payload ses.compression with
  | .error err => refuse config ses err (ascii "unpack data: " ++ err)
  | .ok (dataSeq, chunkData) =>
    if ← ofExcept (bitmapHas ses.bitmap dataSeq) then
      afterChunk config ses cb startSeq lastAck
    else
      match ← storeChunk ses dataSeq chunkData with
      | .error err => refuse config ses err (ascii "write: " ++ err)
      | .ok ses => afterChunk config ses cb startSeq lastAck

def verifyFileHash (path checksum : GoString) : Prog (Option GoString) := do
  if checksum.length < 7 ∨ checksum.take 7 ≠ ascii "sha256:" then
    return some (ascii "unknown checksum format")
  else
    match ← call (.readFile path) with
    | .error err => return some err
    | .ok bytes =>
      let got := hexEncode (sha256 bytes)
      if got ≠ checksum.drop 7 then
        return some (ascii "checksum mismatch: expected " ++ checksum.drop 7 ++
          ascii ", got " ++ got)
      else return none

def reportDone (config : Config) (ses : Session) (cb : Bool) : Prog Unit :=
  if cb then call (.report (progressOf config ses .done ses.size ses.totalChunks none))
  else return ()

def deliver (config : Config) (ses : Session) (cb : Bool) : Prog Receiver := do
  call .setDone
  match ← call (.send .done) with
  | some err =>
    cleanupSession config ses (ascii "write done: " ++ err)
    finish .delivered
  | none =>
    reportDone config ses cb
    call .deleteSession
    finish .delivered

def closeForFin (ses : Session) : Prog Session := do
  match ses.tmpFile with
  | some descriptor =>
    call (.sync descriptor)
    call (.close descriptor)
    return { ses with tmpFile := none }
  | none => return ses

def receiveFin (library : Library) (config : Config) (ses : Session) (cb : Bool)
    (payload : Bytes) : Prog Receiver := do
  if (library.unmarshalFin payload).checksum ≠ ses.checksum then
    refuse config ses (ascii "checksum mismatch") (ascii "checksum mismatch")
  else
    let ses ← closeForFin ses
    match ← verifyFileHash ses.tmpPath ses.checksum with
    | some err => refuse config ses err err
    | none =>
      match ← call (.rename ses.tmpPath ses.savePath) with
      | some err => refuse config ses err (ascii "rename: " ++ err)
      | none => deliver config { ses with doneBytes := ses.size } cb

/-- One iteration of `receiveLoop` on a frame. Types it has no case for are
skipped. -/
def receiveFrame (library : Library) (config : Config) (ses : Session) (cb : Bool)
    (startSeq lastAck : Int) (frame : Frame) : Prog Receiver :=
  if frame.typ = frameTypeCancel then abandon config ses (ascii "cancelled by remote")
  else if frame.typ = frameTypeError then
    abandon config ses (ascii "remote error: " ++ library.unmarshalReason frame.payload)
  else if frame.typ = frameTypeData then
    receiveData library config ses cb startSeq lastAck frame.payload
  else if frame.typ = frameTypeFin then receiveFin library config ses cb frame.payload
  else return .receiving ses cb startSeq lastAck

structure OpenPart where
  tmpFile : Nat
  bitmap : Bitmap
  doneBytes : Int
  startSeq : Int

/-- How many chunks a `.part` file of `doneBytes` bytes is taken to hold; a
partial chunk counts as a whole one. -/
def writtenChunks (doneBytes chunkSize : Int) : Int :=
  if doneBytes.tmod chunkSize ≠ 0 then doneBytes.tdiv chunkSize + 1
  else doneBytes.tdiv chunkSize

def markedPart (init : InitMessage) (bitmap : Bitmap) (tmpFile : Nat) (doneBytes written : Int) :
    Prog OpenPart := do
  let bitmap ← ofExcept (bitmapSetBelow bitmap (min written init.totalChunks.toInt).toNat)
  return { tmpFile := tmpFile, bitmap := bitmap, doneBytes := doneBytes, startSeq := written }

def resumePart (init : InitMessage) (bitmap : Bitmap) (tmpFile : Nat) : Prog OpenPart := do
  let doneBytes ← call (.stat tmpFile)
  if init.chunkSize.toInt = 0 then .halt .divideByZero
  else
    markedPart init bitmap tmpFile (doneBytes : Nat)
      (writtenChunks (doneBytes : Nat) init.chunkSize.toInt)

def createPart (config : Config) (init : InitMessage) (bitmap : Bitmap) :
    Prog (Except GoString OpenPart) := do
  match ← call (.create (tmpPath config init.name)) with
  | .error err => return .error err
  | .ok tmpFile =>
    return .ok { tmpFile := tmpFile, bitmap := bitmap, doneBytes := 0, startSeq := 0 }

def openExisting (config : Config) (init : InitMessage) : Prog (Option Nat) :=
  if 0 < init.offset.toInt then call (.openFile (tmpPath config init.name)) else return none

def openPart (config : Config) (init : InitMessage) (bitmap : Bitmap) :
    Prog (Except GoString OpenPart) := do
  match ← openExisting config init with
  | some tmpFile => return .ok (← resumePart init bitmap tmpFile)
  | none => createPart config init bitmap

def newSession (config : Config) (init : InitMessage) (part : OpenPart) : Session where
  filename := base init.name
  savePath := finalPath config init.name
  size := init.size.toInt
  totalChunks := init.totalChunks.toInt
  checksum := init.checksum
  compression := .ofString init.compression
  tmpFile := some part.tmpFile
  bitmap := part.bitmap
  tmpPath := tmpPath config init.name
  doneBytes := part.doneBytes

def startReceiving (config : Config) (init : InitMessage) (part : OpenPart) :
    Prog Receiver := do
  let resumeOffset ← ofExcept (bitmapMaxContinuous part.bitmap init.totalChunks.toInt)
  let startSeq := max part.startSeq resumeOffset
  call (.seek part.tmpFile (wrap64 (startSeq * init.chunkSize.toInt)))
  match ← call (.send (.accept startSeq)) with
  | some _ =>
    call (.close part.tmpFile)
    call (.remove (tmpPath config init.name))
    finish .unanswered
  | none =>
    call .storeSession
    let cb ← call .getRecvCB
    return .receiving (newSession config init part) cb startSeq startSeq

def handleFileStream (config : Config) (init : InitMessage) : Prog Receiver := do
  match ← call (.mkdirAll (saveDir config)) with
  | some err =>
    let _ ← call (.send (.reject err))
    finish .rejected
  | none =>
    let bitmap ← ofExcept (newBitmap init.totalChunks.toInt)
    match ← openPart config init bitmap with
    | .error err =>
      let _ ← call (.send (.reject err))
      finish .rejected
    | .ok part => startReceiving config init part

def Receiver.receive (library : Library) (config : Config) : Receiver → Event → Prog Receiver
  | receiver, .cancel => do
      call .cancelSession
      return receiver
  | .waitInit, .frame frame =>
    match readJSONFrame library frameTypeInit library.unmarshalInit (some frame) with
    | .ok init => handleFileStream config init
    | .error _ => finish .noInit
  | .waitInit, .readError _ => finish .noInit
  | .receiving ses cb startSeq lastAck, .frame frame =>
    receiveFrame library config ses cb startSeq lastAck frame
  | .receiving ses _ _ _, .readError reason => abandon config ses (ascii "read: " ++ reason)
  | .ended ending, _ => return .ended ending

def Receiver.receiveAll (library : Library) (config : Config) (receiver : Receiver)
    (events : List Event) : Prog Receiver :=
  events.foldlM (Receiver.receive library config) receiver

def session (library : Library) (config : Config) (init : InitMessage)
    (events : List Event) : Prog Receiver := do
  (← handleFileStream config init).receiveAll library config events

end Peerscale.RelayFile
