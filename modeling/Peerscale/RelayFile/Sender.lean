import Peerscale.RelayFile.Effects
import Peerscale.RelayFile.Outgoing

/-! # The sending side of RelayFile

`SendFile` from the opening of its stream on, as programs between two reads of the
stream. What comes before, the size, the checksum and the compression, is in
`Outgoing`.
-/

namespace Peerscale.RelayFile

/-- Who sends: the session's identifier, the remote peer and whether the caller
gave a progress callback. -/
structure SendConfig where
  sessionID : GoString
  peer : GoString
  cb : Bool

inductive SendOp
  | openStream
  | closeStream (stream : Nat)
  | write (stream : Nat) (frame : Frame)
  | setDeadline (stream : Nat)
  | readFile
  | seekFile (offset : Int)
  | closeFile
  | ctxDone
  | cancelContext
  | setState (state : TransferState)
  | storeSession
  | deleteSession
  | report (progress : FileProgress)

/-- Answers. At the end of the file `readFile` returns no bytes and no error. -/
abbrev SendResponse : SendOp → Type
  | .openStream => Except GoString Nat
  | .write _ _ => Option GoString
  | .readFile => Except GoString Bytes
  | .ctxDone => Bool
  | .closeStream _ | .setDeadline _ | .seekFile _ | .closeFile | .cancelContext | .setState _
  | .storeSession | .deleteSession | .report _ => Unit

/-- Nothing in `SendFile` can panic. -/
abbrev SendProg := Program SendOp SendResponse Empty

def request (op : SendOp) : SendProg (SendResponse op) := Program.ask op

@[simp] theorem request_bind (op : SendOp) (cont : SendResponse op → SendProg α) :
    (request op >>= cont) = .perform op cont := rfl

inductive SendError
  | openStream (err : GoString)
  | writeInit (err : GoString)
  | readAccept (err : ReadError)
  | cancelled
  | readFile (err : GoString)
  | writeData (err : GoString)
  | reconnect (err : GoString)
  | writeFin (err : GoString)
  | readDone (err : ReadError)
  deriving DecidableEq

/-- The stream in use, and the first one: `defer s.Close()` was evaluated then. -/
structure Streams where
  first : Nat
  current : Nat
  deriving DecidableEq

inductive Sender
  | waitAccept (streams : Streams)
  | waitAck (streams : Streams) (seq : Int)
  | waitDone (streams : Streams)
  | returned (result : Option SendError)
  deriving DecidableEq

section SendFile

variable (library : Library) (config : SendConfig) (file : Outgoing)

def returnFile (result : Option SendError) : SendProg Sender := do
  request .deleteSession
  request .closeFile
  return .returned result

def leave (streams : Streams) (result : Option SendError) : SendProg Sender := do
  request (.closeStream streams.first)
  returnFile result

def reportSending (state : TransferState) (doneBytes doneChunks : Int) : SendProg Unit :=
  if config.cb then
    request (.report {
      sessionID := config.sessionID
      peerID := config.peer
      name := file.name
      totalBytes := file.bytes.length
      doneBytes := doneBytes
      totalChunks := file.totalChunks
      doneChunks := doneChunks
      state := state
      err := none })
  else return ()

def cancelFrame (reason : GoString) : Frame := ⟨frameTypeCancel, library.marshalReason reason⟩

def initFrame (offset : Int) : Frame :=
  ⟨frameTypeInit, library.marshalInit (file.initMessage (Int64.ofInt offset))⟩

def writeInit (streams : Streams) (offset : Int) : SendProg Sender := do
  match ← request (.write streams.current (initFrame library file offset)) with
  | some err => leave streams (some (.writeInit err))
  | none => return .waitAccept streams

/-- The inner loop of a batch, for at most `count` chunks from `seq` on. Returns
where it stopped, which is early at the end of the file. -/
def sendChunks (streams : Streams) (seq : Int) : Nat → SendProg (Except SendError Int)
  | 0 => return .ok seq
  | count + 1 => do
      match ← request .readFile with
      | .error err =>
        let _ ← request (.write streams.current (cancelFrame library (ascii "read error")))
        return .error (.readFile err)
      | .ok [] => return .ok seq
      | .ok (byte :: bytes) =>
        match ← request (.write streams.current
          ⟨frameTypeData, packDataFrame library seq (byte :: bytes) file.compression⟩) with
        | some err => return .error (.writeData err)
        | none => sendChunks streams (seq + 1) count

/-- How many chunks a batch that starts at `seq` has. Since `seq` is less than the
number of chunks, the end of the batch cannot overflow. -/
def batchLength (seq : Int) : Nat := (min (seq + ackBatch) file.totalChunks - seq).toNat

def sendBatch (streams : Streams) (seq : Int) : SendProg Sender := do
  if ← request .ctxDone then
    let _ ← request (.write streams.current (cancelFrame library (ascii "cancelled")))
    leave streams (some .cancelled)
  else
    match ← sendChunks library file streams seq (batchLength file seq) with
    | .error err => leave streams (some err)
    | .ok seq =>
      request (.setDeadline streams.current)
      return .waitAck streams seq

def sendFin (streams : Streams) : SendProg Sender := do
  match ← request (.write streams.current (file.finFrame library)) with
  | some err => leave streams (some (.writeFin err))
  | none =>
    request (.setDeadline streams.current)
    return .waitDone streams

def transferFrom (streams : Streams) (seq : Int) : SendProg Sender := do
  reportSending config file .transfer (wrap64 (seq * chunkSize)) seq
  if seq < file.totalChunks then sendBatch library file streams seq
  else sendFin library file streams

def afterAccept (streams : Streams) (offset : Int) : SendProg Sender := do
  request (.seekFile (wrap64 (offset * chunkSize)))
  request (.setState .transfer)
  transferFrom library config file streams offset

def afterAck (streams : Streams) (cs : Int) : SendProg Sender := do
  request (.seekFile (wrap64 (wrap64 (cs + 1) * chunkSize)))
  transferFrom library config file streams (wrap64 (cs + 1))

/-- A failed read of an ACK, whatever the reason: dial again and start over from
the chunk after the last one sent. -/
def reconnect (streams : Streams) (seq : Int) : SendProg Sender := do
  request (.closeStream streams.current)
  match ← request .openStream with
  | .error err => leave streams (some (.reconnect err))
  | .ok stream => writeInit library file { streams with current := stream } seq

def afterDone (streams : Streams) : SendProg Sender := do
  request (.setState .done)
  reportSending config file .done file.bytes.length file.totalChunks
  leave streams none

def sendFile : SendProg Sender := do
  request .storeSession
  match ← request .openStream with
  | .error err =>
    request .cancelContext
    returnFile (some (.openStream err))
  | .ok stream => writeInit library file ⟨stream, stream⟩ 0

/-- What `SendFile` does with the outcome of its next `frameRead`, `none` being a
failed one. -/
def Sender.receive : Sender → Option Frame → SendProg Sender
  | .waitAccept streams, read =>
    match readJSONFrame library frameTypeAccept library.unmarshalAccept read with
    | .error err => leave streams (some (.readAccept err))
    | .ok offset => afterAccept library config file streams offset.toInt
  | .waitAck streams seq, read =>
    match readJSONFrame library frameTypeAck library.unmarshalAck read with
    | .error _ => reconnect library file streams seq
    | .ok cs => afterAck library config file streams cs.toInt
  | .waitDone streams, read =>
    match readJSONFrame library frameTypeDone library.unmarshalDone read with
    | .error err => leave streams (some (.readDone err))
    | .ok _ => afterDone config file streams
  | .returned result, _ => return .returned result

end SendFile

/-- The sender's surroundings: its local file and the position in it, its streams,
and what becomes of its session. -/
structure SendWorld where
  file : Bytes
  position : Nat
  fileOpen : Bool
  opened : Nat
  closed : List Nat
  deadlines : Nat
  state : TransferState
  registered : Bool
  progress : List FileProgress

/-- The fault-free answer to every operation. `file.Read` fills its buffer except
at the end of the file. -/
def handleSend : (op : SendOp) → SendWorld → SendResponse op × SendWorld
  | .openStream, world => (.ok world.opened, { world with opened := world.opened + 1 })
  | .closeStream stream, world => ((), { world with closed := world.closed ++ [stream] })
  | .write _ _, world => (none, world)
  | .setDeadline _, world => ((), { world with deadlines := world.deadlines + 1 })
  | .readFile, world =>
    (.ok ((world.file.drop world.position).take chunkSize),
      { world with
        position := world.position + ((world.file.drop world.position).take chunkSize).length })
  | .seekFile offset, world =>
    -- A negative offset is refused by the system; the code ignores the error.
    ((), if offset < 0 then world else { world with position := offset.toNat })
  | .closeFile, world => ((), { world with fileOpen := false })
  | .ctxDone, world => (false, world)
  | .cancelContext, world => ((), world)
  | .setState state, world => ((), { world with state := state })
  | .storeSession, world => ((), { world with registered := true })
  | .deleteSession, world => ((), { world with registered := false })
  | .report progress, world => ((), { world with progress := world.progress ++ [progress] })

def SendWorld.start (file : Outgoing) : SendWorld where
  file := file.bytes
  position := 0
  fileOpen := true
  opened := 0
  closed := []
  deadlines := 0
  state := .init
  registered := false
  progress := []

/-- How an operation may be answered. Streams, writes and reads of the file may fail, and the
context may be done at any time. -/
def sendOutcome : (op : SendOp) → SendWorld → SendResponse op → SendWorld → Prop
  | .openStream, world, answer, after =>
    (∃ err, answer = .error err ∧ after = world) ∨
      (answer = .ok world.opened ∧ after = { world with opened := world.opened + 1 })
  | .readFile, world, answer, after =>
    (∃ err, answer = .error err ∧ after = world) ∨
      (answer = (handleSend .readFile world).1 ∧ after = (handleSend .readFile world).2)
  | op, world, _, after => after = (handleSend op world).2

theorem sendOutcome_handleSend (op : SendOp) (w : SendWorld) :
    sendOutcome op w (handleSend op w).1 (handleSend op w).2 := by
  cases op with
  | openStream | readFile => exact .inr ⟨rfl, rfl⟩
  | _ => rfl

end Peerscale.RelayFile
