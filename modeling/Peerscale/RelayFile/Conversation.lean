import Peerscale.Foundation.Dialogue
import Peerscale.RelayFile.Following
import Peerscale.RelayFile.Sender

/-! # Sender and receiver as parties

`SendFile` and `HandleFileStream` as the two parties of a conversation, and what
each of them writes in one reaction when nothing fails.
-/

namespace Peerscale.RelayFile

open World Party

structure Outgoing.Readable (library : Library) (outgoing : Outgoing) : Prop where
  init : library.unmarshalInit (library.marshalInit (outgoing.initMessage 0)) =
    some (outgoing.initMessage 0)
  accept : library.unmarshalAccept (library.marshalAccept 0) = some 0
  ack : ∀ cs, cs < outgoing.totalChunks →
    library.unmarshalAck (library.marshalAck (Int64.ofNat cs)) = some (Int64.ofNat cs)
  fin : library.unmarshalFin (library.marshalFin outgoing.finMessage) = outgoing.finMessage
  done : library.unmarshalDone (library.marshalDone true) = some true

def senderParty (library : Library) (config : SendConfig) (file : Outgoing) :
    Party Frame Frame where
  Op := SendOp
  Response := SendResponse
  Fault := Empty
  State := Sender
  World := SendWorld
  react sender frame := sender.receive library config file (some frame)
  handle := handleSend
  written
    | .write _ frame => some frame
    | _ => none

def receiverParty (library : Library) (config : Config) : Party Frame Frame where
  Op := Op
  Response := Response
  Fault := GoPanic
  State := Receiver
  World := World
  react receiver frame := receiver.receive library config (.frame frame)
  handle := handle
  written
    | .send reply => some (reply.frame library)
    | _ => none

section Receiving

def Op.reply : Op → List Reply
  | .send reply => [reply]
  | _ => []

theorem sent_handle (op : Op) (w : World) :
    (handle op w).2.self.sent = w.self.sent ++ op.reply := by
  cases op with
  | openFile path =>
    cases found : w.files.openExisting path with
    | none => simp [handle, found, Op.reply]
    | some => simp [handle, found, Op.reply, opened]
  | seek =>
    simp only [handle, seek, Op.reply]
    split <;> simp [withFiles]
  | readFile path => cases found : w.files.read path <;> simp [handle, found, Op.reply]
  | rename src target =>
    cases found : w.files.rename src target <;> simp [handle, found, Op.reply, withFiles]
  | cancelSession =>
    simp only [handle, cancelled, Op.reply]
    split <;> simp
  | beginCleanup =>
    cases terminal : w.isTerminal <;> simp [handle, terminal, Op.reply, cleaned]
  | _ => exact (List.append_nil _).symm.trans (by simp [handle, Op.reply, opened,
      withFiles, sent, closedStream, stored, deleted,
      finished, World.reported])

theorem exists_sent_output (library : Library) (config : Config) (prog : Prog α) (w : World) :
    ∃ replies, (prog.run handle w).2.self.sent = w.self.sent ++ replies ∧
      (receiverParty library config).output prog w = replies.map (Reply.frame library) := by
  induction prog generalizing w with
  | done | halt => exact ⟨[], (List.append_nil _).symm, rfl⟩
  | perform op next ih =>
    rcases ih (handle op w).1 (handle op w).2 with ⟨replies, sent, output⟩
    refine ⟨op.reply ++ replies, ?_, ?_⟩
    · rw [Program.run_perform, sent, sent_handle, List.append_assoc]
    have x : ((receiverParty library config).written op).toList =
        op.reply.map (Reply.frame library) := by cases op <;> rfl
    rw [List.map_append, ← output, ← x]
    rfl

theorem performs_of_run {prog : Prog α} (ran : prog.run handle w = (.ok val, post))
    (sent : post.self.sent = w.self.sent ++ replies) :
    (receiverParty library config).Performs prog w (replies.map (Reply.frame library)) val
      post := by
  rcases exists_sent_output library config prog w with ⟨others, sentOthers, output⟩
  rw [ran, sent, List.append_right_inj] at sentOthers
  exact ⟨ran, sentOthers ▸ output⟩

end Receiving

section Sending

variable {library : Library} {config : SendConfig} {file : Outgoing} {streams : Streams}
  {w : SendWorld}

theorem performs_sendChunks_succ {seq : Int} {n : Nat} {data : Bytes}
    {said : List Frame} {res : Except SendError Int} {post : SendWorld}
    (read : (w.file.drop w.position).take chunkSize = data) (nonempty : data ≠ [])
    (rest : (senderParty library config file).Performs (sendChunks library file streams (seq + 1) n)
      { w with position := w.position + data.length } said res post) :
    (senderParty library config file).Performs (sendChunks library file streams seq (n + 1)) w
      (⟨frameTypeData, packDataFrame library seq data file.compression⟩ :: said) res
      post := by
  cases data with
  | nil => exact absurd rfl nonempty
  | cons byte bytes =>
    have ans : (senderParty library config file).handle .readFile w =
        (.ok (byte :: bytes), { w with
          position := w.position + (byte :: bytes).length }) := by
      change (Except.ok ((w.file.drop w.position).take chunkSize), _) = _
      rw [read]
      rfl
    exact performs_silent rfl ans (performs_written rfl rfl rest)

theorem performs_sendChunks {seq n : Nat} (same : w.file = file.bytes)
    (within : seq + n ≤ file.totalChunks) (positioned : 0 < n → w.position = seq * chunkSize) :
    ∃ pos, (senderParty library config file).Performs (sendChunks library file streams seq n) w
      ((List.range' seq n).map (file.dataFrame library)) (.ok ((seq + n : Nat) : Int))
      { w with position := pos } := by
  induction n generalizing seq w with
  | zero => exact ⟨w.position, performs_done _ _⟩
  | succ n ih =>
    have here := positioned (Nat.succ_pos n)
    have read : (w.file.drop w.position).take chunkSize = file.chunk seq := by
      rw [same, here]
      rfl
    have onwards : 0 < n → w.position + (file.chunk seq).length = (seq + 1) * chunkSize := by
      intro more
      have inside := (file.lt_totalChunks_iff (seq + 1)).mp (by omega)
      have full : (file.chunk seq).length = chunkSize := length_piece_of_le (Nat.le_of_lt inside)
      rw [here, full, Nat.add_mul, Nat.one_mul]
    rcases @ih { w with position := w.position + (file.chunk seq).length }
      (seq + 1) same (by omega) onwards with ⟨pos, performs⟩
    refine ⟨pos, ?_⟩
    rw [Int.natCast_succ] at performs
    have whole := performs_sendChunks_succ read (file.chunk_ne_nil (by omega)) performs
    rw [show seq + (n + 1) = seq + 1 + n by omega]
    exact whole

def batchEnd (file : Outgoing) (seq : Nat) : Nat := min (seq + ackBatch) file.totalChunks

theorem performs_reportSending (state : TransferState) (doneBytes doneChunks : Int) :
    ∃ progress, (senderParty library config file).Performs
      (reportSending config file state doneBytes doneChunks) w [] ()
      { w with progress := progress } := by
  unfold reportSending
  split
  · exact ⟨_, performs_silent rfl rfl (performs_done _ _)⟩
  · exact ⟨w.progress, performs_done _ _⟩

theorem batchLength_natCast (below : seq < file.totalChunks) :
    batchLength file seq = batchEnd file seq - seq := by
  unfold batchLength batchEnd
  omega

structure Sending (outgoing : Outgoing) (deadlines : Nat) (w : SendWorld) : Prop where
  file : w.file = outgoing.bytes
  deadlines : w.deadlines = deadlines

theorem performs_sendBatch {seq deadlines : Nat} (sending : Sending file deadlines w)
    (below : seq < file.totalChunks) (positioned : w.position = seq * chunkSize) :
    ∃ post, (senderParty library config file).Performs (sendBatch library file streams seq) w
        ((List.range' seq (batchEnd file seq - seq)).map (file.dataFrame library))
        (.waitAck streams (batchEnd file seq)) post ∧
      Sending file (deadlines + 1) post := by
  have notBefore : seq ≤ batchEnd file seq := by
    unfold batchEnd
    omega
  have notBeyond : batchEnd file seq ≤ file.totalChunks := Nat.min_le_right _ _
  rcases @performs_sendChunks library config file streams w seq
    (batchEnd file seq - seq) sending.file (by omega) (fun _ => positioned) with
      ⟨pos, chunks⟩
  rw [Nat.add_sub_cancel' notBefore, ← batchLength_natCast below] at chunks
  refine ⟨{ w with position := pos, deadlines := w.deadlines + 1 }, ?_, ?_⟩
  · rw [← batchLength_natCast below]
    refine performs_silent rfl rfl ?_
    rw [← List.append_nil (List.map _ _)]
    exact chunks.bind (performs_silent rfl rfl (performs_done _ _))
  · exact ⟨sending.file, congrArg (· + 1) sending.deadlines⟩

theorem performs_sendFin {deadlines : Nat} (sending : Sending file deadlines w) :
    ∃ post, (senderParty library config file).Performs (sendFin library file streams) w
      [file.finFrame library] (.waitDone streams) post ∧
      Sending file (deadlines + 1) post :=
  ⟨_, performs_written rfl rfl (performs_silent rfl rfl (performs_done _ _)),
    sending.file, congrArg (· + 1) sending.deadlines⟩

def framesFrom (library : Library) (file : Outgoing) (seq : Nat) : List Frame :=
  if seq < file.totalChunks then
    (List.range' seq (batchEnd file seq - seq)).map (file.dataFrame library)
  else [file.finFrame library]

def waitFrom (file : Outgoing) (streams : Streams) (seq : Nat) : Sender :=
  if seq < file.totalChunks then .waitAck streams (batchEnd file seq)
  else .waitDone streams

theorem performs_transferFrom {seq deadlines : Nat} (sending : Sending file deadlines w)
    (positioned : seq < file.totalChunks → w.position = seq * chunkSize) :
    ∃ post, (senderParty library config file).Performs
      (transferFrom library config file streams seq) w
        (framesFrom library file seq) (waitFrom file streams seq) post ∧
      Sending file (deadlines + 1) post := by
  rcases @performs_reportSending library config file w .transfer
    (wrap64 (seq * chunkSize)) seq with ⟨progress, reported⟩
  have told : Sending file deadlines { w with progress := progress } :=
    ⟨sending.file, sending.deadlines⟩
  unfold framesFrom waitFrom
  by_cases below : seq < file.totalChunks
  · rcases @performs_sendBatch library config file streams _ _ _ told below
      (positioned below) with ⟨post, batch, done⟩
    refine ⟨post, ?_, done⟩
    rw [if_pos below, if_pos below, transferFrom, if_pos (Int.ofNat_lt.mpr below)]
    exact reported.bind batch
  rcases @performs_sendFin library config file streams _ _ told with ⟨post, fin, done⟩
  refine ⟨post, ?_, done⟩
  rw [if_neg below, if_neg below, transferFrom, if_neg (mt Int.ofNat_lt.mp below)]
  exact reported.bind fin

theorem performs_seekFile {off : Int} {prog : SendProg Sender} {said : List Frame}
    {val : Sender} {post : SendWorld} (rest : (senderParty library config file).Performs prog
      (handleSend (.seekFile off) w).2 said val post) :
    (senderParty library config file).Performs
      (request (.seekFile off) >>= fun _ => prog) w said val post :=
  performs_silent rfl rfl rest

section

variable {deadlines : Nat} (sending : Sending file deadlines w)

include sending

theorem Sending.seekFile (off : Int) :
    Sending file deadlines (handleSend (.seekFile off) w).2 ∧
      (0 ≤ off → (handleSend (.seekFile off) w).2.position = off.toNat) := by
  dsimp only [handleSend]
  split
  · exact ⟨sending, fun nonnegative => by omega⟩
  · exact ⟨⟨sending.file, sending.deadlines⟩, fun _ => rfl⟩

theorem Sending.seekChunk (seq : Nat) :
    ∃ between, (handleSend (.seekFile (wrap64 (seq * chunkSize))) w).2 = between ∧
      Sending file deadlines between ∧
      (seq < file.totalChunks → between.position = seq * chunkSize) := by
  rcases sending.seekFile (wrap64 (seq * chunkSize)) with ⟨still, positioned⟩
  refine ⟨_, rfl, still, ?_⟩
  intro below
  have inside := (file.lt_totalChunks_iff seq).mp below
  have fits := file.fits
  rw [← Int.natCast_mul, wrap64_of_mem (by omega) (by omega), Int.toNat_natCast] at positioned
  rw [← Int.natCast_mul, wrap64_of_mem (by omega) (by omega)]
  exact positioned (by omega)

theorem performs_afterAccept {seq : Nat} :
    ∃ post, (senderParty library config file).Performs
      (afterAccept library config file streams seq) w
        (framesFrom library file seq) (waitFrom file streams seq) post ∧
      Sending file (deadlines + 1) post := by
  rcases sending.seekChunk seq with ⟨between, sought, still, positioned⟩
  rcases @performs_transferFrom library config file streams
    { between with state := .transfer } seq deadlines ⟨still.file, still.deadlines⟩ positioned
      with ⟨post, performs, done⟩
  refine ⟨post, performs_seekFile ?_, done⟩
  rw [sought]
  exact performs_silent rfl rfl performs

theorem performs_afterAck {seq : Nat} (next : seq = cs + 1) (bound : seq ≤ file.totalChunks) :
    ∃ post, (senderParty library config file).Performs (afterAck library config file streams cs) w
        (framesFrom library file seq) (waitFrom file streams seq) post ∧
      Sending file (deadlines + 1) post := by
  have small := file.totalChunks_le
  have successor : wrap64 ((cs : Int) + 1) = seq := by
    rw [wrap64_of_mem (by omega) (by omega), next]
    rfl
  rcases sending.seekChunk seq with ⟨between, sought, still, positioned⟩
  rcases @performs_transferFrom library config file streams between seq deadlines still
    positioned with ⟨post, performs, done⟩
  refine ⟨post, ?_, done⟩
  rw [afterAck, successor]
  apply performs_seekFile
  rw [sought]
  exact performs

end

end Sending

end Peerscale.RelayFile
