import Peerscale.RelayFile.Discipline

/-! # Receiving without faults

When every operation succeeds, a session is a function of what reaches it. What
each part of it returns and leaves behind is computed here.
-/

namespace Peerscale.RelayFile

open Program

def World.emitted (w : World) (replies : List Reply) (reports : List FileProgress) :
    World :=
  { w with
    self := { w.self with
      sent := w.self.sent ++ replies
      progress := w.self.progress ++ reports } }

@[simp] theorem World.files_emitted (w : World) (replies : List Reply)
    (reports : List FileProgress) : (w.emitted replies reports).files = w.files := rfl

@[simp] theorem World.emitted_nil (w : World) : w.emitted [] [] = w := by
  simp [World.emitted]

section Data

variable (library : Library) (config : Config) (cb : Bool) (startSeq lastAck : Int) (w : World)

def AckDue (ses : Session) (lastAck newSeq : Int) : Prop :=
  (ackBatch ≤ wrap64 (newSeq - lastAck) ∨ ses.totalChunks ≤ newSeq) ∧ lastAck < newSeq
  deriving Decidable

def ackReplies (ses : Session) (lastAck newSeq : Int) : List Reply :=
  if AckDue ses lastAck newSeq then [.ack (newSeq - 1)] else []

def nextAck (ses : Session) (lastAck newSeq : Int) : Int :=
  if AckDue ses lastAck newSeq then newSeq else lastAck

def transferReports (ses : Session) (newSeq : Int) : List FileProgress :=
  if cb ∧ startSeq < newSeq then
    [progressOf config ses .transfer ses.doneBytes newSeq none]
  else []

theorem run_acknowledge (ses : Session) (newSeq : Int) :
    (acknowledge ses lastAck newSeq).run handle w = (.ok (.ok (nextAck ses lastAck newSeq)),
        w.emitted (ackReplies ses lastAck newSeq) []) := by
  unfold acknowledge nextAck ackReplies
  by_cases due : AckDue ses lastAck newSeq
  · rw [if_pos due, if_pos due]
    refine (congrArg (run handle · w) (if_pos due)).trans ?_
    rw [call_bind, run_perform]
    simp [handle, World.sent, World.emitted]
  rw [if_neg due, if_neg due]
  refine (congrArg (run handle · w) (if_neg due)).trans ?_
  simp [World.emitted]

theorem run_reportTransfer (ses : Session) (newSeq : Int) :
    (reportTransfer config ses cb startSeq newSeq).run handle w =
      (.ok (), w.emitted [] (transferReports config cb startSeq ses newSeq)) := by
  unfold reportTransfer transferReports
  split
  · simp [call, ask, handle, World.reported, World.emitted]
  · simp [World.emitted]

theorem run_afterChunk {ses : Session}
    (comp : bitmapMaxContinuous ses.bitmap ses.totalChunks = .ok newSeq) :
    (afterChunk config ses cb startSeq lastAck).run handle w =
      (.ok (.receiving ses cb startSeq (nextAck ses lastAck newSeq)),
        w.emitted (ackReplies ses lastAck newSeq)
          (transferReports config cb startSeq ses newSeq)) := by
  rw [afterChunk, comp, ofExcept_ok, done_bind,
    run_bind_of_ok handle (run_acknowledge lastAck w ses newSeq),
    run_bind_of_ok handle (run_reportTransfer config cb startSeq _ ses newSeq)]
  simp [World.emitted]

theorem run_receiveData_of_marked {ses : Session}
    (unpacked : unpackDataFrame library pl ses.compression = .ok (seq, data))
    (marked : bitmapHas ses.bitmap seq = .ok true)
    (comp : bitmapMaxContinuous ses.bitmap ses.totalChunks = .ok newSeq) :
    (receiveData library config ses cb startSeq lastAck pl).run handle w =
      (.ok (.receiving ses cb startSeq (nextAck ses lastAck newSeq)),
        w.emitted (ackReplies ses lastAck newSeq)
          (transferReports config cb startSeq ses newSeq)) := by
  rw [receiveData, unpacked]
  simp only [marked, ofExcept_ok, done_bind, if_true]
  exact run_afterChunk config cb startSeq lastAck w comp

def Session.afterWrite (ses : Session) (bm : Bitmap) (data : Bytes) : Session :=
  { ses with bitmap := bm, doneBytes := wrap64 (ses.doneBytes + data.length) }

theorem run_storeChunk {ses : Session} (tmpFile : ses.tmpFile = some fd)
    (marks : bitmapSet ses.bitmap seq = .ok bm) :
    (storeChunk ses seq data).run handle w = (.ok (.ok (ses.afterWrite bm data)),
        w.withFiles (w.files.write fd data)) := by
  rw [storeChunk, writeTmpFile, tmpFile, call_bind, run_perform]
  simp [handle, marks, Session.afterWrite, tmpFile]

theorem run_receiveData_of_unmarked {ses : Session}
    (unpacked : unpackDataFrame library pl ses.compression = .ok (seq, data))
    (unmarked : bitmapHas ses.bitmap seq = .ok false) (tmpFile : ses.tmpFile = some fd)
    (marks : bitmapSet ses.bitmap seq = .ok bm)
    (comp : bitmapMaxContinuous bm ses.totalChunks = .ok newSeq) :
    (receiveData library config ses cb startSeq lastAck pl).run handle w =
      (.ok (.receiving (ses.afterWrite bm data) cb startSeq (nextAck ses lastAck newSeq)),
        (w.withFiles (w.files.write fd data)).emitted (ackReplies ses lastAck newSeq)
          (transferReports config cb startSeq (ses.afterWrite bm data) newSeq)) := by
  rw [receiveData, unpacked]
  simp only [unmarked, ofExcept_ok, done_bind, Bool.false_eq_true, if_false]
  rw [run_bind_of_ok handle (run_storeChunk w tmpFile marks)]
  exact run_afterChunk config cb startSeq lastAck _ comp

theorem receive_dataFrame (ses : Session) (pl : Bytes) :
    (Receiver.receiving ses cb startSeq lastAck).receive library config
        (.frame ⟨frameTypeData, pl⟩) =
      receiveData library config ses cb startSeq lastAck pl := rfl

end Data

section Opening

variable {config : Config} {init : InitMessage} {bm : Bitmap} {w : World}

theorem run_resumePart {tmpFile : Nat} {marked : Bitmap} (nonzero : init.chunkSize.toInt ≠ 0)
    (marks : bitmapSetBelow bm (min (writtenChunks (w.files.size tmpFile)
      init.chunkSize.toInt) init.totalChunks.toInt).toNat = .ok marked) :
    (resumePart init bm tmpFile).run handle w = (.ok ⟨tmpFile, marked, w.files.size tmpFile,
        writtenChunks (w.files.size tmpFile) init.chunkSize.toInt⟩, w) := by
  rw [resumePart, call_bind, run_perform]
  simp [handle, nonzero, markedPart, marks]

theorem run_openPart_of_linked {inode : Nat} {marked : Bitmap} (asked : 0 < init.offset.toInt)
    (linked : w.files.link (tmpPath config init.name) = some inode)
    (nonzero : init.chunkSize.toInt ≠ 0)
    (marks : bitmapSetBelow bm (min (writtenChunks (w.files.content inode).length
      init.chunkSize.toInt) init.totalChunks.toInt).toNat = .ok marked) :
    (openPart config init bm).run handle w =
      (.ok (.ok ⟨w.files.nextDescriptor, marked, (w.files.content inode).length,
          writtenChunks (w.files.content inode).length init.chunkSize.toInt⟩),
        w.opened w.files.nextDescriptor (w.files.attach inode)) := by
  have opened : w.files.openExisting (tmpPath config init.name) =
      some (w.files.nextDescriptor, w.files.attach inode) := by
    rw [FileSystem.openExisting, linked]
    rfl
  have size : (w.files.attach inode).size w.files.nextDescriptor =
      (w.files.content inode).length := by
    simp [FileSystem.size]
  have ran := @run_resumePart init bm (w.opened w.files.nextDescriptor (w.files.attach inode))
    w.files.nextDescriptor marked nonzero (by rw [World.opened, size]; exact marks)
  rw [openPart, openExisting, if_pos asked, call_bind, run_perform]
  simp only [handle, opened]
  rw [run_bind_of_ok handle ran, World.opened, size]
  rfl

theorem run_openPart_of_unlinked
    (fresh : init.offset.toInt ≤ 0 ∨ w.files.link (tmpPath config init.name) = none) :
    (openPart config init bm).run handle w =
      (.ok (.ok ⟨(w.files.create (tmpPath config init.name)).1, bm, 0, 0⟩),
        w.opened (w.files.create (tmpPath config init.name)).1
          (w.files.create (tmpPath config init.name)).2) := by
  have created : (createPart config init bm).run handle w =
      (.ok (.ok ⟨(w.files.create (tmpPath config init.name)).1, bm, 0, 0⟩),
        w.opened (w.files.create (tmpPath config init.name)).1
          (w.files.create (tmpPath config init.name)).2) := by
    rw [createPart, call_bind, run_perform]
    simp [handle]
  unfold openPart openExisting
  split
  · rename_i asked
    have missing : w.files.openExisting (tmpPath config init.name) = none := by
      rw [FileSystem.openExisting, fresh.resolve_left (by omega)]
      rfl
    rw [call_bind, run_perform]
    simp only [handle, missing]
    exact created
  · exact created

/-- Where a session starts: after the chunks counted from the file size, or after
the unbroken run if that is longer. -/
def acceptOffset (part : OpenPart) (run : Int) : Int := max part.startSeq run

theorem run_startReceiving {part : OpenPart} {run : Int}
    (comp : bitmapMaxContinuous part.bitmap init.totalChunks.toInt = .ok run) :
    (startReceiving config init part).run handle w =
      (.ok (.receiving (newSession config init part) w.self.callback
          (acceptOffset part run) (acceptOffset part run)),
        ((w.seek part.tmpFile (wrap64 (acceptOffset part run *
          init.chunkSize.toInt))).sent (.accept (acceptOffset part run))).stored) := by
  have callback : ∀ off, (w.seek part.tmpFile off).self.callback =
      w.self.callback := by
    intro off
    unfold World.seek
    split <;> rfl
  rw [startReceiving, comp, ofExcept_ok, done_bind, call_bind, run_perform, call_bind, run_perform]
  simp [handle, call, ask, World.stored, World.sent, acceptOffset, callback]

theorem run_handleFileStream {run : Int} (allocated : newBitmap init.totalChunks.toInt = .ok bm)
    (ran : (openPart config init bm).run handle w = (.ok (.ok part), opened))
    (comp : bitmapMaxContinuous part.bitmap init.totalChunks.toInt = .ok run) :
    (handleFileStream config init).run handle w =
      (.ok (.receiving (newSession config init part) opened.self.callback
          (acceptOffset part run) (acceptOffset part run)),
        ((opened.seek part.tmpFile (wrap64 (acceptOffset part run *
          init.chunkSize.toInt))).sent (.accept (acceptOffset part run))).stored) := by
  rw [handleFileStream, call_bind, run_perform]
  simp only [handle, allocated, ofExcept_ok, done_bind]
  rw [run_bind_of_ok handle ran]
  exact run_startReceiving comp

end Opening

section Ending

variable {library : Library} {config : Config} {ses : Session} {w : World}

def Session.release (ses : Session) (files : Files) : Files :=
  match ses.tmpFile with
  | some descriptor => (files.close descriptor).remove ses.tmpPath
  | none => files.remove ses.tmpPath

theorem run_cleanupSession_of_terminal (err : GoString) (terminal : w.isTerminal) :
    (cleanupSession config ses err).run handle w = (.ok (), w) := by
  rw [cleanupSession, call_bind, run_perform]
  simp [handle, terminal]

theorem run_reportError (err : GoString) :
    ∃ reports, (reportError config ses err).run handle w = (.ok (), w.emitted [] reports) := by
  rcases bitmapMaxContinuous_total ses.bitmap ses.totalChunks with ⟨run, comp⟩
  rw [reportError, call_bind, run_perform]
  cases registered : w.self.callback with
  | false => exact ⟨[], by simp [handle, registered]⟩
  | true =>
    refine ⟨[progressOf config ses .error ses.doneBytes run (some err)], ?_⟩
    simp [handle, registered, comp, call, ask, World.reported, World.emitted]

theorem run_closeTmpFile_removeTmpPath (next : Unit → Prog α) (named : ses.tmpPath ≠ []) :
    (closeTmpFile ses >>= fun _ => removeTmpPath ses >>= next).run handle w =
      (next ()).run handle (w.withFiles (ses.release w.files)) := by
  unfold closeTmpFile removeTmpPath Session.release
  cases ses.tmpFile with
  | none =>
    rw [if_pos named, pure_eq_done, done_bind, call_bind, run_perform]
    rfl
  | some =>
    rw [if_pos named, call_bind, run_perform, call_bind, run_perform]
    rfl

theorem run_cleanupSession (err : GoString) (running : w.isTerminal = false)
    (named : ses.tmpPath ≠ []) :
    ∃ post, (cleanupSession config ses err).run handle w = (.ok (), post) ∧
      post.files = ses.release w.files ∧ post.self.sent = w.self.sent := by
  rw [cleanupSession, call_bind, run_perform]
  simp only [handle, running, Bool.false_eq_true, if_false, if_true]
  rw [run_closeTmpFile_removeTmpPath _ named]
  rcases @run_reportError config ses
    (w.cleaned.withFiles (ses.release w.cleaned.files)) err with ⟨reports, ran⟩
  rw [run_bind_of_ok handle ran]
  refine ⟨_, rfl, rfl, ?_⟩
  simp [handle, World.deleted, World.emitted, World.withFiles, World.cleaned]

theorem run_abandon_of_terminal (err : GoString) (terminal : w.isTerminal) :
    (abandon config ses err).run handle w = (.ok (.ended .failed), w.closedStream) := by
  rw [abandon, run_bind_of_ok handle (run_cleanupSession_of_terminal err terminal)]
  rfl

theorem run_abandon (err : GoString) (running : w.isTerminal = false) (named : ses.tmpPath ≠ []) :
    ∃ post, (abandon config ses err).run handle w = (.ok (.ended .failed), post) ∧
      post.files = ses.release w.files ∧ post.self.sent = w.self.sent := by
  rcases @run_cleanupSession config ses w err running named with ⟨cleaned, ran, files, sent⟩
  refine ⟨cleaned.closedStream, ?_, files, sent⟩
  rw [abandon, run_bind_of_ok handle ran]
  rfl

theorem run_refuse (why err : GoString) (named : ses.tmpPath ≠ []) :
    ∃ post, (refuse config ses why err).run handle w = (.ok (.ended .failed), post) ∧
      post.self.sent = w.self.sent ++ [.error why] := by
  rw [refuse, call_bind, run_perform]
  cases terminal : (w.sent (.error why)).isTerminal with
  | true => exact ⟨_, run_abandon_of_terminal err terminal, rfl⟩
  | false =>
    rcases @run_abandon config ses _ err terminal named with ⟨post, ran, -, sent⟩
    exact ⟨post, ran, sent⟩

theorem run_verifyFileHash {path checksum : GoString} {bytes : Bytes}
    (found : w.files.read path = some bytes) :
    ∃ answer, (verifyFileHash path checksum).run handle w = (.ok answer, w) ∧
      (answer = none ↔ Certifies checksum bytes) := by
  unfold verifyFileHash
  split
  · rename_i malformed
    refine ⟨_, rfl, by simp, fun certifies => ?_⟩
    refine absurd malformed (not_or.mpr ⟨?_, ?_⟩)
    · rw [certifies, List.length_append]
      exact Nat.not_lt.mpr (Nat.le_add_right 7 _)
    · rw [certifies, not_not]
      exact List.take_left' rfl
  rename_i wellFormed
  rw [not_or, not_not] at wellFormed
  rw [call_bind, run_perform]
  simp only [handle, found]
  split
  · rename_i mismatch
    refine ⟨_, rfl, by simp, fun certifies => ?_⟩
    rw [certifies] at mismatch
    exact absurd rfl mismatch
  rename_i matched
  refine ⟨none, rfl, fun _ => ?_, fun _ => rfl⟩
  rw [Certifies, ← wellFormed.2, not_not.mp matched, List.take_append_drop]

theorem run_deliver (cb : Bool) :
    ∃ post, (deliver config ses cb).run handle w = (.ok (.ended .delivered), post) ∧
      post.files = w.files ∧ post.self.sent = w.self.sent ++ [.done] := by
  rw [deliver, call_bind, run_perform, call_bind, run_perform]
  cases cb with
  | false | true => exact ⟨_, rfl, rfl, rfl⟩

/-- FIN with the announced checksum delivers exactly the files it certifies. -/
theorem run_receiveFin {pl bytes : Bytes} {fd : Nat} (cb : Bool)
    (repeated : (library.unmarshalFin pl).checksum = ses.checksum)
    (tmpFile : ses.tmpFile = some fd) (named : ses.tmpPath ≠ [])
    (found : w.files.read ses.tmpPath = some bytes) :
    ∃ ending post, (receiveFin library config ses cb pl).run handle w =
      (.ok (.ended ending), post) ∧
      (Certifies ses.checksum bytes → ending = .delivered ∧
        post.files.read ses.savePath = some bytes ∧
        post.self.sent = w.self.sent ++ [.done]) ∧
      (¬Certifies ses.checksum bytes → ending = .failed ∧
        ∃ why, post.self.sent = w.self.sent ++ [.error why]) := by
  have closed : (closeForFin ses).run handle w = (.ok { ses with tmpFile := none },
        w.withFiles (w.files.close fd)) := by
    rw [closeForFin, tmpFile]
    rfl
  have stillFound : (w.withFiles (w.files.close fd)).files.read ses.tmpPath = some bytes := found
  rcases @run_verifyFileHash _ ses.tmpPath ses.checksum bytes stillFound with
    ⟨answer, verified, certifies⟩
  rw [receiveFin, if_neg (not_not.mpr repeated), run_bind_of_ok handle closed]
  rw [run_bind_of_ok handle verified]
  cases answer with
  | some err =>
    rcases @run_refuse config { ses with tmpFile := none }
      (w.withFiles (w.files.close fd)) err err named with ⟨post, ran, sent⟩
    refine ⟨.failed, post, ran, fun isCertified => ?_, fun _ => ⟨rfl, err, sent⟩⟩
    exact absurd (certifies.mpr isCertified) (by simp)
  | none =>
    have isCertified := certifies.mp rfl
    rcases Option.map_eq_some_iff.mp stillFound with ⟨inode, linked, -⟩
    rcases FileSystem.rename_isSome linked ses.savePath with ⟨moved, renamed⟩
    rcases @run_deliver config { ses with tmpFile := none, doneBytes := ses.size }
      (w.withFiles moved) cb with ⟨post, ran, files, sent⟩
    refine ⟨.delivered, post, ?_, fun _ => ⟨rfl, ?_, sent⟩, absurd isCertified⟩
    · rw [call_bind, run_perform]
      simp only [handle, renamed]
      exact ran
    · rw [files, World.withFiles, FileSystem.read_rename_target renamed]
      exact stillFound

end Ending

end Peerscale.RelayFile
