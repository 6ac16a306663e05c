import Peerscale.RelayFile.SenderRuns

/-! # Indices of chunks

`SendFile` takes the index of the next chunk from what the receiver says, and the position in
the file from a seek whose failure it does not notice. As long as the receiver accepts from an
index that is not negative and acknowledges no more than has been sent, each DATA frame has the
bytes that belong to its index, and FIN comes after all chunks.
-/

namespace Peerscale.RelayFile

open List

def accepts (library : Library) (moment : SendMoment) : Option Int :=
  match moment.deed with
  | .act (.heard read) =>
    match readJSONFrame library frameTypeAccept library.unmarshalAccept read with
    | .ok offset => some offset.toInt
    | .error _ => none
  | _ => none

def acceptedOffset (library : Library) (past : List SendMoment) : Option Int :=
  past.findSome? (accepts library)

def written (moment : SendMoment) : Option Frame :=
  match moment.deed with
  | .performed (.write _ fr) none => some fr
  | _ => none

def sentSince (library : Library) (past : List SendMoment) : List Frame :=
  (past.takeWhile fun moment => (accepts library moment).isNone).filterMap written

structure Covers (library : Library) (file : Outgoing) (past : List SendMoment)
    (offset : Int) (seq : Nat) : Prop where
  accepted : acceptedOffset library past = some offset
  sent : ∀ index : Nat, offset ≤ index → index < seq →
    file.dataFrame library index ∈ sentSince library past

/-- Each DATA frame is the one of a chunk, and FIN comes after all chunks from the accepted
offset on. -/
structure Labelled (library : Library) (file : Outgoing) (past : List SendMoment) : Prop where
  data : ∀ moment ∈ past, ∀ fr, emitted moment = some fr → fr.typ = frameTypeData →
    ∃ seq < file.totalChunks, fr = file.dataFrame library seq
  fin : ∀ moment earlier, moment :: earlier <:+ past → ∀ fr, emitted moment = some fr →
    fr.typ = frameTypeFin → ∃ offset, Covers library file earlier offset file.totalChunks

section

variable {library : Library} {config : SendConfig} {file : Outgoing} {α : Type}
  {past : List SendMoment} {moment : SendMoment} {offset : Int} {seq : Nat} {fr : Frame}

theorem labelled_nil : Labelled library file [] where
  data moment mem := by cases mem
  fin moment prev suffix := by cases suffix_nil.mp suffix

theorem Labelled.cons (labelled : Labelled library file past)
    (data : ∀ fr, emitted moment = some fr → fr.typ = frameTypeData →
      ∃ seq < file.totalChunks, fr = file.dataFrame library seq)
    (fin : ∀ fr, emitted moment = some fr → fr.typ = frameTypeFin →
      ∃ offset, Covers library file past offset file.totalChunks) :
    Labelled library file (moment :: past) where
  data other mem := by
    rcases mem_cons.mp mem with rfl | prev
    · exact data
    · exact labelled.data other prev
  fin other prev suffix := by
    rcases suffix_cons_iff.mp suffix with same | before
    · cases same
      exact fin
    · exact labelled.fin other prev before

theorem Labelled.quiet (labelled : Labelled library file past)
    (quiet : emitted moment = none) : Labelled library file (moment :: past) := by
  apply labelled.cons
  · intro fr isFrame
    rw [quiet] at isFrame
    cases isFrame
  intro fr isFrame
  rw [quiet] at isFrame
  cases isFrame

theorem Labelled.other (labelled : Labelled library file past)
    (isFrame : emitted moment = some fr) (notData : fr.typ ≠ frameTypeData)
    (notFin : fr.typ ≠ frameTypeFin) : Labelled library file (moment :: past) := by
  apply labelled.cons
  · intro other isOther isData
    rw [isFrame, Option.some.injEq] at isOther
    exact absurd (isOther ▸ isData) notData
  intro other isOther isFin
  rw [isFrame, Option.some.injEq] at isOther
  exact absurd (isOther ▸ isFin) notFin

section

variable (covers : Covers library file past offset seq)

include covers

theorem Covers.cons (notAccept : accepts library moment = none) :
    Covers library file (moment :: past) offset seq where
  accepted := by
    rw [acceptedOffset, findSome?_cons, notAccept]
    exact covers.accepted
  sent index lower upper := by
    rw [sentSince, takeWhile_cons, notAccept]
    have before := covers.sent index lower upper
    rw [sentSince] at before
    rw [Option.isNone_none, if_pos rfl, filterMap_cons]
    split
    · exact before
    · exact mem_cons_of_mem _ before

theorem Covers.mono (fewer : less ≤ seq) : Covers library file past offset less :=
  ⟨covers.accepted, fun index lower upper => covers.sent index lower (upper.trans_le fewer)⟩

theorem Covers.data (isWritten : written moment = some (file.dataFrame library seq))
    (notAccept : accepts library moment = none) :
    Covers library file (moment :: past) offset (seq + 1) where
  accepted := (covers.cons notAccept).accepted
  sent index lower upper := by
    rcases Nat.lt_succ_iff_lt_or_eq.mp upper with before | rfl
    · exact (covers.cons notAccept).sent index lower before
    rw [sentSince, takeWhile_cons, notAccept, Option.isNone_none, if_pos rfl,
      filterMap_cons, isWritten]
    exact mem_cons_self

end

theorem covers_of_accepts (accept : accepts library moment = some offset)
    (start : (seq : Int) ≤ offset) : Covers library file (moment :: past) offset seq where
  accepted := by rw [acceptedOffset, findSome?_cons, accept]
  sent index lower upper := by omega

def SendOp.isStill : SendOp → Bool
  | .write _ _ | .readFile | .seekFile _ => false
  | _ => true

structure Stands (library : Library) (file : Outgoing) (offset : Int) (seq : Nat)
    (log : SendChronicle) : Prop where
  labelled : Labelled library file log.past
  covers : Covers library file log.past offset seq
  position : seq < file.totalChunks → log.world.position = seq * chunkSize
  file : log.world.file = file.bytes

structure Tidy (library : Library) (file : Outgoing) (log : SendChronicle) : Prop where
  labelled : Labelled library file log.past
  file : log.world.file = file.bytes

variable {after : SendWorld} {op : SendOp} {resp : SendResponse op}

theorem Stands.tidy (stands : Stands library file offset seq log) : Tidy library file log :=
  ⟨stands.labelled, stands.file⟩

theorem file_of_outcome (answered : sendOutcome op world resp after) : after.file = world.file := by
  cases op with
  | openStream | readFile => rcases answered with ⟨err, -, rfl⟩ | ⟨-, rfl⟩ <;> rfl
  | seekFile =>
    cases answered
    rw [handleSend]
    split <;> rfl
  | _ =>
    cases answered
    rfl

theorem position_of_outcome (still : op.isStill)
    (answered : sendOutcome op world resp after) : after.position = world.position := by
  cases op with
  | openStream => rcases answered with ⟨err, -, rfl⟩ | ⟨-, rfl⟩ <;> rfl
  | readFile | seekFile | write => cases still
  | _ =>
    cases answered
    rfl

theorem emitted_of_still (still : op.isStill) :
    emitted ⟨before, .performed op resp, after⟩ = none := by
  cases op with
  | readFile | seekFile | write => cases still
  | _ => rfl

theorem Tidy.still (tidy : Tidy library file log) (still : op.isStill)
    (answered : sendOutcome op log.world resp after) :
    Tidy library file (log.next (.performed op resp) after) :=
  ⟨tidy.labelled.quiet (emitted_of_still still), (file_of_outcome answered).trans tidy.file⟩

theorem Stands.still (stands : Stands library file offset seq log)
    (still : op.isStill) (answered : sendOutcome op log.world resp after) :
    Stands library file offset seq (log.next (.performed op resp) after) where
  labelled := (stands.tidy.still still answered).labelled
  covers := stands.covers.cons rfl
  file := (stands.tidy.still still answered).file
  position below := (position_of_outcome still answered).trans (stands.position below)

variable {log : SendChronicle} {stream : Nat}

theorem sends_still (stands : Stands library file offset seq log) (still : op.isStill)
    (leads : ∀ resp after, Stands library file offset seq (log.next (.performed op resp) after) →
      Sends (cont resp) post (log.next (.performed op resp) after)) :
    Sends (.perform op cont) post log := by
  apply sends_perform
  intro resp after answered
  exact leads resp after (stands.still still answered)

theorem sends_of_still {prog : SendProg α} {holds : SendChronicle → Prop}
    (only : prog.Only (·.isStill))
    (keeps : ∀ {op : SendOp} {resp : SendResponse op} {log : SendChronicle}
      {after : SendWorld}, holds log → op.isStill → sendOutcome op log.world resp after →
          holds (log.next (.performed op resp) after)) (holding : holds log) :
    Sends prog (fun _ later => holds later) log := by
  apply (sender_undisturbed.stable _).leads_of_only only
  · intro log op resp after still holding answered
    exact keeps holding still answered
  · intro fault
    exact fault.elim
  · exact holding

theorem only_leave (streams : Streams) (res : Option SendError) :
    (leave streams res).Only (·.isStill) :=
  ⟨rfl, fun _ => ⟨rfl, fun _ => ⟨rfl, fun _ => trivial⟩⟩⟩

theorem still_reportSending (state : TransferState) (doneBytes doneChunks : Int) :
    (reportSending config file state doneBytes doneChunks).Only (·.isStill) := by
  rw [reportSending]
  split
  · exact ⟨rfl, fun _ => trivial⟩
  · trivial

theorem Tidy.tell {resp : Option GoString} (tidy : Tidy library file log)
    (others : fr.typ ≠ frameTypeData ∧ fr.typ ≠ frameTypeFin)
    (answered : sendOutcome (.write stream fr) log.world resp after) :
    Tidy library file (log.next (.performed (.write stream fr) resp) after) :=
  ⟨tidy.labelled.other rfl others.1 others.2, (file_of_outcome answered).trans tidy.file⟩

theorem init_other : frameTypeInit ≠ frameTypeData ∧ frameTypeInit ≠ frameTypeFin := by decide

theorem cancel_other : frameTypeCancel ≠ frameTypeData ∧ frameTypeCancel ≠ frameTypeFin := by
  decide

theorem Tidy.data {resp : Option GoString} (tidy : Tidy library file log)
    (below : seq < file.totalChunks) (isData : fr = file.dataFrame library seq)
    (answered : sendOutcome (.write stream fr) log.world resp after) :
    Tidy library file (log.next (.performed (.write stream fr) resp) after) := by
  refine ⟨tidy.labelled.cons ?_ ?_, (file_of_outcome answered).trans tidy.file⟩
  · intro other isOther _
    cases isOther
    exact ⟨seq, below, isData⟩
  intro other isOther isFin
  cases isOther
  rw [isData] at isFin
  exact absurd isFin (show frameTypeData ≠ frameTypeFin by decide)

theorem Tidy.fin {resp : Option GoString} (tidy : Tidy library file log)
    (covers : Covers library file log.past offset file.totalChunks)
    (answered : sendOutcome (.write stream (file.finFrame library)) log.world resp after) :
    Tidy library file
      (log.next (.performed (.write stream (file.finFrame library)) resp) after) := by
  refine ⟨tidy.labelled.cons ?_ ?_, (file_of_outcome answered).trans tidy.file⟩
  · intro other isOther isData
    cases isOther
    exact absurd isData (show frameTypeFin ≠ frameTypeData by decide)
  · intro other isOther _
    exact ⟨offset, covers⟩

def Honest (library : Library) (file : Outgoing) : Sender → SendChronicle → Prop
  | .waitAck _ seq, log => Tidy library file log ∧
      ∃ count : Nat, seq = count ∧ count ≤ file.totalChunks ∧
        ∃ offset, Covers library file log.past offset count
  | _, log => Tidy library file log

variable {streams : Streams}

theorem honest_leave (res : Option SendError) (tidy : Tidy library file log) :
    Sends (leave streams res) (Honest library file) log := by
  have returns : (leave streams res).Total fun sender => sender = .returned res := fun _ _ _ => rfl
  apply ((sends_of_still (only_leave streams res) Tidy.still tidy).and
    (Surroundings.leads_of_total returns) fun fault => fault.elim).mono
  rintro _ later ⟨tidyLater, rfl⟩
  exact tidyLater

theorem honest_writeInit (init : Int) (tidy : Tidy library file log) :
    Sends (writeInit library file streams init) (Honest library file) log := by
  apply sends_perform
  intro resp after answered
  have told := tidy.tell init_other answered
  cases resp with
  | some => exact honest_leave _ told
  | none => exact told

theorem honest_reconnect (last : Int) (tidy : Tidy library file log) :
    Sends (reconnect library file streams last) (Honest library file) log := by
  rw [reconnect]
  apply sends_perform
  intro _ hungUp answered
  have tidyUp := tidy.still rfl answered
  apply sends_perform
  intro resp dialled dials
  have tidyDialled := tidyUp.still rfl dials
  cases resp with
  | error => exact honest_leave _ tidyDialled
  | ok => exact honest_writeInit _ tidyDialled

def Batched (library : Library) (file : Outgoing) (offset : Int) (count : Nat)
    (result : Except SendError Int) (log : SendChronicle) : Prop :=
  Tidy library file log ∧
    ∀ last, result = .ok last → last = count ∧ Covers library file log.past offset count

theorem honest_sendChunks (within : seq + n ≤ file.totalChunks)
    (stands : Stands library file offset seq log) :
    Sends (sendChunks library file streams seq n) (Batched library file offset (seq + n)) log := by
  induction n generalizing seq log with
  | zero =>
    refine ⟨stands.tidy, ?_⟩
    intro last isLast
    cases isLast
    exact ⟨rfl, stands.covers⟩
  | succ n ih =>
    have below : seq < file.totalChunks := by omega
    apply sends_perform
    intro resp after answered
    have tidyRead : Tidy library file (log.next (.performed .readFile resp) after) :=
      ⟨stands.labelled.quiet rfl, (file_of_outcome answered).trans stands.file⟩
    rcases answered with ⟨err, rfl, rfl⟩ | ⟨isRead, isAfter⟩
    · apply sends_perform
      intro _ told tells
      refine ⟨tidyRead.tell cancel_other tells, ?_⟩
      intro last isLast
      cases isLast
    have data : (log.world.file.drop log.world.position).take chunkSize =
        file.chunk seq := by
      rw [stands.file, stands.position below]
      rfl
    have isChunk : resp = .ok (file.chunk seq) := by rw [isRead, handleSend, data]
    have moved : after.position = seq * chunkSize + (file.chunk seq).length := by
      rw [isAfter, handleSend, data, stands.position below]
    cases bytes : file.chunk seq with
    | nil => exact absurd bytes (file.chunk_ne_nil below)
    | cons byte rest =>
      have isData : (⟨frameTypeData, packDataFrame library seq (byte :: rest)
          file.compression⟩ : Frame) = file.dataFrame library seq := by
        rw [Outgoing.dataFrame, bytes]
      rw [bytes] at isChunk
      subst isChunk
      apply sends_perform
      intro failure told tells
      have tidyTold := tidyRead.data below isData tells
      cases failure with
      | some =>
        refine ⟨tidyTold, ?_⟩
        intro last isLast
        cases isLast
      | none =>
        cases tells
        have onwards : Stands library file offset (seq + 1) _ :=
          { labelled := tidyTold.labelled
            covers := (stands.covers.cons rfl).data (congrArg some isData) rfl
            file := tidyTold.file
            position := by
              intro more
              have inside := (file.lt_totalChunks_iff (seq + 1)).mp more
              have full : (file.chunk seq).length = chunkSize :=
                length_piece_of_le (Nat.le_of_lt inside)
              rw [full] at moved
              rw [Nat.add_mul, Nat.one_mul]
              exact moved }
        have rest := ih (by omega) onwards
        rw [Int.natCast_succ, Nat.add_right_comm] at rest
        exact rest

theorem honest_sendBatch (below : seq < file.totalChunks)
    (stands : Stands library file offset seq log) :
    Sends (sendBatch library file streams seq) (Honest library file) log := by
  rw [sendBatch]
  apply sends_still stands rfl
  intro cancelled asked standsAsked
  cases cancelled with
  | true =>
    apply sends_perform
    intro _ told tells
    exact honest_leave _ (standsAsked.tidy.tell cancel_other tells)
  | false =>
    have length := batchLength_natCast below
    have bound : seq + batchLength file seq ≤ file.totalChunks := by
      rw [length, batchEnd]
      omega
    apply (honest_sendChunks bound standsAsked).bind
    rintro res sent ⟨tidySent, batched⟩
    cases res with
    | error => exact honest_leave _ tidySent
    | ok last =>
      rcases batched last rfl with ⟨isLast, covers⟩
      apply sends_perform
      intro _ waiting waits
      exact ⟨tidySent.still rfl waits, _, isLast, bound, offset, covers.cons rfl⟩

theorem honest_sendFin (all : file.totalChunks ≤ seq)
    (stands : Stands library file offset seq log) :
    Sends (sendFin library file streams) (Honest library file) log := by
  apply sends_perform
  intro failure told tells
  have tidyTold := stands.tidy.fin (stands.covers.mono all) tells
  cases failure with
  | some => exact honest_leave _ tidyTold
  | none =>
    apply sends_perform
    intro _ waiting waits
    exact tidyTold.still rfl waits

theorem honest_transferFrom (stands : Stands library file offset seq log) :
    Sends (transferFrom library config file streams seq) (Honest library file) log := by
  apply (sends_of_still (still_reportSending _ _ _) Stands.still stands).bind
  intro _ told standsTold
  split
  · rename_i below
    exact honest_sendBatch (Int.ofNat_lt.mp below) standsTold
  · rename_i above
    exact honest_sendFin (Int.ofNat_le.mp (not_lt.mp above)) standsTold

/-- A receiver accepts from an index that is not negative, and acknowledges no more than has
been sent. -/
def Orderly (library : Library) (sender : Sender) (read : Option Frame) (_ : SendChronicle) :
    Prop :=
  match sender with
  | .waitAccept _ => ∀ offset,
      readJSONFrame library frameTypeAccept library.unmarshalAccept read = .ok offset →
        0 ≤ offset.toInt
  | .waitAck _ seq => ∀ cs,
      readJSONFrame library frameTypeAck library.unmarshalAck read = .ok cs →
        -1 ≤ cs.toInt ∧ cs.toInt + 1 ≤ seq
  | .waitDone _ => True
  | .returned _ => True

variable {read : Option Frame}

theorem Tidy.seek {resp : Unit} (tidy : Tidy library file log)
    (covers : Covers library file log.past offset seq)
    (answered : sendOutcome (.seekFile (wrap64 (seq * chunkSize))) log.world resp after) :
    Stands library file offset seq
      (log.next (.performed (.seekFile (wrap64 (seq * chunkSize))) resp) after) where
  labelled := tidy.labelled.quiet rfl
  covers := covers.cons rfl
  file := (file_of_outcome answered).trans tidy.file
  position below := by
    have sends : Sending file log.world.deadlines log.world := ⟨tidy.file, rfl⟩
    rcases sends.seekChunk seq with ⟨between, sought, -, positioned⟩
    have isAfter : after = (handleSend (.seekFile (wrap64 (seq * chunkSize)))
      log.world).2 := answered
    rw [sought] at isAfter
    exact (congrArg SendWorld.position isAfter).trans (positioned below)

theorem typ_of_ok (isOk : readJSONFrame library want decode read = .ok val) :
    ∃ fr, read = some fr ∧ fr.typ = want ∧ want ≠ frameTypeError ∧ want ≠ frameTypeCancel := by
  cases read with
  | none => cases isOk
  | some fr =>
    rw [readJSONFrame] at isOk
    split at isOk
    · cases isOk
    rename_i notError
    split at isOk
    · cases isOk
    rename_i notCancel
    split at isOk
    · cases isOk
    rename_i isWant
    rw [not_not] at isWant
    exact ⟨fr, rfl, isWant, isWant ▸ notError, isWant ▸ notCancel⟩

theorem accepts_of_ack
    (isAck : readJSONFrame library frameTypeAck library.unmarshalAck read = .ok cs) :
    accepts library ⟨before, .act (.heard read), after⟩ = none := by
  rcases typ_of_ok isAck with ⟨fr, rfl, isAckFrame, -⟩
  rw [accepts]
  dsimp only
  split
  · rename_i offset isAccept
    rcases typ_of_ok isAccept with ⟨other, same, isAcceptFrame, -⟩
    cases same
    rw [isAckFrame] at isAcceptFrame
    exact absurd isAcceptFrame (by decide)
  · rfl

section

variable (tidy : Tidy library file log)

include tidy

theorem Tidy.hear (read : Option Frame) : Tidy library file (log.note (.heard read)) :=
  ⟨tidy.labelled.quiet rfl, tidy.file⟩

theorem honest_afterDone :
    Sends (afterDone config file streams) (Honest library file)
      log := by
  rw [afterDone]
  apply sends_perform
  intro _ marked marks
  apply (sends_of_still (still_reportSending _ _ _) Tidy.still (tidy.still rfl marks)).bind
  intro _ told tidyTold
  exact honest_leave none tidyTold

theorem honest_afterAccept
    (isAccept : readJSONFrame library frameTypeAccept library.unmarshalAccept read = .ok accepted)
    (nonnegative : 0 ≤ accepted.toInt) :
    Sends (afterAccept library config file streams accepted.toInt)
      (Honest library file) (log.note (.heard read)) := by
  have natural : accepted.toInt = (accepted.toInt.toNat : Int) :=
    (Int.toNat_of_nonneg nonnegative).symm
  have heard : accepts library ⟨log.world, .act (.heard read), log.world⟩ =
      some accepted.toInt := by
    rw [accepts]
    dsimp only
    rw [isAccept]
  have covers : Covers library file (log.note (.heard read)).past accepted.toInt
        accepted.toInt.toNat := covers_of_accepts heard natural.symm.le
  generalize accepted.toInt = offset at natural covers
  rw [natural]
  rw [afterAccept]
  apply sends_perform
  intro _ sought seeks
  have stands := (tidy.hear read).seek covers seeks
  apply sends_still stands rfl
  intro _ marked standsMarked
  exact honest_transferFrom standsMarked

theorem honest_afterAck (covers : Covers library file log.past offset n)
    (bound : n ≤ file.totalChunks)
    (isAck : readJSONFrame library frameTypeAck library.unmarshalAck read = .ok cs)
    (orderly : -1 ≤ cs.toInt ∧ cs.toInt + 1 ≤ n) :
    Sends (afterAck library config file streams cs.toInt)
      (Honest library file) (log.note (.heard read)) := by
  have small := file.totalChunks_le
  have natural : wrap64 (cs.toInt + 1) = ((cs.toInt + 1).toNat : Int) := by
    rw [wrap64_of_mem (by omega) (by omega)]
    omega
  have coversLess : Covers library file (log.note (.heard read)).past offset
        (cs.toInt + 1).toNat := (covers.mono (by omega)).cons (accepts_of_ack isAck)
  rw [afterAck, natural]
  apply sends_perform
  intro _ sought seeks
  exact honest_transferFrom ((tidy.hear read).seek coversLess seeks)

end

theorem honest_receive (honest : Honest library file sender log)
    (orderly : Orderly library sender read log) :
    Sends (sender.receive library config file read)
      (Honest library file) (log.note (.heard read)) := by
  cases sender with
  | waitAccept streams =>
    rw [Sender.receive]
    split
    · exact honest_leave _ (Tidy.hear honest read)
    · rename_i accepted isAccept
      exact honest_afterAccept honest isAccept (orderly accepted isAccept)
  | waitAck streams seq =>
    rcases honest with ⟨tidy, n, rfl, bound, offset, covers⟩
    rw [Sender.receive]
    split
    · exact honest_reconnect _ (tidy.hear read)
    · rename_i cs isAck
      exact honest_afterAck tidy covers bound isAck (orderly cs isAck)
  | waitDone =>
    rw [Sender.receive]
    split
    · exact honest_leave _ (Tidy.hear honest read)
    · exact honest_afterDone (Tidy.hear honest read)
  | returned => exact Tidy.hear honest read

theorem honest_sendFile :
    Sends (sendFile library file) (Honest library file) (.start (.start file)) := by
  have tidy : Tidy library file (.start (.start file)) := ⟨labelled_nil, rfl⟩
  rw [sendFile]
  apply sends_perform
  intro _ stored stores
  have tidyStored := tidy.still rfl stores
  apply sends_perform
  intro resp dialled dials
  have tidyDialled := tidyStored.still rfl dials
  cases resp with
  | error err =>
    have only : (request .cancelContext >>= fun _ =>
        returnFile (some (.openStream err))).Only (·.isStill) :=
      ⟨rfl, fun _ => ⟨rfl, fun _ => ⟨rfl, fun _ => trivial⟩⟩⟩
    have returns : (request .cancelContext >>= fun _ =>
        returnFile (some (.openStream err))).Total fun sender =>
          sender = .returned (some (.openStream err)) := fun _ _ _ => rfl
    apply ((sends_of_still only Tidy.still tidyDialled).and (Surroundings.leads_of_total returns)
      fun fault => fault.elim).mono
    rintro _ later ⟨tidyLater, rfl⟩
    exact tidyLater
  | ok => exact honest_writeInit _ tidyDialled

variable {outgoing : Outgoing} {chronicle : SendChronicle}

/-- Against an orderly receiver, chunks are labelled correctly and all of them are sent. -/
theorem labelled_of_orderly {result : Except Empty Sender}
    (runs : (sending library config outgoing).Runs (Orderly library) (.start outgoing) result
      chronicle) :
    Labelled library outgoing chronicle.past := by
  have honest := runs.invariant honest_sendFile fun _ _ _ => honest_receive
  cases result with
  | error fault => exact fault.elim
  | ok sender =>
    cases sender with
    | waitAck => exact honest.1.labelled
    | waitAccept | waitDone | returned => exact honest.labelled

end

instance (library : Library) (sender : Sender) (read : Option Frame)
    (log : SendChronicle) : Decidable (Orderly library sender read log) :=
  match sender with
  | .waitAccept _ =>
    match isRead : readJSONFrame library frameTypeAccept library.unmarshalAccept read with
    | .ok offset => decidable_of_iff (0 ≤ offset.toInt)
        ⟨fun nonnegative other isOther => by
          cases isRead.symm.trans isOther
          exact nonnegative, fun orderly => orderly offset isRead⟩
    | .error _ => isTrue fun _ isOk => by cases isRead.symm.trans isOk
  | .waitAck _ seq =>
    match isRead : readJSONFrame library frameTypeAck library.unmarshalAck read with
    | .ok cs => decidable_of_iff (-1 ≤ cs.toInt ∧ cs.toInt + 1 ≤ seq)
        ⟨fun within other isOther => by
          cases isRead.symm.trans isOther
          exact within, fun orderly => orderly cs isRead⟩
    | .error _ => isTrue fun _ isOk => by cases isRead.symm.trans isOk
  | .waitDone _ => isTrue trivial
  | .returned _ => isTrue trivial

theorem labelled_sendGreeting :
    (sendGreeting [.accept 0, .ack 0, .done]).2.past.filterMap emitted =
        [greeting.finFrame greetingLibrary, greeting.dataFrame greetingLibrary 0,
          initFrame greetingLibrary greeting 0] ∧
      Labelled greetingLibrary greeting (sendGreeting [.accept 0, .ack 0, .done]).2.past := by
  have runs : (sending greetingLibrary ⟨ascii "session", ascii "peer", false⟩ greeting).Runs
      (Orderly greetingLibrary) (.start greeting) _ (sendGreeting [.accept 0, .ack 0, .done]).2 :=
    Reactor.runs_play sendOutcome_handleSend (by decide +kernel)
  exact ⟨by decide +kernel, labelled_of_orderly runs⟩

def negativeLibrary : Library :=
  { greetingLibrary with
    unmarshalAccept := fun payload =>
      if payload = greetingLibrary.marshalAccept (-1) then some (-1) else none }

def sendFromMinusOne : Except Empty Sender × SendChronicle :=
  (sending negativeLibrary ⟨ascii "session", ascii "peer", false⟩ greeting).play handleSend
    (.start greeting) [some ((Reply.accept (-1)).frame negativeLibrary),
      some ((Reply.ack 0).frame negativeLibrary)]

theorem not_labelled_sendFromMinusOne :
    (sending negativeLibrary ⟨ascii "session", ascii "peer", false⟩ greeting).Runs
        (fun _ _ _ => True) (.start greeting) sendFromMinusOne.1 sendFromMinusOne.2 ∧
      sendFromMinusOne.2.past.filterMap emitted = [greeting.finFrame negativeLibrary,
          ⟨frameTypeData, packDataFrame negativeLibrary (-1) greeting.bytes .none⟩,
          initFrame negativeLibrary greeting 0] ∧
      ¬Labelled negativeLibrary greeting sendFromMinusOne.2.past := by
  have frames : sendFromMinusOne.2.past.filterMap emitted = [greeting.finFrame negativeLibrary,
        ⟨frameTypeData, packDataFrame negativeLibrary (-1) greeting.bytes .none⟩,
        initFrame negativeLibrary greeting 0] := by decide +kernel
  refine ⟨Reactor.runs_play sendOutcome_handleSend
    (Reactor.permits_of_forall (fun _ _ _ => trivial) _ _), frames, ?_⟩
  intro labelled
  have member : ⟨frameTypeData, packDataFrame negativeLibrary (-1) greeting.bytes .none⟩ ∈
      sendFromMinusOne.2.past.filterMap emitted := by
    rw [frames]
    exact List.mem_cons_of_mem _ List.mem_cons_self
  rcases List.mem_filterMap.mp member with ⟨moment, inPast, isFrame⟩
  have isChunk := labelled.data moment inPast _ isFrame rfl
  revert isChunk
  decide +kernel

end Peerscale.RelayFile
