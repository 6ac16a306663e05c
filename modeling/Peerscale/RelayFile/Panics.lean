import Peerscale.RelayFile.FaultFree
import Peerscale.RelayFile.Integrity

/-! # Panics of the receiver

Integers of INIT and sequence numbers of DATA frames reach a division, an
allocation and slice indices. The inputs on which none of them panics, whatever
else fails, are characterised exactly.
-/

namespace Peerscale.RelayFile

open Program Receiver

section Inputs

variable (library : Library) (compression : Compression)

def Event.ends : Event → Bool
  | .cancel => false
  | .readError _ => true
  | .frame ⟨typ, payload⟩ =>
    typ = frameTypeCancel ∨ typ = frameTypeError ∨ typ = frameTypeFin ∨ (typ = frameTypeData ∧
        (unpackDataFrame library payload compression).toBool = false)

def Event.inRange : Event → Prop
  | .frame ⟨typ, payload⟩ => typ = frameTypeData → ∀ seq data,
      unpackDataFrame library payload compression = .ok (seq, data) → -64 < seq
  | _ => True

def InRange (events : List Event) : Prop :=
  ∀ event ∈ events.takeWhile fun event => !event.ends library compression,
    event.inRange library compression

theorem inRange_cons_of_ends {ev : Event} (ends : ev.ends library compression) :
    InRange library compression (ev :: events) := by
  simp [InRange, ends]

theorem inRange_cons {ev : Event} (goesOn : ev.ends library compression = false) :
    InRange library compression (ev :: events) ↔
      ev.inRange library compression ∧ InRange library compression events := by
  simp [InRange, goesOn]

end Inputs

/-- The bitmap can be allocated, no chunk size of zero meets an existing `.part`
file, and no sequence number is -64 or less. -/
structure Benign (library : Library) (config : Config) (init : InitMessage)
    (events : List Event) (files : Files) : Prop where
  allocatable : init.totalChunks.toInt ≤ 2 ^ 51
  divisible : 0 < init.offset.toInt → files.link (tmpPath config init.name) ≠ none →
    init.chunkSize.toInt ≠ 0
  inRange : InRange library (.ofString init.compression) events

/-! ## Benign inputs never panic -/

section Total

variable {ses : Session}

def Listening (compression : Compression) : Receiver → Prop
  | .waitInit => False
  | .receiving ses _ _ _ => ses.compression = compression
  | .ended _ => True

def Receiver.IsEnded : Receiver → Prop
  | .ended _ => True
  | _ => False

theorem Receiver.IsEnded.listening (ended : IsEnded rcv) (compression : Compression) :
    Listening compression rcv := by
  cases rcv with
  | waitInit => exact ended
  | receiving => exact ended.elim
  | ended => trivial

theorem total_finish (ending : Ending) : (finish ending).Total Receiver.IsEnded :=
  fun _ => trivial

theorem total_closeTmpFile : (closeTmpFile ses).Total fun _ => True := by
  unfold closeTmpFile
  split
  · exact fun _ => trivial
  · trivial

theorem total_removeTmpPath : (removeTmpPath ses).Total fun _ => True := by
  unfold removeTmpPath
  split
  · exact fun _ => trivial
  · trivial

theorem total_reportError (err : GoString) : (reportError config ses err).Total fun _ => True := by
  rcases bitmapMaxContinuous_total ses.bitmap ses.totalChunks with ⟨run, comp⟩
  rw [reportError, call_bind]
  apply total_perform
  intro registered
  split
  · rw [comp]
    exact fun _ => trivial
  · trivial

theorem total_cleanupSession (err : GoString) :
    (cleanupSession config ses err).Total fun _ => True := by
  rw [cleanupSession, call_bind]
  apply total_perform
  intro proceed
  split
  · apply total_closeTmpFile.bind
    intro _ _
    apply total_removeTmpPath.bind
    intro _ _
    apply (total_reportError err).bind
    intro _ _ _
    trivial
  · trivial

theorem total_abandon (err : GoString) : (abandon config ses err).Total Receiver.IsEnded :=
  (total_cleanupSession err).bind fun _ _ => total_finish .failed

theorem total_refuse (why err : GoString) : (refuse config ses why err).Total Receiver.IsEnded :=
  fun _ => total_abandon err

theorem total_reportTransfer (cb : Bool) (startSeq newSeq : Int) :
    (reportTransfer config ses cb startSeq newSeq).Total fun _ => True := by
  unfold reportTransfer
  split
  · exact fun _ => trivial
  · trivial

theorem total_acknowledge (lastAck newSeq : Int) :
    (acknowledge ses lastAck newSeq).Total fun _ => True := by
  unfold acknowledge
  split
  · intro resp
    cases resp with
    | none | some => trivial
  · trivial

theorem total_afterChunk (cb : Bool) (startSeq lastAck : Int) :
    (afterChunk config ses cb startSeq lastAck).Total (Listening ses.compression) := by
  rcases bitmapMaxContinuous_total ses.bitmap ses.totalChunks with ⟨newSeq, comp⟩
  rw [afterChunk, comp, ofExcept_ok, done_bind]
  apply (total_acknowledge lastAck newSeq).bind
  intro acknowledged _
  cases acknowledged with
  | error =>
    apply (total_abandon _).mono
    intro rcv ended
    exact ended.listening _
  | ok =>
    apply (total_reportTransfer cb startSeq newSeq).bind
    intro _ _
    rfl

theorem total_storeChunk (inRange : -64 < dataSeq) :
    (storeChunk ses dataSeq chunkData).Total fun stored =>
      ∀ updated, stored = .ok updated → updated.compression = ses.compression := by
  rcases @bitmapSet_eq_ok ses.bitmap dataSeq inRange with ⟨bm, marks⟩
  have written : (writeTmpFile ses chunkData).Total fun _ => True := by
    unfold writeTmpFile
    split
    · exact fun _ => trivial
    · trivial
  apply written.bind
  intro answer _
  cases answer with
  | some =>
    intro updated impossible
    cases impossible
  | none =>
    simp only [marks, ofExcept_ok, done_bind]
    rintro updated ⟨⟩
    rfl

theorem total_receiveData (inRange : ∀ seq data,
      unpackDataFrame library pl ses.compression = .ok (seq, data) → -64 < seq) :
    (receiveData library config ses cb startSeq lastAck pl).Total (Listening ses.compression) := by
  unfold receiveData
  cases unpacked : unpackDataFrame library pl ses.compression with
  | error =>
    apply (total_refuse _ _).mono
    intro rcv ended
    exact ended.listening _
  | ok chunk =>
    have bounded := inRange chunk.1 chunk.2 unpacked
    rcases (bitmapHas_eq_ok_iff ses.bitmap chunk.1).mpr bounded with ⟨marked, looked⟩
    simp only [looked, ofExcept_ok, done_bind]
    split
    · exact total_afterChunk cb startSeq lastAck
    apply (total_storeChunk bounded).bind
    intro stored keeps
    cases stored with
    | error =>
      apply (total_refuse _ _).mono
      intro rcv ended
      exact ended.listening _
    | ok updated =>
      rw [← keeps updated rfl]
      exact total_afterChunk cb startSeq lastAck

theorem total_closeForFin : (closeForFin ses).Total fun _ => True := by
  unfold closeForFin
  split
  · exact fun _ _ => trivial
  · trivial

theorem total_verifyFileHash (path checksum : GoString) :
    (verifyFileHash path checksum).Total fun _ => True := by
  unfold verifyFileHash
  split
  · trivial
  rw [call_bind]
  apply total_perform
  intro answer
  cases answer with
  | error => trivial
  | ok =>
    dsimp only
    split <;> trivial

theorem total_deliver (cb : Bool) : (deliver config ses cb).Total Receiver.IsEnded := by
  rw [deliver]
  apply total_perform
  intro _
  apply total_perform
  intro answer
  cases answer with
  | some => exact (total_cleanupSession _).bind fun _ _ => total_finish .delivered
  | none =>
    have reported : (reportDone config ses cb).Total fun _ => True := by
      unfold reportDone
      split
      · exact fun _ => trivial
      · trivial
    exact reported.bind fun _ _ _ => total_finish .delivered

theorem total_receiveFin (cb : Bool) (pl : Bytes) :
    (receiveFin library config ses cb pl).Total Receiver.IsEnded := by
  unfold receiveFin
  split
  · exact total_refuse _ _
  apply total_closeForFin.bind
  intro closed _
  apply (total_verifyFileHash closed.tmpPath closed.checksum).bind
  intro answer _
  cases answer with
  | some => exact total_refuse _ _
  | none =>
    apply total_perform
    intro renamed
    cases renamed with
    | some => exact total_refuse _ _
    | none => exact total_deliver cb

theorem total_receive_of_ends {ev : Event} (ends : ev.ends library ses.compression) :
    ((receiving ses cb startSeq lastAck).receive library config ev).Total
      Receiver.IsEnded := by
  cases ev with
  | cancel => simp [Event.ends] at ends
  | readError => exact total_abandon _
  | frame fr =>
    change (receiveFrame library config ses cb startSeq lastAck fr).Total _
    unfold receiveFrame
    split
    · exact total_abandon _
    split
    · exact total_abandon _
    split
    · rename_i notCancel notError isData
      have refused : ∃ err, unpackDataFrame library fr.payload ses.compression =
          .error err := by
        cases unpacked : unpackDataFrame library fr.payload ses.compression with
        | error err => exact ⟨err, rfl⟩
        | ok =>
          simp [Event.ends, unpacked, isData, Except.toBool, frameTypeData,
            frameTypeCancel, frameTypeError, frameTypeFin] at ends
      rcases refused with ⟨err, unpacked⟩
      rw [receiveData, unpacked]
      exact total_refuse _ _
    split
    · exact total_receiveFin cb fr.payload
    · rename_i notCancel notError notData notFin
      simp [Event.ends, notCancel, notError, notData, notFin] at ends

theorem total_receive {ev : Event} (inRange : ev.inRange library ses.compression) :
    ((receiving ses cb startSeq lastAck).receive library config ev).Total
      (Listening ses.compression) := by
  have ended : ∀ {prog : Prog Receiver}, prog.Total Receiver.IsEnded →
      prog.Total (Listening ses.compression) :=
    fun total => total.mono fun rcv isEnded => isEnded.listening _
  cases ev with
  | cancel => exact fun _ => rfl
  | readError => exact ended (total_abandon _)
  | frame fr =>
    change (receiveFrame library config ses cb startSeq lastAck fr).Total _
    unfold receiveFrame
    split
    · exact ended (total_abandon _)
    split
    · exact ended (total_abandon _)
    split
    · rename_i isData
      exact total_receiveData (inRange isData)
    split
    · exact ended (total_receiveFin cb fr.payload)
    · rfl

theorem total_receive_ended (ending : Ending) (ev : Event) :
    ((ended ending).receive library config ev).Total Receiver.IsEnded := by
  cases ev with
  | cancel => exact fun _ => trivial
  | readError | frame => trivial

theorem total_receiveAll (listening : Listening compression rcv)
    (inRange : rcv.IsEnded ∨ InRange library compression events) :
    (rcv.receiveAll library config events).Total fun _ => True := by
  induction events generalizing rcv with
  | nil => trivial
  | cons ev events ih =>
    rw [receiveAll, List.foldlM_cons]
    cases rcv with
    | waitInit => exact listening.elim
    | ended ending =>
      apply (total_receive_ended ending ev).bind
      intro next ended
      exact ih (ended.listening _) (.inl ended)
    | receiving ses =>
      cases listening
      have within := inRange.resolve_left id
      cases ends : ev.ends library ses.compression with
      | true =>
        apply (total_receive_of_ends ends).bind
        intro next ended
        exact ih (ended.listening _) (.inl ended)
      | false =>
        rw [inRange_cons library ses.compression ends] at within
        apply (total_receive within.1).bind
        intro next nextListening
        exact ih nextListening (.inr within.2)

end Total

section Opening

theorem total_createPart : (createPart config init bm).Total fun _ => True := by
  rw [createPart]
  apply total_perform
  intro answer
  cases answer with
  | error | ok => trivial

theorem total_resumePart (nonzero : init.chunkSize.toInt ≠ 0) (tmpFile : Nat) :
    (resumePart init bm tmpFile).Total fun _ => True := by
  rw [resumePart, call_bind]
  apply total_perform
  intro doneBytes
  rcases bitmapSetBelow_spec bm (min (writtenChunks (doneBytes : Nat)
    init.chunkSize.toInt) init.totalChunks.toInt).toNat with ⟨marked, comp, -⟩
  rw [if_neg nonzero, markedPart, comp]
  trivial

theorem total_openPart (harmless : init.offset.toInt ≤ 0 ∨ init.chunkSize.toInt ≠ 0) :
    (openPart config init bm).Total fun _ => True := by
  unfold openPart openExisting
  split
  · rename_i asked
    apply total_perform
    intro answer
    cases answer with
    | none => exact total_createPart
    | some tmpFile =>
      exact (total_resumePart (harmless.resolve_left (by omega)) tmpFile).bind fun _ _ => trivial
  · exact total_createPart

theorem total_startReceiving (part : OpenPart) :
    (startReceiving config init part).Total (Listening (.ofString init.compression)) := by
  rcases bitmapMaxContinuous_total part.bitmap init.totalChunks.toInt with ⟨run, comp⟩
  rw [startReceiving, comp, ofExcept_ok, done_bind]
  apply total_perform
  intro _
  apply total_perform
  intro answer
  cases answer with
  | some => exact fun _ _ _ => trivial
  | none => exact fun _ _ => rfl

theorem total_reject (err : GoString) (compression : Compression) :
    (call (.send (.reject err)) >>= fun _ => finish .rejected).Total (Listening compression) :=
  fun _ _ => trivial

abbrev Safe (program : Prog α) (post : α → Prop) (w : World) : Prop :=
  program.Ensures (environment True) (fun _ _ => True) (fun _ _ => False)
    (fun value _ => post value) w

theorem safe_openPart {w : World} (divisible : 0 < init.offset.toInt →
      w.files.link (tmpPath config init.name) ≠ none → init.chunkSize.toInt ≠ 0) :
    Safe (openPart config init bm) (fun _ => True) w := by
  by_cases harmless : init.offset.toInt ≤ 0 ∨ init.chunkSize.toInt ≠ 0
  · exact (total_openPart harmless).ensures _ w
  rw [not_or, Int.not_le, not_not] at harmless
  have missing : w.files.link (tmpPath config init.name) = none := by
    by_contra linked
    exact divisible harmless.1 linked harmless.2
  rw [openPart, openExisting, if_pos harmless.1]
  intro cur relied
  refine ⟨trivial, ?_⟩
  intro answer after ans
  rcases ans with ⟨rfl, -⟩ | ⟨fd, files, -, opened, -⟩
  · exact total_createPart.ensures _ after
  · rw [relied.2 (.inl trivial), FileSystem.openExisting, missing] at opened
    cases opened

theorem safe_handleFileStream {w : World} (allocatable : init.totalChunks.toInt ≤ 2 ^ 51)
    (divisible : 0 < init.offset.toInt →
      w.files.link (tmpPath config init.name) ≠ none → init.chunkSize.toInt ≠ 0) :
    Safe (handleFileStream config init) (Listening (.ofString init.compression)) w := by
  rcases (newBitmap_eq_ok_iff (Int64.toInt_lt init.totalChunks)).mpr allocatable with
    ⟨bm, allocated⟩
  rw [handleFileStream, call_bind]
  intro cur relied
  refine ⟨trivial, ?_⟩
  rintro answer after rfl
  have files := relied.2 (.inl trivial)
  cases answer with
  | some err => exact (total_reject err _).ensures _ after
  | none =>
    simp only [allocated, ofExcept_ok, done_bind]
    rw [ensures_bind]
    apply (safe_openPart (files ▸ divisible)).mono
    intro opened last _
    cases opened with
    | error err => exact (total_reject err _).ensures _ last
    | ok part => exact (total_startReceiving part).ensures _ last

theorem Benign.safe (benign : Benign library config init events files) (callback : Bool) :
    Safe (session library config init events) (fun _ => True) ⟨files, Local.fresh callback⟩ := by
  rw [session, Safe, ensures_bind]
  apply (safe_handleFileStream benign.allocatable benign.divisible).mono
  intro rcv after listening
  exact (total_receiveAll listening (.inr benign.inRange)).ensures _ after

end Opening

/-! ## All other inputs panic -/

section Panicking

variable {library : Library} {config : Config} {init : InitMessage} {events : List Event}
  {files : Files} {callback : Bool}

theorem run_receive_of_goesOn {ses : Session} {cb : Bool} {startSeq lastAck : Int}
    {w : World} {ev : Event} {fd : Nat} (tmpFile : ses.tmpFile = some fd)
    (goesOn : ev.ends library ses.compression = false)
    (inRange : ev.inRange library ses.compression) :
    ∃ next acked after, ((receiving ses cb startSeq lastAck).receive library config ev).run handle
        w = (.ok (.receiving next cb startSeq acked), after) ∧
      next.tmpFile = some fd ∧ next.compression = ses.compression := by
  cases ev with
  | cancel => exact ⟨ses, lastAck, w.cancelled, rfl, tmpFile, rfl⟩
  | readError => simp [Event.ends] at goesOn
  | frame fr =>
    rcases fr with ⟨typ, pl⟩
    simp only [Event.ends, decide_eq_false_iff_not, not_or, not_and] at goesOn
    rcases goesOn with ⟨notCancel, notError, notFin, unpackable⟩
    by_cases isData : typ = frameTypeData
    · subst isData
      cases unpacked : unpackDataFrame library pl ses.compression with
      | error => simp [unpacked, Except.toBool] at unpackable
      | ok chunk =>
        have bounded := inRange rfl chunk.1 chunk.2 unpacked
        rcases (bitmapHas_eq_ok_iff ses.bitmap chunk.1).mpr bounded with ⟨marked, looked⟩
        cases marked with
        | true =>
          rcases bitmapMaxContinuous_total ses.bitmap ses.totalChunks with ⟨newSeq, comp⟩
          have ran := run_receiveData_of_marked library config cb startSeq lastAck w
            unpacked looked comp
          exact ⟨_, _, _, ran, tmpFile, rfl⟩
        | false =>
          rcases @bitmapSet_eq_ok ses.bitmap chunk.1 bounded with ⟨bm, marks⟩
          rcases bitmapMaxContinuous_total bm ses.totalChunks with ⟨newSeq, comp⟩
          have ran := run_receiveData_of_unmarked library config cb startSeq lastAck w
            unpacked looked tmpFile marks comp
          exact ⟨_, _, _, ran, tmpFile, rfl⟩
    refine ⟨ses, lastAck, w, ?_, tmpFile, rfl⟩
    change (receiveFrame library config ses cb startSeq lastAck ⟨typ, pl⟩).run handle w = _
    simp [receiveFrame, notCancel, notError, notFin, isData]

theorem run_receive_of_not_inRange {ses : Session} {cb : Bool} {startSeq lastAck : Int}
    {w : World} {ev : Event} (outside : ¬ev.inRange library ses.compression) :
    ∃ panic, (((receiving ses cb startSeq lastAck).receive library config
      ev).run handle w).1 = .error panic := by
  cases ev with
  | cancel | readError => exact absurd trivial outside
  | frame fr =>
    rcases fr with ⟨typ, pl⟩
    simp only [Event.inRange, not_forall, Int.not_lt] at outside
    rcases outside with ⟨rfl, seq, data, unpacked, low⟩
    rw [receive_dataFrame, receiveData, unpacked]
    cases looked : bitmapHas ses.bitmap seq with
    | error panic => exact ⟨panic, by simp [looked]⟩
    | ok marked =>
      have inside := (bitmapHas_eq_ok_iff ses.bitmap seq).mp ⟨marked, looked⟩
      omega

theorem inRange_of_run {ses : Session} (tmpFile : ses.tmpFile = some fd)
    (ran : (((receiving ses cb startSeq lastAck).receiveAll library config
      events).run handle w).1 = .ok rcv) : InRange library ses.compression events := by
  induction events generalizing ses lastAck w with
  | nil => simp [InRange]
  | cons ev events ih =>
    cases ends : ev.ends library ses.compression with
    | true => exact inRange_cons_of_ends library ses.compression ends
    | false =>
      rw [inRange_cons library ses.compression ends]
      rw [receiveAll, List.foldlM_cons] at ran
      by_cases inRange : ev.inRange library ses.compression
      · refine ⟨inRange, ?_⟩
        rcases @run_receive_of_goesOn library config ses cb startSeq lastAck w ev
          fd tmpFile ends inRange with ⟨next, acked, after, stepRan, stillOpen, same⟩
        rw [run_bind_of_ok handle stepRan] at ran
        rw [← same]
        exact ih stillOpen ran
      rcases @run_receive_of_not_inRange library config ses cb startSeq lastAck w ev
        inRange with ⟨panic, panicked⟩
      rw [run_bind_of_error handle (Prod.ext panicked rfl)] at ran
      cases ran

section

variable {w : World} {rcv : Receiver}
  (ran : ((handleFileStream config init).run handle w).1 = .ok rcv)

include ran

theorem allocatable_of_run : init.totalChunks.toInt ≤ 2 ^ 51 := by
  rw [← newBitmap_eq_ok_iff (Int64.toInt_lt init.totalChunks)]
  rw [handleFileStream, call_bind, run_perform] at ran
  cases allocated : newBitmap init.totalChunks.toInt with
  | ok bm => exact ⟨bm, rfl⟩
  | error => simp [handle, allocated] at ran

theorem divisible_of_run (asked : 0 < init.offset.toInt)
    (linked : w.files.link (tmpPath config init.name) ≠ none) : init.chunkSize.toInt ≠ 0 := by
  intro zero
  rcases Option.ne_none_iff_exists'.mp linked with ⟨inode, found⟩
  have opened : w.files.openExisting (tmpPath config init.name) =
      some (w.files.nextDescriptor, w.files.attach inode) := by
    rw [FileSystem.openExisting, found]
    rfl
  rw [handleFileStream, call_bind, run_perform] at ran
  cases allocated : newBitmap init.totalChunks.toInt with
  | error => simp [handle, allocated] at ran
  | ok bm =>
    have panicked : (openPart config init bm).run handle w = (.error .divideByZero,
          w.opened w.files.nextDescriptor (w.files.attach inode)) := by
      rw [openPart, openExisting, if_pos asked, call_bind, run_perform]
      simp only [handle, opened]
      rw [resumePart, call_bind]
      simp [zero, handle]
    simp only [handle, allocated, ofExcept_ok, done_bind] at ran
    rw [run_bind_of_error handle panicked] at ran
    cases ran

end

theorem run_handleFileStream_of_divisible {self : Local}
    (allocatable : init.totalChunks.toInt ≤ 2 ^ 51) (divisible : 0 < init.offset.toInt →
      files.link (tmpPath config init.name) ≠ none → init.chunkSize.toInt ≠ 0) :
    ∃ ses cb startSeq after fd, (handleFileStream config init).run handle ⟨files, self⟩ =
        (.ok (.receiving ses cb startSeq startSeq), after) ∧
      ses.tmpFile = some fd ∧ ses.compression = .ofString init.compression := by
  rcases (newBitmap_eq_ok_iff (Int64.toInt_lt init.totalChunks)).mpr allocatable with
    ⟨bm, allocated⟩
  have opens : ∃ part opened,
      (openPart config init bm).run handle ⟨files, self⟩ = (.ok (.ok part), opened) := by
    by_cases fresh : init.offset.toInt ≤ 0 ∨ files.link (tmpPath config init.name) = none
    · exact ⟨_, _, run_openPart_of_unlinked fresh⟩
    rw [not_or, Int.not_le] at fresh
    rcases Option.ne_none_iff_exists'.mp fresh.2 with ⟨inode, linked⟩
    rcases bitmapSetBelow_spec bm (min (writtenChunks (files.content inode).length
      init.chunkSize.toInt) init.totalChunks.toInt).toNat with ⟨marked, comp, -⟩
    have ran := @run_openPart_of_linked config init bm ⟨files, self⟩ inode marked fresh.1
      linked (divisible fresh.1 fresh.2) comp
    exact ⟨_, _, ran⟩
  rcases opens with ⟨part, opened, ran⟩
  rcases bitmapMaxContinuous_total part.bitmap init.totalChunks.toInt with ⟨run, comp⟩
  exact ⟨_, _, _, _, part.tmpFile, run_handleFileStream allocated ran comp, rfl, rfl⟩

/-- A session never panics, whatever fails, exactly on benign inputs. -/
theorem never_panics_iff :
    (∀ result final, SessionExecutes library config init events files callback result final →
          ∃ receiver, result = .ok receiver) ↔
      Benign library config init events files := by
  constructor
  · intro never
    rcases never _ _ (sessionExecutes_run library config init events files callback) with
      ⟨receiver, ran⟩
    rw [session] at ran
    cases handled : (handleFileStream config init).run handle ⟨files, Local.fresh callback⟩ with
    | mk result =>
      cases result with
      | error =>
        rw [run_bind_of_error handle handled] at ran
        cases ran
      | ok =>
        have allocatable := allocatable_of_run (congrArg Prod.fst handled)
        have divisible := divisible_of_run (congrArg Prod.fst handled)
        rcases @run_handleFileStream_of_divisible config init files (Local.fresh callback)
          allocatable divisible with ⟨ses, cb, startSeq, after, descriptor, opens, tmpFile,
            compression⟩
        rw [run_bind_of_ok handle opens] at ran
        exact ⟨allocatable, divisible, compression ▸ inRange_of_run tmpFile ran⟩
  intro benign result final execution
  have met := (benign.safe callback).executes execution
  cases result with
  | error => exact met.elim
  | ok receiver => exact ⟨receiver, rfl⟩

theorem panics_on_hostile_input :
    ((session (.ofTransfer greetingInit) greetingConfig
        { greetingInit with chunkSize := 0, offset := 1 } []).run handle
      ⟨(FileSystem.empty.create (tmpPath greetingConfig greetingInit.name)).2,
        Local.fresh false⟩).1 = .error .divideByZero ∧
    ((session (.ofTransfer greetingInit) greetingConfig
        { greetingInit with totalChunks := 2251799813685249 } []).run handle
      ⟨.empty, Local.fresh false⟩).1 = .error (.makeSliceLen 35184372088833) ∧
    ((session (.ofTransfer greetingInit) greetingConfig greetingInit
        [.frame ⟨frameTypeData, packDataFrame (.ofTransfer greetingInit) (-64) [] .none⟩]).run
      handle ⟨.empty, Local.fresh false⟩).1 = .error (.indexOutOfRange (-1)) := by
  exact ⟨by decide +kernel, by decide +kernel, by decide +kernel⟩

end Panicking

end Peerscale.RelayFile
