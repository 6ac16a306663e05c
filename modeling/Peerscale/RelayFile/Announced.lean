import Peerscale.Foundation.Pieces
import Peerscale.RelayFile.ReceiverRuns

/-! # What INIT announces

A receiver knows from INIT how long the file is and how many chunks it has, but compares no DATA
frame with that: it neither looks at the length of a chunk nor remembers an index for which its
bitmap has no room. It stores no more than announced from a sender who keeps to INIT.
-/

namespace Peerscale.RelayFile

open Program

def chunkLength (init : InitMessage) (seq : Nat) : Nat :=
  pieceLength init.chunkSize.toInt.toNat init.size.toInt.toNat seq

/-- A DATA frame has the index of a chunk, and is not longer than that chunk. -/
def FitsAnnounced (library : Library) (init : InitMessage) : Event → Prop
  | .frame ⟨typ, payload⟩ => typ = frameTypeData → ∀ seq data,
      unpackDataFrame library payload (.ofString init.compression) = .ok (seq, data) →
        0 ≤ seq ∧ seq < init.totalChunks.toInt ∧ data.length ≤ chunkLength init seq.toNat
  | _ => True

section Records

variable (library : Library) (init : InitMessage)

def handledSeq (past : List ReceiveMoment) : Option Int :=
  match handled past with
  | some (.frame ⟨_, payload⟩) =>
    match unpackDataFrame library payload (.ofString init.compression) with
    | .ok (seq, _) => some seq
    | .error _ => none
  | _ => none

/-- The chunks that have been written, each with the index that it came with. Those that could
be written in part only are counted in full. -/
def storedChunks : List ReceiveMoment → List (Option Int × Bytes)
  | [] => []
  | moment :: past =>
    match moment.deed with
    | .performed (.write _ data) _ => (handledSeq library init past, data) :: storedChunks past
    | _ => storedChunks past

def reported (moment : ReceiveMoment) : Option FileProgress :=
  match moment.deed with
  | .performed (.report progress) _ => some progress
  | _ => none

/-- Not more bytes than announced are stored, no index twice, and not more than all bytes are
reported as done. -/
structure WithinAnnounced (past : List ReceiveMoment) : Prop where
  bytes : (((storedChunks library init past).map fun chunk => chunk.2.length).sum : Nat) ≤
    init.size.toInt
  once : ((storedChunks library init past).map Prod.fst).Nodup
  reports : ∀ progress ∈ past.filterMap reported, progress.doneBytes ≤ progress.totalBytes

structure Account where
  seq : Option Int
  stored : List (Option Int × Bytes)
  reports : List FileProgress

def account (log : ReceiveChronicle) : Account where
  seq := handledSeq library init log.past
  stored := storedChunks library init log.past
  reports := log.past.filterMap reported

end Records

structure Tally (init : InitMessage) (pieces : List (Nat × Bytes)) (account : Account) :
    Prop where
  stored : account.stored = pieces.map fun piece => (some (piece.1 : Int), piece.2)
  distinct : (pieces.map Prod.fst).Nodup
  fits : ∀ piece ∈ pieces, piece.2.length ≤ chunkLength init piece.1
  reports : ∀ progress ∈ account.reports, progress.doneBytes ≤ progress.totalBytes

def storedBytes (pieces : List (Nat × Bytes)) : Nat := (pieces.map fun piece => piece.2.length).sum

structure Counts (init : InitMessage) (ses : Session) (pieces : List (Nat × Bytes))
    (account : Account) : Prop extends Tally init pieces account where
  size : ses.size = init.size.toInt
  totalChunks : ses.totalChunks = init.totalChunks.toInt
  compression : ses.compression = .ofString init.compression
  room : init.totalChunks.toInt ≤ 64 * ses.bitmap.length
  marked : ∀ piece ∈ pieces, ses.bitmap.mem piece.1
  doneBytes : ses.doneBytes = storedBytes pieces

section Bounds

theorem Tally.storedBytes_le (tally : Tally init pieces record) :
    storedBytes pieces ≤ init.size.toInt.toNat := by
  have bound := @sum_le_of_distinct init.chunkSize.toInt.toNat init.size.toInt.toNat
    (pieces.map fun piece => (piece.1, piece.2.length))
    (by
      rw [List.map_map]
      exact tally.distinct)
    (by
      intro piece member
      rcases List.mem_map.mp member with ⟨src, inPieces, rfl⟩
      exact tally.fits src inPieces)
  rw [List.map_map] at bound
  exact bound

theorem Tally.withinAnnounced (tally : Tally init pieces (account library init log))
    (nonnegative : 0 ≤ init.size.toInt) : WithinAnnounced library init log.past where
  bytes := by
    have stored : storedChunks library init log.past =
        pieces.map fun piece => (some (piece.1 : Int), piece.2) := tally.stored
    have bound := tally.storedBytes_le
    rw [stored, List.map_map]
    change ((storedBytes pieces : Nat) : Int) ≤ _
    omega
  once := by
    have stored : storedChunks library init log.past =
        pieces.map fun piece => (some (piece.1 : Int), piece.2) := tally.stored
    have injective : Function.Injective fun seq : Nat => some (seq : Int) := by
      intro left right eq
      exact Int.ofNat_inj.mp (Option.some.inj eq)
    have once := tally.distinct.map injective
    rw [List.map_map] at once
    rw [stored, List.map_map]
    exact once
  reports := tally.reports

theorem Counts.doneBytes_le (counts : Counts init ses pieces record)
    (nonnegative : 0 ≤ init.size.toInt) : ses.doneBytes ≤ ses.size := by
  have bound := counts.storedBytes_le
  rw [counts.doneBytes, counts.size]
  omega

end Bounds

def Op.isPlain : Op → Bool
  | .write _ _ | .report _ => false
  | _ => true

def Op.IsModest : Op → Prop
  | .write _ _ => False
  | .report progress => progress.doneBytes ≤ progress.totalBytes
  | _ => True

def Account.withReport (record : Account) (progress : FileProgress) : Account :=
  { record with reports := progress :: record.reports }

def Account.withChunk (record : Account) (data : Bytes) : Account :=
  { record with stored := (record.seq, data) :: record.stored }

def Lasting (holds : Account → Prop) : Prop :=
  ∀ record progress, holds record → progress.doneBytes ≤ progress.totalBytes →
    holds (record.withReport progress)

section Steps

variable {library : Library} {config : Config} {init : InitMessage} {log : ReceiveChronicle}

theorem account_act (meddled : meddles log act after) :
    account library init (log.next (.act act) after) = account library init log := by
  have same := handled_act meddled
  have seq : handledSeq library init (log.next (.act act) after).past =
      handledSeq library init log.past := by
    rw [handledSeq, handledSeq, same]
  rw [account, seq]
  rfl

theorem handledSeq_performed (op : Op) (resp : Response op) (after : World) :
    handledSeq library init (log.next (.performed op resp) after).past =
      handledSeq library init log.past := by
  have same : handled (log.next (.performed op resp) after).past =
      handled log.past := handled_cons _ rfl
  rw [handledSeq, handledSeq, same]

theorem account_plain {op : Op} (plain : op.isPlain) (resp : Response op) (after : World) :
    account library init (log.next (.performed op resp) after) =
      account library init log := by
  rw [account, handledSeq_performed]
  cases op <;> first | rfl | cases plain

theorem account_report (progress : FileProgress) (resp : Response (.report progress))
    (after : World) :
    account library init (log.next (.performed (.report progress) resp) after) =
      (account library init log).withReport progress := by
  rw [account, handledSeq_performed]
  rfl

theorem account_write (fd : Nat) (data : Bytes) (resp : Response (.write fd data)) (after : World) :
    account library init (log.next (.performed (.write fd data) resp) after) =
      (account library init log).withChunk data := by
  rw [account, handledSeq_performed]
  rfl

theorem stable_account (holds : Account → Prop) :
    aroundSession.Stable fun log => holds (account library init log) := by
  intro log act after holding acts
  rwa [account_act acts]

theorem Tally.lasting : Lasting (Tally init pieces) := by
  intro record progress tally modest
  refine ⟨tally.stored, tally.distinct, tally.fits, ?_⟩
  intro other member
  rcases List.mem_cons.mp member with rfl | prev
  · exact modest
  · exact tally.reports other prev

theorem Counts.lasting : Lasting (Counts init ses pieces) := by
  intro record progress counts modest
  exact ⟨counts.toTally.lasting _ _ modest, counts.size, counts.totalChunks, counts.compression,
    counts.room, counts.marked, counts.doneBytes⟩

variable (library init) in
/-- Whatever happens, the program leads to `post`, or it panics and what has been stored is
tallied. -/
abbrev Stores (program : Prog α) (post : α → ReceiveChronicle → Prop)
    (log : ReceiveChronicle) : Prop :=
  aroundSession.Leads
    (fun _ log => ∃ pieces, Tally init pieces (account library init log)) program post
    log

section

variable {holds : Account → Prop} (holding : holds (account library init log))
  {next : Response op → Prog α} {post : α → ReceiveChronicle → Prop}

include holding

theorem stores_perform (leads : ∀ cur, holds (account library init cur) → ∀ resp after,
      outcome op cur.world resp after → Stores library init (next resp) post
          (cur.next (.performed op resp) after)) :
    Stores library init (.perform op next) post log :=
  (stable_account holds).leads_perform holding leads

theorem stores_plain (plain : op.isPlain)
    (leads : ∀ resp later, holds (account library init later) →
      Stores library init (next resp) post later) :
    Stores library init (.perform op next) post log := by
  apply stores_perform holding
  intro cur holding resp after _
  rw [← account_plain plain resp after] at holding
  exact leads resp _ holding

end

theorem stores_modest {prog : Prog α} (only : prog.Only Op.IsModest) (lasting : Lasting holds)
    (tallied : ∀ record, holds record → ∃ pieces, Tally init pieces record)
    (holding : holds (account library init log)) :
    Stores library init prog (fun _ later => holds (account library init later))
      log := by
  apply (stable_account holds).leads_of_only only
  · intro log op resp after modest holding ans
    cases op with
    | write => exact modest.elim
    | report =>
      rw [account_report]
      exact lasting _ _ holding modest
    | _ => rwa [account_plain rfl]
  · intro fault log holding
    exact tallied _ holding
  · exact holding

end Steps

section Modest

variable {ses : Session}

theorem modest_finish (ending : Ending) : (finish ending).Only Op.IsModest :=
  ⟨trivial, fun _ => trivial⟩

theorem modest_acknowledge (lastAck newSeq : Int) :
    (acknowledge ses lastAck newSeq).Only Op.IsModest := by
  apply (only_acknowledge lastAck newSeq).mono
  rintro op ⟨reply, rfl⟩
  trivial

theorem modest_verifyFileHash (path checksum : GoString) :
    (verifyFileHash path checksum).Only Op.IsModest := by
  apply (only_verifyFileHash path checksum).mono
  rintro op rfl
  trivial

theorem modest_reportDone (cb : Bool) : (reportDone config ses cb).Only Op.IsModest := by
  unfold reportDone
  split
  · exact ⟨Int.le_refl _, fun _ => trivial⟩
  · trivial

variable (within : ses.doneBytes ≤ ses.size)

include within

theorem modest_reportTransfer (cb : Bool) (startSeq newSeq : Int) :
    (reportTransfer config ses cb startSeq newSeq).Only Op.IsModest := by
  unfold reportTransfer
  split
  · exact ⟨within, fun _ => trivial⟩
  · trivial

theorem modest_of_ends {prog : Prog α} (ends : prog.Only (Op.endsSession ses)) :
    prog.Only Op.IsModest := by
  apply ends.mono
  intro op isEnd
  cases op with
  | report progress =>
    change progress.doneBytes ≤ progress.totalBytes
    rw [isEnd.1, isEnd.2]
    exact within
  | write => exact isEnd
  | _ => trivial

theorem modest_deliver (cb : Bool) : (deliver config ses cb).Only Op.IsModest := by
  rw [deliver]
  refine only_perform trivial fun _ => only_perform trivial ?_
  intro resp
  cases resp with
  | some =>
    apply (modest_of_ends within (ends_cleanupSession _)).bind
    intro _
    exact modest_finish .delivered
  | none =>
    apply (modest_reportDone cb).bind
    intro _
    exact ⟨trivial, fun _ => modest_finish .delivered⟩

end Modest

section Chunk

variable {init : InitMessage} {ses : Session} {pieces : List (Nat × Bytes)} {record : Account}
  {seq : Nat}

structure CountsChunk (init : InitMessage) (ses : Session) (pieces : List (Nat × Bytes))
    (seq : Nat) (record : Account) : Prop extends Counts init ses pieces record where
  isSeq : record.seq = some (seq : Int)
  unmarked : ses.bitmap.mem seq = false

theorem CountsChunk.tally (counts : CountsChunk init ses pieces seq record)
    (fits : data.length ≤ chunkLength init seq) :
    Tally init ((seq, data) :: pieces) (record.withChunk data) where
  stored := by rw [Account.withChunk, counts.stored, counts.isSeq, List.map_cons]
  distinct := by
    rw [List.map_cons]
    refine List.nodup_cons.mpr ⟨?_, counts.distinct⟩
    intro member
    rcases List.mem_map.mp member with ⟨piece, inPieces, isSeq⟩
    have marked := counts.marked piece inPieces
    rw [isSeq, counts.unmarked] at marked
    cases marked
  fits piece member := by
    rcases List.mem_cons.mp member with rfl | prev
    · exact fits
    · exact counts.fits piece prev
  reports := counts.reports

theorem CountsChunk.counts (counts : CountsChunk init ses pieces seq record)
    (inRange : (seq : Int) < init.totalChunks.toInt)
    (fits : data.length ≤ chunkLength init seq) (nonnegative : 0 ≤ init.size.toInt) :
    Counts init { ses with
        bitmap := ses.bitmap.modify (seq / 64) fun word => word ||| 1#64 <<< (seq % 64)
        doneBytes := wrap64 (ses.doneBytes + data.length) } ((seq, data) :: pieces)
      (record.withChunk data) where
  toTally := counts.tally fits
  size := counts.size
  totalChunks := counts.totalChunks
  compression := counts.compression
  room := by
    rw [List.length_modify]
    exact counts.room
  marked piece member := by
    have room : seq / 64 < ses.bitmap.length := by
      have cap := counts.room
      omega
    rw [mem_modify room]
    rcases List.mem_cons.mp member with rfl | prev
    · simp
    · rw [counts.marked piece prev, Bool.or_true]
  doneBytes := by
    have bound := (counts.tally fits).storedBytes_le
    have total : storedBytes ((seq, data) :: pieces) = data.length + storedBytes pieces := by
      rw [storedBytes, List.map_cons, List.sum_cons]
      rfl
    have upper := init.size.toInt_lt
    change wrap64 (ses.doneBytes + data.length) = _
    rw [counts.doneBytes, wrap64_of_mem (by omega) (by omega), total]
    omega

end Chunk

def Counted (library : Library) (init : InitMessage) : Receiver → ReceiveChronicle → Prop
  | .waitInit, _ => False
  | .receiving ses _ _ _, log => ∃ pieces, Counts init ses pieces (account library init log)
  | .ended _, log => ∃ pieces, Tally init pieces (account library init log)

theorem Tally.hear (tally : Tally init pieces (account library init log)) (ev : Event) :
    Tally init pieces (account library init (log.note (.arrived ev))) :=
  ⟨tally.stored, tally.distinct, tally.fits, tally.reports⟩

theorem Counted.hear (counted : Counted library init rcv log) (ev : Event) :
    Counted library init rcv (log.note (.arrived ev)) := by
  cases rcv with
  | waitInit => exact counted
  | receiving =>
    rcases counted with ⟨pieces, counts⟩
    exact ⟨pieces, counts.toTally.hear ev, counts.size, counts.totalChunks,
      counts.compression, counts.room, counts.marked, counts.doneBytes⟩
  | ended =>
    rcases counted with ⟨pieces, tally⟩
    exact ⟨pieces, tally.hear ev⟩

theorem seq_hear {init : InitMessage} {log : ReceiveChronicle}
    (unpacked : unpackDataFrame library fr.payload (.ofString init.compression) = .ok (seq, data)) :
    (account library init (log.note (.arrived (.frame fr)))).seq = some seq := by
  have isHandled : handled (log.note (.arrived (.frame fr))).past = some (.frame fr) := rfl
  rw [account, handledSeq, isHandled]
  dsimp only
  rw [unpacked]

section Reactions

variable {init : InitMessage} {log : ReceiveChronicle}

theorem stores_tally {prog : Prog α} (only : prog.Only Op.IsModest)
    (tally : Tally init pieces (account library init log)) :
    Stores library init prog (fun _ later => Tally init pieces (account library init later)) log :=
  stores_modest only Tally.lasting (fun _ tally => ⟨pieces, tally⟩) tally

theorem stores_counts {prog : Prog α} (only : prog.Only Op.IsModest)
    (counts : Counts init ses pieces (account library init log)) :
    Stores library init prog
      (fun _ later => Counts init ses pieces (account library init later)) log :=
  stores_modest only Counts.lasting (fun _ counts => ⟨pieces, counts.toTally⟩) counts

theorem stores_ending {prog : Prog Receiver} (only : prog.Only Op.IsModest)
    (ends : prog.Total Receiver.IsEnded) (tally : Tally init pieces (account library init log)) :
    Stores library init prog (Counted library init) log := by
  apply ((stores_tally only tally).and (Surroundings.leads_of_total ends)
    fun _ _ tallied _ => tallied).mono
  rintro rcv later ⟨tally, ended⟩
  cases rcv with
  | waitInit => exact ended
  | receiving => exact ended.elim
  | ended => exact ⟨pieces, tally⟩

theorem stores_abandon (err : GoString) (within : ses.doneBytes ≤ ses.size)
    (tally : Tally init pieces (account library init log)) :
    Stores library init (abandon config ses err) (Counted library init) log :=
  stores_ending (modest_of_ends within (ends_abandon err)) (total_abandon err) tally

theorem stores_refuse (why err : GoString) (within : ses.doneBytes ≤ ses.size)
    (tally : Tally init pieces (account library init log)) :
    Stores library init (refuse config ses why err) (Counted library init) log :=
  stores_ending (modest_of_ends within (ends_refuse why err)) (total_refuse why err) tally

variable (nonnegative : 0 ≤ init.size.toInt)

include nonnegative

theorem stores_afterChunk (cb : Bool) (startSeq lastAck : Int)
    (counts : Counts init ses pieces (account library init log)) :
    Stores library init (afterChunk config ses cb startSeq lastAck) (Counted library init) log := by
  have within := counts.doneBytes_le nonnegative
  rcases bitmapMaxContinuous_total ses.bitmap ses.totalChunks with ⟨newSeq, comp⟩
  rw [afterChunk, comp, ofExcept_ok, done_bind]
  apply (stores_counts (modest_acknowledge lastAck newSeq) counts).bind
  intro acknowledged later counts
  cases acknowledged with
  | error => exact stores_abandon _ within counts.toTally
  | ok =>
    apply (stores_counts (modest_reportTransfer within cb startSeq newSeq) counts).bind
    intro _ later counts
    exact ⟨pieces, counts⟩

omit nonnegative in
theorem stores_writeTmpFile {seq : Nat} {chunkData : Bytes}
    (counts : CountsChunk init ses pieces seq (account library init log))
    (fits : chunkData.length ≤ chunkLength init seq) :
    Stores library init (writeTmpFile ses chunkData) (fun failed later =>
        (∃ stored, Tally init stored (account library init later)) ∧
          (failed = none → ∃ record, CountsChunk init ses pieces seq record ∧
            account library init later = record.withChunk chunkData)) log := by
  rw [writeTmpFile]
  split
  · apply stores_perform counts
    intro cur counts resp after _
    refine ⟨⟨(seq, chunkData) :: pieces, ?_⟩,
      fun _ => ⟨_, counts, account_write _ chunkData resp after⟩⟩
    rw [account_write]
    exact counts.tally fits
  refine ⟨⟨pieces, counts.toTally⟩, ?_⟩
  intro isNone
  cases isNone

theorem stores_storeChunk {chunkData : Bytes}
    (counts : CountsChunk init ses pieces seq (account library init log))
    (inRange : (seq : Int) < init.totalChunks.toInt)
    (fits : chunkData.length ≤ chunkLength init seq) :
    Stores library init (storeChunk ses seq chunkData) (fun stored later =>
        match stored with
        | .error _ => ∃ pieces, Tally init pieces (account library init later)
        | .ok ses => ∃ pieces, Counts init ses pieces (account library init later))
      log := by
  rw [storeChunk, bitmapSet_natCast]
  apply (stores_writeTmpFile counts fits).bind
  rintro failed later ⟨tallied, written⟩
  cases failed with
  | some => exact tallied
  | none =>
    rcases written rfl with ⟨record, counts, isRecord⟩
    have after := counts.counts inRange fits nonnegative
    rw [← isRecord] at after
    exact ⟨_, after⟩

theorem stores_receiveData (cb : Bool) (startSeq lastAck : Int)
    (counts : Counts init ses pieces (account library init log))
    (isSeq : ∀ seq data, unpackDataFrame library pl ses.compression = .ok (seq, data) →
      (account library init log).seq = some seq ∧ 0 ≤ seq ∧
        seq < init.totalChunks.toInt ∧ data.length ≤ chunkLength init seq.toNat) :
    Stores library init (receiveData library config ses cb startSeq lastAck pl)
      (Counted library init) log := by
  have within := counts.doneBytes_le nonnegative
  unfold receiveData
  cases unpacked : unpackDataFrame library pl ses.compression with
  | error => exact stores_refuse _ _ within counts.toTally
  | ok chunk =>
    rcases chunk with ⟨dataSeq, chunkData⟩
    rcases isSeq dataSeq chunkData unpacked with ⟨isSeq, notNegative, inRange, fits⟩
    rcases Int.eq_ofNat_of_zero_le notNegative with ⟨seq, rfl⟩
    dsimp only
    rw [bitmapHas_natCast, ofExcept_ok, done_bind]
    cases marked : ses.bitmap.mem seq with
    | true => exact stores_afterChunk nonnegative cb startSeq lastAck counts
    | false =>
      rw [if_neg (by decide)]
      apply (stores_storeChunk nonnegative ⟨counts, isSeq, marked⟩ inRange fits).bind
      intro stored later outcome
      cases stored with
      | error =>
        rcases outcome with ⟨pieces, tally⟩
        exact stores_refuse _ _ within tally
      | ok =>
        rcases outcome with ⟨pieces, counts⟩
        exact stores_afterChunk nonnegative cb startSeq lastAck counts

omit nonnegative in
theorem stores_closeForFin (counts : Counts init ses pieces (account library init log)) :
    Stores library init (closeForFin ses)
      (fun closed later => Counts init closed pieces (account library init later)) log := by
  rw [closeForFin]
  split
  · apply stores_plain counts rfl
    intro _ later counts
    apply stores_plain counts rfl
    intro _ later counts
    exact ⟨counts.toTally, counts.size, counts.totalChunks, counts.compression, counts.room,
      counts.marked, counts.doneBytes⟩
  · exact counts

theorem stores_receiveFin {pl : Bytes} (cb : Bool)
    (counts : Counts init ses pieces (account library init log)) :
    Stores library init (receiveFin library config ses cb pl) (Counted library init) log := by
  unfold receiveFin
  split
  · exact stores_refuse _ _ (counts.doneBytes_le nonnegative) counts.toTally
  apply (stores_closeForFin counts).bind
  intro ses later counts
  have within := counts.doneBytes_le nonnegative
  apply (stores_counts (modest_verifyFileHash _ _) counts).bind
  intro verified later counts
  cases verified with
  | some => exact stores_refuse _ _ within counts.toTally
  | none =>
    apply stores_plain counts rfl
    intro resp later counts
    cases resp with
    | some => exact stores_refuse _ _ within counts.toTally
    | none =>
      exact stores_ending (modest_deliver (Int.le_refl _) cb) (total_deliver cb) counts.toTally

theorem stores_receiveFrame (cb : Bool) (startSeq lastAck : Int) (counts : Counts init ses pieces
      (account library init (log.note (.arrived (.frame fr)))))
    (fits : FitsAnnounced library init (.frame fr)) :
    Stores library init (receiveFrame library config ses cb startSeq lastAck fr)
      (Counted library init) (log.note (.arrived (.frame fr))) := by
  have within := counts.doneBytes_le nonnegative
  unfold receiveFrame
  split
  · exact stores_abandon _ within counts.toTally
  split
  · exact stores_abandon _ within counts.toTally
  split
  next isData =>
    apply stores_receiveData nonnegative cb startSeq lastAck counts
    intro seq data unpacked
    rw [counts.compression] at unpacked
    exact ⟨seq_hear unpacked, fits isData seq data unpacked⟩
  split
  · exact stores_receiveFin nonnegative cb counts
  · exact ⟨pieces, counts⟩

omit nonnegative in
theorem stores_cancel {rcv : Receiver} (counted : Counted library init rcv log) :
    Stores library init (rcv.receive library config .cancel) (Counted library init)
      log := by
  rw [receive_cancel]
  cases rcv with
  | waitInit => exact counted.elim
  | receiving =>
    rcases counted with ⟨pieces, counts⟩
    apply stores_plain counts rfl
    intro _ later counts
    exact ⟨pieces, counts⟩
  | ended =>
    rcases counted with ⟨pieces, tally⟩
    apply stores_plain tally rfl
    intro _ later tally
    exact ⟨pieces, tally⟩

theorem stores_receive (counted : Counted library init rcv log)
    (fits : FitsAnnounced library init ev) :
    Stores library init (rcv.receive library config ev) (Counted library init)
      (log.note (.arrived ev)) := by
  have heard := counted.hear ev
  cases ev with
  | cancel => exact stores_cancel heard
  | frame =>
    cases rcv with
    | waitInit => exact heard.elim
    | receiving ses cb startSeq lastAck =>
      rcases heard with ⟨pieces, counts⟩
      exact stores_receiveFrame nonnegative cb startSeq lastAck counts fits
    | ended => exact heard
  | readError =>
    cases rcv with
    | waitInit => exact heard.elim
    | receiving =>
      rcases heard with ⟨pieces, counts⟩
      exact stores_abandon _ (counts.doneBytes_le nonnegative) counts.toTally
    | ended => exact heard

end Reactions

section Opening

variable {init : InitMessage}

theorem room_of_newBitmap (made : newBitmap init.totalChunks.toInt = .ok bitmap) :
    init.totalChunks.toInt ≤ 64 * bitmap.length := by
  by_cases negative : init.totalChunks.toInt < 0
  · omega
  have small := (newBitmap_eq_ok_iff init.totalChunks.toInt_lt).mp ⟨bitmap, made⟩
  rcases Int.eq_ofNat_of_zero_le (Int.not_lt.mp negative) with ⟨total, isTotal⟩
  rw [isTotal] at made small ⊢
  have words := newBitmap_natCast (Int.ofNat_le.mp small)
  cases made.symm.trans words
  rw [List.length_replicate]
  omega

structure IsNew (init : InitMessage) (part : OpenPart) : Prop where
  room : init.totalChunks.toInt ≤ 64 * part.bitmap.length
  doneBytes : part.doneBytes = 0

theorem stores_createPart {bitmap : Bitmap} (room : init.totalChunks.toInt ≤ 64 * bitmap.length)
    (tally : Tally init [] (account library init log)) :
    Stores library init (createPart config init bitmap)
      (fun answer later => Tally init [] (account library init later) ∧
        ∀ part, answer = .ok part → IsNew init part) log := by
  rw [createPart]
  apply stores_plain tally rfl
  intro resp later tally
  cases resp with
  | error =>
    refine ⟨tally, ?_⟩
    intro part isOk
    cases isOk
  | ok =>
    refine ⟨tally, ?_⟩
    intro part isOk
    cases isOk
    exact ⟨room, rfl⟩

theorem stores_startReceiving {part : OpenPart} (isNew : IsNew init part)
    (tally : Tally init [] (account library init log)) :
    Stores library init (startReceiving config init part) (Counted library init)
      log := by
  rcases bitmapMaxContinuous_total part.bitmap init.totalChunks.toInt with ⟨run, comp⟩
  rw [startReceiving, comp, ofExcept_ok, done_bind]
  apply stores_plain tally rfl
  intro _ later tally
  apply stores_plain tally rfl
  intro answer later tally
  cases answer with
  | some =>
    refine stores_ending ?_ (fun _ _ => total_finish .unanswered) tally
    exact ⟨trivial, fun _ => ⟨trivial, fun _ => modest_finish .unanswered⟩⟩
  | none =>
    apply stores_plain tally rfl
    intro _ later tally
    apply stores_plain tally rfl
    intro _ later tally
    refine ⟨[], tally, rfl, rfl, rfl, isNew.room, ?_, isNew.doneBytes⟩
    intro piece member
    cases member

theorem stores_reject (err : GoString) (tally : Tally init [] (account library init log)) :
    Stores library init (call (.send (.reject err)) >>= fun _ => finish .rejected)
      (Counted library init) log :=
  stores_ending ⟨trivial, fun _ => modest_finish .rejected⟩ (fun _ => total_finish .rejected) tally

theorem stores_handleFileStream (fromStart : init.offset.toInt ≤ 0)
    (tally : Tally init [] (account library init log)) :
    Stores library init (handleFileStream config init) (Counted library init)
      log := by
  rw [handleFileStream]
  apply stores_plain tally rfl
  intro made later tally
  cases made with
  | some err => exact stores_reject err tally
  | none =>
    cases made : newBitmap init.totalChunks.toInt with
    | error => exact ⟨[], tally⟩
    | ok =>
      rw [ofExcept_ok, done_bind, openPart, openExisting, if_neg (by omega), pure_eq_done,
        done_bind]
      apply (stores_createPart (room_of_newBitmap made) tally).bind
      rintro opened later ⟨tally, isNew⟩
      cases opened with
      | error err => exact stores_reject err tally
      | ok part => exact stores_startReceiving (isNew part rfl) tally

end Opening

/-- From a sender whose DATA frames fit INIT a session that starts from nothing stores no more
than announced. -/
theorem withinAnnounced_of_fits {library : Library} {config : Config} {init : InitMessage}
    {files : Files} {callback : Bool} {result : Except GoPanic Receiver}
    {chronicle : ReceiveChronicle} (nonnegative : 0 ≤ init.size.toInt) (fromStart : init.offset = 0)
    (runs : (receiving library config init).Runs
      (fun _ event _ => FitsAnnounced library init event) ⟨files, .fresh callback⟩ result
      chronicle) :
    WithinAnnounced library init chronicle.past := by
  have start : Tally init [] (account library init (.start ⟨files, .fresh callback⟩)) := by
    refine ⟨rfl, List.nodup_nil, ?_, ?_⟩
    · intro piece member
      cases member
    · intro progress member
      cases member
  have counted := runs.invariant (stores_handleFileStream (by rw [fromStart]; decide) start)
    fun receiver event chronicle counted fits => stores_receive nonnegative counted fits
  have tallied : ∃ pieces, Tally init pieces (account library init chronicle) := by
    cases result with
    | error => exact counted
    | ok receiver =>
      cases receiver with
      | waitInit => exact counted.elim
      | receiving =>
        rcases counted with ⟨pieces, counts⟩
        exact ⟨pieces, counts.toTally⟩
      | ended => exact counted
  rcases tallied with ⟨pieces, tally⟩
  exact tally.withinAnnounced nonnegative

instance (library : Library) (init : InitMessage) (event : Event) :
    Decidable (FitsAnnounced library init event) :=
  match event with
  | .frame ⟨typ, payload⟩ =>
    match unpacked : unpackDataFrame library payload (.ofString init.compression) with
    | .ok (seq, data) =>
      decidable_of_iff (typ = frameTypeData → 0 ≤ seq ∧ seq < init.totalChunks.toInt ∧
          data.length ≤ chunkLength init seq.toNat)
        ⟨fun fits isData _ _ isChunk => by
          cases unpacked.symm.trans isChunk
          exact fits isData, fun fits isData => fits isData seq data unpacked⟩
    | .error _ => isTrue fun _ _ _ isChunk => by cases unpacked.symm.trans isChunk
  | .readError _ => isTrue trivial
  | .cancel => isTrue trivial

theorem withinAnnounced_receiveGreeting :
    ((receiveGreeting greetingEvents).2.past.filterMap reported).map FileProgress.doneBytes =
        [2, 2] ∧
      WithinAnnounced (.ofTransfer greetingInit) greetingInit
        (receiveGreeting greetingEvents).2.past := by
  have permits : (receiving (.ofTransfer greetingInit) greetingConfig greetingInit).Permits handle
      (fun _ event _ => FitsAnnounced (.ofTransfer greetingInit) greetingInit event)
      ⟨.empty, .fresh true⟩ greetingEvents := by decide +kernel
  have runs : (receiving (.ofTransfer greetingInit) greetingConfig greetingInit).Runs
      (fun _ event _ => FitsAnnounced (.ofTransfer greetingInit) greetingInit event)
      ⟨.empty, .fresh true⟩ _ (receiveGreeting greetingEvents).2 :=
    Reactor.runs_play outcome_handle permits
  exact ⟨by decide +kernel, withinAnnounced_of_fits (by decide) rfl runs⟩

/-- The two bytes of the greeting under an index for which the bitmap has no room, twice, and
then under their own. -/
def excessiveEvents : List Event :=
  [64, 64, 0].map fun seq =>
    .frame ⟨frameTypeData, packDataFrame (.ofTransfer greetingInit) seq (ascii "hi") .none⟩

/-- Six bytes are stored of a file of two, one index twice, and six of two bytes are reported as
done. -/
theorem not_withinAnnounced_excessive :
    (0 ≤ greetingInit.size.toInt ∧ greetingInit.offset = 0 ∧ greetingInit.totalChunks.toInt =
        pieceCount greetingInit.chunkSize.toInt.toNat greetingInit.size.toInt.toNat) ∧
      (receiving (.ofTransfer greetingInit) greetingConfig greetingInit).Runs
        (fun _ _ _ => True) ⟨.empty, .fresh true⟩ (receiveGreeting excessiveEvents).1
        (receiveGreeting excessiveEvents).2 ∧
      storedChunks (.ofTransfer greetingInit) greetingInit
          (receiveGreeting excessiveEvents).2.past =
        [(some 0, ascii "hi"), (some 64, ascii "hi"), (some 64, ascii "hi")] ∧
      ((receiveGreeting excessiveEvents).2.past.filterMap reported).map
          (fun progress => (progress.doneBytes, progress.totalBytes)) = [(6, 2)] ∧
      ¬WithinAnnounced (.ofTransfer greetingInit) greetingInit
        (receiveGreeting excessiveEvents).2.past := by
  have stored : storedChunks (.ofTransfer greetingInit) greetingInit
      (receiveGreeting excessiveEvents).2.past =
        [(some 0, ascii "hi"), (some 64, ascii "hi"), (some 64, ascii "hi")] := by
    decide +kernel
  refine ⟨by decide, runs_receiveGreeting _, stored, by decide +kernel, ?_⟩
  intro within
  have bytes := within.bytes
  rw [stored] at bytes
  revert bytes
  decide

end Peerscale.RelayFile
