import Peerscale.RelayFile.ReceiverRuns

/-! # What a receive session leaves behind

`receiveLoop` leaves it to `cleanupSession` to close and remove the `.part` file and to take the
session out of `sessions`. `cleanupSession` does none of this for a session that it finds
cancelled or done, and nobody else does.
-/

namespace Peerscale.RelayFile

open Program Surroundings

/-- The session is not registered, the descriptor that it opened is closed, and nothing is left
at the path of the `.part` file. -/
structure LeftNothing (path : GoString) (world : World) : Prop where
  unregistered : world.self.registered = false
  closed : ∀ descriptor, world.self.opened = some descriptor →
    world.files.descriptor descriptor = none
  unlinked : world.files.link path = none

/-- `cleanupSession` is not left at once, and a file that is removed is gone. -/
def thorough (moment : ReceiveMoment) : Bool :=
  match moment.deed with
  | .performed .beginCleanup proceeds => proceeds
  | .performed (.remove path) _ => (moment.after.files.link path).isNone
  | _ => true

structure Holdings where
  registered : Bool
  opened : Option Nat
  files : Files
  thorough : Bool

def holdings (log : ReceiveChronicle) : Holdings where
  registered := log.world.self.registered
  opened := log.world.self.opened
  files := log.world.files
  thorough := log.past.all thorough

/-- While the session receives. Its descriptor is still there unless FIN has come. -/
structure Holds (config : Config) (init : InitMessage) (ses : Session) (descriptor : Nat)
    (holdings : Holdings) : Prop where
  belongs : Belongs config init ses
  registered : holdings.registered
  opened : holdings.opened = some descriptor
  thorough : holdings.thorough
  tmpFile : ses.tmpFile = some descriptor ∨
    ses.tmpFile = none ∧ holdings.files.descriptor descriptor = none

theorem Holds.congr {config : Config} {init : InitMessage} {updated : Session} {holdings : Holdings}
    (holds : Holds config init ses fd holdings) (tmpFile : updated.tmpFile = ses.tmpFile)
    (tmpPath : updated.tmpPath = ses.tmpPath) (savePath : updated.savePath = ses.savePath)
    (checksum : updated.checksum = ses.checksum) : Holds config init updated fd holdings where
  belongs := ⟨tmpPath.trans holds.belongs.tmpPath, savePath.trans holds.belongs.savePath,
    checksum.trans holds.belongs.checksum⟩
  registered := holds.registered
  opened := holds.opened
  thorough := holds.thorough
  tmpFile := by
    rw [tmpFile]
    exact holds.tmpFile

structure HoldsEntry (descriptor : Nat) (holdings : Holdings) : Prop where
  registered : holdings.registered
  opened : holdings.opened = some descriptor
  closed : holdings.files.descriptor descriptor = none

structure HoldsPath (descriptor : Nat) (holdings : Holdings) : Prop extends
    HoldsEntry descriptor holdings where
  thorough : holdings.thorough

structure HoldsNoPath (path : GoString) (descriptor : Nat) (holdings : Holdings) : Prop extends
    HoldsEntry descriptor holdings where
  unlinked : holdings.files.link path = none ↔ holdings.thorough

def Released (path : GoString) (holdings : Holdings) : Prop :=
  holdings.registered ∧ holdings.thorough = false ∨ holdings.registered = false ∧
      (∀ fd, holdings.opened = some fd → holdings.files.descriptor fd = none) ∧
      (holdings.files.link path = none ↔ holdings.thorough)

theorem Released.leaves_nothing_iff (released : Released path (holdings log)) :
    LeftNothing path log.world ↔ log.past.all thorough := by
  rcases released with ⟨registered, careless⟩ | ⟨unregistered, closed, unlinked⟩
  · constructor
    · intro left
      have unregistered : (holdings log).registered = false := left.unregistered
      rw [registered] at unregistered
      cases unregistered
    intro thorough
    have careful : (holdings log).thorough := thorough
    rw [careless] at careful
    cases careful
  constructor
  · intro left
    exact unlinked.mp left.unlinked
  · intro thorough
    exact ⟨unregistered, closed, unlinked.mpr thorough⟩

def Owes (config : Config) (init : InitMessage) : Receiver → Holdings → Prop
  | .waitInit, _ => False
  | .receiving ses _ _ _, holdings => ∃ fd, Holds config init ses fd holdings
  | .ended ending, holdings =>
    ending = .failed ∨ ending = .delivered → Released (tmpPath config init.name) holdings

abbrev OwesThen (config : Config) (init : InitMessage) (receiver : Receiver)
    (log : ReceiveChronicle) : Prop :=
  Owes config init receiver (holdings log)

section Steps

variable {library : Library} {config : Config} {init : InitMessage} {ses : Session}
  {log : ReceiveChronicle}

theorem holdings_act (meddled : meddles log act after) :
    holdings (log.next (.act act) after) = holdings log := by
  have same : after.self.registered = log.world.self.registered ∧
      after.self.opened = log.world.self.opened ∧
      after.files = log.world.files := by
    cases act with
    | arrived => exact meddled.elim
    | cancel =>
      cases meddled
      rw [World.cancelled]
      split <;> exact ⟨rfl, rfl, rfl⟩
    | wake =>
      rcases meddled with ⟨-, rfl⟩
      rw [World.woken]
      split <;> exact ⟨rfl, rfl, rfl⟩
  rw [holdings, Chronicle.next, same.1, same.2.1, same.2.2]
  rfl

theorem holdings_mild (mild : op.isMild) (ans : outcome op log.world resp after) :
    holdings (log.next (.performed op resp) after) = holdings log := by
  have same := sameSession_of_outcome mild ans
  have careful : thorough ⟨log.world, .performed op resp, after⟩ := by
    cases op <;> first | rfl | cases mild
  rw [holdings, Chronicle.next, same.registered, same.opened, same.files, List.all_cons, careful]
  rfl

theorem stable_holdings (holds : Holdings → Prop) :
    aroundSession.Stable fun log => holds (holdings log) := by
  intro log act after holding acts
  rwa [holdings_act acts]

abbrev Leaves (program : Prog α) (post : α → ReceiveChronicle → Prop)
    (log : ReceiveChronicle) : Prop :=
  aroundSession.Leads (fun _ _ => True) program post log

variable {fd : Nat}

theorem leaves_mild {prog : Prog α} {holds : Holdings → Prop}
    (only : prog.Only (·.isMild)) (holding : holds (holdings log)) :
    Leaves prog (fun _ later => holds (holdings later)) log := by
  apply (stable_holdings holds).leads_of_only only
  · intro log op resp after mild holding ans
    rwa [holdings_mild mild ans]
  · intro fault log _
    trivial
  · exact holding

theorem leaves_perform {holds : Holdings → Prop} (holding : holds (holdings log))
    {next : Response op → Prog α} {post : α → ReceiveChronicle → Prop}
    (leads : ∀ cur, holds (holdings cur) → ∀ resp after,
      outcome op cur.world resp after → Leaves (next resp) post
          (cur.next (.performed op resp) after)) :
    Leaves (.perform op next) post log :=
  (stable_holdings holds).leads_perform holding leads

theorem leaves_finish {ending : Ending} (owes : Owes config init (.ended ending) (holdings log)) :
    Leaves (finish ending) (OwesThen config init) log := by
  apply leaves_perform owes
  intro cur owes resp after ans
  rwa [← holdings_mild rfl ans] at owes

theorem leaves_closeTmpFile (holds : Holds config init ses fd (holdings log)) :
    Leaves (closeTmpFile ses) (fun _ later => HoldsPath fd (holdings later)) log := by
  rw [closeTmpFile]
  rcases holds.tmpFile with isOpen | ⟨isClosed, closed⟩
  · rw [isOpen]
    apply leaves_perform holds
    intro cur holds resp after ans
    cases ans
    exact ⟨⟨holds.registered, holds.opened, Function.update_self _ _ _⟩, holds.thorough⟩
  · rw [isClosed]
    exact ⟨⟨holds.registered, holds.opened, closed⟩, holds.thorough⟩

theorem leaves_removeTmpPath (belongs : Belongs config init ses) (e : HoldsPath fd (holdings log)) :
    Leaves (removeTmpPath ses) (fun _ later =>
      HoldsNoPath (tmpPath config init.name) fd (holdings later)) log := by
  have named : ses.tmpPath ≠ [] := by
    rw [belongs.tmpPath]
    simp [tmpPath, partSuffix, ascii]
  rw [removeTmpPath, if_pos named, belongs.tmpPath]
  apply leaves_perform e
  intro cur e resp after ans
  have careful : cur.past.all thorough := e.thorough
  refine ⟨?_, ?_⟩
  · rcases ans with rfl | rfl <;> exact ⟨e.registered, e.opened, e.closed⟩
  change after.files.link (tmpPath config init.name) = none ↔
    ((after.files.link (tmpPath config init.name)).isNone && cur.past.all thorough)
  rw [careful, Bool.and_true, Option.isNone_iff_eq_none]

theorem released_deleteSession (e : HoldsNoPath path fd (holdings log))
    (ans : outcome .deleteSession log.world resp after) :
    Released path (holdings (log.next (.performed .deleteSession resp) after)) := by
  cases ans
  refine .inr ⟨rfl, ?_, e.unlinked⟩
  intro other isOther
  cases e.opened.symm.trans isOther
  exact e.closed

theorem leaves_cleanupSession (err : GoString) (holds : Holds config init ses fd (holdings log)) :
    Leaves (cleanupSession config ses err) (fun _ later =>
      Released (tmpPath config init.name) (holdings later)) log := by
  rw [cleanupSession]
  apply leaves_perform holds
  rintro cur holds proceeds after ⟨proceedsIs, rfl⟩
  cases terminal : cur.world.isTerminal with
  | true =>
    -- A session that is cancelled or done already: nothing is released.
    rw [terminal] at proceedsIs
    cases proceedsIs
    exact .inl ⟨holds.registered, rfl⟩
  | false =>
    rw [terminal] at proceedsIs
    cases proceedsIs
    have goesOn : Holds config init ses fd
        (holdings (cur.next (.performed .beginCleanup true) cur.world.cleaned)) :=
      ⟨holds.belongs, holds.registered, holds.opened, holds.thorough, holds.tmpFile⟩
    apply (leaves_closeTmpFile goesOn).bind
    intro _ later e
    apply (leaves_removeTmpPath holds.belongs e).bind
    intro _ later e
    apply (leaves_mild (mild_reportError err) e).bind
    intro _ later e
    apply leaves_perform e
    intro cur e resp after ans
    exact released_deleteSession e ans

theorem leaves_abandon (err : GoString) (holds : Holds config init ses fd (holdings log)) :
    Leaves (abandon config ses err) (OwesThen config init) log := by
  apply (leaves_cleanupSession err holds).bind
  intro _ later released
  exact leaves_finish fun _ => released

theorem leaves_refuse (why err : GoString) (holds : Holds config init ses fd (holdings log)) :
    Leaves (refuse config ses why err) (OwesThen config init)
      log := by
  apply leaves_perform holds
  intro cur holds resp after ans
  rw [← holdings_mild rfl ans] at holds
  exact leaves_abandon err holds

theorem leaves_afterChunk (cb : Bool) (startSeq lastAck : Int)
    (holds : Holds config init ses fd (holdings log)) :
    Leaves (afterChunk config ses cb startSeq lastAck) (OwesThen config init) log := by
  rcases bitmapMaxContinuous_total ses.bitmap ses.totalChunks with ⟨newSeq, comp⟩
  rw [afterChunk, comp, ofExcept_ok, done_bind]
  apply (leaves_mild (mild_acknowledge lastAck newSeq) holds).bind
  intro acknowledged later holds
  cases acknowledged with
  | error => exact leaves_abandon _ holds
  | ok =>
    apply (leaves_mild (mild_reportTransfer cb startSeq newSeq) holds).bind
    intro _ later holds
    exact ⟨fd, holds⟩

theorem leaves_writeTmpFile (chunkData : Bytes) (holds : Holds config init ses fd (holdings log)) :
    Leaves (writeTmpFile ses chunkData) (fun _ later =>
      Holds config init ses fd (holdings later)) log := by
  rw [writeTmpFile]
  rcases holds.tmpFile with isOpen | ⟨isClosed, -⟩
  · rw [isOpen]
    apply leaves_perform holds
    intro cur holds resp after ans
    rcases ans with ⟨-, rfl⟩ | ⟨why, written, -, rfl⟩
    · exact ⟨holds.belongs, holds.registered, holds.opened, holds.thorough, .inl isOpen⟩
    · exact ⟨holds.belongs, holds.registered, holds.opened, holds.thorough, .inl isOpen⟩
  · rw [isClosed]
    exact holds

theorem leaves_storeChunk (dataSeq : Int) (chunkData : Bytes)
    (holds : Holds config init ses fd (holdings log)) :
    Leaves (storeChunk ses dataSeq chunkData) (fun stored later =>
      Holds config init ses fd (holdings later) ∧ ∀ updated, stored = .ok updated →
          Holds config init updated fd (holdings later)) log := by
  apply (leaves_writeTmpFile chunkData holds).bind
  intro failed later holds
  cases failed with
  | some =>
    refine ⟨holds, ?_⟩
    intro updated isOk
    cases isOk
  | none =>
    cases bitmapSet ses.bitmap dataSeq with
    | error => trivial
    | ok =>
      refine ⟨holds, ?_⟩
      intro updated isOk
      cases isOk
      exact holds.congr rfl rfl rfl rfl

theorem leaves_receiveData (cb : Bool) (startSeq lastAck : Int) (pl : Bytes)
    (holds : Holds config init ses fd (holdings log)) :
    Leaves (receiveData library config ses cb startSeq lastAck pl) (OwesThen config init) log := by
  unfold receiveData
  cases unpackDataFrame library pl ses.compression with
  | error => exact leaves_refuse _ _ holds
  | ok chunk =>
    rcases chunk with ⟨dataSeq, chunkData⟩
    dsimp only
    cases bitmapHas ses.bitmap dataSeq with
    | error => trivial
    | ok marked =>
      cases marked with
      | true => exact leaves_afterChunk cb startSeq lastAck holds
      | false =>
        rw [ofExcept_ok, done_bind, if_neg (by decide)]
        apply (leaves_storeChunk dataSeq chunkData holds).bind
        rintro stored later ⟨holds, updates⟩
        cases stored with
        | error => exact leaves_refuse _ _ holds
        | ok updated => exact leaves_afterChunk cb startSeq lastAck (updates updated rfl)

theorem leaves_closeForFin (holds : Holds config init ses fd (holdings log)) :
    Leaves (closeForFin ses) (fun closed later =>
      closed.tmpFile = none ∧ Holds config init closed fd (holdings later))
      log := by
  rw [closeForFin]
  rcases holds.tmpFile with isOpen | ⟨isClosed, -⟩
  · rw [isOpen]
    apply leaves_perform holds
    intro cur holds resp after ans
    rw [← holdings_mild rfl ans] at holds
    apply leaves_perform holds
    intro cur holds resp after ans
    cases ans
    exact ⟨rfl, ⟨holds.belongs.tmpPath, holds.belongs.savePath, holds.belongs.checksum⟩,
      holds.registered, holds.opened, holds.thorough, .inr ⟨rfl, Function.update_self _ _ _⟩⟩
  · rw [isClosed]
    exact ⟨isClosed, holds⟩

structure HoldsRenamed (config : Config) (init : InitMessage) (ses : Session) (descriptor : Nat)
    (holdings : Holdings) : Prop extends Holds config init ses descriptor holdings where
  closed : ses.tmpFile = none
  unlinked : holdings.files.link (tmpPath config init.name) = none

theorem HoldsRenamed.entry {holdings : Holdings}
    (renamed : HoldsRenamed config init ses fd holdings) :
    HoldsNoPath (tmpPath config init.name) fd holdings where
  registered := renamed.registered
  opened := renamed.opened
  closed := by
    rcases renamed.tmpFile with isOpen | ⟨-, closed⟩
    · cases renamed.closed.symm.trans isOpen
    · exact closed
  unlinked := ⟨fun _ => renamed.thorough, fun _ => renamed.unlinked⟩

theorem Holds.renamed (holds : Holds config init ses fd (holdings log))
    (closed : ses.tmpFile = none)
    (renamed : log.world.files.rename ses.tmpPath ses.savePath = some files) :
    HoldsRenamed config init { ses with doneBytes := ses.size } fd
      (holdings (log.next (.performed (.rename ses.tmpPath ses.savePath) none)
        (log.world.withFiles files))) where
  belongs := ⟨holds.belongs.tmpPath, holds.belongs.savePath, holds.belongs.checksum⟩
  registered := holds.registered
  opened := holds.opened
  thorough := holds.thorough
  tmpFile := by
    rcases holds.tmpFile with isOpen | ⟨-, isClosed⟩
    · cases closed.symm.trans isOpen
    · exact .inr ⟨closed, (congrFun (FileSystem.descriptor_rename renamed) _).trans isClosed⟩
  closed := closed
  unlinked := by
    rw [holds.belongs.tmpPath, holds.belongs.savePath] at renamed
    exact FileSystem.link_rename_source renamed (tmpPath_ne_finalPath config init.name)

theorem leaves_deliver (cb : Bool) (renamed : HoldsRenamed config init ses fd (holdings log)) :
    Leaves (deliver config ses cb) (OwesThen config init) log := by
  rw [deliver]
  apply leaves_perform renamed
  intro cur renamed resp after ans
  have same : holdings (cur.next (.performed .setDone resp) after) =
      holdings cur := by
    cases ans
    rfl
  rw [← same] at renamed
  apply leaves_perform renamed
  intro cur renamed resp after ans
  rw [← holdings_mild rfl ans] at renamed
  cases resp with
  | some =>
    apply (leaves_cleanupSession _ renamed.toHolds).bind
    intro _ later released
    exact leaves_finish fun _ => released
  | none =>
    apply (leaves_mild (mild_reportDone cb) renamed).bind
    intro _ later renamed
    apply leaves_perform renamed
    intro cur renamed resp after ans
    exact leaves_finish fun _ => released_deleteSession renamed.entry ans

theorem leaves_receiveFin (cb : Bool) (pl : Bytes)
    (holds : Holds config init ses fd (holdings log)) :
    Leaves (receiveFin library config ses cb pl) (OwesThen config init) log := by
  unfold receiveFin
  split
  · exact leaves_refuse _ _ holds
  apply (leaves_closeForFin holds).bind
  rintro ses later ⟨closed, holds⟩
  apply (leaves_mild (mild_verifyFileHash _ _) holds).bind
  intro verified later holds
  cases verified with
  | some => exact leaves_refuse _ _ holds
  | none =>
    apply leaves_perform holds
    intro cur holds resp after ans
    rcases ans with ⟨why, rfl, rfl⟩ | ⟨files, rfl, renamed, rfl⟩
    · exact leaves_refuse _ _ ⟨holds.belongs, holds.registered, holds.opened, holds.thorough,
        holds.tmpFile⟩
    · exact leaves_deliver cb (holds.renamed closed renamed)

theorem leaves_receiveFrame (holds : Holds config init ses fd (holdings log)) :
    Leaves (receiveFrame library config ses cb startSeq lastAck fr) (OwesThen config init) log := by
  unfold receiveFrame
  split
  · exact leaves_abandon _ holds
  split
  · exact leaves_abandon _ holds
  split
  · exact leaves_receiveData cb startSeq lastAck _ holds
  split
  · exact leaves_receiveFin cb _ holds
  · exact ⟨fd, holds⟩

theorem leaves_cancel {rcv : Receiver} (owes : Owes config init rcv (holdings log)) :
    Leaves (rcv.receive library config .cancel) (OwesThen config init)
      log := by
  rw [receive_cancel]
  apply leaves_perform owes
  intro cur owes resp after ans
  have same : holdings (cur.next (.act .cancel) after) = holdings cur := holdings_act ans
  rwa [← same] at owes

theorem leaves_receive (ev : Event) (owes : Owes config init rcv (holdings log)) :
    Leaves (rcv.receive library config ev) (OwesThen config init) (log.note (.arrived ev)) := by
  have heard : Owes config init rcv (holdings (log.note (.arrived ev))) := owes
  cases ev with
  | cancel => exact leaves_cancel heard
  | frame =>
    cases rcv with
    | waitInit => exact heard.elim
    | receiving =>
      rcases heard with ⟨fd, holds⟩
      exact leaves_receiveFrame holds
    | ended => exact heard
  | readError =>
    cases rcv with
    | waitInit => exact heard.elim
    | receiving =>
      rcases heard with ⟨fd, holds⟩
      exact leaves_abandon _ holds
    | ended => exact heard

end Steps

section Opening

def HoldsNothing (holdings : Holdings) : Prop := holdings.thorough

structure HoldsOpened (part : OpenPart) (holdings : Holdings) : Prop where
  opened : holdings.opened = some part.tmpFile
  thorough : holdings.thorough

theorem Owes.of_outside {holdings : Holdings} (notFailed : ending ≠ .failed)
    (notDelivered : ending ≠ .delivered) : Owes config init (.ended ending) holdings := by
  rintro (isFailed | isDelivered)
  · exact absurd isFailed notFailed
  · exact absurd isDelivered notDelivered

theorem leaves_anyway {next : Response op → Prog α} {post : α → ReceiveChronicle → Prop}
    (leads : ∀ resp later, Leaves (next resp) post later) :
    Leaves (.perform op next) post log :=
  leads_perform fun _ _ resp _ _ => leads resp _

def HoldsAnswer : Except GoString OpenPart → Holdings → Prop
  | .error _, holdings => HoldsNothing holdings
  | .ok part, holdings => HoldsOpened part holdings

theorem leaves_resumePart {tmpFile : Nat}
    (isOpen : HoldsOpened ⟨tmpFile, bitmap, 0, 0⟩ (holdings log)) :
    Leaves (resumePart init bitmap tmpFile)
      (fun part later => HoldsOpened part (holdings later)) log := by
  rw [resumePart, call_bind]
  apply leaves_perform isOpen
  intro cur isOpen doneBytes after ans
  rw [← holdings_mild rfl ans] at isOpen
  split
  · trivial
  unfold markedPart
  cases bitmapSetBelow bitmap _ with
  | error => trivial
  | ok => exact ⟨isOpen.opened, isOpen.thorough⟩

theorem leaves_createPart (nothing : HoldsNothing (holdings log)) :
    Leaves (createPart config init bitmap)
      (fun answer later => HoldsAnswer answer (holdings later)) log := by
  rw [createPart]
  apply leaves_perform nothing
  intro cur nothing resp after ans
  rcases ans with ⟨why, rfl, rfl⟩ | ⟨rfl, rfl⟩
  · exact nothing
  · exact ⟨rfl, nothing⟩

theorem leaves_openPart (nothing : HoldsNothing (holdings log)) :
    Leaves (openPart config init bitmap)
      (fun answer later => HoldsAnswer answer (holdings later)) log := by
  rw [openPart, openExisting]
  split
  · rw [call_bind]
    apply leaves_perform nothing
    intro cur nothing resp after ans
    rcases ans with ⟨rfl, rfl⟩ | ⟨fd, files, rfl, -, rfl⟩
    · exact leaves_createPart nothing
    have isOpen : HoldsOpened ⟨fd, bitmap, 0, 0⟩ (holdings (cur.next
        (.performed (.openFile (tmpPath config init.name)) (some fd))
        (cur.world.opened fd files))) := ⟨rfl, nothing⟩
    apply (leaves_resumePart isOpen).bind
    intro part later isOpen
    exact isOpen
  · exact leaves_createPart nothing

theorem leaves_startReceiving {part : OpenPart} (isOpen : HoldsOpened part (holdings log)) :
    Leaves (startReceiving config init part) (OwesThen config init)
      log := by
  rcases bitmapMaxContinuous_total part.bitmap init.totalChunks.toInt with ⟨run, comp⟩
  rw [startReceiving, comp, ofExcept_ok, done_bind]
  apply leaves_perform isOpen
  intro cur isOpen resp after ans
  have sought : HoldsOpened part (holdings (cur.next (.performed (.seek part.tmpFile _)
      resp) after)) := by
    cases ans
    rw [World.seek]
    split
    · exact isOpen
    · exact ⟨isOpen.opened, isOpen.thorough⟩
  apply leaves_perform sought
  intro cur isOpen resp after ans
  rw [← holdings_mild rfl ans] at isOpen
  cases resp with
  | some =>
    -- The ACCEPT cannot be sent, and `receiveLoop` is never entered.
    exact leaves_anyway fun _ _ => leaves_anyway fun _ _ => leaves_finish
      (.of_outside (by decide) (by decide))
  | none =>
    apply leaves_perform isOpen
    intro cur isOpen resp after ans
    cases ans
    have holds : Holds config init (newSession config init part) part.tmpFile
        (holdings (cur.next (.performed .storeSession resp) cur.world.stored)) :=
      ⟨⟨rfl, rfl, rfl⟩, rfl, isOpen.opened, isOpen.thorough, .inl rfl⟩
    apply leaves_perform holds
    intro cur holds resp after ans
    rw [← holdings_mild rfl ans] at holds
    exact ⟨part.tmpFile, holds⟩

theorem leaves_reject (err : GoString) :
    Leaves (call (.send (.reject err)) >>= fun _ => finish .rejected) (OwesThen config init) log :=
  leaves_anyway fun _ _ => leaves_finish (.of_outside (by decide) (by decide))

theorem leaves_handleFileStream (nothing : HoldsNothing (holdings log)) :
    Leaves (handleFileStream config init) (OwesThen config init)
      log := by
  rw [handleFileStream]
  apply leaves_perform nothing
  intro cur nothing made after ans
  rw [← holdings_mild rfl ans] at nothing
  cases made with
  | some err => exact leaves_reject err
  | none =>
    cases newBitmap init.totalChunks.toInt with
    | error => trivial
    | ok =>
      rw [ofExcept_ok, done_bind]
      apply (leaves_openPart nothing).bind
      intro opened later holds
      cases opened with
      | error err => exact leaves_reject err
      | ok => exact leaves_startReceiving holds

end Opening

/-- Once `receiveLoop` has returned, nothing is left behind exactly if no call of
`cleanupSession` found the session over already and what was removed is gone. -/
theorem leftNothing_iff {library : Library} {config : Config} {init : InitMessage}
    {files : Files} {callback : Bool} {ending : Ending} {chronicle : ReceiveChronicle}
    (runs : (receiving library config init).Runs (fun _ _ _ => True) ⟨files, .fresh callback⟩
      (.ok (.ended ending)) chronicle)
    (returned : ending = .failed ∨ ending = .delivered) :
    LeftNothing (tmpPath config init.name) chronicle.world ↔
      ∀ moment ∈ chronicle.past, thorough moment = true := by
  have nothing : HoldsNothing (holdings (.start ⟨files, .fresh callback⟩)) := rfl
  have owes := runs.invariant (leaves_handleFileStream nothing)
    fun receiver event chronicle owes _ => leaves_receive event owes
  rw [(owes returned).leaves_nothing_iff, List.all_eq_true]

theorem leftNothing_receiveGreeting :
    (receiveGreeting greetingEvents).1 = .ok (.ended .delivered) ∧
      LeftNothing (tmpPath greetingConfig greetingInit.name)
        (receiveGreeting greetingEvents).2.world := by
  have runs := runs_receiveGreeting greetingEvents
  have played : (receiveGreeting greetingEvents).1 = .ok (.ended .delivered) ∧
      ∀ moment ∈ (receiveGreeting greetingEvents).2.past, thorough moment := by
    decide +kernel
  rw [played.1] at runs
  exact ⟨played.1, (leftNothing_iff runs (.inr rfl)).mpr played.2⟩

def handleNoDone : (op : Op) → World → Response op × World
  | .send .done, world => (some (ascii "stream reset"), world)
  | op, world => handle op world

theorem outcome_handleNoDone (op : Op) (w : World) :
    outcome op w (handleNoDone op w).1 (handleNoDone op w).2 := by
  unfold handleNoDone
  split
  · exact .inl ⟨_, rfl, rfl⟩
  · exact outcome_handle _ _

def unconfirmedGreeting : Except GoPanic Receiver × ReceiveChronicle :=
  (receiving (.ofTransfer greetingInit) greetingConfig greetingInit).play handleNoDone
    ⟨.empty, .fresh true⟩ greetingEvents

theorem session_left_behind :
    ((receiving (.ofTransfer greetingInit) greetingConfig greetingInit).Runs (fun _ _ _ => True)
        ⟨.empty, .fresh true⟩ (.ok (.ended .failed)) (receiveGreeting cancelledGreeting).2 ∧
      (receiveGreeting cancelledGreeting).2.world.self.registered = true ∧
      (receiveGreeting cancelledGreeting).2.world.self.opened = some 0 ∧
      (receiveGreeting cancelledGreeting).2.world.files.descriptor 0 ≠ none ∧
      (receiveGreeting cancelledGreeting).2.world.files.read
        (tmpPath greetingConfig greetingInit.name) = some (ascii "hi")) ∧
    (receiving (.ofTransfer greetingInit) greetingConfig greetingInit).Runs (fun _ _ _ => True)
        ⟨.empty, .fresh true⟩ (.ok (.ended .delivered)) unconfirmedGreeting.2 ∧
      unconfirmedGreeting.2.world.self.registered = true := by
  have failed : (receiveGreeting cancelledGreeting).1 = .ok (.ended .failed) := by
    decide +kernel
  have delivered : unconfirmedGreeting.1 = .ok (.ended .delivered) := by decide +kernel
  rw [← failed, ← delivered]
  refine ⟨⟨runs_receiveGreeting _, by decide +kernel⟩, ?_, by decide +kernel⟩
  exact Reactor.runs_play outcome_handleNoDone
    (Reactor.permits_of_forall (fun _ _ _ => trivial) _ _)

end Peerscale.RelayFile
