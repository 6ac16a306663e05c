import Peerscale.RelayFile.Receiver

/-! # What a receive session may do to files

Every operation of a session is confined to its two paths, and the final path is
written only by renaming verified bytes onto it. This is shown once, against
every failure and every peer, and with or without other sessions around; the
integrity, containment and isolation results are drawn from it.
-/

namespace Peerscale.RelayFile

open Program FileSystem World

def Certifies (checksum : GoString) (bytes : Bytes) : Prop :=
  checksum = ascii "sha256:" ++ hexEncode (sha256 bytes)
  deriving Decidable

theorem tmpPath_ne_finalPath (config : Config) (name : GoString) :
    tmpPath config name ≠ finalPath config name := by
  intro eq
  have lengths := congrArg List.length eq
  simp [tmpPath, partSuffix, ascii] at lengths

/-- Between two operations of a session the application may cancel it. Nobody
else touches the files while the session holds its `.part` file and, in a quiet
environment, not before that either. -/
def rely (quiet : Prop) (before after : World) : Prop :=
  (after.self = before.self ∨ after.self = before.cancelled.self) ∧
    (quiet ∨ before.self.opened ≠ none → after.files = before.files)

def environment (quiet : Prop) : Environment Op Response World where
  rely := rely quiet
  outcome := outcome

/-- Steps that leave the files, the descriptor held and the promise of DONE as
they are. -/
structure Calm (quiet : Prop) (before after : World) : Prop where
  files : quiet ∨ before.self.opened ≠ none → after.files = before.files
  opened : after.self.opened = before.self.opened
  noDone : Reply.done ∉ before.self.sent → Reply.done ∉ after.self.sent

variable {after before : World}

theorem Calm.trans {quiet : Prop} {first second third : World} (left : Calm quiet first second)
    (right : Calm quiet second third) : Calm quiet first third where
  files condition := by rw [right.files (left.opened ▸ condition), left.files condition]
  opened := right.opened.trans left.opened
  noDone absent := right.noDone (left.noDone absent)

theorem cancelled_opened (w : World) : w.cancelled.self.opened = w.self.opened := by
  unfold cancelled
  split <;> rfl

theorem cancelled_sent (w : World) : w.cancelled.self.sent = w.self.sent := by
  unfold cancelled
  split <;> rfl

theorem cancelled_files (w : World) : w.cancelled.files = w.files := by
  unfold cancelled
  split <;> rfl

theorem calm_of_rely (relied : rely quiet before after) : Calm quiet before after where
  files := relied.2
  opened := by
    rcases relied.1 with same | cancelled
    · rw [same]
    · rw [cancelled, cancelled_opened]
  noDone absent := by
    rcases relied.1 with same | cancelled
    · rwa [same]
    · rwa [cancelled, cancelled_sent]

def Op.harmless : Op → Bool
  | .send reply => reply ≠ .done
  | .mkdirAll _ | .stat _ | .sync _ | .readFile _ | .closeStream | .storeSession
  | .deleteSession | .cancelSession | .beginCleanup | .setDone | .getRecvCB | .report _ => true
  | .openFile _ | .create _ | .seek _ _ | .write _ _ | .close _ | .rename _ _
  | .remove _ => false

theorem calm_of_harmless (harmless : op.harmless)
    (ans : outcome op before resp after) : Calm quiet before after := by
  cases op with
  | send reply =>
    rcases ans with ⟨why, -, rfl⟩ | ⟨-, rfl⟩
    · exact ⟨fun _ => rfl, rfl, id⟩
    have notDone : reply ≠ .done := by simpa [Op.harmless] using harmless
    refine ⟨fun _ => rfl, rfl, ?_⟩
    simp [sent, Ne.symm notDone]
  | mkdirAll | sync | getRecvCB | closeStream | storeSession | deleteSession | setDone | report =>
    cases ans
    exact ⟨fun _ => rfl, rfl, id⟩
  | stat =>
    cases ans.2
    exact ⟨fun _ => rfl, rfl, id⟩
  | readFile =>
    cases ans.1
    exact ⟨fun _ => rfl, rfl, id⟩
  | cancelSession =>
    cases ans
    exact ⟨fun _ => cancelled_files before, cancelled_opened before,
      fun absent => by rwa [cancelled_sent]⟩
  | beginCleanup =>
    rcases ans with ⟨-, rfl⟩
    split <;> exact ⟨fun _ => rfl, rfl, id⟩
  | openFile | create | seek | write | close | rename | remove => simp [Op.harmless] at harmless

def allowed (config : Config) (init : InitMessage) : Op → World → Prop
  | .openFile path, w => path = tmpPath config init.name ∧ w.self.opened = none
  | .create path, w => path = tmpPath config init.name ∧ w.self.opened = none
  | .seek fd _, w => w.self.opened = some fd
  | .write fd _, w => w.self.opened = some fd ∧
      ∃ cursor, w.files.descriptor fd = some cursor ∧
        w.files.link (tmpPath config init.name) = some cursor.inode
  | .close fd, w => w.self.opened = some fd
  | .remove path, w => path = tmpPath config init.name ∧ w.self.opened ≠ none
  | .rename source target, w => source = tmpPath config init.name ∧
      target = finalPath config init.name ∧ w.self.opened ≠ none ∧
      ∃ bytes, w.files.read (tmpPath config init.name) = some bytes ∧ Certifies init.checksum bytes
  | .send .done, w => w.self.opened ≠ none ∧
      ∃ bytes, w.files.read (finalPath config init.name) = some bytes ∧
        Certifies init.checksum bytes
  | _, _ => True

theorem allowed_of_harmless {op : Op} (harmless : op.harmless) :
    allowed config init op w := by
  cases op with
  | send reply =>
    cases reply with
    | done => simp [Op.harmless] at harmless
    | accept | reject | ack | error => trivial
  | openFile | create | seek | write | close | rename | remove => simp [Op.harmless] at harmless
  | _ => trivial

/-- What a session is judged by: the files that were there first, and whether nobody else touches
them. -/
structure Scene where
  quiet : Prop
  orig : GoString → Option Bytes
  config : Config
  init : InitMessage

variable {scene : Scene}

structure Gentle (scene : Scene) (before after : World) : Prop where
  reads : scene.quiet ∨ before.self.opened ≠ none →
    ∀ path, path ≠ tmpPath scene.config scene.init.name →
      after.files.read path = before.files.read path
  opened : after.self.opened = before.self.opened
  noDone : Reply.done ∉ before.self.sent → Reply.done ∉ after.self.sent

theorem Calm.gentle (calm : Calm scene.quiet before after) : Gentle scene before after where
  reads condition path _ := by rw [calm.files condition]
  opened := calm.opened
  noDone := calm.noDone

theorem Gentle.trans {first second third : World} (left : Gentle scene first second)
    (right : Gentle scene second third) : Gentle scene first third where
  reads condition path ne := by
    rw [right.reads (left.opened ▸ condition) path ne, left.reads condition path ne]
  opened := right.opened.trans left.opened
  noDone absent := right.noDone (left.noDone absent)

structure Untouched (scene : Scene) (w : World) : Prop where
  reads : scene.quiet → ∀ path, path ≠ tmpPath scene.config scene.init.name →
    w.files.read path = scene.orig path
  noDone : Reply.done ∉ w.self.sent

/-- The final path holds bytes that the announced checksum certifies, and no
third path has changed. -/
structure Delivered (scene : Scene) (w : World) : Prop where
  certified : ∃ bytes, w.files.read (finalPath scene.config scene.init.name) = some bytes ∧
    Certifies scene.init.checksum bytes
  reads : scene.quiet → ∀ path, path ≠ tmpPath scene.config scene.init.name →
    path ≠ finalPath scene.config scene.init.name → w.files.read path = scene.orig path

theorem Untouched.gentle (untouched : Untouched scene before)
    (gentle : Gentle scene before after) : Untouched scene after where
  reads isQuiet path ne := by
    rw [gentle.reads (.inl isQuiet) path ne, untouched.reads isQuiet path ne]
  noDone := gentle.noDone untouched.noDone

theorem Delivered.gentle (delivered : Delivered scene before)
    (holding : before.self.opened ≠ none) (gentle : Gentle scene before after) :
    Delivered scene after where
  certified := by
    rcases delivered.certified with ⟨bytes, found, certified⟩
    refine ⟨bytes, ?_, certified⟩
    rw [gentle.reads (.inr holding) _ (tmpPath_ne_finalPath _ _).symm, found]
  reads isQuiet path notTmp notFinal := by
    rw [gentle.reads (.inl isQuiet) path notTmp, delivered.reads isQuiet path notTmp notFinal]

section Guarded

/-- Whatever fails and whoever interferes, the program stays within what the
session may do, and a panic finds the files untouched. -/
abbrev Guarded (scene : Scene) (program : Prog α) (post : α → World → Prop) (w : World) : Prop :=
  program.Ensures (environment scene.quiet) (allowed scene.config scene.init)
    (fun _ after => Untouched scene after) post w

variable {post : α → World → Prop} {w : World} {fd : Nat}

theorem guarded_harmless (harmless : op.harmless)
    (continues : ∀ cur resp after, Calm scene.quiet w after → outcome op cur resp after →
      Guarded scene (next resp) post after) :
    Guarded scene (.perform op next) post w := by
  intro cur relied
  refine ⟨allowed_of_harmless harmless, ?_⟩
  intro resp after ans
  exact continues cur resp after ((calm_of_rely relied).trans (calm_of_harmless harmless ans)) ans

theorem guarded_calm {next : Response op → Prog α} (harmless : op.harmless)
    (continues : ∀ resp after, Calm scene.quiet w after → Guarded scene (next resp) post after) :
    Guarded scene (.perform op next) post w :=
  guarded_harmless harmless fun _ resp after calm _ => continues resp after calm

theorem guarded_finish {post : Receiver → World → Prop}
    (continues : ∀ after, Calm scene.quiet w after → post (.ended ending) after) :
    Guarded scene (finish ending) post w := by
  apply guarded_calm rfl
  intro _ after calm
  exact continues after calm

theorem guarded_close (opened : w.self.opened = some fd)
    (continues : ∀ after, Gentle scene w after → Guarded scene (next ()) post after) :
    Guarded scene (.perform (.close fd) next) post w := by
  intro cur relied
  have calm := calm_of_rely relied
  refine ⟨calm.opened.trans opened, ?_⟩
  rintro ⟨⟩ after rfl
  apply continues
  refine calm.gentle.trans ⟨?_, rfl, id⟩
  intro _ path _
  exact read_close cur.files fd path

theorem guarded_remove (holding : w.self.opened ≠ none) (continues : ∀ after, Gentle scene w after →
      Guarded scene (next ()) post after) :
    Guarded scene (.perform (.remove (tmpPath scene.config scene.init.name)) next) post w := by
  intro cur relied
  have calm := calm_of_rely relied
  refine ⟨⟨rfl, by rw [calm.opened]; exact holding⟩, ?_⟩
  rintro ⟨⟩ after (rfl | rfl)
  · exact continues _ calm.gentle
  apply continues
  refine calm.gentle.trans ⟨?_, rfl, id⟩
  intro _ path ne
  exact read_remove_of_ne cur.files ne

structure Belongs (config : Config) (init : InitMessage) (ses : Session) : Prop where
  tmpPath : ses.tmpPath = tmpPath config init.name
  savePath : ses.savePath = finalPath config init.name
  checksum : ses.checksum = init.checksum

/-- The session has opened a file, and that is the one that it will close, if any. -/
structure Owns (scene : Scene) (ses : Session) (w : World) : Prop extends
    Belongs scene.config scene.init ses where
  holding : w.self.opened ≠ none
  opened : ∀ fd, ses.tmpFile = some fd → w.self.opened = some fd

structure HoldsPart (scene : Scene) (ses : Session) (w : World) : Prop extends
    Belongs scene.config scene.init ses where
  part : ∃ fd cursor, ses.tmpFile = some fd ∧
    w.self.opened = some fd ∧ w.files.descriptor fd = some cursor ∧
    w.files.link (RelayFile.tmpPath scene.config scene.init.name) = some cursor.inode
  untouched : Untouched scene w

variable {ses : Session}

theorem Owns.same (owns : Owns scene ses before)
    (same : after.self.opened = before.self.opened) : Owns scene ses after :=
  ⟨owns.toBelongs, same ▸ owns.holding, fun fd tmpFile => same.trans (owns.opened fd tmpFile)⟩

theorem HoldsPart.owns (holds : HoldsPart scene ses w) : Owns scene ses w := by
  rcases holds.part with ⟨held, cursor, heldFile, opened, -⟩
  refine ⟨holds.toBelongs, by simp [opened], ?_⟩
  intro fd tmpFile
  rw [opened, ← heldFile, tmpFile]

theorem HoldsPart.calm (holds : HoldsPart scene ses before) (calm : Calm scene.quiet before after) :
    HoldsPart scene ses after := by
  have files := calm.files (.inr holds.owns.holding)
  rcases holds.part with ⟨fd, cursor, tmpFile, opened, cursorAt, linked⟩
  exact ⟨holds.toBelongs, ⟨fd, cursor, tmpFile, calm.opened.trans opened, by rw [files, cursorAt],
    by rw [files, linked]⟩, holds.untouched.gentle calm.gentle⟩

/-- Where a session stands. Once it has delivered, the sender has `confirmed` the
checksum. -/
def Standing (scene : Scene) (confirmed : Prop) : Receiver → World → Prop
  | .waitInit, _ => False
  | .receiving ses _ _ _, w => HoldsPart scene ses w
  | .ended .delivered, w => Delivered scene w ∧
      w.self.opened ≠ none ∧ confirmed
  | .ended _, w => Untouched scene w

variable {err : GoString} {next : Option GoString → Prog α} {library : Library}

theorem Standing.calm (standing : Standing scene confirmed rcv before)
    (calm : Calm scene.quiet before after) : Standing scene confirmed rcv after := by
  have gentle := calm.gentle
  cases rcv with
  | waitInit => exact standing
  | receiving => exact HoldsPart.calm standing calm
  | ended ending =>
    cases ending with
    | delivered =>
      exact ⟨standing.1.gentle standing.2.1 gentle, calm.opened ▸ standing.2.1, standing.2.2⟩
    | noInit | rejected | unanswered | failed => exact Untouched.gentle standing gentle

theorem Standing.mono (standing : Standing scene stronger rcv w)
    (implies : stronger → weaker) : Standing scene weaker rcv w := by
  cases rcv with
  | waitInit | receiving => exact standing
  | ended ending =>
    cases ending with
    | delivered => exact ⟨standing.1, standing.2.1, implies standing.2.2⟩
    | noInit | rejected | unanswered | failed => exact standing

theorem guarded_closeTmpFile {post : Unit → World → Prop} (owns : Owns scene ses w)
    (continues : ∀ after, Gentle scene w after → post () after) :
    Guarded scene (closeTmpFile ses) post w := by
  unfold closeTmpFile
  cases tmpFile : ses.tmpFile with
  | none => exact continues w ⟨fun _ _ _ => rfl, rfl, id⟩
  | some fd => exact guarded_close (owns.opened fd tmpFile) continues

theorem guarded_removeTmpPath {post : Unit → World → Prop} (owns : Owns scene ses w)
    (continues : ∀ after, Gentle scene w after → post () after) :
    Guarded scene (removeTmpPath ses) post w := by
  unfold removeTmpPath
  split
  · rw [owns.tmpPath]
    exact guarded_remove owns.holding continues
  · exact continues w ⟨fun _ _ _ => rfl, rfl, id⟩

theorem guarded_reportError {post : Unit → World → Prop}
    (continues : ∀ after, Calm scene.quiet w after → post () after) :
    Guarded scene (reportError scene.config ses err) post w := by
  rw [reportError, call_bind]
  apply guarded_calm rfl
  intro registered after calm
  split
  · rcases bitmapMaxContinuous_total ses.bitmap ses.totalChunks with ⟨run, computed⟩
    rw [computed]
    apply guarded_calm rfl
    intro _ last lastCalm
    exact continues last (calm.trans lastCalm)
  · exact continues after calm

section

variable (owns : Owns scene ses w)

include owns

theorem guarded_cleanupSession {post : Unit → World → Prop}
    (continues : ∀ after, Gentle scene w after → post () after) :
    Guarded scene (cleanupSession scene.config ses err) post w := by
  rw [cleanupSession, call_bind]
  apply guarded_calm rfl
  intro proceed started startCalm
  split
  · rw [Guarded, ensures_bind]
    apply guarded_closeTmpFile (owns.same startCalm.opened)
    intro closed closeGentle
    have closedGentle := startCalm.gentle.trans closeGentle
    rw [ensures_bind]
    apply guarded_removeTmpPath (owns.same closedGentle.opened)
    intro removed removeGentle
    rw [ensures_bind]
    apply guarded_reportError
    intro reported reportCalm
    apply guarded_calm rfl
    intro _ deleted deleteCalm
    exact continues deleted ((closedGentle.trans removeGentle).trans
      ((reportCalm.trans deleteCalm).gentle))
  · exact continues started startCalm.gentle

theorem guarded_abandon (untouched : Untouched scene w) :
    Guarded scene (abandon scene.config ses err) (Standing scene confirmed) w := by
  unfold abandon
  rw [Guarded, ensures_bind]
  apply guarded_cleanupSession owns
  intro cleaned gentle
  apply guarded_finish
  intro after calm
  exact untouched.gentle (gentle.trans calm.gentle)

theorem guarded_refuse {why : GoString} (untouched : Untouched scene w) :
    Guarded scene (refuse scene.config ses why err) (Standing scene confirmed) w := by
  apply guarded_calm rfl
  intro _ after calm
  exact guarded_abandon (owns.same calm.opened) (untouched.gentle calm.gentle)

end

theorem HoldsPart.congr {updated : Session} (holds : HoldsPart scene ses w)
    (belongs : Belongs scene.config scene.init updated) (same : updated.tmpFile = ses.tmpFile) :
    HoldsPart scene updated w := by
  rcases holds.part with ⟨fd, cursor, tmpFile, rest⟩
  exact ⟨belongs, ⟨fd, cursor, same.trans tmpFile, rest⟩, holds.untouched⟩

theorem HoldsPart.write (holds : HoldsPart scene ses w) (tmpFile : ses.tmpFile = some fd)
    (data : Bytes) : HoldsPart scene ses (w.withFiles (w.files.write fd data)) := by
  rcases holds.part with ⟨held, cursor, heldFile, opened, cursorAt, linked⟩
  rw [heldFile, Option.some.injEq] at tmpFile
  subst held
  refine ⟨holds.toBelongs, ⟨fd, _, heldFile, opened, descriptor_write cursorAt data, ?_⟩,
    holds.untouched.gentle ⟨?_, rfl, id⟩⟩
  · simpa [withFiles] using linked
  · intro _ path ne
    exact read_write_of_ne cursorAt linked ne data

theorem guarded_write (holds : HoldsPart scene ses w) (tmpFile : ses.tmpFile = some fd)
    (continues : ∀ resp after, HoldsPart scene ses after → Guarded scene (next resp) post after) :
    Guarded scene (.perform (.write fd data) next) post w := by
  intro cur relied
  have holds := holds.calm (calm_of_rely relied)
  constructor
  · rcases holds.part with ⟨held, cursor, heldFile, opened, cursorAt, linked⟩
    rw [heldFile, Option.some.injEq] at tmpFile
    subst held
    exact ⟨opened, cursor, cursorAt, linked⟩
  intro resp after ans
  rcases ans with ⟨-, rfl⟩ | ⟨why, written, -, rfl⟩
  · exact continues _ _ (holds.write tmpFile data)
  · exact continues _ _ (holds.write tmpFile (data.take written))

section

variable (holds : HoldsPart scene ses w)

include holds

theorem guarded_storeChunk {post : Except GoString Session → World → Prop}
    (failed : ∀ err after, HoldsPart scene ses after → post (.error err) after)
    (stored : ∀ updated after, HoldsPart scene updated after → post (.ok updated) after) :
    Guarded scene (storeChunk ses dataSeq chunkData) post w := by
  rw [storeChunk, Guarded, ensures_bind]
  unfold writeTmpFile
  cases tmpFile : ses.tmpFile with
  | none => exact failed _ w holds
  | some =>
    apply guarded_write holds tmpFile
    intro resp after holds
    cases resp with
    | some err => exact failed err after holds
    | none =>
      cases bitmapSet ses.bitmap dataSeq with
      | error => exact holds.untouched
      | ok =>
        exact stored _ after
          (holds.congr ⟨holds.tmpPath, holds.savePath, holds.checksum⟩ tmpFile.symm)

theorem guarded_afterChunk :
    Guarded scene (afterChunk scene.config ses cb startSeq lastAck)
      (Standing scene confirmed) w := by
  -- Standing is kept by the progress callback, which is the last thing to happen.
  have reported : ∀ newSeq acked after, Calm scene.quiet w after → Guarded scene
        (reportTransfer scene.config ses cb startSeq newSeq >>= fun _ =>
          return .receiving ses cb startSeq acked)
        (Standing scene confirmed) after := by
    intro newSeq acked after calm
    unfold reportTransfer
    split
    · apply guarded_calm rfl
      intro _ last lastCalm
      exact (holds.calm calm).calm lastCalm
    · exact holds.calm calm
  rcases bitmapMaxContinuous_total ses.bitmap ses.totalChunks with ⟨newSeq, computed⟩
  rw [afterChunk, computed, ofExcept_ok, done_bind, acknowledge]
  split
  · apply guarded_calm rfl
    intro resp after calm
    cases resp with
    | none => exact reported newSeq newSeq after calm
    | some => exact guarded_abandon (holds.calm calm).owns (holds.calm calm).untouched
  · exact reported newSeq lastAck w ⟨fun _ => rfl, rfl, id⟩

theorem guarded_receiveData :
    Guarded scene (receiveData library scene.config ses cb startSeq lastAck pl)
      (Standing scene confirmed) w := by
  unfold receiveData
  cases unpackDataFrame library pl ses.compression with
  | error => exact guarded_refuse holds.owns holds.untouched
  | ok unpacked =>
    cases marked : bitmapHas ses.bitmap unpacked.1 with
    | error =>
      simp only [marked]
      exact holds.untouched
    | ok =>
      simp only [marked, ofExcept_ok, done_bind]
      split
      · exact guarded_afterChunk holds
      rw [Guarded, ensures_bind]
      apply guarded_storeChunk holds
      · intro err after holds
        exact guarded_refuse holds.owns holds.untouched
      · intro updated after holds
        exact guarded_afterChunk holds

end

/-! ## Verifying and renaming -/

theorem guarded_verifyFileHash {post : Option GoString → World → Prop}
    (failed : ∀ err after, Calm scene.quiet w after → post (some err) after)
    (verified : ∀ bytes after, Calm scene.quiet w after → after.files.read path = some bytes →
      Certifies checksum bytes → post none after) :
    Guarded scene (verifyFileHash path checksum) post w := by
  unfold verifyFileHash
  split
  · exact failed _ w ⟨fun _ => rfl, rfl, id⟩
  rename_i wellFormed
  rw [call_bind]
  apply guarded_harmless rfl
  intro cur resp after calm ans
  rcases ans with ⟨rfl, ⟨why, rfl⟩ | ⟨bytes, rfl, found⟩⟩
  · exact failed why after calm
  dsimp only
  split
  · exact failed _ after calm
  rename_i matched
  apply verified bytes after calm found
  rw [not_or, not_not] at wellFormed
  rw [Certifies, ← wellFormed.2, not_not.mp matched, List.take_append_drop]

theorem guarded_closeForFin {post : Session → World → Prop} (holds : HoldsPart scene ses w)
    (continues : ∀ updated after, Owns scene updated after → Untouched scene after →
      post updated after) :
    Guarded scene (closeForFin ses) post w := by
  rcases holds.part with ⟨fd, cursor, tmpFile, opened, -⟩
  unfold closeForFin
  rw [tmpFile]
  apply guarded_calm rfl
  intro _ synced calm
  apply guarded_close (calm.opened.trans opened)
  intro closed gentle
  have gentle := calm.gentle.trans gentle
  exact continues _ closed ⟨⟨holds.tmpPath, holds.savePath, holds.checksum⟩,
    gentle.opened ▸ holds.owns.holding, nofun⟩ (holds.untouched.gentle gentle)

theorem guarded_rename (holding : w.self.opened ≠ none) (untouched : Untouched scene w)
    (found : w.files.read (tmpPath scene.config scene.init.name) = some bytes)
    (certified : Certifies scene.init.checksum bytes)
    (failed : ∀ err after, Calm scene.quiet w after → Guarded scene (next (some err)) post after)
    (renamed : ∀ after, after.self.opened = w.self.opened → Delivered scene after →
      Guarded scene (next none) post after) :
    Guarded scene (.perform (.rename (tmpPath scene.config scene.init.name)
        (finalPath scene.config scene.init.name)) next)
      post w := by
  intro cur relied
  have calm := calm_of_rely relied
  have files := calm.files (.inr holding)
  have stillHolding : cur.self.opened ≠ none := by
    rw [calm.opened]
    exact holding
  refine ⟨⟨rfl, rfl, stillHolding, bytes, by rw [files, found], certified⟩, ?_⟩
  intro resp after ans
  rcases ans with ⟨why, rfl, rfl⟩ | ⟨moved, rfl, success, rfl⟩
  · exact failed why _ calm
  refine renamed (cur.withFiles moved) calm.opened ⟨?_, ?_⟩
  · refine ⟨bytes, ?_, certified⟩
    rw [withFiles, read_rename_target success, files, found]
  intro isQuiet path notTmp notFinal
  rw [withFiles, read_rename_of_ne success notTmp notFinal, files]
  exact untouched.reads isQuiet path notTmp

theorem guarded_sendDone (holding : w.self.opened ≠ none) (delivered : Delivered scene w)
    (continues : ∀ resp after, after.self.opened = w.self.opened → Delivered scene after →
      Guarded scene (next resp) post after) :
    Guarded scene (.perform (.send .done) next) post w := by
  intro cur relied
  have calm := calm_of_rely relied
  have stillHolding : cur.self.opened ≠ none := by
    rw [calm.opened]
    exact holding
  have stillDelivered := delivered.gentle holding calm.gentle
  refine ⟨⟨stillHolding, stillDelivered.certified⟩, ?_⟩
  intro resp after ans
  rcases ans with ⟨why, rfl, rfl⟩ | ⟨rfl, rfl⟩
  · exact continues _ _ calm.opened stillDelivered
  · exact continues _ _ calm.opened ⟨stillDelivered.certified, stillDelivered.reads⟩

theorem guarded_deliver (owns : Owns scene ses w) (delivered : Delivered scene w)
    (isConfirmed : confirmed) :
    Guarded scene (deliver scene.config ses cb) (Standing scene confirmed) w := by
  have finished : ∀ before after, before.self.opened ≠ none →
      Delivered scene before → Gentle scene before after →
      Guarded scene (finish .delivered) (Standing scene confirmed) after := by
    intro before after beforeHolding beforeDelivered gentle
    have afterHolding : after.self.opened ≠ none := gentle.opened ▸ beforeHolding
    apply guarded_finish
    intro last calm
    exact ⟨(beforeDelivered.gentle beforeHolding gentle).gentle afterHolding
      calm.gentle, calm.opened ▸ afterHolding, isConfirmed⟩
  rw [deliver]
  apply guarded_calm rfl
  intro _ marked markCalm
  rw [call_bind]
  have owns := owns.same markCalm.opened
  have delivered := delivered.gentle (markCalm.opened ▸ owns.holding) markCalm.gentle
  apply guarded_sendDone owns.holding delivered
  intro resp sent same sentDelivered
  have owns := owns.same same
  cases resp with
  | some =>
    rw [Guarded, ensures_bind]
    apply guarded_cleanupSession owns
    intro cleaned gentle
    exact finished sent cleaned owns.holding sentDelivered gentle
  | none =>
    have deleting : ∀ after, Calm scene.quiet sent after →
        Guarded scene (call .deleteSession >>= fun _ => finish .delivered)
          (Standing scene confirmed) after := by
      intro after calm
      apply guarded_calm rfl
      intro _ last lastCalm
      exact finished sent last owns.holding sentDelivered ((calm.trans lastCalm).gentle)
    dsimp only
    unfold reportDone
    split
    · apply guarded_calm rfl
      intro _ after calm
      exact deleting after calm
    · exact deleting sent ⟨fun _ => rfl, rfl, id⟩

theorem guarded_receiveFin (holds : HoldsPart scene ses w)
    (confirms : (library.unmarshalFin pl).checksum = scene.init.checksum → confirmed) :
    Guarded scene (receiveFin library scene.config ses cb pl) (Standing scene confirmed) w := by
  unfold receiveFin
  split
  · exact guarded_refuse holds.owns holds.untouched
  rename_i repeated
  have isConfirmed := confirms ((not_not.mp repeated).trans holds.checksum)
  rw [Guarded, ensures_bind]
  apply guarded_closeForFin holds
  intro closed after owns untouched
  -- Whatever stops the session from here on finds the files untouched.
  have refused : ∀ why err last, Calm scene.quiet after last →
      Guarded scene (refuse scene.config closed why err) (Standing scene confirmed) last := by
    intro why err last calm
    exact guarded_refuse (owns.same calm.opened) (untouched.gentle calm.gentle)
  rw [ensures_bind, owns.tmpPath, owns.checksum]
  apply guarded_verifyFileHash
  · intro err last calm
    exact refused err err last calm
  intro bytes last calm found certified
  have owns := owns.same calm.opened
  rw [call_bind, owns.savePath]
  apply guarded_rename owns.holding (untouched.gentle calm.gentle) found certified
  · intro err final finalCalm
    exact refused err _ final (calm.trans finalCalm)
  · intro final same delivered
    have owns := owns.same same
    exact guarded_deliver ⟨⟨rfl, rfl, rfl⟩, owns.holding, owns.opened⟩ delivered isConfirmed

def Confirmed (library : Library) (init : InitMessage) (events : List Event) : Prop :=
  ∃ payload, Event.frame ⟨frameTypeFin, payload⟩ ∈ events ∧
    (library.unmarshalFin payload).checksum = init.checksum

theorem guarded_receiveFrame (holds : HoldsPart scene ses w) :
    Guarded scene (receiveFrame library scene.config ses cb startSeq lastAck fr)
      (Standing scene (Confirmed library scene.init [.frame fr])) w := by
  unfold receiveFrame
  split
  · exact guarded_abandon holds.owns holds.untouched
  split
  · exact guarded_abandon holds.owns holds.untouched
  split
  · exact guarded_receiveData holds
  split
  · rename_i isFin
    apply guarded_receiveFin holds
    intro repeated
    refine ⟨fr.payload, ?_, repeated⟩
    rw [← isFin]
    exact List.mem_singleton.mpr rfl
  · exact holds

theorem guarded_receive {ev : Event} (standing : Standing scene confirmed rcv w) :
    Guarded scene (rcv.receive library scene.config ev) (Standing scene
        (confirmed ∨ Confirmed library scene.init [ev])) w := by
  cases ev with
  | cancel =>
    rw [Receiver.receive]
    apply guarded_calm rfl
    intro _ after calm
    exact (standing.calm calm).mono .inl
  | readError =>
    cases rcv with
    | waitInit => exact standing.elim
    | receiving => exact guarded_abandon (HoldsPart.owns standing) (HoldsPart.untouched standing)
    | ended => exact standing.mono .inl
  | frame =>
    cases rcv with
    | waitInit => exact standing.elim
    | receiving =>
      apply (guarded_receiveFrame standing).mono
      intro received after received_standing
      exact received_standing.mono .inr
    | ended => exact standing.mono .inl

theorem guarded_receiveAll (standing : Standing scene confirmed rcv w) :
    Guarded scene (rcv.receiveAll library scene.config events) (Standing scene
        (confirmed ∨ Confirmed library scene.init events)) w := by
  induction events generalizing rcv confirmed w with
  | nil => exact standing.mono .inl
  | cons ev events ih =>
    rw [Receiver.receiveAll, List.foldlM_cons, Guarded, ensures_bind]
    apply (guarded_receive standing).mono
    intro received after received_standing
    apply (ih received_standing).mono
    intro last final last_standing
    apply last_standing.mono
    rintro ((before | ⟨pl, mem, repeated⟩) | ⟨pl, mem, repeated⟩)
    · exact .inl before
    · rw [List.mem_singleton] at mem
      exact .inr ⟨pl, by rw [mem]; exact List.mem_cons_self, repeated⟩
    · exact .inr ⟨pl, List.mem_cons_of_mem _ mem, repeated⟩

/-! ## Opening a session -/

abbrev Opened (scene : Scene) (part : OpenPart) (w : World) : Prop :=
  HoldsPart scene (newSession scene.config scene.init part) w

variable {part : OpenPart}

section

variable (opened : Opened scene part w)

include opened

theorem Opened.congr {updated : OpenPart} (same : updated.tmpFile = part.tmpFile) :
    Opened scene updated w :=
  HoldsPart.congr opened ⟨rfl, rfl, rfl⟩ (congrArg some same)

theorem Opened.seek (off : Int) : Opened scene part (w.seek part.tmpFile off) := by
  unfold World.seek
  split
  · exact opened
  rcases opened.part with ⟨fd, cursor, tmpFile, held, cursorAt, linked⟩
  cases tmpFile
  refine ⟨opened.toBelongs, ⟨part.tmpFile, _, rfl, held, descriptor_seek cursorAt _, ?_⟩, ?_,
    opened.untouched.noDone⟩
  · simpa [World.withFiles] using linked
  · intro isQuiet path ne
    rw [World.withFiles, read_seek]
    exact opened.untouched.reads isQuiet path ne

theorem guarded_startReceiving :
    Guarded scene (startReceiving scene.config scene.init part) (Standing scene False) w := by
  rcases bitmapMaxContinuous_total part.bitmap scene.init.totalChunks.toInt with ⟨run, computed⟩
  rw [startReceiving, computed, ofExcept_ok, done_bind]
  intro cur relied
  have calm := calm_of_rely relied
  refine ⟨calm.opened.trans (opened.owns.opened _ rfl), ?_⟩
  rintro ⟨⟩ sought rfl
  have soughtOpened := Opened.seek (opened.calm calm)
    (wrap64 (max part.startSeq run * scene.init.chunkSize.toInt))
  apply guarded_calm rfl
  intro resp after accepted
  have afterOpened := soughtOpened.calm accepted
  cases resp with
  | some =>
    apply guarded_close (afterOpened.owns.opened _ rfl)
    intro closed closeGentle
    apply guarded_remove (closeGentle.opened ▸ afterOpened.owns.holding)
    intro removed removeGentle
    apply guarded_finish
    intro last lastCalm
    exact afterOpened.untouched.gentle ((closeGentle.trans removeGentle).trans lastCalm.gentle)
  | none =>
    apply guarded_calm rfl
    intro _ stored storeCalm
    apply guarded_calm rfl
    intro cb last lastCalm
    exact (afterOpened.calm storeCalm).calm lastCalm

end

theorem guarded_openFile {next : Option Nat → Prog α} (unopened : w.self.opened = none)
    (untouched : Untouched scene w)
    (missing : ∀ after, after.self.opened = none → Untouched scene after →
      Guarded scene (next none) post after)
    (found : ∀ part after, Opened scene part after →
      Guarded scene (next (some part.tmpFile)) post after) :
    Guarded scene (.perform (.openFile (tmpPath scene.config scene.init.name)) next) post w := by
  intro cur relied
  have calm := calm_of_rely relied
  have stillUnopened := calm.opened.trans unopened
  have stillUntouched := untouched.gentle calm.gentle
  refine ⟨⟨rfl, stillUnopened⟩, ?_⟩
  intro resp after ans
  rcases ans with ⟨rfl, rfl⟩ | ⟨fd, files, rfl, success, rfl⟩
  · exact missing _ stillUnopened stillUntouched
  rcases openExisting_eq_some success with ⟨inode, linked, rfl, rfl⟩
  exact found ⟨cur.files.nextDescriptor, [], 0, 0⟩ _ ⟨⟨rfl, rfl, rfl⟩,
    ⟨_, _, rfl, rfl, descriptor_attach cur.files inode, linked⟩, stillUntouched.reads,
    stillUntouched.noDone⟩

theorem guarded_create {next : Except GoString Nat → Prog α} (unopened : w.self.opened = none)
    (untouched : Untouched scene w)
    (failed : ∀ err after, Untouched scene after → Guarded scene (next (.error err)) post after)
    (created : ∀ part after, Opened scene part after →
      Guarded scene (next (.ok part.tmpFile)) post after) :
    Guarded scene (.perform (.create (tmpPath scene.config scene.init.name)) next) post w := by
  intro cur relied
  have calm := calm_of_rely relied
  have stillUntouched := untouched.gentle calm.gentle
  refine ⟨⟨rfl, calm.opened.trans unopened⟩, ?_⟩
  intro resp after ans
  rcases ans with ⟨why, rfl, rfl⟩ | ⟨rfl, rfl⟩
  · exact failed why _ stillUntouched
  rcases create_spec cur.files (tmpPath scene.config scene.init.name) with
    ⟨inode, linked, -, cursorAt⟩
  refine created ⟨(cur.files.create (tmpPath scene.config scene.init.name)).1, [], 0, 0⟩ _
    ⟨⟨rfl, rfl, rfl⟩, ⟨_, _, rfl, rfl, cursorAt, linked⟩, ?_, stillUntouched.noDone⟩
  intro isQuiet path ne
  rw [opened, read_create_of_ne cur.files ne]
  exact stillUntouched.reads isQuiet path ne

theorem guarded_resumePart (opened : Opened scene part w) :
    Guarded scene (resumePart scene.init bm part.tmpFile) (Opened scene) w := by
  rw [resumePart, call_bind]
  apply guarded_calm rfl
  intro doneBytes after calm
  have afterOpened := opened.calm calm
  split
  · exact afterOpened.untouched
  rcases bitmapSetBelow_spec bm (min (writtenChunks (doneBytes : Nat)
    scene.init.chunkSize.toInt) scene.init.totalChunks.toInt).toNat with ⟨marked, computed, -⟩
  rw [markedPart, computed]
  exact Opened.congr afterOpened rfl

def OpenAnswer (scene : Scene) : Except GoString OpenPart → World → Prop
  | .error _, w => Untouched scene w
  | .ok part, w => Opened scene part w

section

variable (unopened : w.self.opened = none) (untouched : Untouched scene w)

include unopened untouched

theorem guarded_createPart :
    Guarded scene (createPart scene.config scene.init bm) (OpenAnswer scene) w := by
  rw [createPart]
  apply guarded_create unopened untouched
  · intro err after afterUntouched
    exact afterUntouched
  · intro part after opened
    exact Opened.congr opened rfl

theorem guarded_openPart :
    Guarded scene (openPart scene.config scene.init bm) (OpenAnswer scene) w := by
  unfold openPart openExisting
  split
  · rw [call_bind]
    apply guarded_openFile unopened untouched
    · intro after stillUnopened stillUntouched
      exact guarded_createPart stillUnopened stillUntouched
    intro part after opened
    rw [Guarded, ensures_bind]
    exact (guarded_resumePart opened).mono fun resumed final finalOpened => finalOpened
  · exact guarded_createPart unopened untouched

theorem guarded_handleFileStream :
    Guarded scene (handleFileStream scene.config scene.init) (Standing scene False) w := by
  have rejected : ∀ err before, Untouched scene before → Guarded scene
        (call (.send (.reject err)) >>= fun _ => finish .rejected)
        (Standing scene False) before := by
    intro err before beforeUntouched
    apply guarded_calm rfl
    intro _ sent sentCalm
    apply guarded_finish
    intro after calm
    exact beforeUntouched.gentle ((sentCalm.trans calm).gentle)
  rw [handleFileStream, call_bind]
  apply guarded_calm rfl
  intro resp after calm
  have afterUntouched := untouched.gentle calm.gentle
  cases resp with
  | some err => exact rejected err after afterUntouched
  | none =>
    cases newBitmap scene.init.totalChunks.toInt with
    | error => exact afterUntouched
    | ok =>
      rw [ofExcept_ok, done_bind, Guarded, ensures_bind]
      apply (guarded_openPart (calm.opened.trans unopened) afterUntouched).mono
      intro answer opened ans
      cases answer with
      | error err => exact rejected err opened ans
      | ok => exact guarded_startReceiving ans

theorem guarded_session :
    Guarded scene (session library scene.config scene.init events)
      (Standing scene (Confirmed library scene.init events)) w := by
  rw [session, Guarded, ensures_bind]
  apply (guarded_handleFileStream unopened untouched).mono
  intro rcv after standing
  apply (guarded_receiveAll standing).mono
  intro received final final_standing
  exact final_standing.mono fun confirmed => confirmed.resolve_left id

end

end Guarded

end Peerscale.RelayFile
