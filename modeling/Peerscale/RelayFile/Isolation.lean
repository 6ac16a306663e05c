import Peerscale.Foundation.Interleaving
import Peerscale.RelayFile.Integrity

/-! # Several sessions for one name

Sessions whose INIT names have the same base name share a `.part` path and a final
path, but each holds a descriptor of its own. As long as none of them opens the
`.part` file while another is at work on it, each delivers what it confirms and
leaves the others alone.
-/

namespace Peerscale.RelayFile

open Program Filepath FileSystem

structure Rivals (Index : Type) where
  config : Index → Config
  init : Index → InitMessage
  recvDir : GoString
  name : GoString
  sameDir : ∀ index, (config index).recvDir = recvDir
  sameName : ∀ index, base (init index).name = name

abbrev Receivers (Index : Type) := Crowd Index Files Local Op Response GoPanic Receiver

namespace Rivals

variable {Index : Type} (rivals : Rivals Index)

def savePath : GoString :=
  join (if rivals.recvDir = [] then ascii "." else rivals.recvDir) rivals.name

def partPath : GoString := rivals.savePath ++ partSuffix

theorem finalPath_eq (index : Index) :
    finalPath (rivals.config index) (rivals.init index).name = rivals.savePath := by
  rw [finalPath, saveDir, rivals.sameDir, rivals.sameName, savePath]

/-- A session reads its stream while it is in its loop; the application may cancel
it at any time. -/
def setting (library : Library) : Setting Index Files Local World Op Response GoPanic Receiver where
  join := World.mk
  outcome := outcome
  resumes index receiver program := ∃ ses cb startSeq lastAck event,
    receiver = .receiving ses cb startSeq lastAck ∧
      program = receiver.receive library (rivals.config index) event
  disturbs before after := ∃ files, after = (World.mk files before).cancelled.self

def start (files : Files) (callback : Index → Bool) : Receivers Index where
  shared := files
  self index := Local.fresh (callback index)
  program index := handleFileStream (rivals.config index) (rivals.init index)

end Rivals

/-! ## The contract of a session -/

theorem cancelled_self {left right : World} (same : left.self = right.self) :
    left.cancelled.self = right.cancelled.self := by
  unfold World.cancelled
  rw [same]
  split
  · rfl
  · exact same

theorem cancelled_cancelled (w : World) : w.cancelled.cancelled.self = w.cancelled.self := by
  unfold World.cancelled
  split
  · rename_i registered
    simp [registered]
  · simp

theorem rely_refl (quiet : Prop) (w : World) : rely quiet w w :=
  ⟨.inl rfl, fun _ => rfl⟩

theorem rely_trans {quiet : Prop} {x y third : World}
    (left : rely quiet x y) (right : rely quiet y third) : rely quiet x third := by
  refine ⟨?_, fun condition => ?_⟩
  · rcases left.1 with same | cancelled
    · rcases right.1 with still | now
      · exact .inl (still.trans same)
      · exact .inr (now.trans (cancelled_self same))
    rcases right.1 with still | again
    · exact .inr (still.trans cancelled)
    · exact .inr (again.trans ((cancelled_self cancelled).trans (cancelled_cancelled x)))
  · rw [right.2 ((calm_of_rely left).opened ▸ condition), left.2 condition]

namespace Rivals

variable {Index : Type} (rivals : Rivals Index)

def scene (index : Index) : Scene :=
  ⟨False, fun _ => none, rivals.config index, rivals.init index⟩

def post (index : Index) : Receiver → World → Prop
  | .ended _, _ => True
  | receiver, world => Standing (rivals.scene index) True receiver world

theorem standing_of_post (kept : rivals.post index (.receiving ses cb startSeq lastAck) w) :
    Standing (rivals.scene index) True (.receiving ses cb startSeq lastAck) w := kept

theorem post_of_standing (standing : Standing (rivals.scene index) confirmed rcv w) :
    rivals.post index rcv w := by
  cases rcv with
  | waitInit | receiving => exact standing
  | ended => trivial

/-- A session relies on nobody else touching the files while it has the `.part`
file open. -/
def contract (library : Library) : (rivals.setting library).Contract where
  rely := rely False
  allowed index := allowed (rivals.config index) (rivals.init index)
  faulted index _ world := Untouched (rivals.scene index) world
  post := rivals.post
  refl := rely_refl False
  trans := rely_trans
  stable_post := by
    intro index receiver before after relied kept
    cases receiver with
    | waitInit => exact kept
    | receiving => exact (rivals.standing_of_post kept).calm (calm_of_rely relied)
    | ended => trivial
  stable_faulted relied untouched := untouched.gentle (calm_of_rely relied).gentle
  resumed := by
    rintro index receiver program world ⟨ses, cb, startSeq, lastAck, event, rfl, rfl⟩ kept
    exact (guarded_receive (rivals.standing_of_post kept)).mono fun _ _ => rivals.post_of_standing
  disturbed := by
    rintro files before after ⟨others, rfl⟩
    exact ⟨.inr (cancelled_self rfl), fun _ => rfl⟩

end Rivals

def Op.opens : Op → Bool
  | .openFile _ | .create _ => true
  | _ => false

def Op.needsPart : Op → Bool
  | .seek _ _ | .write _ _ | .close _ | .rename _ _ | .remove _ => true
  | _ => false

def renamed : (op : Op) → Response op → Prop
  | .rename _ _, answer => answer = none
  | _, _ => False

variable {after : World} {op : Op} {config : Config} {init : InitMessage}

theorem files_of_outcome (ans : outcome op pre resp after)
    (opensNothing : op.opens = false) (needsNothing : op.needsPart = false) :
    after.files = pre.files := by
  cases op with
  | openFile | create => simp [Op.opens] at opensNothing
  | seek | write | close | rename | remove => simp [Op.needsPart] at needsNothing
  | send => rcases ans with ⟨why, -, rfl⟩ | ⟨-, rfl⟩ <;> rfl
  | _ =>
    have calm : Calm True pre after := calm_of_harmless rfl ans
    exact calm.files (.inl trivial)

theorem opened_of_outcome (ans : outcome op pre resp after)
    (opensNothing : op.opens = false) : after.self.opened = pre.self.opened := by
  cases op with
  | openFile | create => simp [Op.opens] at opensNothing
  | seek =>
    cases ans
    unfold World.seek
    split <;> rfl
  | write => rcases ans with ⟨-, rfl⟩ | ⟨why, written, -, rfl⟩ <;> rfl
  | close =>
    cases ans
    rfl
  | rename => rcases ans with ⟨why, -, rfl⟩ | ⟨files, -, -, rfl⟩ <;> rfl
  | remove => rcases ans with rfl | rfl <;> rfl
  | send => rcases ans with ⟨why, -, rfl⟩ | ⟨-, rfl⟩ <;> rfl
  | _ =>
    have calm : Calm True pre after := calm_of_harmless rfl ans
    exact calm.opened

theorem opened_of_allowed (may : allowed config init op w)
    (needsPart : op.needsPart) : w.self.opened ≠ none := by
  cases op with
  | seek fd | close fd =>
    rw [show w.self.opened = some fd from may]
    simp
  | write =>
    rw [may.1]
    simp
  | rename => exact may.2.2.1
  | remove => exact may.2
  | _ => simp [Op.needsPart] at needsPart

theorem read_finalPath_of_outcome (may : allowed config init op pre)
    (ans : outcome op pre resp after) (notRenamed : ¬renamed op resp) :
    after.files.read (finalPath config init.name) =
      pre.files.read (finalPath config init.name) := by
  have ne := (tmpPath_ne_finalPath config init.name).symm
  cases op with
  | openFile =>
    rcases ans with ⟨-, rfl⟩ | ⟨fd, files, -, opened, rfl⟩
    · rfl
    · rcases openExisting_eq_some opened with ⟨inode, -, -, rfl⟩
      rfl
  | create =>
    rcases ans with ⟨why, -, rfl⟩ | ⟨-, rfl⟩
    · rfl
    · exact read_create_of_ne pre.files (may.1 ▸ ne)
  | seek =>
    cases ans
    unfold World.seek
    split
    · rfl
    · exact read_seek _ _ _ _
  | write =>
    rcases may with ⟨-, cursor, cursorAt, linked⟩
    rcases ans with ⟨-, rfl⟩ | ⟨why, written, -, rfl⟩
    · exact read_write_of_ne cursorAt linked ne _
    · exact read_write_of_ne cursorAt linked ne _
  | close =>
    cases ans
    rfl
  | rename =>
    rcases ans with ⟨why, -, rfl⟩ | ⟨files, done, -, rfl⟩
    · rfl
    · exact absurd done notRenamed
  | remove =>
    rcases ans with rfl | rfl
    · rfl
    · exact read_remove_of_ne pre.files (may.1 ▸ ne)
  | _ => rw [files_of_outcome ans rfl rfl]

theorem certified_of_renamed (may : allowed config init op pre)
    (ans : outcome op pre resp after) (replaced : renamed op resp) :
    ∃ bytes, after.files.read (finalPath config init.name) = some bytes ∧
      Certifies init.checksum bytes := by
  cases op with
  | rename =>
    rcases may with ⟨rfl, rfl, -, bytes, found, certified⟩
    rcases ans with ⟨why, refused, -⟩ | ⟨files, -, moved, rfl⟩
    · rw [refused] at replaced
      cases replaced
    · exact ⟨bytes, (read_rename_target moved).trans found, certified⟩
  | _ => exact replaced.elim

section Runs

variable {Index : Type}

def Engaged (cr : Receivers Index) (index : Index) : Prop :=
  (cr.self index).opened ≠ none ∧ ∀ ending, cr.program index ≠ .done (.ended ending)

/-- The `.part` file is opened only while no other session is engaged. -/
def Exclusive (cr : Receivers Index) (label : Option (Act Index Op Response)) : Prop :=
  ∀ act, label = some act → act.op.opens → ∀ index, index ≠ act.who → ¬Engaged cr index

def OtherRenames (index : Index) (label : Option (Act Index Op Response)) : Prop :=
  ∃ act, label = some act ∧ act.who ≠ index ∧ renamed act.op act.answer

def StillWriting (cr : Receivers Index) (index : Index) (path : GoString) : Prop :=
  (∀ ending, cr.program index ≠ .done (.ended ending)) ∧
    ∃ descriptor cursor, (cr.self index).opened = some descriptor ∧
      cr.shared.descriptor descriptor = some cursor ∧
      cr.shared.link path = some cursor.inode

def Apart (cr : Receivers Index) : Prop :=
  ∀ left right, left ≠ right → Engaged cr left → ¬Engaged cr right

variable {rivals : Rivals Index} {library : Library}

theorem apart_start (files : Files) (callback : Index → Bool) :
    Apart (rivals.start files callback) :=
  fun _ _ _ engaged => absurd rfl engaged.1

theorem allKeep_start (files : Files) (callback : Index → Bool) :
    (rivals.contract library).AllKeep (rivals.start files callback) := by
  intro index
  have guarded := @guarded_handleFileStream (rivals.scene index)
    ⟨files, Local.fresh (callback index)⟩ rfl ⟨False.elim, by simp [Local.fresh]⟩
  exact guarded.mono fun _ _ => rivals.post_of_standing

variable [DecidableEq Index] {cr next : Receivers Index} {index : Index}
  {label : Option (Act Index Op Response)}

theorem engaged_before (stepped : (rivals.setting library).Step cr label next)
    (engaged : Engaged next index) :
    Engaged cr index ∨ ∃ act, label = some act ∧ act.who = index ∧ act.op.opens := by
  cases stepped with
  | @perform who op cont answer files self ready ans =>
    by_cases isActor : index = who
    · subst index
      cases opens : op.opens with
      | true => exact .inr ⟨_, rfl, rfl, opens⟩
      | false =>
        refine .inl ⟨?_, fun ending => by rw [ready]; simp⟩
        have held : self.opened ≠ none := by simpa [Engaged] using engaged.1
        have same : self.opened = (cr.self who).opened := opened_of_outcome ans opens
        exact same ▸ held
    · left
      simpa [Engaged, isActor] using engaged
  | @resume who val prog ret resumed =>
    left
    by_cases isActor : index = who
    · subst index
      rcases resumed with ⟨ses, cb, startSeq, lastAck, ev, rfl, -⟩
      exact ⟨engaged.1, fun ending => by rw [ret]; simp⟩
    · simpa [Engaged, isActor] using engaged
  | @disturb who self disturbed =>
    left
    by_cases isActor : index = who
    · subst index
      rcases disturbed with ⟨files, rfl⟩
      have held := engaged.1
      dsimp only at held
      rw [Function.update_self, cancelled_opened] at held
      exact ⟨held, engaged.2⟩
    · simpa [Engaged, isActor] using engaged

theorem Apart.step (apart : Apart cr) (exclusive : Exclusive cr label)
    (stepped : (rivals.setting library).Step cr label next) : Apart next := by
  intro left right ne leftEngaged rightEngaged
  rcases engaged_before stepped leftEngaged with leftBefore | ⟨act, isAct, byLeft, opens⟩
  · rcases engaged_before stepped rightEngaged with rightBefore | ⟨act, isAct, byRight, opens⟩
    · exact apart left right ne leftBefore rightBefore
    · exact exclusive act isAct opens left (byRight ▸ ne) leftBefore
  rcases engaged_before stepped rightEngaged with rightBefore | ⟨other, isOther, byRight, -⟩
  · exact exclusive act isAct opens right (byLeft ▸ ne.symm) rightBefore
  · rw [isAct, Option.some.injEq] at isOther
    exact ne (byLeft.symm.trans (isOther ▸ byRight))

theorem engaged_of_step (stepped : (rivals.setting library).Step cr (some act) next)
    (opened : (cr.self act.who).opened ≠ none) : Engaged cr act.who := by
  cases stepped with
  | perform ready => exact ⟨opened, fun ending => by rw [ready]; simp⟩

theorem undisturbed (keep : (rivals.contract library).AllKeep cr) (apart : Apart cr)
    (exclusive : Exclusive cr (some act))
    (stepped : (rivals.setting library).Step cr (some act) next) (ne : index ≠ act.who) :
    (rivals.contract library).Retired cr index ∨
      rely False ((rivals.setting library).world cr index)
        ((rivals.setting library).world next index) := by
  have may := keep.allowed stepped
  have actor := engaged_of_step stepped
  cases stepped with
  | @perform who op cont answer files self ready ans =>
    have sameSelf : ((rivals.setting library).world ⟨files, Function.update cr.self who self,
        Function.update cr.program who (cont answer)⟩ index).self =
          cr.self index := Function.update_of_ne ne _ _
    by_cases engaged : Engaged cr index
    · right
      have opensNothing : op.opens = false := by
        rw [Bool.eq_false_iff]
        intro opens
        exact exclusive _ rfl opens index ne engaged
      have needsNothing : op.needsPart = false := by
        rw [Bool.eq_false_iff]
        intro needsPart
        exact apart index who ne engaged (actor (opened_of_allowed may needsPart))
      have sameFiles : files = cr.shared := files_of_outcome ans opensNothing needsNothing
      exact ⟨.inl sameSelf, fun _ => sameFiles⟩
    by_cases unopened : (cr.self index).opened = none
    · exact .inr ⟨.inl sameSelf, fun held => absurd unopened (held.resolve_left id)⟩
    left
    have ended : ∃ ending, cr.program index = .done (.ended ending) := by
      by_contra running
      exact engaged ⟨unopened, fun ending done => running ⟨ending, done⟩⟩
    rcases ended with ⟨ending, done⟩
    exact ⟨.ended ending, done, fun _ => trivial⟩

theorem kept_of_run (exclusive : ∀ cr label, may cr label → Exclusive cr label)
    (keep : (rivals.contract library).AllKeep start) (apart : Apart start)
    (run : Relation.ReflTransGen ((rivals.setting library).Stepping may) start reached) :
    (rivals.contract library).AllKeep reached ∧ Apart reached := by
  induction run with
  | refl => exact ⟨keep, apart⟩
  | tail _ stepped ih =>
    rcases stepped with ⟨label, allowed, stepped⟩
    have alone := exclusive _ _ allowed
    refine ⟨ih.1.step stepped ?_, ih.2.step alone stepped⟩
    rintro act rfl index ne
    exact undisturbed ih.1 ih.2 alone stepped ne

/-! ## What a session may rely on -/

def Rivals.Certified (rivals : Rivals Index) (cr : Receivers Index) (index : Index) : Prop :=
  ∃ bytes, cr.shared.read rivals.savePath = some bytes ∧
    Certifies (rivals.init index).checksum bytes

theorem certified_step (keep : (rivals.contract library).AllKeep cr)
    (stepped : (rivals.setting library).Step cr label next)
    (notOther : ¬OtherRenames index label) (certified : rivals.Certified cr index) :
    rivals.Certified next index := by
  cases label with
  | none =>
    cases stepped with
    | resume | disturb => exact certified
  | some =>
    have may := keep.allowed stepped
    cases stepped with
    | @perform who op cont answer files self ready ans =>
      by_cases replaced : renamed op answer
      · have own : who = index := by
          by_contra other
          exact notOther ⟨_, rfl, other, replaced⟩
        subst index
        have inPlace := certified_of_renamed may ans replaced
        rw [rivals.finalPath_eq] at inPlace
        exact inPlace
      have same := read_finalPath_of_outcome may ans replaced
      rw [rivals.finalPath_eq] at same
      rcases certified with ⟨bytes, found, certifies⟩
      exact ⟨bytes, same.trans found, certifies⟩

/-- In every run in which the `.part` file is opened only while no other session is
engaged, what a session has confirmed by DONE stays in place until another session's
rename, and no session removes a `.part` file that another one is writing. -/
theorem isolation_of_exclusive {files : Files} {callback : Index → Bool} {reached : Receivers Index}
    (run : Relation.ReflTransGen ((rivals.setting library).Stepping Exclusive)
      (rivals.start files callback) reached) :
    (∀ index after later,
      (rivals.setting library).Step reached (some ⟨index, .send .done, none⟩) after →
      Relation.ReflTransGen ((rivals.setting library).Stepping fun crowd label =>
        Exclusive crowd label ∧ ¬OtherRenames index label) after later →
      rivals.Certified later index) ∧
    ∀ index path after,
      (rivals.setting library).Step reached (some ⟨index, .remove path, ()⟩) after →
      ∀ other, other ≠ index → ¬StillWriting reached other path := by
  have kept := kept_of_run (fun _ _ exclusive => exclusive)
    (allKeep_start files callback) (apart_start files callback) run
  constructor
  · intro index after later stepped onwards
    have alone : Exclusive reached (some ⟨index, .send .done, none⟩) := by
      rintro act ⟨⟩ opens
      cases opens
    have keptAfter := kept_of_run (fun _ _ exclusive => exclusive) (allKeep_start files callback)
      (apart_start files callback) (run.tail ⟨_, alone, stepped⟩)
    have atDone : rivals.Certified reached index := by
      rcases kept.1.allowed stepped with ⟨-, inPlace⟩
      rw [rivals.finalPath_eq] at inPlace
      exact inPlace
    have quiet : ¬OtherRenames index (some ⟨index, .send .done, none⟩) := by
      rintro ⟨act, ⟨⟩, other, -⟩
      exact other rfl
    induction onwards with
    | refl => exact certified_step kept.1 stepped quiet atDone
    | tail earlier last induction =>
      rcases last with ⟨label, ⟨-, notOther⟩, moved⟩
      have keptEarlier := kept_of_run (fun _ _ both => both.1) keptAfter.1 keptAfter.2 earlier
      exact certified_step keptEarlier.1 moved notOther induction
  intro index path after stepped other different writing
  have actor := engaged_of_step stepped (opened_of_allowed (kept.1.allowed stepped) rfl)
  rcases writing with ⟨running, descriptor, cursor, opened, -⟩
  have engaged : Engaged reached other := ⟨by rw [opened]; simp, running⟩
  exact kept.2 other index different engaged actor

def upcoming : Prog Receiver → Option Op
  | .perform op _ => some op
  | _ => none

def hasEnded : Prog Receiver → Bool
  | .done (.ended _) => true
  | _ => false

theorem perform_of_upcoming (next : upcoming prog = some op) : ∃ cont, prog = .perform op cont := by
  cases prog with
  | done | halt => cases next
  | perform performed cont =>
    cases next
    exact ⟨cont, rfl⟩

theorem running_of_hasEnded (running : hasEnded prog = false) (ending : Ending) :
    prog ≠ .done (.ended ending) := by
  rintro rfl
  cases running

omit [DecidableEq Index] in
theorem not_engaged_of_hasEnded (ended : hasEnded (cr.program index)) : ¬Engaged cr index := by
  rintro ⟨-, running⟩
  rw [hasEnded.eq_def] at ended
  split at ended
  · exact running _ ‹_›
  · cases ended

/-- One turn of a session without faults: its next operation, or what it does with
an event that reaches it. -/
def Rivals.turn (rivals : Rivals Index) (library : Library) (cr : Receivers Index) :
    Index × Option Event → Receivers Index
  | (who, none) =>
    match cr.program who with
    | .perform op next =>
      let answered := handle op ⟨cr.shared, cr.self who⟩
      ⟨answered.2.files, Function.update cr.self who answered.2.self,
        Function.update cr.program who (next answered.1)⟩
    | _ => cr
  | (who, some event) =>
    match cr.program who with
    | .done (.receiving ses cb startSeq lastAck) =>
      let receiver := Receiver.receiving ses cb startSeq lastAck
      let program := receiver.receive library (rivals.config who) event
      { cr with program := Function.update cr.program who program }
    | _ => cr

def Rivals.turns (rivals : Rivals Index) (library : Library) (cr : Receivers Index)
    (schedule : List (Index × Option Event)) : Receivers Index :=
  schedule.foldl (rivals.turn library) cr

theorem step_turn (ready : cr.program who = .perform op cont) :
    (rivals.setting library).Step cr (some ⟨who, op, (handle op ⟨cr.shared, cr.self who⟩).1⟩)
      (rivals.turn library cr (who, none)) := by
  have stepped := @Setting.Step.perform Index Files Local World Op Response GoPanic Receiver
    (rivals.setting library) _ cr who op cont _ _ _ ready
    (outcome_handle op ⟨cr.shared, cr.self who⟩)
  simpa [Rivals.turn, ready] using stepped

theorem reaches_turn (ev : Option Event) (silent : may cr none)
    (acts : ∀ op answer, upcoming (cr.program who) = some op → may cr (some ⟨who, op, answer⟩)) :
    Relation.ReflTransGen ((rivals.setting library).Stepping may) cr
      (rivals.turn library cr (who, ev)) := by
  cases ev with
  | none =>
    cases ready : cr.program who with
    | done | halt => rw [Rivals.turn, ready]
    | perform op =>
      have named : upcoming (cr.program who) = some op := by rw [ready]; rfl
      exact .single ⟨_, acts op _ named, step_turn ready⟩
  | some ev =>
    rw [Rivals.turn]
    split
    · rename_i ses cb startSeq lastAck ret
      exact .single ⟨none, silent, .resume ret ⟨ses, cb, startSeq, lastAck, ev, rfl, rfl⟩⟩
    · exact .refl

theorem reaches_turns (schedule : List (Index × Option Event)) :
    Relation.ReflTransGen ((rivals.setting library).Stepping fun _ _ => True) cr
      (rivals.turns library cr schedule) := by
  induction schedule generalizing cr with
  | nil => exact .refl
  | cons turn schedule ih => exact (reaches_turn turn.2 trivial fun _ _ _ => trivial).trans ih

theorem engaged_of_turn (ne : other ≠ who) {ev : Option Event}
    (engaged : Engaged (rivals.turn library cr (who, ev)) other) : Engaged cr other := by
  cases ev with
  | none =>
    rw [Rivals.turn] at engaged
    split at engaged
    · simpa only [Engaged, Function.update_of_ne ne] using engaged
    · exact engaged
  | some =>
    rw [Rivals.turn] at engaged
    split at engaged
    · simpa only [Engaged, Function.update_of_ne ne] using engaged
    · exact engaged

theorem reaches_alone (events : List (Option Event))
    (idle : ∀ other, other ≠ who → ¬Engaged cr other) :
    Relation.ReflTransGen ((rivals.setting library).Stepping Exclusive) cr
      (rivals.turns library cr (events.map fun ev => (who, ev))) := by
  induction events generalizing cr with
  | nil => exact .refl
  | cons ev events ih =>
    have silent : Exclusive cr none := by
      rintro act ⟨⟩
    have acts : ∀ op answer, upcoming (cr.program who) = some op →
        Exclusive cr (some ⟨who, op, answer⟩) := by
      rintro op answer - act ⟨⟩ -
      exact idle
    refine (reaches_turn ev silent acts).trans (ih ?_)
    intro other ne engaged
    exact idle other ne (engaged_of_turn ne engaged)

end Runs

def twoPeers : Rivals Bool where
  config who := { greetingConfig with peer := if who then ascii "second" else ascii "first" }
  init who := if who then
      { greetingInit with checksum := ascii "sha256:" ++ hexEncode (sha256 (ascii "no")) }
    else greetingInit
  recvDir := greetingConfig.recvDir
  name := greetingInit.name
  sameDir _ := rfl
  sameName who := by cases who <;> decide

def twoPeersLibrary : Library := .ofTransfer greetingInit

def twoPeersStart : Receivers Bool := twoPeers.start .empty fun _ => false

def dataEvent (text : String) : Event :=
  .frame ⟨frameTypeData, packDataFrame twoPeersLibrary 0 (ascii text) .none⟩

def deliverHi : List (Option Event) :=
  some (dataEvent "hi") :: List.replicate 2 none ++
    some (.frame ⟨frameTypeFin, twoPeersLibrary.marshalFin ⟨1, greetingInit.checksum⟩⟩) ::
      List.replicate 5 none

def doneAlone : Receivers Bool :=
  twoPeers.turns twoPeersLibrary twoPeersStart
    ((List.replicate 6 none ++ deliverHi).map fun event => (false, event))

def endedAlone : Receivers Bool :=
  twoPeers.turns twoPeersLibrary twoPeersStart
    ((List.replicate 6 none ++ deliverHi ++ List.replicate 3 none).map fun event => (false, event))

def cleanupAfterwards : Receivers Bool :=
  twoPeers.turns twoPeersLibrary endedAlone
    ((List.replicate 6 none ++ some (Event.readError (ascii "stream reset")) ::
      List.replicate 2 none).map fun event => (true, event))

/-- The second session begins when the first one has ended, and fails. -/
theorem isolation_of_exclusive_hi :
    (∃ after, (twoPeers.setting twoPeersLibrary).Step doneAlone
        (some ⟨false, .send .done, none⟩) after ∧ twoPeers.Certified after false) ∧
      ∃ after, (twoPeers.setting twoPeersLibrary).Step cleanupAfterwards
        (some ⟨true, .remove twoPeers.partPath, ()⟩) after ∧
          ¬StillWriting cleanupAfterwards false twoPeers.partPath := by
  constructor
  · have first : Relation.ReflTransGen ((twoPeers.setting twoPeersLibrary).Stepping Exclusive)
        twoPeersStart doneAlone := reaches_alone _ fun _ _ engaged => engaged.1 rfl
    have ready : upcoming (doneAlone.program false) = some (.send .done) := by decide +kernel
    rcases perform_of_upcoming ready with ⟨continuation, program⟩
    have stepped : (twoPeers.setting twoPeersLibrary).Step doneAlone
        (some ⟨false, .send .done, none⟩) _ := step_turn program
    exact ⟨_, stepped, (isolation_of_exclusive first).1 false _ _ stepped .refl⟩
  have first : Relation.ReflTransGen ((twoPeers.setting twoPeersLibrary).Stepping Exclusive)
      twoPeersStart endedAlone := reaches_alone _ fun _ _ engaged => engaged.1 rfl
  have ended : hasEnded (endedAlone.program false) := by decide +kernel
  have second : Relation.ReflTransGen ((twoPeers.setting twoPeersLibrary).Stepping Exclusive)
      endedAlone cleanupAfterwards := by
    apply reaches_alone
    intro other ne
    rw [Bool.eq_false_iff.mpr ne]
    exact not_engaged_of_hasEnded ended
  have ready : upcoming (cleanupAfterwards.program true) = some (.remove twoPeers.partPath) := by
    decide +kernel
  rcases perform_of_upcoming ready with ⟨continuation, program⟩
  have stepped : (twoPeers.setting twoPeersLibrary).Step cleanupAfterwards
      (some ⟨true, .remove twoPeers.partPath, ()⟩) _ := step_turn program
  exact ⟨_, stepped, (isolation_of_exclusive (first.trans second)).2 true _ _ stepped false nofun⟩

def bothOpen : List (Bool × Option Event) :=
  List.replicate 6 (false, none) ++ List.replicate 6 (true, none)

def doneWhileOpen : Receivers Bool :=
  twoPeers.turns twoPeersLibrary twoPeersStart
    (bothOpen ++ deliverHi.map fun event => (false, event))

def cleanupWhileOpen : Receivers Bool :=
  twoPeers.turns twoPeersLibrary twoPeersStart
    (bothOpen ++ (true, some (.readError (ascii "stream reset"))) :: List.replicate 2 (true, none))

def doneSent : Receivers Bool := twoPeers.turn twoPeersLibrary doneWhileOpen (false, none)

def chunkArrived : Receivers Bool :=
  twoPeers.turn twoPeersLibrary doneSent (true, some (dataEvent "no"))

def overwritten : Receivers Bool := twoPeers.turn twoPeersLibrary chunkArrived (true, none)

theorem not_otherRenames_of_upcoming (next : upcoming prog = some op)
    (harmless : ∀ src target, op ≠ .rename src target)
    (named : upcoming prog = some other) : ¬OtherRenames index (some ⟨who, other, answer⟩) := by
  rw [next, Option.some.injEq] at named
  subst other
  rintro ⟨act, ⟨⟩, -, replaced⟩
  cases op with
  | rename src target => exact harmless src target rfl
  | _ => exact replaced

theorem overwritten_run :
    upcoming (doneWhileOpen.program false) = some (.send .done) ∧
      upcoming (doneSent.program true) = none ∧
      upcoming (chunkArrived.program true) = some (.write 1 (ascii "no")) ∧
      overwritten.shared.read twoPeers.savePath = some (ascii "no") ∧
      ¬Certifies (twoPeers.init false).checksum (ascii "no") := by
  decide +kernel

/-- With both sessions open, the file that DONE confirmed is overwritten without a
rename, and a cleanup takes away the file the other session is writing. -/
theorem sessions_collide :
    (∃ reached after later,
      Relation.ReflTransGen ((twoPeers.setting twoPeersLibrary).Stepping fun _ _ => True)
        twoPeersStart reached ∧
      (twoPeers.setting twoPeersLibrary).Step reached (some ⟨false, .send .done, none⟩) after ∧
      Relation.ReflTransGen ((twoPeers.setting twoPeersLibrary).Stepping fun _ label =>
        ¬OtherRenames false label) after later ∧
      ¬twoPeers.Certified later false) ∧
    ∃ reached after,
      Relation.ReflTransGen ((twoPeers.setting twoPeersLibrary).Stepping fun _ _ => True)
        twoPeersStart reached ∧
      (twoPeers.setting twoPeersLibrary).Step reached
        (some ⟨true, .remove twoPeers.partPath, ()⟩) after ∧
      StillWriting reached false twoPeers.partPath := by
  constructor
  · rcases overwritten_run with ⟨ready, waiting, writing, content, uncertified⟩
    rcases perform_of_upcoming ready with ⟨continuation, program⟩
    refine ⟨doneWhileOpen, doneSent, overwritten, reaches_turns _, step_turn program, ?_, ?_⟩
    · have silent : ¬OtherRenames false (none : Option (Act Bool Op Response)) := by
        rintro ⟨act, ⟨⟩, -⟩
      have arrival : Relation.ReflTransGen ((twoPeers.setting twoPeersLibrary).Stepping
          fun _ label => ¬OtherRenames false label) doneSent chunkArrived :=
        reaches_turn _ silent fun op answer named => by
          rw [waiting] at named
          cases named
      have write : Relation.ReflTransGen ((twoPeers.setting twoPeersLibrary).Stepping
          fun _ label => ¬OtherRenames false label) chunkArrived overwritten :=
        reaches_turn none silent fun op answer named =>
          not_otherRenames_of_upcoming writing (by simp) named
      exact arrival.trans write
    rintro ⟨bytes, found, certifies⟩
    rw [content, Option.some.injEq] at found
    subst bytes
    exact uncertified certifies
  have ready : upcoming (cleanupWhileOpen.program true) =
      some (.remove twoPeers.partPath) := by decide +kernel
  rcases perform_of_upcoming ready with ⟨continuation, program⟩
  refine ⟨cleanupWhileOpen, _, reaches_turns _, step_turn program, ?_⟩
  have running : hasEnded (cleanupWhileOpen.program false) = false := by decide +kernel
  refine ⟨running_of_hasEnded running, 0, ⟨0, 0⟩, ?_, ?_, ?_⟩ <;> decide +kernel

end Peerscale.RelayFile
