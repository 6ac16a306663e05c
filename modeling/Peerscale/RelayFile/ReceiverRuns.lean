import Peerscale.Foundation.History
import Peerscale.RelayFile.Panics

/-! # Runs of a receive session

A session from its INIT message on, with everything that may happen around it: frames and
failures to read arrive in any order, operations fail, the application calls
`CancelFileSession` at any time, and the goroutine of `HandleFileStream` that waits for the
context to be cancelled wakes up at any time after that.
-/

namespace Peerscale.RelayFile

open Program

/-- `cancel` is a call of `CancelFileSession` and `wake` the goroutine that has waited for
`ctx.Done()`. -/
inductive ReceiveAct
  | arrived (event : Event)
  | cancel
  | wake

abbrev ReceiveMoment := Moment Op Response ReceiveAct World

abbrev ReceiveChronicle := Chronicle Op Response ReceiveAct World

/-- A call of `CancelFileSession` that finds the session, and so cancels its context. -/
def cancels (moment : ReceiveMoment) : Bool :=
  match moment.deed with
  | .act .cancel => moment.before.self.registered
  | .performed .cancelSession _ => moment.before.self.registered
  | _ => false

def arrival (moment : ReceiveMoment) : Option Event :=
  match moment.deed with
  | .act (.arrived event) => some event
  | _ => none

def handled (past : List ReceiveMoment) : Option Event := past.findSome? arrival

def World.woken (world : World) : World :=
  if world.self.state = .done ∨ world.self.state = .error then world
  else { world with self := { world.self with state := .cancelled } }

def meddles (chronicle : ReceiveChronicle) : ReceiveAct → World → Prop
  | .arrived _, _ => False
  | .cancel, after => after = chronicle.world.cancelled
  | .wake, after => chronicle.past.any cancels ∧ after = chronicle.world.woken

def aroundSession : Surroundings Op Response ReceiveAct World where
  outcome := outcome
  acts := meddles

def receiving (library : Library) (config : Config) (init : InitMessage) :
    Reactor Op Response GoPanic ReceiveAct World Receiver Event where
  toSurroundings := aroundSession
  heard := .arrived
  begin := handleFileStream config init
  react receiver event := receiver.receive library config event

theorem receive_cancel (library : Library) (config : Config) (rcv : Receiver) :
    rcv.receive library config .cancel = (do
        call .cancelSession
        return rcv) := by
  cases rcv with
  | waitInit | receiving | ended => rfl

def Op.isMild : Op → Bool
  | .mkdirAll _ | .stat _ | .sync _ | .readFile _ | .send _ | .closeStream | .getRecvCB
  | .report _ => true
  | _ => false

structure SameSession (before after : World) : Prop where
  files : after.files = before.files
  state : after.self.state = before.self.state
  registered : after.self.registered = before.self.registered
  opened : after.self.opened = before.self.opened

theorem sameSession_of_outcome (mild : op.isMild)
    (ans : outcome op w resp post) : SameSession w post := by
  cases op with
  | mkdirAll | sync | getRecvCB | closeStream | report =>
    cases ans
    exact ⟨rfl, rfl, rfl, rfl⟩
  | stat =>
    cases ans.2
    exact ⟨rfl, rfl, rfl, rfl⟩
  | readFile =>
    cases ans.1
    exact ⟨rfl, rfl, rfl, rfl⟩
  | send => rcases ans with ⟨why, -, rfl⟩ | ⟨-, rfl⟩ <;> exact ⟨rfl, rfl, rfl, rfl⟩
  | _ => cases mild

section Mild

theorem mild_finish (ending : Ending) : (finish ending).Only (·.isMild) :=
  ⟨rfl, fun _ => trivial⟩

theorem mild_reportError (err : GoString) : (reportError config ses err).Only (·.isMild) := by
  rcases bitmapMaxContinuous_total ses.bitmap ses.totalChunks with ⟨run, comp⟩
  rw [reportError, call_bind, comp]
  refine only_perform rfl ?_
  intro registered
  split
  · exact ⟨rfl, fun _ => trivial⟩
  · trivial

theorem only_acknowledge (lastAck newSeq : Int) :
    (acknowledge ses lastAck newSeq).Only fun op => ∃ reply, op = .send reply := by
  unfold acknowledge
  split
  · refine ⟨⟨_, rfl⟩, ?_⟩
    intro resp
    cases resp with
    | none | some => trivial
  · trivial

theorem mild_acknowledge (lastAck newSeq : Int) :
    (acknowledge ses lastAck newSeq).Only (·.isMild) := by
  apply (only_acknowledge lastAck newSeq).mono
  rintro op ⟨reply, rfl⟩
  rfl

theorem mild_reportTransfer (cb : Bool) (startSeq newSeq : Int) :
    (reportTransfer config ses cb startSeq newSeq).Only (·.isMild) := by
  unfold reportTransfer
  split
  · exact ⟨rfl, fun _ => trivial⟩
  · trivial

theorem mild_reportDone (cb : Bool) : (reportDone config ses cb).Only (·.isMild) := by
  unfold reportDone
  split
  · exact ⟨rfl, fun _ => trivial⟩
  · trivial

theorem only_verifyFileHash (path checksum : GoString) :
    (verifyFileHash path checksum).Only fun op => op = .readFile path := by
  unfold verifyFileHash
  split
  · trivial
  rw [call_bind]
  refine only_perform rfl ?_
  intro resp
  cases resp with
  | error => trivial
  | ok =>
    dsimp only
    split <;> trivial

theorem mild_verifyFileHash (path checksum : GoString) :
    (verifyFileHash path checksum).Only (·.isMild) := by
  apply (only_verifyFileHash path checksum).mono
  rintro op rfl
  rfl

end Mild

def Op.endsSession (ses : Session) : Op → Prop
  | .send _ | .closeStream | .beginCleanup | .close _ | .remove _ | .getRecvCB
  | .deleteSession => True
  | .report progress => progress.doneBytes = ses.doneBytes ∧ progress.totalBytes = ses.size
  | _ => False

section Ends

theorem ends_closeTmpFile : (closeTmpFile ses).Only (Op.endsSession ses) := by
  unfold closeTmpFile
  split
  · exact ⟨trivial, fun _ => trivial⟩
  · trivial

theorem ends_removeTmpPath : (removeTmpPath ses).Only (Op.endsSession ses) := by
  unfold removeTmpPath
  split
  · exact ⟨trivial, fun _ => trivial⟩
  · trivial

theorem ends_reportError (err : GoString) :
    (reportError config ses err).Only (Op.endsSession ses) := by
  rcases bitmapMaxContinuous_total ses.bitmap ses.totalChunks with ⟨run, comp⟩
  rw [reportError, call_bind, comp]
  refine only_perform trivial ?_
  intro registered
  split
  · exact ⟨⟨rfl, rfl⟩, fun _ => trivial⟩
  · trivial

theorem ends_cleanupSession (err : GoString) :
    (cleanupSession config ses err).Only (Op.endsSession ses) := by
  rw [cleanupSession, call_bind]
  refine only_perform trivial ?_
  intro proceed
  split
  · apply ends_closeTmpFile.bind
    intro _
    apply ends_removeTmpPath.bind
    intro _
    apply (ends_reportError err).bind
    intro _
    exact ⟨trivial, fun _ => trivial⟩
  · trivial

theorem ends_abandon (err : GoString) : (abandon config ses err).Only (Op.endsSession ses) :=
  (ends_cleanupSession err).bind fun _ => ⟨trivial, fun _ => trivial⟩

theorem ends_refuse (why err : GoString) : (refuse config ses why err).Only (Op.endsSession ses) :=
  ⟨trivial, fun _ => ends_abandon err⟩

end Ends

theorem handled_cons (past : List ReceiveMoment) (none : arrival mo = none) :
    handled (mo :: past) = handled past := by
  rw [handled, handled, List.findSome?_cons, none]

theorem handled_act (meddled : meddles log act post) :
    handled (log.next (.act act) post).past = handled log.past := by
  cases act with
  | arrived => exact meddled.elim
  | cancel | wake => exact handled_cons _ rfl

/-- The greeting, received with these events and nothing else, and without failures. -/
def receiveGreeting (events : List Event) : Except GoPanic Receiver × ReceiveChronicle :=
  (receiving (.ofTransfer greetingInit) greetingConfig greetingInit).play handle
    ⟨.empty, .fresh true⟩ events

theorem runs_receiveGreeting (events : List Event) :
    (receiving (.ofTransfer greetingInit) greetingConfig greetingInit).Runs (fun _ _ _ => True)
      ⟨.empty, .fresh true⟩ (receiveGreeting events).1 (receiveGreeting events).2 :=
  Reactor.runs_play outcome_handle (Reactor.permits_of_forall (fun _ _ _ => trivial) _ _)

def cancelledGreeting : List Event :=
  greetingEvents.take 1 ++ [.cancel, .readError (ascii "EOF")]

end Peerscale.RelayFile
