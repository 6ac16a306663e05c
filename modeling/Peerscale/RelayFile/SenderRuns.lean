import Peerscale.Foundation.History
import Peerscale.RelayFile.Conversation
import Peerscale.RelayFile.Resume

/-! # Runs of SendFile

`SendFile` against any receiver: frames may say anything, streams and reads of the file may
fail, and the context may be cancelled. A stream that fails, and a receiver that gives up, are
the same to it: it opens another stream, and forgets to close that one.
-/

namespace Peerscale.RelayFile

inductive SendAct
  | heard (read : Option Frame)

abbrev SendMoment := Moment SendOp SendResponse SendAct SendWorld

abbrev SendChronicle := Chronicle SendOp SendResponse SendAct SendWorld

def aroundSender : Surroundings SendOp SendResponse SendAct SendWorld where
  outcome := sendOutcome
  acts _ _ _ := False

def sending (library : Library) (config : SendConfig) (file : Outgoing) :
    Reactor SendOp SendResponse Empty SendAct SendWorld Sender (Option Frame) where
  toSurroundings := aroundSender
  heard := .heard
  begin := sendFile library file
  react sender read := sender.receive library config file read

def emitted (moment : SendMoment) : Option Frame :=
  match moment.deed with
  | .performed (.write _ frame) _ => some frame
  | _ => none

def dialFailed (moment : SendMoment) : Bool :=
  match moment.deed with
  | .performed .openStream (.error _) => true
  | _ => false

section Leading

variable {library : Library} {config : SendConfig} {file : Outgoing} {α : Type}
  {post : α → SendChronicle → Prop} {log : SendChronicle}

theorem sender_undisturbed : aroundSender.Undisturbed := by
  intro log act after acts
  exact acts

abbrev Sends (program : SendProg α) (post : α → SendChronicle → Prop)
    (log : SendChronicle) : Prop :=
  aroundSender.Leads (fun _ _ => False) program post log

theorem sends_perform (leads : ∀ resp after, sendOutcome op log.world resp after →
      Sends (next resp) post (log.next (.performed op resp) after)) :
    Sends (.perform op next) post log :=
  sender_undisturbed.leads_perform leads

def SendOp.isApart : SendOp → Bool
  | .openStream | .closeStream _ => false
  | _ => true

structure SameStreams (before after : SendChronicle) : Prop where
  opened : after.world.opened = before.world.opened
  closed : after.world.closed = before.world.closed
  dialled : after.past.any dialFailed = before.past.any dialFailed

theorem SameStreams.trans {first second third : SendChronicle} (before : SameStreams first second)
    (after : SameStreams second third) : SameStreams first third :=
  ⟨after.opened.trans before.opened, after.closed.trans before.closed,
    after.dialled.trans before.dialled⟩

theorem sameStreams_of_outcome (apart : op.isApart) (ans : sendOutcome op log.world resp after) :
    SameStreams log (log.next (.performed op resp) after) := by
  cases op with
  | openStream | closeStream => cases apart
  | readFile => rcases ans with ⟨err, -, rfl⟩ | ⟨-, rfl⟩ <;> exact ⟨rfl, rfl, rfl⟩
  | seekFile =>
    cases ans
    rw [handleSend]
    split <;> exact ⟨rfl, rfl, rfl⟩
  | _ =>
    cases ans
    exact ⟨rfl, rfl, rfl⟩

theorem sends_apart {next : SendResponse op → SendProg α} (apart : op.isApart)
    (leads : ∀ resp later, SameStreams log later → Sends (next resp) post later) :
    Sends (.perform op next) post log := by
  apply sends_perform
  intro resp after ans
  exact leads resp _ (sameStreams_of_outcome apart ans)

theorem sends_of_only {prog : SendProg α} (only : prog.Only (·.isApart)) :
    Sends prog (fun _ later => SameStreams log later) log := by
  apply (sender_undisturbed.stable _).leads_of_only only
  · intro later op resp after apart pre ans
    exact pre.trans (sameStreams_of_outcome apart ans)
  · intro fault
    exact fault.elim
  · exact ⟨rfl, rfl, rfl⟩

theorem only_reportSending (state : TransferState) (doneBytes doneChunks : Int) :
    (reportSending config file state doneBytes doneChunks).Only (·.isApart) := by
  rw [reportSending]
  split
  · exact ⟨rfl, fun _ => trivial⟩
  · trivial

theorem only_sendChunks (streams : Streams) (seq : Int) (n : Nat) :
    (sendChunks library file streams seq n).Only (·.isApart) := by
  induction n generalizing seq with
  | zero => trivial
  | succ n ih =>
    refine ⟨rfl, ?_⟩
    intro resp
    rcases resp with err | data
    · exact ⟨rfl, fun _ => trivial⟩
    cases data with
    | nil => trivial
    | cons =>
      refine ⟨rfl, ?_⟩
      intro failure
      cases failure with
      | some => trivial
      | none => exact ih (seq + 1)

structure Uses (streams : Streams) (log : SendChronicle) : Prop where
  first : streams.first = 0
  current : log.world.opened = streams.current + 1
  closed : ∀ stream, stream ∈ log.world.closed ↔ stream < streams.current
  dialled : log.past.any dialFailed = false

theorem Uses.same {streams : Streams} (uses : Uses streams log) (same : SameStreams log later) :
    Uses streams later where
  first := uses.first
  current := same.opened.trans uses.current
  closed stream := by
    rw [same.closed]
    exact uses.closed stream
  dialled := same.dialled.trans uses.dialled

def AllClosed (world : SendWorld) : Prop := ∀ stream < world.opened, stream ∈ world.closed

def Accounted : Sender → SendChronicle → Prop
  | .waitAccept streams, log => Uses streams log
  | .waitAck streams _, log => Uses streams log
  | .waitDone streams, log => Uses streams log
  | .returned _, log =>
    AllClosed log.world ↔ log.world.opened ≤ 1 ∨ log.past.any dialFailed

section Accounting

theorem sends_returnFile (res : Option SendError) :
    Sends (returnFile res) (fun val later => val = .returned res ∧ SameStreams log later) log := by
  apply sends_apart rfl
  intro _ deleted sameDeleted
  apply sends_apart rfl
  intro _ closed sameClosed
  exact ⟨rfl, sameDeleted.trans sameClosed⟩

theorem sends_leave (res : Option SendError) :
    Sends (leave streams res) (fun val later => val = .returned res ∧
        later.world.opened = log.world.opened ∧
        later.world.closed = log.world.closed ++ [streams.first] ∧
        later.past.any dialFailed = log.past.any dialFailed)
      log := by
  apply sends_perform
  rintro - after rfl
  apply (sends_returnFile res).mono
  rintro val later ⟨isReturned, same⟩
  exact ⟨isReturned, same.opened, same.closed, same.dialled⟩

/-- Everything but a failure to open another stream leaves the current stream open, unless it
is the first one. -/
theorem sends_leave_using (uses : Uses streams log) (res : Option SendError) :
    Sends (leave streams res) Accounted log := by
  apply (sends_leave res).mono
  rintro val later ⟨rfl, opened, closed, dialled⟩
  have isClosed : ∀ stream, stream ∈ later.world.closed ↔
      stream < streams.current ∨ stream = 0 := by
    intro stream
    rw [closed, List.mem_append, List.mem_singleton, uses.closed, uses.first]
  change AllClosed later.world ↔ later.world.opened ≤ 1 ∨ later.past.any dialFailed
  rw [dialled, uses.dialled, or_iff_left nofun, AllClosed, opened, uses.current]
  constructor
  · intro all
    have last := (isClosed streams.current).mp (all streams.current (Nat.lt_succ_self _))
    omega
  · intro few stream below
    exact (isClosed stream).mpr (by omega)

theorem sends_writeInit (uses : Uses streams log) (off : Int) :
    Sends (writeInit library file streams off) Accounted
      log := by
  apply sends_apart rfl
  intro resp after same
  cases resp with
  | some => exact sends_leave_using (uses.same same) _
  | none => exact uses.same same

theorem sends_reconnect (uses : Uses streams log) (seq : Int) :
    Sends (reconnect library file streams seq) Accounted
      log := by
  apply sends_perform
  rintro - after rfl
  have closed : ∀ stream, stream ∈ (handleSend (.closeStream streams.current) log.world).2.closed ↔
        stream < streams.current + 1 := by
    intro stream
    rw [handleSend, List.mem_append, List.mem_singleton, uses.closed]
    omega
  have opened : (handleSend (.closeStream streams.current) log.world).2.opened =
      streams.current + 1 := uses.current
  generalize (handleSend (.closeStream streams.current) log.world).2 = hungUp at closed opened
  apply sends_perform
  intro resp dialled ans
  rcases ans with ⟨err, rfl, rfl⟩ | ⟨rfl, rfl⟩
  · apply (sends_leave _).mono
    rintro val later ⟨rfl, same, more, failed⟩
    refine iff_of_true ?_ (.inr failed)
    intro stream below
    rw [more]
    exact List.mem_append_left _ ((closed stream).mpr ((below.trans_eq same).trans_eq opened))
  · apply sends_writeInit
    exact ⟨uses.first, rfl, fun stream => (closed stream).trans (by rw [← opened]; rfl),
      uses.dialled⟩

theorem sends_sendBatch (uses : Uses streams log) (seq : Int) :
    Sends (sendBatch library file streams seq) Accounted
      log := by
  rw [sendBatch]
  apply sends_apart rfl
  intro cancelled asked sameAsked
  have usesAsked := uses.same sameAsked
  cases cancelled with
  | true =>
    apply sends_apart rfl
    intro _ told sameTold
    exact sends_leave_using (usesAsked.same sameTold) _
  | false =>
    apply (sends_of_only (only_sendChunks streams seq (batchLength file seq))).bind
    intro res sent sameSent
    have usesSent := usesAsked.same sameSent
    cases res with
    | error => exact sends_leave_using usesSent _
    | ok =>
      apply sends_apart rfl
      intro _ waiting sameWaiting
      exact usesSent.same sameWaiting

theorem sends_sendFin (uses : Uses streams log) :
    Sends (sendFin library file streams) Accounted log := by
  apply sends_apart rfl
  intro resp after same
  have usesAfter := uses.same same
  cases resp with
  | some => exact sends_leave_using usesAfter _
  | none =>
    apply sends_apart rfl
    intro _ waiting sameWaiting
    exact usesAfter.same sameWaiting

theorem sends_transferFrom (uses : Uses streams log) (seq : Int) :
    Sends (transferFrom library config file streams seq) Accounted
      log := by
  apply (sends_of_only (only_reportSending _ _ _)).bind
  intro _ told same
  split
  · exact sends_sendBatch (uses.same same) seq
  · exact sends_sendFin (uses.same same)

theorem sends_receive {sender : Sender} (read : Option Frame) (accounted : Accounted sender log) :
    Sends (sender.receive library config file read) Accounted (log.note (.heard read)) := by
  have heard : SameStreams log (log.note (.heard read)) := ⟨rfl, rfl, rfl⟩
  cases sender with
  | waitAccept streams =>
    have uses := Uses.same accounted heard
    rw [Sender.receive]
    split
    · exact sends_leave_using uses _
    apply sends_apart rfl
    intro _ sought sameSought
    have usesSought := uses.same sameSought
    apply sends_apart rfl
    intro _ marked sameMarked
    exact sends_transferFrom (usesSought.same sameMarked) _
  | waitAck streams seq =>
    have uses := Uses.same accounted heard
    rw [Sender.receive]
    split
    · exact sends_reconnect uses seq
    apply sends_apart rfl
    intro _ sought sameSought
    exact sends_transferFrom (uses.same sameSought) _
  | waitDone streams =>
    have uses := Uses.same accounted heard
    rw [Sender.receive]
    split
    · exact sends_leave_using uses _
    rw [afterDone]
    apply sends_apart rfl
    intro _ marked sameMarked
    have usesMarked := uses.same sameMarked
    apply (sends_of_only (only_reportSending _ _ _)).bind
    intro _ told sameTold
    exact sends_leave_using (usesMarked.same sameTold) _
  | returned => exact accounted

theorem sends_sendFile : Sends (sendFile library file) Accounted (.start (.start file)) := by
  apply sends_apart rfl
  intro _ stored same
  apply sends_perform
  intro resp dialled ans
  have opened : stored.world.opened = 0 := same.opened
  have closed : stored.world.closed = [] := same.closed
  rcases ans with ⟨err, rfl, rfl⟩ | ⟨rfl, rfl⟩
  · apply sends_apart rfl
    intro _ cancelled sameCancelled
    apply (sends_returnFile _).mono
    rintro val later ⟨rfl, sameReturned⟩
    have none : later.world.opened = 0 :=
      (sameReturned.opened.trans sameCancelled.opened).trans opened
    refine iff_of_true ?_ (.inl (by omega))
    intro stream below
    omega
  apply sends_writeInit
  refine ⟨opened, rfl, fun stream => ?_, same.dialled⟩
  change stream ∈ stored.world.closed ↔ stream < stored.world.opened
  rw [closed, opened]
  simp

end Accounting

variable {outgoing : Outgoing}

theorem accounted_of_runs {sender : Sender}
    (runs : (sending library config outgoing).Runs may (.start outgoing) (.ok sender) chronicle) :
    Accounted sender chronicle := by
  have accounted := runs.invariant sends_sendFile
    fun _ read _ accounted _ => sends_receive read accounted
  exact accounted

/-- At the end all streams are closed exactly if no second one has been opened, or if an attempt
to open one has failed. -/
theorem allClosed_iff {result : Option SendError}
    (runs : (sending library config outgoing).Runs (fun _ _ _ => True) (.start outgoing)
      (.ok (.returned result)) chronicle) :
    AllClosed chronicle.world ↔ chronicle.world.opened ≤ 1 ∨ chronicle.past.any dialFailed = true :=
  accounted_of_runs runs

end Leading

instance (world : SendWorld) : Decidable (AllClosed world) :=
  inferInstanceAs (Decidable (∀ stream < world.opened, stream ∈ world.closed))

def greetingLibrary : Library := .ofTransfer (greeting.initMessage 0)

def sendGreeting (replies : List Reply) : Except Empty Sender × SendChronicle :=
  (sending greetingLibrary ⟨ascii "session", ascii "peer", false⟩ greeting).play handleSend
    (.start greeting) (replies.map fun reply => some (reply.frame greetingLibrary))

theorem runs_sendGreeting (replies : List Reply) :
    (sending greetingLibrary ⟨ascii "session", ascii "peer", false⟩ greeting).Runs
      (fun _ _ _ => True) (.start greeting) (sendGreeting replies).1 (sendGreeting replies).2 :=
  Reactor.runs_play sendOutcome_handleSend (Reactor.permits_of_forall (fun _ _ _ => trivial) _ _)

theorem allClosed_sendGreeting :
    (sendGreeting [.accept 0, .ack 0, .done]).1 = .ok (.returned none) ∧
      AllClosed (sendGreeting [.accept 0, .ack 0, .done]).2.world := by
  have returned : (sendGreeting [.accept 0, .ack 0, .done]).1 = .ok (.returned none) := by
    decide +kernel
  have runs := runs_sendGreeting [.accept 0, .ack 0, .done]
  rw [returned] at runs
  exact ⟨returned, (allClosed_iff runs).mpr (.inl (by decide +kernel))⟩

theorem not_allClosed_sendGreeting :
    let run := sendGreeting [.accept 0, .error (ascii "disk full"), .accept 0, .ack 0, .done]
    run.1 = .ok (.returned none) ∧ run.2.world.opened = 2 ∧ run.2.world.closed = [0, 0] ∧
      ¬AllClosed run.2.world := by
  decide +kernel

end Peerscale.RelayFile
