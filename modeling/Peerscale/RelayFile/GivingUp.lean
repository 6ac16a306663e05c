import Peerscale.RelayFile.SenderRuns

/-! # A receiver that gives up

While `SendFile` waits for an ACK, ERROR and CANCEL frames are for it a stream that has failed.
It stops only if it cannot open another one, and so a receiver that always gives up after the
first batch keeps it busy for ever.
-/

namespace Peerscale.RelayFile

def Frame.Refuses (frame : Frame) : Prop :=
  frame.typ = frameTypeError ∨ frame.typ = frameTypeCancel

/-- `SendFile` has returned an error, without another stream and without another frame. -/
structure GivesUp (chronicle : SendChronicle) (result : Except Empty Sender)
    (later : SendChronicle) : Prop where
  returned : ∃ err, result = .ok (.returned (some err))
  opened : later.world.opened = chronicle.world.opened
  emitted : later.past.filterMap emitted = chronicle.past.filterMap emitted

def DialFails (chronicle later : SendChronicle) : Prop :=
  chronicle.past.countP dialFailed < later.past.countP dialFailed

section

variable {library : Library} {config : SendConfig} {outgoing : Outgoing} {streams : Streams}
  {seq : Int} {chronicle later : SendChronicle}

theorem receive_refusal (refuses : Frame.Refuses fr) :
    (Sender.waitAck streams seq).receive library config outgoing (some fr) =
      reconnect library outgoing streams seq := by
  rcases refuses with error | cancel
  · rw [Sender.receive, readJSONFrame, if_pos error]
  have notError : fr.typ ≠ frameTypeError := by
    rw [cancel]
    decide
  rw [Sender.receive, readJSONFrame, if_neg notError, if_pos cancel]

def Redials (chronicle : SendChronicle) (sender : Sender) (later : SendChronicle) : Prop :=
  (GivesUp chronicle (.ok sender) later ∧ DialFails chronicle later) ∨
    (later.world.opened ≠ chronicle.world.opened ∧ ¬DialFails chronicle later)

theorem sends_redials :
    Sends (reconnect library outgoing streams seq) (Redials chronicle) chronicle := by
  rw [reconnect]
  apply sends_perform
  rintro - hungUp rfl
  apply sends_perform
  intro resp dialled ans
  rcases ans with ⟨err, rfl, rfl⟩ | ⟨rfl, rfl⟩
  · apply sends_perform
    rintro - closed rfl
    apply sends_perform
    rintro - deleted rfl
    apply sends_perform
    rintro - ended rfl
    refine .inl ⟨⟨⟨_, rfl⟩, rfl, rfl⟩, ?_⟩
    simp only [DialFails, Chronicle.next, List.countP_cons]
    exact Nat.lt_succ_self _
  apply sends_perform
  rintro failure written rfl
  cases failure with
  | none =>
    refine .inr ⟨Nat.succ_ne_self _, ?_⟩
    simp [DialFails, Chronicle.next, dialFailed]
  | some =>
    apply sends_perform
    rintro - closed rfl
    apply sends_perform
    rintro - deleted rfl
    apply sends_perform
    rintro - ended rfl
    refine .inr ⟨Nat.succ_ne_self _, ?_⟩
    simp [DialFails, Chronicle.next, dialFailed]

/-- A receiver that gives up stops `SendFile` exactly if no other stream can be opened. -/
theorem givesUp_iff {frame : Frame} (refuses : frame.Refuses) {result : Except Empty Sender}
    (executes : ((Sender.waitAck streams seq).receive library config outgoing
      (some frame)).Executes (sending library config outgoing).environment
        ((sending library config outgoing).hear (some frame) chronicle) result later) :
    GivesUp chronicle result later ↔ DialFails chronicle later := by
  rw [receive_refusal refuses] at executes
  have redials := sends_redials.executes executes
  cases result with
  | error fault => exact fault.elim
  | ok =>
    have same : (((sending library config outgoing).hear (some frame) chronicle).past.countP
        dialFailed) = chronicle.past.countP dialFailed := by
      simp [Reactor.hear, Chronicle.note, Chronicle.next, dialFailed]
    rcases redials with ⟨givesUp, fails⟩ | ⟨another, noFailure⟩
    · exact iff_of_true ⟨givesUp.returned, givesUp.opened, givesUp.emitted⟩
        (same.symm.trans_lt fails)
    refine iff_of_false (fun givesUp => another givesUp.opened) ?_
    intro fails
    exact noFailure (same.trans_lt fails)

end

def alwaysRefuses (library : Library) (reason : GoString) (_ : Sender) (read : Option Frame)
    (_ : SendChronicle) : Prop :=
  read = some ((Reply.accept 0).frame library) ∨ read = some ((Reply.error reason).frame library)

section

variable {library : Library}

section

variable (accepts : library.unmarshalAccept (library.marshalAccept 0) = some 0)

include accepts

theorem receive_accept (streams : Streams) :
    (Sender.waitAccept streams).receive library config outgoing
        (some ((Reply.accept 0).frame library)) =
      afterAccept library config outgoing streams (0 : Nat) := by
  have read : readJSONFrame library frameTypeAccept library.unmarshalAccept
      (some ((Reply.accept 0).frame library)) = .ok 0 :=
    readJSONFrame_of_decoded (by decide) (by decide) accepts
  rw [Sender.receive, read]
  rfl

theorem refused_round (nonempty : 0 < outgoing.totalChunks)
    (runs : (sending library config outgoing).Runs (alwaysRefuses library why)
      (.start outgoing) (.ok (.waitAccept streams)) chronicle)
    (file : chronicle.world.file = outgoing.bytes) :
    ∃ later, (sending library config outgoing).Runs (alwaysRefuses library why)
        (.start outgoing) (.ok (.waitAccept { streams with current := streams.current + 1 }))
        later ∧
      later.world.file = outgoing.bytes := by
  have batch := @performs_afterAccept library config outgoing streams chronicle.world
    chronicle.world.deadlines ⟨file, rfl⟩ 0
  rcases batch with ⟨post, performs, sent⟩
  rw [waitFrom, if_pos nonempty] at performs
  have accepted : ((Sender.waitAccept streams).receive library config outgoing
      (some ((Reply.accept 0).frame library))).run handleSend chronicle.world =
        (.ok (.waitAck streams (batchEnd outgoing 0)), post) := by
    rw [receive_accept accepts]
    exact performs.ran
  rcases runs.react_of_run sendOutcome_handleSend (.inl rfl) accepted with ⟨waiting, waits, rfl⟩
  have refused : ((Sender.waitAck streams (batchEnd outgoing 0)).receive library config outgoing
      (some ((Reply.error why).frame library))).run handleSend waiting.world =
        (.ok (.waitAccept { streams with current := waiting.world.opened }),
          { waiting.world with
            closed := waiting.world.closed ++ [streams.current]
            opened := waiting.world.opened + 1 }) := by
    rw [receive_refusal (.inl rfl)]
    rfl
  rcases waits.react_of_run sendOutcome_handleSend (.inr rfl) refused with
    ⟨again, runsAgain, isAgain⟩
  have uses : Uses streams waiting := accounted_of_runs waits
  rw [uses.current] at runsAgain
  exact ⟨again, runsAgain, by rw [isAgain]; exact sent.file⟩

theorem refused_rounds (nonempty : 0 < outgoing.totalChunks) (rounds : Nat) :
    ∃ chronicle, (sending library config outgoing).Runs (alwaysRefuses library why)
        (.start outgoing) (.ok (.waitAccept ⟨0, rounds⟩)) chronicle ∧
      chronicle.world.file = outgoing.bytes := by
  induction rounds with
  | zero =>
    have executes := (Reactor.executes_record sendOutcome_handleSend
      (sendFile library outgoing) (.start (.start outgoing)) :
        (sendFile library outgoing).Executes (sending library config outgoing).environment _ _ _)
    exact ⟨_, .begin executes, rfl⟩
  | succ rounds ih =>
    rcases ih with ⟨chronicle, runs, file⟩
    exact refused_round accepts nonempty runs file

end

end

def handleSendOnce : (op : SendOp) → SendWorld → SendResponse op × SendWorld
  | .openStream, world =>
    if world.opened = 0 then handleSend .openStream world
    else (.error (ascii "no route to host"), world)
  | op, world => handleSend op world

theorem sendOutcome_handleSendOnce (op : SendOp) (w : SendWorld) :
    sendOutcome op w (handleSendOnce op w).1 (handleSendOnce op w).2 := by
  cases op with
  | openStream =>
    rw [handleSendOnce]
    split
    · exact .inr ⟨rfl, rfl⟩
    · exact .inl ⟨_, rfl, rfl⟩
  | readFile => exact .inr ⟨rfl, rfl⟩
  | _ => rfl

theorem givesUp_unreachable :
    let chronicle : SendChronicle := (sendGreeting [.accept 0]).2
    let frame := (Reply.error (ascii "disk full")).frame greetingLibrary
    let reactor := sending greetingLibrary ⟨ascii "session", ascii "peer", false⟩ greeting
    let refused := ((Sender.waitAck ⟨0, 0⟩ 1).receive greetingLibrary
      ⟨ascii "session", ascii "peer", false⟩ greeting (some frame)).run
        (Reactor.record handleSendOnce) (reactor.hear (some frame) chronicle)
    (sendGreeting [.accept 0]).1 = .ok (.waitAck ⟨0, 0⟩ 1) ∧
      GivesUp chronicle refused.1 refused.2 := by
  intro chronicle frame reactor refused
  have executes := (Reactor.executes_record sendOutcome_handleSendOnce
    ((Sender.waitAck ⟨0, 0⟩ 1).receive greetingLibrary ⟨ascii "session", ascii "peer", false⟩
      greeting (some frame)) (reactor.hear (some frame) chronicle) :
        Program.Executes reactor.environment _ _ _ _)
  refine ⟨by decide +kernel, (givesUp_iff (.inl rfl) executes).mpr ?_⟩
  rw [DialFails]
  decide +kernel

theorem greeting_never_given_up :
    let config : SendConfig := ⟨ascii "session", ascii "peer", false⟩
    let refused := sendGreeting [.accept 0, .error (ascii "disk full")]
    ¬GivesUp (sendGreeting [.accept 0]).2 refused.1 refused.2 ∧
      ∀ rounds, ∃ chronicle, (sending greetingLibrary config greeting).Runs
        (alwaysRefuses greetingLibrary (ascii "disk full")) (.start greeting)
        (.ok (.waitAccept ⟨0, rounds⟩)) chronicle := by
  intro config refused
  have accepts : greetingLibrary.unmarshalAccept (greetingLibrary.marshalAccept 0) = some 0 := by
    decide +kernel
  have nonempty : 0 < greeting.totalChunks := by decide
  constructor
  · intro givesUp
    have opened := givesUp.opened
    revert opened
    decide +kernel
  intro rounds
  rcases refused_rounds accepts nonempty rounds with ⟨chronicle, runs, -⟩
  exact ⟨chronicle, runs⟩

end Peerscale.RelayFile
