import Peerscale.RelayFile.ReceiverRuns

/-! # Sessions that are over

The state of a receive session is written by `CancelFileSession`, which does not look at the old
one, by `receiveLoop` after the rename, which does not look either, by `cleanupSession`, and by
the goroutine that waits for the cancellation. A session that is over stays so as long as the
first two come in time.
-/

namespace Peerscale.RelayFile

open Program Chronicle World Surroundings

def storesChunk (moment : ReceiveMoment) : Bool :=
  match moment.deed with
  | .performed (.write _ _) _ => true
  | _ => false

def replacesFile (moment : ReceiveMoment) : Bool :=
  match moment.deed with
  | .performed (.rename _ _) none => true
  | _ => false

/-- The state does not change once it is done, error or cancelled, and once it is cancelled no
chunk is stored and no file replaced. -/
structure Settled (moment : ReceiveMoment) : Prop where
  stays : moment.before.isTerminal → moment.after.self.state = moment.before.self.state
  stores : moment.before.self.state = .cancelled → storesChunk moment = false
  replaces : moment.before.self.state = .cancelled → replacesFile moment = false

def Event.carriesFile : Event → Bool
  | .frame ⟨typ, _⟩ => typ = frameTypeData ∨ typ = frameTypeFin
  | _ => false

def Cancellable (world : World) : Prop :=
  world.self.registered → world.self.state = .transfer ∨ world.self.state = .cancelled
  deriving Decidable

/-- While something is handled, a session is cancelled only if that is no frame of the file. -/
def TimelyAct (log : ReceiveChronicle) : ReceiveAct → Prop
  | .cancel =>
    Cancellable log.world ∧ (log.world.self.registered → log.world.self.state = .transfer →
        (handled log.past).any Event.carriesFile = false)
  | _ => True

/-- No frame of the file reaches a session that has been cancelled. -/
def TimelyEvent (receiver : Receiver) (event : Event) (log : ReceiveChronicle) : Prop :=
  match receiver, event with
  | _, .cancel => Cancellable log.world
  | .receiving _ _ _ _, event => log.world.self.state = .cancelled → event.carriesFile = false
  | _, _ => True

instance (receiver : Receiver) (event : Event) (log : ReceiveChronicle) :
    Decidable (TimelyEvent receiver event log) :=
  match receiver, event with
  | _, .cancel => inferInstanceAs (Decidable (Cancellable _))
  | .receiving _ _ _ _, .frame _ => inferInstanceAs (Decidable (_ → _))
  | .receiving _ _ _ _, .readError _ => inferInstanceAs (Decidable (_ → _))
  | .waitInit, .frame _ => isTrue trivial
  | .waitInit, .readError _ => isTrue trivial
  | .ended _, .frame _ => isTrue trivial
  | .ended _, .readError _ => isTrue trivial

def aroundTimely : Surroundings Op Response ReceiveAct World := aroundSession.limit TimelyAct

def timely (library : Library) (config : Config) (init : InitMessage) :
    Reactor Op Response GoPanic ReceiveAct World Receiver Event :=
  { receiving library config init with toSurroundings := aroundTimely }

structure Idle (moment : ReceiveMoment) : Prop where
  state : moment.after.self.state = moment.before.self.state
  registered : moment.after.self.registered = moment.before.self.registered
  cancelsNot : cancels moment = false
  storesNot : storesChunk moment = false
  replacesNot : replacesFile moment = false

theorem Idle.settled {mo : ReceiveMoment} (idle : Idle mo) : Settled mo where
  stays _ := idle.state
  stores _ := idle.storesNot
  replaces _ := idle.replacesNot

def Op.isSteady : Op → Bool
  | .storeSession | .deleteSession | .cancelSession | .beginCleanup | .setDone => false
  | _ => true

def Op.isIdle : Op → Bool
  | .write _ _ | .rename _ _ => false
  | op => op.isSteady

def Op.isQuiet : Op → Bool
  | .deleteSession | .beginCleanup => true
  | op => op.isIdle

theorem Op.isIdle_of_isMild (op : Op) (mild : op.isMild) : op.isIdle := by
  cases op <;> first | rfl | cases mild

theorem Op.isSteady_of_isIdle (op : Op) (idle : op.isIdle) : op.isSteady := by
  cases op <;> first | rfl | cases idle

theorem Op.isQuiet_of_isIdle (op : Op) (idle : op.isIdle) : op.isQuiet := by
  cases op <;> first | rfl | cases idle

theorem steady_of_outcome (steady : op.isSteady) (ans : outcome op w resp after) :
    after.self.state = w.self.state ∧ after.self.registered = w.self.registered := by
  cases op with
  | storeSession | deleteSession | cancelSession | beginCleanup | setDone => cases steady
  | openFile => rcases ans with ⟨-, rfl⟩ | ⟨fd, files, -, -, rfl⟩ <;> exact ⟨rfl, rfl⟩
  | create => rcases ans with ⟨why, -, rfl⟩ | ⟨-, rfl⟩ <;> exact ⟨rfl, rfl⟩
  | seek =>
    cases ans
    rw [seek]
    split <;> exact ⟨rfl, rfl⟩
  | write => rcases ans with ⟨-, rfl⟩ | ⟨why, written, -, rfl⟩ <;> exact ⟨rfl, rfl⟩
  | close =>
    cases ans
    exact ⟨rfl, rfl⟩
  | rename => rcases ans with ⟨why, -, rfl⟩ | ⟨files, -, -, rfl⟩ <;> exact ⟨rfl, rfl⟩
  | remove => rcases ans with rfl | rfl <;> exact ⟨rfl, rfl⟩
  | _ =>
    have same := sameSession_of_outcome rfl ans
    exact ⟨same.state, same.registered⟩

theorem idle_of_outcome (idle : op.isIdle) (ans : outcome op w resp after) :
    Idle ⟨w, .performed op resp, after⟩ := by
  rcases steady_of_outcome (op.isSteady_of_isIdle idle) ans with ⟨state, registered⟩
  refine ⟨state, registered, ?_, ?_, ?_⟩ <;> cases op <;> first | rfl | cases idle

/-! ## Where a session stands -/

structure Consistent (log : ReceiveChronicle) : Prop where
  settled : ∀ moment ∈ log.past, Settled moment
  noticed : log.past.any cancels → log.world.self.state = .cancelled

structure Fresh (log : ReceiveChronicle) : Prop extends Consistent log where
  uncancelled : log.past.any cancels = false
  state : log.world.self.state = .init
  registered : log.world.self.registered = false

structure Waiting (log : ReceiveChronicle) : Prop extends Consistent log where
  state : log.world.self.state = .transfer ∨ log.world.self.state = .cancelled
  registered : log.world.self.registered

structure Storing (log : ReceiveChronicle) : Prop extends Consistent log where
  carries : (handled log.past).any Event.carriesFile
  state : log.world.self.state = .transfer
  registered : log.world.self.registered

theorem Storing.waiting (storing : Storing log) : Waiting log where
  toConsistent := storing.toConsistent
  state := .inl storing.state
  registered := storing.registered

theorem Waiting.cancellable (waiting : Waiting log) :
    Cancellable log.world := fun _ => waiting.state

def InPhase : Receiver → ReceiveChronicle → Prop
  | .waitInit, _ => False
  | .receiving _ _ _ _, log => Waiting log
  | .ended _, log => Consistent log

section Steps

theorem Consistent.next (consistent : Consistent log) (settled : Settled ⟨log.world, deed, after⟩)
    (noticed : cancels ⟨log.world, deed, after⟩ ∨
      log.past.any cancels → after.self.state = .cancelled) :
    Consistent (log.next deed after) where
  settled mo mem := by
    rcases List.mem_cons.mp mem with rfl | prev
    · exact settled
    · exact consistent.settled mo prev
  noticed found := by
    apply noticed
    rwa [Chronicle.next, List.any_cons, Bool.or_eq_true] at found

theorem Consistent.idle (consistent : Consistent log)
    (idle : Idle ⟨log.world, deed, after⟩) : Consistent (log.next deed after) := by
  apply consistent.next idle.settled
  rintro (now | before)
  · rw [idle.cancelsNot] at now
    cases now
  · exact idle.state.trans (consistent.noticed before)

theorem Waiting.idle (waiting : Waiting log)
    (idle : Idle ⟨log.world, deed, after⟩) : Waiting (log.next deed after) where
  toConsistent := waiting.toConsistent.idle idle
  state := by
    have same : after.self.state = log.world.self.state := idle.state
    rw [next, same]
    exact waiting.state
  registered := idle.registered.trans waiting.registered

theorem Fresh.idle (fresh : Fresh log) (idle : Idle ⟨log.world, deed, after⟩) :
    Fresh (log.next deed after) where
  toConsistent := fresh.toConsistent.idle idle
  uncancelled := by rw [next, List.any_cons, idle.cancelsNot, fresh.uncancelled, Bool.or_false]
  state := idle.state.trans fresh.state
  registered := idle.registered.trans fresh.registered

theorem Consistent.cancel (consistent : Consistent log) (cancellable : Cancellable log.world)
    (deedIs : deed = .act .cancel ∨ deed = .performed .cancelSession ()) :
    Consistent (log.next deed log.world.cancelled) := by
  have nothing : storesChunk ⟨log.world, deed, log.world.cancelled⟩ = false ∧
      replacesFile ⟨log.world, deed, log.world.cancelled⟩ = false := by
    rcases deedIs with rfl | rfl <;> exact ⟨rfl, rfl⟩
  cases found : log.world.self.registered with
  | false =>
    have same : log.world.cancelled = log.world := by
      rw [cancelled, found]
      rfl
    have cancelsNot : cancels ⟨log.world, deed, log.world.cancelled⟩ = false := by
      rcases deedIs with rfl | rfl <;> exact found
    apply consistent.idle
    exact ⟨by rw [same], by rw [same], cancelsNot, nothing.1, nothing.2⟩
  | true =>
    have state : log.world.cancelled.self.state = .cancelled := by
      rw [cancelled, found]
      rfl
    apply consistent.next
    · refine ⟨?_, fun _ => nothing.1, fun _ => nothing.2⟩
      intro terminal
      rcases cancellable found with tr | cancelled
      · simp [isTerminal, tr] at terminal
      · exact state.trans cancelled.symm
    · intro _
      exact state

theorem Waiting.cancel (waiting : Waiting log)
    (deedIs : deed = .act .cancel ∨ deed = .performed .cancelSession ()) :
    Waiting (log.next deed log.world.cancelled) where
  toConsistent := waiting.toConsistent.cancel waiting.cancellable deedIs
  state := by
    rw [next, cancelled, if_pos waiting.registered]
    exact .inr rfl
  registered := by
    rw [next, cancelled, if_pos waiting.registered]
    exact waiting.registered

theorem Storing.next (storing : Storing log) (unheard : arrival ⟨log.world, deed, after⟩ = none)
    (cancelsNot : cancels ⟨log.world, deed, after⟩ = false)
    (state : after.self.state = log.world.self.state)
    (registered : after.self.registered = log.world.self.registered) :
    Storing (log.next deed after) where
  toConsistent := by
    have notCancelled : log.world.self.state ≠ .cancelled := by
      rw [storing.state]
      decide
    apply storing.toConsistent.next
    · exact ⟨fun _ => state, fun cancelled => absurd cancelled notCancelled,
        fun cancelled => absurd cancelled notCancelled⟩
    rintro (now | before)
    · rw [cancelsNot] at now
      cases now
    · exact state.trans (storing.noticed before)
  carries := by
    rw [Chronicle.next, handled_cons _ unheard]
    exact storing.carries
  state := state.trans storing.state
  registered := registered.trans storing.registered

theorem Storing.steady (storing : Storing log) (steady : op.isSteady)
    (ans : outcome op log.world resp after) : Storing (log.next (.performed op resp) after) := by
  rcases steady_of_outcome steady ans with ⟨state, registered⟩
  have cancelsNot : cancels ⟨log.world, .performed op resp, after⟩ = false := by
    cases op <;> first | rfl | cases steady
  exact storing.next rfl cancelsNot state registered

theorem Consistent.quiet (consistent : Consistent log) (quiet : op.isQuiet)
    (ans : outcome op log.world resp after) : Consistent (log.next (.performed op resp) after) := by
  cases op with
  | deleteSession =>
    cases ans
    apply consistent.next
    · exact ⟨fun _ => rfl, fun _ => rfl, fun _ => rfl⟩
    rintro (now | before)
    · cases now
    · exact consistent.noticed before
  | beginCleanup =>
    rcases ans with ⟨-, rfl⟩
    have stays : log.world.isTerminal → (if log.world.isTerminal then log.world
          else log.world.cleaned).self.state = log.world.self.state := by
      intro terminal
      rw [if_pos terminal]
    apply consistent.next
    · exact ⟨stays, fun _ => rfl, fun _ => rfl⟩
    rintro (now | before)
    · cases now
    · have cancelled := consistent.noticed before
      rw [stays (by simp [isTerminal, cancelled]), cancelled]
  | _ => exact consistent.idle (idle_of_outcome quiet ans)

theorem Fresh.stored (fresh : Fresh log) (ans : outcome .storeSession log.world resp after) :
    Waiting (log.next (.performed .storeSession resp) after) := by
  cases ans
  refine ⟨?_, .inl rfl, rfl⟩
  apply fresh.toConsistent.next
  · refine ⟨?_, fun _ => rfl, fun _ => rfl⟩
    intro terminal
    simp [isTerminal, fresh.state] at terminal
  rintro (now | before)
  · cases now
  · rw [fresh.uncancelled] at before
    cases before

theorem Storing.done (storing : Storing log) (ans : outcome .setDone log.world resp after) :
    Consistent (log.next (.performed .setDone resp) after) := by
  cases ans
  apply storing.toConsistent.next
  · refine ⟨?_, fun _ => rfl, fun _ => rfl⟩
    intro terminal
    simp [isTerminal, storing.state] at terminal
  rintro (now | before)
  · cases now
  have cancelled := storing.noticed before
  rw [storing.state] at cancelled
  cases cancelled

end Steps

section Others

/-- What others do in time changes nothing, or cancels a session that handles no frame of the
file. -/
theorem timely_cases (consistent : Consistent log) (acts : aroundTimely.acts log act after) :
    Idle ⟨log.world, .act act, after⟩ ∨ act = .cancel ∧ after = log.world.cancelled ∧
        log.world.self.registered ∧ TimelyAct log .cancel := by
  rcases acts with ⟨meddled, inTime⟩
  cases act with
  | arrived => exact meddled.elim
  | cancel =>
    cases meddled
    cases found : log.world.self.registered with
    | false =>
      have same : log.world.cancelled = log.world := by
        rw [cancelled, found]
        rfl
      rw [same]
      exact .inl ⟨rfl, rfl, found, rfl, rfl⟩
    | true => exact .inr ⟨rfl, rfl, rfl, inTime⟩
  | wake =>
    rcases meddled with ⟨cancelledBefore, rfl⟩
    have cancelled := consistent.noticed cancelledBefore
    have woken : log.world.woken.self.state = .cancelled ∧
        log.world.woken.self.registered = log.world.self.registered := by
      simp [woken, cancelled]
    exact .inl ⟨woken.1.trans cancelled.symm, woken.2, rfl, rfl, rfl⟩

theorem stable_consistent : aroundTimely.Stable Consistent := by
  intro log act after consistent acts
  rcases timely_cases consistent acts with idle | ⟨rfl, rfl, -, inTime⟩
  · exact consistent.idle idle
  · exact consistent.cancel inTime.1 (.inl rfl)

theorem stable_fresh : aroundTimely.Stable Fresh := by
  intro log act after fresh acts
  rcases timely_cases fresh.toConsistent acts with idle | ⟨rfl, rfl, registered, -⟩
  · exact fresh.idle idle
  · rw [fresh.registered] at registered
    cases registered

theorem stable_waiting : aroundTimely.Stable Waiting := by
  intro log act after waiting acts
  rcases timely_cases waiting.toConsistent acts with idle | ⟨rfl, rfl, -⟩
  · exact waiting.idle idle
  · exact waiting.cancel (.inl rfl)

theorem stable_storing : aroundTimely.Stable Storing := by
  intro log act after storing acts
  rcases timely_cases storing.toConsistent acts with idle | ⟨rfl, rfl, registered, -, apart⟩
  · have unheard : arrival ⟨log.world, .act act, after⟩ = none := by
      cases act with
      | arrived => exact acts.1.elim
      | cancel | wake => rfl
    exact storing.next unheard idle.cancelsNot idle.state idle.registered
  have carries := storing.carries
  rw [apart registered storing.state] at carries
  cases carries

theorem stable_cancellable : aroundTimely.Stable fun log =>
    Consistent log ∧ Cancellable log.world := by
  rintro log act after ⟨consistent, cancellable⟩ acts
  refine ⟨stable_consistent _ _ _ consistent acts, ?_⟩
  rcases timely_cases consistent acts with idle | ⟨rfl, rfl, registered, -⟩
  · intro found
    have state : after.self.state = log.world.self.state := idle.state
    rw [next, state]
    exact cancellable (idle.registered.symm.trans found)
  intro _
  rw [next, cancelled, if_pos registered]
  exact .inr rfl

end Others

/-! ## Programs that end a session -/

section Quiet

theorem quiet_of_mild {prog : Prog α} (mild : prog.Only (·.isMild)) : prog.Only (·.isQuiet) :=
  mild.mono fun op isMild => op.isQuiet_of_isIdle (op.isIdle_of_isMild isMild)

theorem quiet_of_ends {prog : Prog α} (ends : prog.Only (Op.endsSession ses)) :
    prog.Only (·.isQuiet) := by
  apply ends.mono
  intro op isEnd
  cases op <;> first | rfl | exact isEnd.elim

end Quiet

/-! ## Programs that handle frames of the file -/

section Steady

theorem steady_of_mild {prog : Prog α} (mild : prog.Only (·.isMild)) : prog.Only (·.isSteady) :=
  mild.mono fun op isMild => op.isSteady_of_isIdle (op.isIdle_of_isMild isMild)

theorem steady_writeTmpFile (chunkData : Bytes) :
    (writeTmpFile ses chunkData).Only (·.isSteady) := by
  unfold writeTmpFile
  split
  · exact ⟨rfl, fun _ => trivial⟩
  · trivial

theorem steady_storeChunk (dataSeq : Int) (chunkData : Bytes) :
    (storeChunk ses dataSeq chunkData).Only (·.isSteady) := by
  apply (steady_writeTmpFile chunkData).bind
  intro resp
  cases resp with
  | some => trivial
  | none =>
    cases bitmapSet ses.bitmap dataSeq with
    | error | ok => trivial

theorem steady_closeForFin : (closeForFin ses).Only (·.isSteady) := by
  unfold closeForFin
  split
  · exact ⟨rfl, fun _ => ⟨rfl, fun _ => trivial⟩⟩
  · trivial

end Steady

section Reactions

variable {library : Library} {config : Config} {init : InitMessage} {log : ReceiveChronicle}

/-- Whatever happens in time, the program leads to `post`, unless it panics in a consistent
chronicle. -/
abbrev Settles (program : Prog α) (post : α → ReceiveChronicle → Prop)
    (log : ReceiveChronicle) : Prop :=
  aroundTimely.Leads (fun _ log => Consistent log) program post log

theorem settles_quiet {prog : Prog α} (only : prog.Only (·.isQuiet)) (consistent : Consistent log) :
    Settles prog (fun _ later => Consistent later) log := by
  apply stable_consistent.leads_of_only only
  · intro log op resp after quiet consistent ans
    exact consistent.quiet quiet ans
  · intro fault log consistent
    exact consistent
  · exact consistent

theorem settles_ending {prog : Prog Receiver}
    (only : prog.Only (·.isQuiet)) (ends : prog.Total Receiver.IsEnded)
    (consistent : Consistent log) : Settles prog InPhase log := by
  apply ((settles_quiet only consistent).and (leads_of_total ends)
    fun _ _ consistent _ => consistent).mono
  rintro rcv later ⟨consistent, ended⟩
  cases rcv with
  | waitInit => exact ended
  | receiving => exact ended.elim
  | ended => exact consistent

theorem settles_abandon (err : GoString) (consistent : Consistent log) :
    Settles (abandon config ses err) InPhase log :=
  settles_ending (quiet_of_ends (ends_abandon err)) (total_abandon err) consistent

theorem settles_refuse (why err : GoString) (consistent : Consistent log) :
    Settles (refuse config ses why err) InPhase log :=
  settles_ending (quiet_of_ends (ends_refuse why err)) (total_refuse why err) consistent

theorem settles_steady {prog : Prog α} (only : prog.Only (·.isSteady))
    (storing : Storing log) : Settles prog (fun _ later => Storing later) log := by
  apply stable_storing.leads_of_only only
  · intro log op resp after steady storing ans
    exact storing.steady steady ans
  · intro fault log storing
    exact storing.toConsistent
  · exact storing

theorem settles_mild {prog : Prog α} (only : prog.Only (·.isMild))
    (waiting : Waiting log) : Settles prog (fun _ later => Waiting later) log := by
  apply stable_waiting.leads_of_only only
  · intro log op resp after mild waiting ans
    exact waiting.idle (idle_of_outcome (op.isIdle_of_isMild mild) ans)
  · intro fault log waiting
    exact waiting.toConsistent
  · exact waiting

theorem settles_afterChunk (cb : Bool) (startSeq lastAck : Int) (waiting : Waiting log) :
    Settles (afterChunk config ses cb startSeq lastAck) InPhase
      log := by
  rcases bitmapMaxContinuous_total ses.bitmap ses.totalChunks with ⟨newSeq, comp⟩
  rw [afterChunk, comp, ofExcept_ok, done_bind]
  apply (settles_mild (mild_acknowledge lastAck newSeq) waiting).bind
  intro acknowledged later waiting
  cases acknowledged with
  | error => exact settles_abandon _ waiting.toConsistent
  | ok =>
    apply (settles_mild (mild_reportTransfer cb startSeq newSeq) waiting).bind
    intro _ later waiting
    exact waiting

theorem settles_receiveData (cb : Bool) (startSeq lastAck : Int) (pl : Bytes)
    (storing : Storing log) :
    Settles (receiveData library config ses cb startSeq lastAck pl)
      InPhase log := by
  unfold receiveData
  cases unpackDataFrame library pl ses.compression with
  | error => exact settles_refuse _ _ storing.toConsistent
  | ok chunk =>
    rcases chunk with ⟨dataSeq, chunkData⟩
    dsimp only
    cases bitmapHas ses.bitmap dataSeq with
    | error => exact storing.toConsistent
    | ok marked =>
      cases marked with
      | true => exact settles_afterChunk cb startSeq lastAck storing.waiting
      | false =>
        rw [ofExcept_ok, done_bind, if_neg (by decide)]
        apply (settles_steady (steady_storeChunk dataSeq chunkData) storing).bind
        intro stored later storing
        cases stored with
        | error => exact settles_refuse _ _ storing.toConsistent
        | ok => exact settles_afterChunk cb startSeq lastAck storing.waiting

theorem settles_deliver (cb : Bool) (storing : Storing log) :
    Settles (deliver config ses cb) InPhase log := by
  have ends : (deliver config ses cb).Total Receiver.IsEnded := total_deliver cb
  rw [deliver] at *
  apply stable_storing.leads_perform storing
  intro cur storing resp after ans
  refine settles_ending (only_perform rfl ?_) (ends resp) (storing.done ans)
  intro resp
  cases resp with
  | some =>
    apply (quiet_of_ends (ends_cleanupSession _)).bind
    intro _
    exact quiet_of_mild (mild_finish .delivered)
  | none =>
    apply (quiet_of_mild (mild_reportDone cb)).bind
    intro _
    exact ⟨rfl, fun _ => quiet_of_mild (mild_finish .delivered)⟩

theorem settles_receiveFin (cb : Bool) (pl : Bytes) (storing : Storing log) :
    Settles (receiveFin library config ses cb pl) InPhase
      log := by
  unfold receiveFin
  split
  · exact settles_refuse _ _ storing.toConsistent
  apply (settles_steady steady_closeForFin storing).bind
  intro ses later storing
  apply (settles_steady (steady_of_mild (mild_verifyFileHash _ _)) storing).bind
  intro verified later storing
  cases verified with
  | some => exact settles_refuse _ _ storing.toConsistent
  | none =>
    apply stable_storing.leads_perform storing
    intro cur storing resp after ans
    have ans : outcome (.rename ses.tmpPath ses.savePath) cur.world resp after := ans
    have storing := storing.steady rfl ans
    cases resp with
    | some => exact settles_refuse _ _ storing.toConsistent
    | none => exact settles_deliver cb storing

theorem Consistent.hear (consistent : Consistent log) (ev : Event) :
    Consistent (log.note (.arrived ev)) :=
  consistent.idle ⟨rfl, rfl, rfl, rfl, rfl⟩

theorem Waiting.hear (waiting : Waiting log) (ev : Event) : Waiting (log.note (.arrived ev)) :=
  waiting.idle ⟨rfl, rfl, rfl, rfl, rfl⟩

theorem Waiting.storing (waiting : Waiting log) {ev : Event} (carries : ev.carriesFile)
    (inTime : log.world.self.state = .cancelled → ev.carriesFile = false) :
    Storing (log.note (.arrived ev)) where
  toConsistent := waiting.toConsistent.hear ev
  carries := carries
  state := by
    rcases waiting.state with tr | cancelled
    · exact tr
    · rw [inTime cancelled] at carries
      cases carries
  registered := waiting.registered

theorem settles_receiveFrame (waiting : Waiting log)
    (inTime : log.world.self.state = .cancelled → (Event.frame fr).carriesFile = false) :
    Settles (receiveFrame library config ses cb startSeq lastAck fr) InPhase
      (log.note (.arrived (.frame fr))) := by
  have heard : Waiting (log.note (.arrived (.frame fr))) := waiting.hear _
  unfold receiveFrame
  split
  · exact settles_abandon _ heard.toConsistent
  split
  · exact settles_abandon _ heard.toConsistent
  split
  next isData =>
    exact settles_receiveData cb startSeq lastAck _
      (waiting.storing (decide_eq_true (.inl isData)) inTime)
  split
  next isFin => exact settles_receiveFin cb _ (waiting.storing (decide_eq_true (.inr isFin)) inTime)
  exact heard

theorem settles_cancel (phase : InPhase rcv log) (cancellable : Cancellable log.world) :
    Settles (rcv.receive library config .cancel) InPhase (log.note (.arrived .cancel)) := by
  cases rcv with
  | waitInit => exact phase.elim
  | receiving =>
    have waiting : Waiting log := phase
    rw [Receiver.receive]
    apply stable_waiting.leads_perform (waiting.hear .cancel)
    intro cur waiting resp after ans
    cases ans
    exact waiting.cancel (.inr rfl)
  | ended =>
    have consistent : Consistent log := phase
    rw [Receiver.receive]
    apply stable_cancellable.leads_perform ⟨consistent.hear .cancel, cancellable⟩
    rintro cur ⟨consistent, cancellable⟩ resp after ans
    cases ans
    exact consistent.cancel cancellable (.inr rfl)

theorem settles_receive (phase : InPhase rcv log) (inTime : TimelyEvent rcv ev log) :
    Settles (rcv.receive library config ev) InPhase (log.note (.arrived ev)) := by
  cases ev with
  | cancel => exact settles_cancel phase (by cases rcv <;> exact inTime)
  | frame =>
    cases rcv with
    | waitInit => exact phase.elim
    | receiving => exact settles_receiveFrame phase inTime
    | ended => exact Consistent.hear phase _
  | readError =>
    cases rcv with
    | waitInit => exact phase.elim
    | receiving =>
      have waiting : Waiting log := phase
      exact settles_abandon _ (waiting.hear _).toConsistent
    | ended => exact Consistent.hear phase _

theorem settles_fresh {prog : Prog α} (only : prog.Only (·.isIdle))
    (fresh : Fresh log) : Settles prog (fun _ later => Fresh later) log := by
  apply stable_fresh.leads_of_only only
  · intro log op resp after idle fresh ans
    exact fresh.idle (idle_of_outcome idle ans)
  · intro fault log fresh
    exact fresh.toConsistent
  · exact fresh

theorem idle_resumePart (bitmap : Bitmap) (tmpFile : Nat) :
    (resumePart init bitmap tmpFile).Only (·.isIdle) := by
  rw [resumePart, call_bind]
  refine only_perform rfl ?_
  intro doneBytes
  split
  · trivial
  unfold markedPart
  cases bitmapSetBelow bitmap _ with
  | error | ok => trivial

theorem idle_createPart (bitmap : Bitmap) : (createPart config init bitmap).Only (·.isIdle) := by
  refine only_perform rfl ?_
  intro resp
  cases resp with
  | error | ok => trivial

theorem idle_openPart (bitmap : Bitmap) : (openPart config init bitmap).Only (·.isIdle) := by
  have existing : (openExisting config init).Only (·.isIdle) := by
    unfold openExisting
    split
    · exact ⟨rfl, fun _ => trivial⟩
    · trivial
  apply existing.bind
  intro found
  cases found with
  | some tmpFile => exact (idle_resumePart bitmap tmpFile).bind fun _ => trivial
  | none => exact idle_createPart bitmap

theorem Fresh.settles_perform {next : Response op → Prog α} {post : α → ReceiveChronicle → Prop}
    (fresh : Fresh log) (idle : op.isIdle) (continues : ∀ resp later, Fresh later →
      Settles (next resp) post later) :
    Settles (.perform op next) post log := by
  apply stable_fresh.leads_perform fresh
  intro cur fresh resp after ans
  exact continues resp _ (fresh.idle (idle_of_outcome idle ans))

theorem settles_reject (err : GoString) (fresh : Fresh log) :
    Settles (call (.send (.reject err)) >>= fun _ => finish .rejected) InPhase log :=
  settles_ending (only_perform rfl fun _ => quiet_of_mild (mild_finish .rejected))
    (fun _ => total_finish .rejected) fresh.toConsistent

theorem settles_startReceiving (part : OpenPart) (fresh : Fresh log) :
    Settles (startReceiving config init part) InPhase log := by
  rcases bitmapMaxContinuous_total part.bitmap init.totalChunks.toInt with ⟨run, comp⟩
  rw [startReceiving, comp, ofExcept_ok, done_bind]
  apply fresh.settles_perform rfl
  intro _ later fresh
  apply fresh.settles_perform rfl
  intro answer later fresh
  cases answer with
  | some =>
    refine settles_ending (only_perform rfl fun _ => only_perform rfl fun _ => ?_)
      (fun _ _ => total_finish .unanswered) fresh.toConsistent
    exact quiet_of_mild (mild_finish .unanswered)
  | none =>
    apply stable_fresh.leads_perform fresh
    intro cur fresh resp after ans
    apply stable_waiting.leads_perform (fresh.stored ans)
    intro cur waiting resp after ans
    cases ans
    exact waiting.idle ⟨rfl, rfl, rfl, rfl, rfl⟩

theorem settles_handleFileStream (fresh : Fresh log) :
    Settles (handleFileStream config init) InPhase log := by
  rw [handleFileStream]
  apply fresh.settles_perform rfl
  intro made later fresh
  cases made with
  | some err => exact settles_reject err fresh
  | none =>
    cases newBitmap init.totalChunks.toInt with
    | error => exact fresh.toConsistent
    | ok bitmap =>
      rw [ofExcept_ok, done_bind]
      apply (settles_fresh (idle_openPart bitmap) fresh).bind
      intro opened later fresh
      cases opened with
      | error err => exact settles_reject err fresh
      | ok part => exact settles_startReceiving part fresh

end Reactions

/-- If `CancelFileSession` finds the session only while it is neither done nor failed nor
handles a frame of the file, and no such frame comes afterwards, then a session that is over
stays so. -/
theorem settled_of_timely {library : Library} {config : Config} {init : InitMessage}
    {files : Files} {callback : Bool} {result : Except GoPanic Receiver}
    {chronicle : ReceiveChronicle}
    (runs : (timely library config init).Runs TimelyEvent ⟨files, .fresh callback⟩ result
      chronicle) :
    ∀ moment ∈ chronicle.past, Settled moment := by
  have start : Fresh (.start ⟨files, .fresh callback⟩) := by
    refine ⟨⟨?_, ?_⟩, rfl, rfl, rfl⟩
    · intro moment member
      cases member
    · intro cancelled
      cases cancelled
  have kept := runs.invariant (settles_handleFileStream start)
    fun receiver event chronicle phase inTime => settles_receive phase inTime
  have consistent : Consistent chronicle := by
    cases result with
    | error => exact kept
    | ok receiver =>
      cases receiver with
      | waitInit => exact kept.elim
      | receiving => exact Waiting.toConsistent kept
      | ended => exact kept
  exact consistent.settled

theorem settled_cancelledGreeting :
    (receiveGreeting cancelledGreeting).2.world.self.state = .cancelled ∧
      ∀ moment ∈ (receiveGreeting cancelledGreeting).2.past, Settled moment := by
  have permits : (timely (.ofTransfer greetingInit) greetingConfig greetingInit).Permits handle
      TimelyEvent ⟨.empty, .fresh true⟩ cancelledGreeting := by decide +kernel
  have runs : (timely (.ofTransfer greetingInit) greetingConfig greetingInit).Runs TimelyEvent
      ⟨.empty, .fresh true⟩ _ (receiveGreeting cancelledGreeting).2 :=
    Reactor.runs_play outcome_handle permits
  exact ⟨by decide +kernel, settled_of_timely runs⟩

/-- Cancelled before any frame arrives, the session stores its chunk nevertheless, replaces the
file and is done. -/
theorem cancelled_greeting_delivered :
    (receiving (.ofTransfer greetingInit) greetingConfig greetingInit).Runs
        (fun _ _ _ => True) ⟨.empty, .fresh true⟩ (.ok (.ended .delivered))
        (receiveGreeting (.cancel :: greetingEvents)).2 ∧
      (∃ moment ∈ (receiveGreeting (.cancel :: greetingEvents)).2.past,
        moment.before.self.state = .cancelled ∧ storesChunk moment = true) ∧
      (∃ moment ∈ (receiveGreeting (.cancel :: greetingEvents)).2.past,
        moment.before.self.state = .cancelled ∧ replacesFile moment = true) ∧
      (∃ moment ∈ (receiveGreeting (.cancel :: greetingEvents)).2.past,
        moment.before.self.state = .cancelled ∧ moment.after.self.state = .done) := by
  have ended : (receiveGreeting (.cancel :: greetingEvents)).1 = .ok (.ended .delivered) := by
    decide +kernel
  rw [← ended]
  exact ⟨runs_receiveGreeting _, by decide +kernel⟩

end Peerscale.RelayFile
