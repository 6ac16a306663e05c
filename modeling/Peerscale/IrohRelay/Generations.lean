import Peerscale.Foundation.Goroutines
import Peerscale.IrohRelay.Connection

/-! # Generations of a connection

A `readLoop` that has not returned when the next `connect` begins can read from the next
websocket, even during its handshake, and the error that it gets from its own websocket can be
taken for one of the next. If `connect` begins only after all of them have returned, and goes
on to report the connection before the new one does anything, then generations do not meet.
-/

namespace Peerscale.IrohRelay

open List IrohRelayConn

def RunStage.begins : RunStage → Bool
  | .connect _ => true
  | _ => false

def RunStage.reports : RunStage → Bool
  | .report _ => true
  | _ => false

def RunStage.handshake : RunStage → Option WebSocket
  | .readChallenge _ ws => some ws
  | .sendAuth _ ws => some ws
  | .readConfirmation _ ws => some ws
  | _ => none

def RunStage.quiet : RunStage → Bool
  | .dial _ => true
  | stage => stage.handshake.isSome

def RunStage.idle : RunStage → Bool
  | .report _ => false
  | stage => !stage.quiet

def ReadStage.taken : ReadStage → Option WebSocket
  | .reading ws => some ws
  | .failed ws => some ws
  | _ => none

namespace IrohRelayConn

variable {conn : IrohRelayConn}

/-- One `readLoop` at most reads from a websocket, none does before it has been reported, and
an error of a websocket does not shut down a newer one. -/
structure Separate (conn : IrohRelayConn) : Prop where
  oneReader : ∀ first ∈ conn.reads, ∀ second ∈ conn.reads, first.ws = second.ws →
    first.readLoop = second.readLoop
  afterReport : ∀ read ∈ conn.reads, read.reported
  ownError : ∀ entry ∈ conn.shutdowns, ¬entry.1 < entry.2

/-- `connect` begins when every `readLoop` has returned, and between its start of a new one
and its report no `readLoop` takes a step. -/
def Orderly (conn : IrohRelayConn) : Action → Prop
  | .advance _ _ =>
    conn.runLoop.begins → ∀ readLoop ∈ conn.readLoops, readLoop.stage = .returned
  | .advanceRead _ _ => conn.runLoop.reports = false
  | _ => True

instance (conn : IrohRelayConn) (action : Action) : Decidable (conn.Orderly action) :=
  match action with
  | .advance _ _ => inferInstanceAs (Decidable (_ → _))
  | .advanceRead _ _ => inferInstanceAs (Decidable (_ = _))
  | .takeStop => inferInstanceAs (Decidable True)
  | .takeReconnect => inferInstanceAs (Decidable True)
  | .takeTick _ _ => inferInstanceAs (Decidable True)
  | .stop => inferInstanceAs (Decidable True)

def owners (conn : IrohRelayConn) : List WebSocket := conn.readLoops.map ReadLoop.own

structure Recorded (owners : List WebSocket) (dialled : Nat) (reads : List ReadCall)
    (shutdowns : List (WebSocket × WebSocket)) : Prop where
  distinct : owners.Nodup
  dialled : ∀ ws ∈ owners, ws < dialled
  reported : ∀ read ∈ reads, read.reported
  owned : ∀ read ∈ reads, owners[read.readLoop]? = some read.ws
  ownError : ∀ entry ∈ shutdowns, entry.1 = entry.2

abbrev Noted (conn : IrohRelayConn) : Prop :=
  Recorded conn.owners conn.dialled conn.reads conn.shutdowns

theorem Recorded.separate (noted : conn.Noted) : conn.Separate where
  oneReader x firstRead y secondRead same := by
    have firstOwns := noted.owned x firstRead
    have secondOwns := noted.owned y secondRead
    rw [← same] at secondOwns
    have within : x.readLoop < conn.owners.length := by
      by_contra beyond
      rw [getElem?_eq_none (not_lt.mp beyond)] at firstOwns
      cases firstOwns
    exact (getElem?_inj within noted.distinct).mp (firstOwns.trans secondOwns.symm)
  afterReport := noted.reported
  ownError e shut := by
    rw [noted.ownError e shut]
    exact lt_irrefl _

/-- A `readLoop` that has not returned is that of the current websocket, if there is one. -/
structure Attended (ws : Option WebSocket) (reported : List WebSocket)
    (reconnectNow : Option WebSocket) (readLoops : List ReadLoop) : Prop where
  reported : ∀ readLoop ∈ readLoops, readLoop.stage ≠ .returned → readLoop.own ∈ reported
  current : ∀ readLoop ∈ readLoops, readLoop.stage ≠ .returned →
    ws = some readLoop.own ∨ ws = none
  taken : ∀ readLoop ∈ readLoops, ∀ taken, readLoop.stage.taken = some taken →
    taken = readLoop.own
  signal : ∀ failed, reconnectNow = some failed → ws = some failed ∨ ws = none

abbrev IsAttended (conn : IrohRelayConn) : Prop :=
  Attended conn.ws conn.reported conn.reconnectNow conn.readLoops

/-- What is known outside of `connect`, before it starts a `readLoop`, and before it reports
the connection. -/
inductive Sound (conn : IrohRelayConn) : Prop
  | idle (noted : conn.Noted) (stage : conn.runLoop.idle) (attended : conn.IsAttended)
  | quiet (noted : conn.Noted) (stage : conn.runLoop.quiet)
      (returned : ∀ readLoop ∈ conn.readLoops, readLoop.stage = .returned)
      (unsignalled : conn.reconnectNow = none)
      (fresh : ∀ ws, conn.runLoop.handshake = some ws →
        conn.ws = some ws ∧ ws < conn.dialled ∧ ws ∉ conn.owners)
  | started (noted : conn.Noted) (ws : WebSocket) (stage : conn.runLoop = .report ws)
      (current : conn.ws = some ws)
      (unsignalled : conn.reconnectNow = none)
      (readLoops : ∀ readLoop ∈ conn.readLoops,
        readLoop.stage = .returned ∨ readLoop = ⟨ws, .checkStop⟩)

theorem Sound.separate (sound : conn.Sound) : conn.Separate := by
  cases sound with
  | idle noted | quiet noted | started noted => exact noted.separate

theorem sound_newRelayConn (now : Time) : (newRelayConn now).Sound := by
  refine .idle ⟨nodup_nil, ?_, ?_, ?_, ?_⟩ rfl ⟨?_, ?_, ?_, ?_⟩ <;> simp [newRelayConn, owners]

namespace Attended

variable {ws : Option WebSocket} {reported : List WebSocket} {reconnectNow : Option WebSocket}
  {readLoops : List ReadLoop}

theorem of_returned (ws : Option WebSocket) (reported : List WebSocket)
    (ret : ∀ readLoop ∈ readLoops, readLoop.stage = .returned) :
    Attended ws reported none readLoops where
  reported readLoop mem active := absurd (ret readLoop mem) active
  current readLoop mem active := absurd (ret readLoop mem) active
  taken readLoop mem taken isTaken := by
    rw [ret readLoop mem] at isTaken
    cases isTaken
  signal failed signalled := by cases signalled

theorem shutdown (attended : Attended ws reported reconnectNow readLoops) :
    Attended none reported reconnectNow readLoops where
  reported := attended.reported
  current _ _ _ := .inr rfl
  taken := attended.taken
  signal _ _ := .inr rfl

theorem unsignalled (attended : Attended ws reported reconnectNow readLoops) :
    Attended ws reported none readLoops :=
  ⟨attended.reported, attended.current, attended.taken, nofun⟩

end Attended

/-! ## Steps of `runLoop` -/

namespace Sound

section

variable (noted : conn.Noted)

include noted

theorem connectFails (ret : ∀ readLoop ∈ conn.readLoops, readLoop.stage = .returned)
    (unsignalled : conn.reconnectNow = none) (base : Bool) (closed : List WebSocket) :
    ({ conn.connectFails base with closed := closed } : IrohRelayConn).Sound := by
  refine .idle noted ?_ ?_
  · cases base with
    | true | false => rfl
  have attended := Attended.of_returned conn.ws conn.reported ret
  rw [← unsignalled] at attended
  exact attended

theorem dialled : Recorded conn.owners (conn.dialled + 1) conn.reads conn.shutdowns :=
  { noted with dialled := fun ws mem => Nat.lt_succ_of_lt (noted.dialled ws mem) }

theorem owned {ws : WebSocket} (known : ws < conn.dialled) (fresh : ws ∉ conn.owners) :
    Recorded (conn.owners ++ [ws]) conn.dialled conn.reads conn.shutdowns where
  distinct := by
    rw [← concat_eq_append]
    exact noted.distinct.concat fresh
  dialled other mem := by
    rcases mem_append.mp mem with before | new
    · exact noted.dialled other before
    · rw [mem_singleton.mp new]
      exact known
  reported := noted.reported
  owned read mem := by
    have owns := noted.owned read mem
    have within : read.readLoop < conn.owners.length := by
      by_contra beyond
      rw [getElem?_eq_none (not_lt.mp beyond)] at owns
      cases owns
    rw [getElem?_append_left within]
    exact owns
  ownError := noted.ownError

theorem advance_of_idle (stage : conn.runLoop.idle) (attended : conn.IsAttended)
    (tidy : conn.Orderly (.advance ok now)) : (conn.advance ok now).Sound := by
  rw [advance]
  cases isStage : conn.runLoop with
  | connect => exact .quiet noted rfl (tidy (by rw [isStage]; rfl)) rfl nofun
  | backoff => exact .idle noted rfl attended
  | check =>
    dsimp only
    split
    · exact .idle noted rfl attended
    · exact .idle noted rfl attended.shutdown
  | checkStop =>
    dsimp only
    split <;> exact .idle noted rfl attended
  | wait | returned => exact .idle noted stage attended
  | _ =>
    rw [isStage] at stage
    cases stage

theorem starts (ret : ∀ readLoop ∈ conn.readLoops, readLoop.stage = .returned)
    (unsignalled : conn.reconnectNow = none) {ws : WebSocket} (current : conn.ws = some ws)
    (known : ws < conn.dialled) (unowned : ws ∉ conn.owners) :
    ({ conn with
      readLoops := conn.readLoops ++ [⟨ws, .checkStop⟩]
      runLoop := .report ws } : IrohRelayConn).Sound := by
  refine .started ?_ ws rfl current unsignalled ?_
  · have grown := owned noted known unowned
    rw [Noted, owners, map_append]
    exact grown
  intro readLoop mem
  rcases mem_append.mp mem with before | new
  · exact .inl (ret readLoop before)
  · exact .inr (mem_singleton.mp new)

theorem advance_of_quiet (stage : conn.runLoop.quiet)
    (ret : ∀ readLoop ∈ conn.readLoops, readLoop.stage = .returned)
    (unsignalled : conn.reconnectNow = none) (fresh : ∀ ws, conn.runLoop.handshake = some ws →
      conn.ws = some ws ∧ ws < conn.dialled ∧ ws ∉ conn.owners) (ok : Bool) (now : Time) :
    (conn.advance ok now).Sound := by
  have fails := connectFails noted ret unsignalled
  rw [advance]
  cases isStage : conn.runLoop with
  | dial base =>
    dsimp only
    split
    · refine .quiet (dialled noted) rfl ret unsignalled ?_
      intro ws handshake
      cases handshake
      exact ⟨rfl, Nat.lt_succ_self _, fun mem => lt_irrefl _ (noted.dialled _ mem)⟩
    · exact fails base conn.closed
  | readChallenge base | sendAuth base =>
    rw [isStage] at fresh
    dsimp only
    split
    · exact .quiet noted rfl ret unsignalled fresh
    · exact fails base _
  | readConfirmation base ws =>
    rw [isStage] at fresh
    rcases fresh ws rfl with ⟨current, known, unowned⟩
    dsimp only
    split
    · exact starts noted ret unsignalled current known unowned
    · exact fails base _
  | _ =>
    rw [isStage] at stage
    cases stage

end

theorem attended_of_started {ws : WebSocket} (current : conn.ws = some ws)
    (unsignalled : conn.reconnectNow = none) (readLoops : ∀ readLoop ∈ conn.readLoops,
      readLoop.stage = .returned ∨ readLoop = ⟨ws, .checkStop⟩) :
    Attended conn.ws (ws :: conn.reported) conn.reconnectNow conn.readLoops where
  reported readLoop mem active := by
    rcases readLoops readLoop mem with ret | rfl
    · exact absurd ret active
    · exact mem_cons_self
  current readLoop mem active := by
    rcases readLoops readLoop mem with ret | rfl
    · exact absurd ret active
    · exact .inl current
  taken readLoop mem taken isTaken := by
    rcases readLoops readLoop mem with ret | rfl
    · rw [ret] at isTaken
      cases isTaken
    · cases isTaken
  signal failed signalled := by
    rw [unsignalled] at signalled
    cases signalled

section

variable (sound : conn.Sound)

include sound

theorem advance (tidy : conn.Orderly (.advance ok now)) : (conn.advance ok now).Sound := by
  cases sound with
  | idle noted stage attended => exact advance_of_idle noted stage attended tidy
  | quiet noted stage ret unsignalled fresh =>
    exact advance_of_quiet noted stage ret unsignalled fresh ok now
  | started noted ws stage current unsignalled readLoops =>
    rw [IrohRelayConn.advance, stage]
    exact .idle noted rfl (attended_of_started current unsignalled readLoops)

theorem attended (idle : conn.runLoop.idle) : conn.Noted ∧ conn.IsAttended := by
  cases sound with
  | idle noted stage attended => exact ⟨noted, attended⟩
  | quiet noted stage ret unsignalled =>
    have known := Attended.of_returned conn.ws conn.reported ret
    rw [← unsignalled] at known
    exact ⟨noted, known⟩
  | started noted ws stage =>
    rw [stage] at idle
    cases idle

theorem takeStop : conn.takeStop.Sound := by
  rw [IrohRelayConn.takeStop]
  split
  · split
    · rename_i isStage
      rcases sound.attended (by rw [isStage]; rfl) with ⟨noted, attended⟩
      exact .idle noted rfl attended.shutdown
    · rename_i isStage
      rcases sound.attended (by rw [isStage]; rfl) with ⟨noted, attended⟩
      exact .idle noted rfl attended
    · exact sound
  · exact sound

theorem takeReconnect : conn.takeReconnect.Sound := by
  rw [IrohRelayConn.takeReconnect]
  split
  · rename_i failed isStage signalled
    rcases sound.attended (by rw [isStage]; rfl) with ⟨noted, attended⟩
    refine .idle { noted with ownError := ?_ } rfl attended.shutdown.unsignalled
    intro e mem
    rcases mem_append.mp mem with new | before
    · rcases attended.signal failed signalled with current | closed
      · rw [current] at new
        rw [mem_singleton.mp new]
      · rw [closed] at new
        cases new
    · exact noted.ownError e before
  · exact sound

theorem takeTick (now : Time) (written : Bool) : (conn.takeTick now written).Sound := by
  rw [IrohRelayConn.takeTick]
  split
  · rename_i isStage
    rcases sound.attended (by rw [isStage]; rfl) with ⟨noted, attended⟩
    split
    · exact .idle noted rfl attended.shutdown
    split
    · exact .idle noted rfl attended
    split
    · exact .idle noted rfl attended
    · exact .idle noted rfl attended.shutdown
  · exact sound

theorem stop : conn.stop.Sound := by
  cases sound with
  | idle noted stage attended => exact .idle noted stage attended
  | quiet noted stage ret unsignalled fresh => exact .quiet noted stage ret unsignalled fresh
  | started noted ws stage current unsignalled readLoops =>
    exact .started noted ws stage current unsignalled readLoops

end

end Sound

/-! ## Steps of a `readLoop` -/

theorem owners_setStage (conn : IrohRelayConn) (index : Nat) (stage : ReadStage) :
    (conn.setStage index stage).owners = conn.owners := by
  apply ext_getElem
  · simp [setStage, owners]
  intro pos x y
  simp only [setStage, owners, getElem_map, getElem_modify]
  split <;> rfl

namespace Sound

section

variable {index : Nat} {readLoop : ReadLoop} (noted : conn.Noted) (idle : conn.runLoop.idle)
  (attended : conn.IsAttended) (found : conn.readLoops[index]? = some readLoop)

include noted idle attended found

theorem setStage (active : readLoop.stage ≠ .returned) {stage : ReadStage}
    (taken : ∀ ws, stage.taken = some ws → ws = readLoop.own) :
    (conn.setStage index stage).Sound := by
  have mem := mem_of_getElem? found
  refine .idle ?_ idle ⟨?_, ?_, ?_, attended.signal⟩
  · rw [Noted, owners_setStage]
    exact noted
  · intro other isMember isActive
    rcases mem_modify isMember with before | ⟨before, isBefore, rfl⟩
    · exact attended.reported other before isActive
    rw [found, Option.some.injEq] at isBefore
    rw [← isBefore]
    exact attended.reported readLoop mem active
  · intro other isMember isActive
    rcases mem_modify isMember with before | ⟨before, isBefore, rfl⟩
    · exact attended.current other before isActive
    rw [found, Option.some.injEq] at isBefore
    rw [← isBefore]
    exact attended.current readLoop mem active
  intro other isMember
  rcases mem_modify isMember with before | ⟨before, isBefore, rfl⟩
  · exact attended.taken other before
  rw [found, Option.some.injEq] at isBefore
  rw [← isBefore]
  exact taken

theorem handleMessage (active : readLoop.stage ≠ .returned) (now : Time) (msg : Message) :
    (conn.handleMessage index now msg).Sound := by
  have nothing : ∀ {stage : ReadStage}, stage.taken = none →
      ∀ ws, stage.taken = some ws → ws = readLoop.own := by
    intro stage none ws taken
    rw [none] at taken
    cases taken
  cases msg with
  | empty => exact setStage noted idle attended found active (nothing rfl)
  | ping | other =>
    exact @setStage { conn with lastRecv := now } index readLoop noted idle attended found
      active _ (nothing rfl)
  | pong =>
    exact @setStage { conn with lastRecv := now, pendingPing := _ } index readLoop noted idle
      attended found active _ (nothing rfl)

theorem loads (active : readLoop.stage ≠ .returned) {ws : WebSocket}
    (isCurrent : conn.ws = some ws) :
    ({ conn with
      reads := ⟨index, ws, decide (ws ∈ conn.reported)⟩ :: conn.reads }.setStage index
        (.reading ws)).Sound := by
  have mem := mem_of_getElem? found
  have isOwn : readLoop.own = ws := by
    rcases attended.current readLoop mem active with same | closed
    · rw [isCurrent, Option.some.injEq] at same
      exact same.symm
    · rw [isCurrent] at closed
      cases closed
  refine @setStage { conn with reads := _ :: conn.reads } index readLoop
    { noted with reported := ?_, owned := ?_ } idle attended found active _ ?_
  · intro read isRead
    rcases mem_cons.mp isRead with rfl | before
    · exact decide_eq_true (isOwn ▸ attended.reported readLoop mem active)
    · exact noted.reported read before
  · intro read isRead
    rcases mem_cons.mp isRead with rfl | before
    · rw [owners, getElem?_map, found, ← isOwn]
      rfl
    · exact noted.owned read before
  intro taken isTaken
  cases isTaken
  exact isOwn.symm

theorem signals {ws : WebSocket} (isStage : readLoop.stage = .failed ws) :
    ({ conn with reconnectNow := some (conn.reconnectNow.getD ws) }.setStage index
      .returned).Sound := by
  have mem := mem_of_getElem? found
  have active : readLoop.stage ≠ .returned := by
    rw [isStage]
    exact ReadStage.noConfusion
  have isOwn : ws = readLoop.own := attended.taken readLoop mem ws (by rw [isStage]; rfl)
  refine @setStage { conn with reconnectNow := some _ } index readLoop noted idle
    { attended with signal := ?_ } found active .returned
    nofun
  intro failed signalled
  rw [Option.some.injEq] at signalled
  cases isSignal : conn.reconnectNow with
  | some =>
    rw [isSignal, Option.getD_some] at signalled
    exact attended.signal failed (signalled ▸ isSignal)
  | none =>
    rw [isSignal, Option.getD_none] at signalled
    rw [← signalled, isOwn]
    exact attended.current readLoop mem active

end

theorem advanceRead_of_idle (noted : conn.Noted) (idle : conn.runLoop.idle)
    (attended : conn.IsAttended) (index : Nat) (ev : ReadEvent) :
    (conn.advanceRead index ev).Sound := by
  have still : conn.Sound := .idle noted idle attended
  rw [advanceRead]
  split
  · exact still
  rename_i readLoop found
  by_cases ret : readLoop.stage = .returned
  · rw [ret]
    exact still
  have goesOn := @setStage conn index readLoop noted idle attended found ret
  cases isStage : readLoop.stage with
  | returned => exact absurd isStage ret
  | checkStop =>
    apply goesOn
    intro ws taken
    split at taken <;> cases taken
  | load =>
    dsimp only
    split
    · exact goesOn nofun
    · rename_i ws isCurrent
      exact loads noted idle attended found ret isCurrent
  | reading ws =>
    cases ev with
    | turn => exact still
    | error =>
      apply goesOn
      intro taken isTaken
      cases isTaken
      exact attended.taken readLoop (mem_of_getElem? found) ws (by rw [isStage]; rfl)
    | message msg now =>
      dsimp only
      split
      · exact still
      · exact handleMessage noted idle attended found ret now msg
  | sendPong =>
    cases ev with
    | turn =>
      apply goesOn
      intro ws taken
      split at taken <;> cases taken
    | error | message => exact still
  | failed =>
    dsimp only
    split
    · exact goesOn nofun
    · exact signals noted idle attended found isStage

theorem advanceRead (sound : conn.Sound) (tidy : conn.Orderly (.advanceRead index ev)) :
    (conn.advanceRead index ev).Sound := by
  cases sound with
  | idle noted stage attended => exact advanceRead_of_idle noted stage attended index ev
  | quiet noted stage ret unsignalled fresh =>
    have still : conn.Sound := .quiet noted stage ret unsignalled fresh
    rw [IrohRelayConn.advanceRead]
    split
    · exact still
    rename_i readLoop found
    rw [ret readLoop (mem_of_getElem? found)]
    exact still
  | started noted ws stage =>
    rw [Orderly, stage] at tidy
    cases tidy

theorem act (sound : conn.Sound) (tidy : conn.Orderly a) : (machine.act conn a).Sound := by
  cases a with
  | advance => exact sound.advance tidy
  | takeStop => exact sound.takeStop
  | takeReconnect => exact sound.takeReconnect
  | takeTick now written => exact sound.takeTick now written
  | advanceRead => exact sound.advanceRead tidy
  | stop => exact sound.stop

end Sound

/-- If all steps are orderly, then generations are separate in every state of a run. -/
theorem separate_of_orderly (start : Time) (actions : List Action)
    (orderly : machine.Obeys Orderly (newRelayConn start) actions) :
    machine.Always Separate (newRelayConn start) actions := by
  rintro earlier later rfl
  have sound := orderly.append.1.invariant (sound_newRelayConn start)
    fun conn action sound permitted => sound.act permitted
  exact sound.separate

def connects : List Action := List.replicate 6 (.advance true 0)

theorem replaced_separate :
    let actions := connects ++
      [.advanceRead 0 (.turn true), .advanceRead 0 (.turn true), .advance true 0,
        .advanceRead 0 .error, .advanceRead 0 (.turn true), .takeReconnect,
        .advance true 0, .advance true 0] ++ connects
    machine.Obeys Orderly (newRelayConn 0) actions ∧
      (machine.run (newRelayConn 0) actions).shutdowns = [(0, 0)] ∧
      machine.Always Separate (newRelayConn 0) actions :=
  ⟨by decide +kernel, by decide +kernel, separate_of_orderly 0 _ (by decide +kernel)⟩

/-- The first websocket is shut down after a ping timeout, and `connect` begins. If the old
`readLoop` is in a read, then its error shuts down the second websocket; if it is between two
reads, then it reads from the second websocket before the handshake, and the new `readLoop`
does so too. -/
theorem slowReadLoop_interferes :
    let slowError := connects ++
      [.advanceRead 0 (.turn true), .advanceRead 0 (.turn true), .advance true 0,
        .takeTick (28 * second) true, .advance true 0, .advance true 0, .advance true 0,
        .advanceRead 0 .error, .advanceRead 0 (.turn true)] ++
      List.replicate 6 (.advance true 0) ++ [.takeReconnect]
    let slowTurn := connects ++ [.advanceRead 0 (.turn true), .advance true 0,
        .takeTick (28 * second) true, .advance true 0, .advance true 0, .advance true 0,
        .advance true 0, .advanceRead 0 (.turn true)] ++
      List.replicate 4 (.advance true 0) ++
      [.advanceRead 1 (.turn true), .advanceRead 1 (.turn true)]
    (0, 1) ∈ (machine.run (newRelayConn 0) slowError).shutdowns ∧
      (machine.run (newRelayConn 0) slowTurn).reads = [⟨1, 1, true⟩, ⟨0, 1, false⟩] ∧
      ¬(machine.run (newRelayConn 0) slowError).Separate ∧
      ¬(machine.run (newRelayConn 0) slowTurn).Separate := by
  refine ⟨by decide +kernel, by decide +kernel, ?_, ?_⟩
  · intro separate
    exact absurd (separate.ownError (0, 1) (by decide +kernel)) (by decide)
  · intro separate
    exact absurd (separate.afterReport ⟨0, 1, false⟩ (by decide +kernel)) (by decide)

end IrohRelayConn

end Peerscale.IrohRelay
