import Mathlib.Logic.Function.Basic
import Peerscale.Foundation.Goroutines
import Peerscale.Foundation.Machine

/-! # The stream of a UDP connection

`DialUDP` opens a stream, which `Read` and `Write` use. When the other node resets it, they mean
to open another one; but `closed`, which they set to drop the old stream, is what `getStream`
returns an error for. `Close` takes the stream out and closes it.
-/

namespace Peerscale.Pbtunnel

inductive StreamState
  | opened
  | closed
  | reset
  deriving DecidableEq

namespace UdpConn

/-- The atomic variables, and all streams that have been opened for the connection. -/
structure Shared where
  holder : Option Nat
  closed : Bool
  streams : List StreamState

namespace Shared

variable (shared : Shared)

/-- A stream that is open is so no longer. -/
def shut (stream : Nat) (how : StreamState) : Shared :=
  { shared with
    streams := shared.streams.modify stream fun state => if state = .opened then how else state }

/-- The locked region of `Read` and `Write` after a reset. -/
def drop : Shared := { shared with holder := none, closed := true }

end Shared

inductive Result
  | done
  | failed
  | closed
  deriving DecidableEq

/-- Where a call of `Read` or `Write` is: before a load of `holder`, before the regions of
`getStream` and the opening of a stream between them, before the use of a stream, or before
the region that drops it. -/
inductive Stage
  | loading
  | looking
  | connecting
  | installing (stream : Option Nat)
  | transferring (stream : Nat)
  | dropping
  | returned (result : Result)
  deriving DecidableEq

structure Call where
  retried : Bool
  stage : Stage
  deriving DecidableEq

/-- What becomes of opening or of using a stream. -/
inductive Outcome
  | done
  | failed
  | reset
  deriving DecidableEq

/-- An attempt ends with an error. After a reset the first one is followed by another. -/
def Call.fail (call : Call) (outcome : Outcome) : Call :=
  { call with
    stage := if outcome = .reset ∧ call.retried = false then .dropping else .returned .failed }

def Call.step (shared : Shared) (outcome : Outcome) (call : Call) : Shared × Call :=
  match call.stage with
  | .loading =>
    match shared.holder with
    | some stream => (shared, { call with stage := .transferring stream })
    | none => (shared, { call with stage := .looking })
  | .looking =>
    match shared.holder with
    | some stream => (shared, { call with stage := .transferring stream })
    | none =>
      (shared, { call with stage := if shared.closed then .returned .closed else .connecting })
  | .connecting =>
    if outcome = .done then
      ({ shared with streams := shared.streams ++ [.opened] },
        { call with stage := .installing (some shared.streams.length) })
    else (shared, { call with stage := .installing none })
  | .installing none => ({ shared with closed := true }, call.fail outcome)
  | .installing (some stream) =>
    if shared.closed then
      (shared.shut stream .closed, { call with stage := .returned .closed })
    else
      match shared.holder with
      | some other => (shared.shut stream .closed, { call with stage := .transferring other })
      | none => ({ shared with holder := some stream }, { call with stage := .transferring stream })
  | .transferring stream =>
    if outcome = .done then (shared, { call with stage := .returned .done })
    -- A stream that is open has not been reset.
    else if outcome = .reset ∧ shared.streams[stream]? = some .opened then (shared, call)
    else (shared, call.fail outcome)
  | .dropping => (shared.drop, ⟨true, .loading⟩)
  | .returned _ => (shared, call)

/-- Where `Close` is: not yet called, before the swap of `holder`, before the stream that it has
got is closed, or at its end. -/
inductive Closer
  | idle
  | swapping
  | closing (stream : Nat)
  | returned
  deriving DecidableEq

end UdpConn

open UdpConn

/-- A connection and the calls of its methods. -/
structure UdpConn where
  shared : Shared
  calls : Nat → Call
  closer : Closer

namespace UdpConn

/-- What `DialUDP` returns. -/
def start : UdpConn := ⟨⟨some 0, false, [.opened]⟩, fun _ => ⟨false, .loading⟩, .idle⟩

def stepClose (conn : UdpConn) : UdpConn :=
  match conn.closer with
  | .idle => { conn with shared := { conn.shared with closed := true }, closer := .swapping }
  | .swapping =>
    { conn with
      shared := { conn.shared with holder := none }
      closer := match conn.shared.holder with
        | some stream => .closing stream
        | none => .returned }
  | .closing stream => { conn with shared := conn.shared.shut stream .closed, closer := .returned }
  | .returned => conn

/-- A step of a call or of `Close`, or a reset by the other node. -/
inductive Action
  | step (index : Nat) (outcome : Outcome)
  | close
  | reset (stream : Nat)
  deriving DecidableEq

def act (conn : UdpConn) : Action → UdpConn
  | .step index outcome =>
    let (shared, call) := (conn.calls index).step conn.shared outcome
    { conn with shared := shared, calls := Function.update conn.calls index call }
  | .close => conn.stepClose
  | .reset stream => { conn with shared := conn.shared.shut stream .reset }

def machine : Machine UdpConn Action := ⟨act⟩

/-! ## What is true of every run -/

structure Shared.Sound (shared : Shared) : Prop where
  one : shared.streams.length = 1
  held : ∀ stream, shared.holder = some stream → stream = 0
  vacant : shared.holder = none → shared.closed

/-- No call opens a stream. One that has dropped the stream finds that there is none, and that
the connection is closed. -/
inductive Call.Sound (shared : Shared) : Call → Prop
  | loading : Sound shared ⟨false, .loading⟩
  | looking : Sound shared ⟨false, .looking⟩
  | transferring : Sound shared ⟨false, .transferring 0⟩
  | dropping (shut : .opened ∉ shared.streams) : Sound shared ⟨false, .dropping⟩
  | returned (result : Result) (told : result = .closed → shared.closed) :
      Sound shared ⟨false, .returned result⟩
  | reloading (vacant : shared.holder = none) : Sound shared ⟨true, .loading⟩
  | relooking (vacant : shared.holder = none) : Sound shared ⟨true, .looking⟩
  | closed (vacant : shared.holder = none) : Sound shared ⟨true, .returned .closed⟩

variable {shared after : Shared} {call : Call}

theorem Call.Sound.mono (sound : call.Sound shared)
    (opened : .opened ∈ after.streams → .opened ∈ shared.streams)
    (holder : shared.holder = none → after.holder = none)
    (closed : shared.closed → after.closed) : call.Sound after := by
  cases sound with
  | loading => exact .loading
  | looking => exact .looking
  | transferring => exact .transferring
  | dropping shut => exact .dropping (mt opened shut)
  | returned result told => exact .returned result fun same => closed (told same)
  | reloading vacant => exact .reloading (holder vacant)
  | relooking vacant => exact .relooking (holder vacant)
  | closed vacant => exact .closed (holder vacant)

/-- What a step of a call can do. -/
theorem Call.Sound.step (sound : call.Sound shared) (all : shared.Sound) (outcome : Outcome) :
    (∃ next, call.step shared outcome = (shared, next) ∧ next.Sound shared ∧
      next.retried = call.retried) ∨
    .opened ∉ shared.streams ∧ call.step shared outcome = (shared.drop, ⟨true, .loading⟩) := by
  cases sound with
  | loading =>
    left
    cases held : shared.holder with
    | none => exact ⟨_, by rw [Call.step]; simp only [held], .looking, rfl⟩
    | some stream =>
      cases all.held stream held
      exact ⟨_, by rw [Call.step]; simp only [held], .transferring, rfl⟩
  | looking =>
    left
    cases held : shared.holder with
    | none =>
      have closed := all.vacant held
      exact ⟨_, by rw [Call.step]; simp only [held, closed, if_true],
        .returned .closed fun _ => closed, rfl⟩
    | some stream =>
      cases all.held stream held
      exact ⟨_, by rw [Call.step]; simp only [held], .transferring, rfl⟩
  | transferring =>
    left
    cases outcome with
    | done => exact ⟨_, rfl, .returned .done nofun, rfl⟩
    | failed => exact ⟨_, rfl, .returned .failed nofun, rfl⟩
    | reset =>
      by_cases opened : shared.streams[0]? = some .opened
      · exact ⟨_, if_pos ⟨rfl, opened⟩, .transferring, rfl⟩
      · refine ⟨_, if_neg fun both => opened both.2, .dropping ?_, rfl⟩
        obtain ⟨state, only⟩ := List.length_eq_one_iff.mp all.one
        rw [only] at opened ⊢
        intro member
        exact opened (congrArg some (List.mem_singleton.mp member).symm)
  | dropping shut => exact .inr ⟨shut, rfl⟩
  | returned result told => exact .inl ⟨_, rfl, .returned result told, rfl⟩
  | reloading vacant =>
    exact .inl ⟨_, by rw [Call.step]; simp only [vacant], .relooking vacant, rfl⟩
  | relooking vacant =>
    exact .inl ⟨_, by rw [Call.step]; simp only [vacant, all.vacant vacant, if_true],
      .closed vacant, rfl⟩
  | closed vacant => exact .inl ⟨_, rfl, .closed vacant, rfl⟩

theorem Shared.opened_of_shut {how : StreamState} (changed : how ≠ .opened)
    (opened : .opened ∈ (shared.shut stream how).streams) : .opened ∈ shared.streams := by
  rcases mem_modify opened with earlier | ⟨before, found, same⟩
  · exact earlier
  · split at same
    · exact absurd same.symm changed
    · rw [same]
      exact List.mem_of_getElem? found

theorem Shared.Sound.shut (sound : shared.Sound) (stream : Nat) (how : StreamState) :
    (shared.shut stream how).Sound :=
  { sound with one := (List.length_modify ..).trans sound.one }

theorem Shared.Sound.not_opened_shut (sound : shared.Sound) :
    .opened ∉ (shared.shut 0 .closed).streams := by
  obtain ⟨state, only⟩ := List.length_eq_one_iff.mp sound.one
  rw [Shared.shut, only]
  cases state <;> simp

structure Sound (conn : UdpConn) : Prop where
  shared : conn.shared.Sound
  calls : ∀ index, (conn.calls index).Sound conn.shared
  leaves : .opened ∈ conn.shared.streams → conn.shared.holder = some 0 ∨ conn.closer = .closing 0
  stored : conn.closer ≠ .idle → conn.shared.closed
  swapped : conn.closer ≠ .idle → conn.closer ≠ .swapping → conn.shared.holder = none
  blamed : conn.shared.closed →
    conn.closer ≠ .idle ∨ ∃ index, (conn.calls index).retried

theorem sound_start : start.Sound where
  shared := ⟨rfl, fun _ held => (Option.some.inj held).symm, nofun⟩
  calls _ := .loading
  leaves _ := .inl rfl
  stored := absurd rfl
  swapped := absurd rfl
  blamed := nofun

namespace Sound

variable {conn : UdpConn} (sound : conn.Sound)

include sound

theorem step (index : Nat) (outcome : Outcome) : (conn.act (.step index outcome)).Sound := by
  rcases (sound.calls index).step sound.shared outcome with
    ⟨next, stepped, nextSound, same⟩ | ⟨shut, stepped⟩
  · rw [UdpConn.act, stepped]
    refine
      { sound with
        calls := (Function.forall_update_iff conn.calls fun _ call => call.Sound conn.shared).mpr
          ⟨nextSound, fun other _ => sound.calls other⟩
        blamed := fun closed => (sound.blamed closed).imp_right ?_ }
    rintro ⟨other, retried⟩
    refine ⟨other, ?_⟩
    dsimp only
    by_cases own : other = index
    · rw [own, Function.update_self, same, ← own, retried]
    · rw [Function.update_of_ne own, retried]
  · rw [UdpConn.act, stepped]
    exact
      { shared := ⟨sound.shared.one, nofun, fun _ => rfl⟩
        calls := (Function.forall_update_iff conn.calls
            fun _ call => call.Sound conn.shared.drop).mpr
          ⟨.reloading rfl, fun other _ =>
            (sound.calls other).mono id (fun _ => rfl) fun _ => rfl⟩
        leaves := fun opened => absurd opened shut
        stored := fun _ => rfl
        swapped := fun _ _ => rfl
        blamed := fun _ => .inr ⟨index, by dsimp only; rw [Function.update_self]⟩ }

theorem stepClose : conn.stepClose.Sound := by
  rw [UdpConn.stepClose]
  cases closer : conn.closer with
  | idle =>
    exact
      { shared := { sound.shared with vacant := fun _ => rfl }
        calls := fun index => (sound.calls index).mono id id fun _ => rfl
        leaves := fun opened => (sound.leaves opened).imp_right fun closing => by
          rw [closer] at closing
          cases closing
        stored := fun _ => rfl
        swapped := fun _ other => absurd rfl other
        blamed := fun _ => .inl nofun }
  | swapping =>
    have closed := sound.stored (by rw [closer]; nofun)
    refine
      { shared := ⟨sound.shared.one, nofun, fun _ => closed⟩
        calls := fun index => (sound.calls index).mono id (fun _ => rfl) id
        leaves := ?_
        stored := fun _ => closed
        swapped := fun _ _ => rfl
        blamed := ?_ }
    · intro opened
      rcases sound.leaves opened with held | closing
      · simp only [held, or_true]
      · rw [closer] at closing
        cases closing
    · intro _
      left
      dsimp only
      split <;> nofun
  | closing stream =>
    have started : conn.closer ≠ .idle := by
      rw [closer]
      nofun
    have vacant := sound.swapped started (by rw [closer]; nofun)
    refine
      { shared := sound.shared.shut stream .closed
        calls := fun index => (sound.calls index).mono (Shared.opened_of_shut nofun) id id
        leaves := ?_
        stored := fun _ => sound.stored started
        swapped := fun _ _ => vacant
        blamed := fun _ => .inl nofun }
    intro opened
    have before := @Shared.opened_of_shut _ stream .closed nofun opened
    rcases sound.leaves before with held | closing
    · rw [vacant] at held
      cases held
    · cases closer.symm.trans closing
      exact absurd opened sound.shared.not_opened_shut
  | returned => exact sound

theorem act (action : Action) : (conn.act action).Sound := by
  cases action with
  | step index outcome => exact sound.step index outcome
  | close => exact sound.stepClose
  | reset stream =>
    exact
      { sound with
        shared := sound.shared.shut stream .reset
        calls := fun index => (sound.calls index).mono (Shared.opened_of_shut nofun) id id
        leaves := fun opened =>
          sound.leaves (@Shared.opened_of_shut _ stream .reset nofun opened) }

end Sound

theorem sound_run (actions : List Action) : (machine.run start actions).Sound :=
  Machine.invariant sound_start (fun _ action sound => sound.act action) actions

/-- When `Close` has returned there is no stream, and the one that was opened is closed or has
been reset. -/
theorem close_final (actions : List Action)
    (returned : (machine.run start actions).closer = .returned) :
    (machine.run start actions).shared.holder = none ∧
      .opened ∉ (machine.run start actions).shared.streams := by
  have sound := sound_run actions
  have vacant := sound.swapped (by rw [returned]; nofun) (by rw [returned]; nofun)
  refine ⟨vacant, ?_⟩
  intro opened
  rcases sound.leaves opened with held | closing
  · rw [vacant] at held
    cases held
  · rw [returned] at closing
    cases closing

/-- `Close` while a call is about to use the stream. -/
theorem close_final_reading :
    let actions : List Action := [.step 0 .done, .close, .close, .step 0 .failed, .close]
    ((machine.run start actions).calls 0).stage = .returned .failed ∧
      (machine.run start actions).shared.holder = none :=
  ⟨rfl, (close_final _ rfl).1⟩

theorem Call.Sound.closed_of_retried (sound : call.Sound shared) (retried : call.retried)
    (returned : call.stage = .returned result) : result = .closed := by
  cases sound with
  | loading | looking | transferring | dropping | returned => cases retried
  | reloading | relooking => cases returned
  | closed => exact (Stage.returned.inj returned).symm

theorem Call.Sound.told (sound : call.Sound shared) (all : shared.Sound)
    (closed : call.stage = .returned .closed) : shared.closed := by
  cases sound with
  | loading | looking | transferring | dropping | reloading | relooking => cases closed
  | returned result told => exact told (Stage.returned.inj closed)
  | closed vacant => exact all.vacant vacant

/-- If the user has not called `Close`, then no call is told that the connection is closed exactly
if none has met a reset: those that have try again, but no stream is opened. -/
theorem reconnects_iff (actions : List Action)
    (unclosed : (machine.run start actions).closer = .idle)
    (finished : ∀ index, ((machine.run start actions).calls index).retried = true →
      ∃ result, ((machine.run start actions).calls index).stage = .returned result) :
    (∀ index, ((machine.run start actions).calls index).stage ≠ .returned .closed) ↔
      ∀ index, ((machine.run start actions).calls index).retried = false := by
  have sound := sound_run actions
  constructor
  · intro usable index
    by_contra retried
    rw [Bool.not_eq_false] at retried
    obtain ⟨result, returned⟩ := finished index retried
    cases (sound.calls index).closed_of_retried retried returned
    exact usable index returned
  · intro untried index told
    rcases sound.blamed ((sound.calls index).told sound.shared told) with begun | ⟨other, retried⟩
    · exact begun unclosed
    · rw [untried other] at retried
      cases retried

/-- A call returns before the stream is reset, and another one meets the reset. -/
theorem reconnects_iff_reset :
    let before : List Action := [.step 0 .done, .step 0 .done]
    let after := before ++ [.reset 0, .step 1 .done, .step 1 .reset, .step 1 .done,
      .step 1 .done, .step 1 .done]
    (∀ index, ((machine.run start before).calls index).stage ≠ .returned .closed) ∧
      ¬∀ index, ((machine.run start after).calls index).stage ≠ .returned .closed := by
  intro before after
  constructor
  · have untried : ∀ index, ((machine.run start before).calls index).retried = false := by
      rintro (_ | index) <;> rfl
    exact (reconnects_iff before rfl fun index retried => by
      rw [untried index] at retried
      cases retried).mpr untried
  · intro usable
    refine absurd ((reconnects_iff after rfl ?_).mp usable 1) (by decide +kernel)
    rintro (_ | _ | index) retried
    · cases retried
    · exact ⟨.closed, rfl⟩
    · cases retried

/-- A call meets a reset and tries again, and another one begins later. -/
theorem both_told_closed :
    let conn := machine.run start [.reset 0, .step 0 .done, .step 0 .reset, .step 0 .done,
      .step 0 .done, .step 0 .done, .step 1 .done, .step 1 .done]
    conn.closer = .idle ∧ conn.shared.streams = [.reset] ∧
      conn.calls 0 = ⟨true, .returned .closed⟩ ∧ conn.calls 1 = ⟨false, .returned .closed⟩ := by
  decide +kernel

end UdpConn

end Peerscale.Pbtunnel
