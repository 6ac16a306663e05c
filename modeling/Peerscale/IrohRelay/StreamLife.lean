import Peerscale.Foundation.Goroutines
import Peerscale.Foundation.Machine
import Peerscale.IrohRelay.Pool

/-! # The life of a stream

Any number of calls of `Read` and `Write` on one stream, with `Close`, `Reset` and the frames
that come in for it. One step is what a call does while it holds the lock of the stream, or the
sending of one frame, which takes place without the lock. A `Read` that finds nothing waits on
`rxCond` until somebody wakes it.
-/

namespace Peerscale.IrohRelay

open StreamState

inductive ReaderStage
  | ready
  | parked
  | returned (result : ReadResult)
  deriving DecidableEq

structure Reader where
  count : Nat
  stage : ReaderStage
  deriving DecidableEq

structure WriteResult where
  written : Nat
  err : Option GoString
  deriving DecidableEq

structure Writer where
  total : Nat
  left : Bytes
  result : Option WriteResult
  deriving DecidableEq

def Reader.wake (reader : Reader) : Reader :=
  match reader.stage with
  | .parked => { reader with stage := .ready }
  | _ => reader

def Reader.run (state : StreamState) (reader : Reader) : Reader :=
  match reader.stage with
  | .ready =>
    { reader with
      stage := match (state.read reader.count).1 with
        | .waits => .parked
        | result => .returned result }
  | _ => reader

def newWriter (bytes : Bytes) : Writer where
  total := bytes.length
  left := bytes
  result := if bytes = [] then some ⟨0, none⟩ else none

def Writer.send (err : Option GoString) (writer : Writer) : Writer :=
  match writer.result, err with
  | some _, _ => writer
  | none, some err => { writer with result := some ⟨writer.total - writer.left.length, some err⟩ }
  | none, none =>
    let left := writer.left.drop maxDatagramPayload
    { writer with
      left := left
      result := if left = [] then some ⟨writer.total, none⟩ else none }

/-- A stream with the calls on it. `sent` are the frames that `Write` has sent, `ends` the flags
of the frames that `Close` and `Reset` have still to send; `ended` says whether one of the two
has been called. -/
structure StreamLife where
  id : UInt64
  state : StreamState
  readers : List Reader
  writers : List Writer
  sent : List Bytes
  ends : List UInt8
  signalled : List UInt8
  ended : Bool

def newStreamLife (id : UInt64) (remote : PublicKey) : StreamLife where
  id := id
  state := (newStream id remote).state
  readers := []
  writers := []
  sent := []
  ends := []
  signalled := []
  ended := false

namespace StreamLife

inductive Action
  | startRead (count : Nat)
  | read (index : Nat)
  | startWrite (bytes : Bytes)
  | send (index : Nat) (err : Option GoString)
  | close
  | reset
  | sendEnd (index : Nat) (err : Option GoString)
  | frame (flags : UInt8) (data : Bytes)

variable (life : StreamLife)

def broadcast : StreamLife := { life with readers := life.readers.map Reader.wake }

def read (index : Nat) : StreamLife :=
  match life.readers[index]? with
  | some ⟨count, .ready⟩ =>
    { life with
      state := (life.state.read count).2
      readers := life.readers.modify index (Reader.run life.state) }
  | _ => life

def send (index : Nat) (err : Option GoString) : StreamLife :=
  match life.writers[index]? with
  | some ⟨_, left, none⟩ =>
    { life with
      writers := life.writers.modify index (Writer.send err)
      sent := match err with
        | none => life.sent ++ [streamFrame life.id flagDATA (left.take maxDatagramPayload)]
        | some _ => life.sent }
  | _ => life

/-- The region of `Close`. It does not wake the readers. -/
def close : StreamLife :=
  if life.state.closed then { life with ended := true }
  else
    { life with
      state := { life.state with closed := true }
      ends := life.ends ++ [flagCLOSE]
      ended := true }

def reset : StreamLife :=
  { life with
    state := { life.state with reset := true, rxBuf := [] }
    ends := life.ends ++ [flagRESET]
    ended := true }.broadcast

def sendEnd (index : Nat) (err : Option GoString) : StreamLife :=
  match life.ends[index]? with
  | none => life
  | some flag =>
    { life with
      ends := life.ends.eraseIdx index
      signalled := match err with
        | none => life.signalled ++ [flag]
        | some _ => life.signalled }

def frame (flags : UInt8) (data : Bytes) : StreamLife :=
  let changed := { life with state := life.state.dispatch flags data }
  if flags = flagRESET ∨ flags = flagCLOSE ∨ flags = flagDATA then changed.broadcast else changed

def act : Action → StreamLife
  | .startRead count => { life with readers := life.readers ++ [⟨count, .ready⟩] }
  | .read index => life.read index
  | .startWrite bytes => { life with writers := life.writers ++ [newWriter bytes] }
  | .send index err => life.send index err
  | .close => life.close
  | .reset => life.reset
  | .sendEnd index err => life.sendEnd index err
  | .frame flags data => life.frame flags data

def machine : Machine StreamLife Action := ⟨act⟩

end StreamLife

def StreamState.Readable (state : StreamState) : Prop :=
  state.rxBuf ≠ [] ∨ state.closed ∨ state.reset

theorem StreamState.read_of_not_readable {state : StreamState} (nothing : ¬state.Readable)
    (n : Nat) : state.read n = (.waits, state) := by
  simp only [Readable, not_or, not_not, Bool.not_eq_true] at nothing
  simp [read, nothing]

theorem StreamState.read_waits {state : StreamState} (waits : (state.read n).1 = .waits) :
    ¬state.Readable := by
  simp only [Readable, not_or, not_not, Bool.not_eq_true]
  rw [read] at waits
  split at waits
  · rename_i empty
    split at waits
    · cases waits
    rename_i notReset
    split at waits
    · cases waits
    · rename_i notClosed
      exact ⟨empty, Bool.of_not_eq_true notClosed, Bool.of_not_eq_true notReset⟩
  · cases waits

theorem StreamState.read_rest (state : StreamState) (n : Nat) :
    (state.read n).2 = { state with rxBuf := state.rxBuf.drop n } := by
  rw [read]
  split
  · rename_i empty
    rw [empty, List.drop_nil, ← empty]
    split
    · rfl
    · split <;> rfl
  · rfl

theorem Reader.wake_ne_parked (rd : Reader) : rd.wake.stage ≠ .parked := by
  rw [wake]
  cases stage : rd.stage with
  | ready | returned => simp [stage]
  | parked => simp

theorem Reader.run_parked {rd : Reader} (parks : (rd.run state).stage = .parked)
    (ready : rd.stage = .ready) : ¬state.Readable := by
  simp only [run, ready] at parks
  cases found : (state.read rd.count).1 with
  | waits => exact read_waits found
  | data | eof | errClosed => simp [found] at parks

namespace StreamLife

variable {life : StreamLife}

theorem parked_broadcast : ∀ rd ∈ life.broadcast.readers, rd.stage ≠ .parked := by
  intro rd mem
  obtain ⟨pre, -, rfl⟩ := List.mem_map.mp mem
  exact pre.wake_ne_parked

def NoLostWakeup (life : StreamLife) : Prop :=
  ∀ reader ∈ life.readers, reader.stage = .parked → ¬life.state.Readable

theorem noLostWakeup_of_none (none : ∀ rd ∈ life.readers, rd.stage ≠ .parked) : life.NoLostWakeup :=
  fun rd mem parked => absurd parked (none rd mem)

theorem NoLostWakeup.read (none : life.NoLostWakeup) (index : Nat) :
    (life.read index).NoLostWakeup := by
  rw [StreamLife.read]
  split
  · rename_i n found
    intro rd mem parked
    rcases mem_modify mem with prev | ⟨pre, isBefore, rfl⟩
    · have nothing := none rd prev parked
      rw [life.state.read_of_not_readable nothing]
      exact nothing
    rw [found, Option.some.injEq] at isBefore
    have nothing := Reader.run_parked parked (by rw [← isBefore])
    rw [life.state.read_of_not_readable nothing]
    exact nothing
  · exact none

def ClosesUnwatched (life : StreamLife) : Action → Prop
  | .close => life.state.closed = false → ∀ reader ∈ life.readers, reader.stage ≠ .parked
  | _ => True

theorem noLostWakeup_act_iff (none : life.NoLostWakeup) (a : Action) :
    (life.act a).NoLostWakeup ↔ life.ClosesUnwatched a := by
  cases a with
  | startRead =>
    refine iff_of_true ?_ trivial
    intro rd mem parked
    rcases List.mem_append.mp mem with prev | new
    · exact none rd prev parked
    · rw [List.mem_singleton.mp new] at parked
      cases parked
  | read index => exact iff_of_true (none.read index) trivial
  | startWrite => exact iff_of_true none trivial
  | send =>
    refine iff_of_true ?_ trivial
    rw [act, send]
    split <;> exact none
  | close =>
    rw [act, close]
    split
    · rename_i closed
      exact iff_of_true none fun stillOpen => by simp [closed] at stillOpen
    rename_i stillOpen
    constructor
    · intro woken _ rd mem parked
      exact woken rd mem parked (.inr (.inl rfl))
    · intro unwatched
      exact noLostWakeup_of_none (unwatched (Bool.of_not_eq_true stillOpen))
  | reset => exact iff_of_true (noLostWakeup_of_none parked_broadcast) trivial
  | sendEnd =>
    refine iff_of_true ?_ trivial
    rw [act, sendEnd]
    split <;> exact none
  | frame flags data =>
    refine iff_of_true ?_ trivial
    rw [act, frame]
    split
    · exact noLostWakeup_of_none parked_broadcast
    rename_i ignored
    simp only [not_or] at ignored
    simpa [dispatch, ignored] using none

/-- No `Read` ever waits for something that is already there exactly if `Close` never closes
the stream while a `Read` is waiting. -/
theorem noLostWakeup_iff (id : UInt64) (remote : PublicKey) (actions : List Action) :
    machine.Always NoLostWakeup (newStreamLife id remote) actions ↔
      machine.Obeys ClosesUnwatched (newStreamLife id remote) actions := by
  apply Machine.always_iff_obeys_of_step
  · intro life action none
    exact noLostWakeup_act_iff none action
  · intro reader member
    cases member

def closedWhileReading : List Action := [.startRead 1, .read 0, .close]

def somebody : PublicKey := ⟨List.replicate 32 9, List.length_replicate⟩

theorem closedWhileReading_lost :
    (machine.run (newStreamLife 1000 somebody) closedWhileReading).readers = [⟨1, .parked⟩] ∧
      (machine.run (newStreamLife 1000 somebody) closedWhileReading).state.closed = true ∧
      ¬machine.Always NoLostWakeup (newStreamLife 1000 somebody) closedWhileReading := by
  refine ⟨rfl, rfl, ?_⟩
  intro always
  have lost := always closedWhileReading [] rfl ⟨1, .parked⟩ List.mem_cons_self rfl
  exact lost (.inr (.inl rfl))

def ReadsFail (life : StreamLife) : Prop :=
  life.state.reset → ∀ count, (life.state.read count).1 = .errClosed

/-- Once `Close` or `Reset` has been called, the step sends no frame for a `Write`, and no
`Write` returns in it without an error. -/
structure WriteFails (life after : StreamLife) : Prop where
  unsent : after.sent = life.sent
  failed : ∀ (index : Nat) (writer : Writer) (result : WriteResult),
    after.writers[index]? = some writer → writer.result = some result →
      life.writers[index]? = some writer ∨ result.err ≠ none

def WritesFail (life : StreamLife) (action : Action) : Prop :=
  life.ended → WriteFails life (life.act action)

def NoLateData (life : StreamLife) : Action → Prop
  | .frame flags data => life.state.reset → flags = flagDATA → data = []
  | _ => True

/-- After `Close` or `Reset`, a `Write` has something to send and cannot send it. -/
def NoLateWrite (life : StreamLife) : Action → Prop
  | .startWrite bytes => life.ended → bytes ≠ []
  | .send index err => life.ended → ∀ writer, life.writers[index]? = some writer →
      writer.result = none → err ≠ none
  | _ => True

theorem readsFail_iff : life.ReadsFail ↔ (life.state.reset → life.state.rxBuf = []) := by
  rw [ReadsFail]
  constructor
  · intro fails isReset
    have res := fails isReset 0
    rw [StreamState.read] at res
    split at res
    · rename_i empty
      exact empty
    · cases res
  · intro empty isReset n
    simp [StreamState.read, empty isReset, isReset]

theorem readsFail_frame_iff (fails : life.ReadsFail) (flags : UInt8) (data : Bytes) :
    (life.frame flags data).ReadsFail ↔ life.NoLateData (.frame flags data) := by
  have state : (life.frame flags data).state = life.state.dispatch flags data := by
    rw [frame]
    split <;> rfl
  rw [readsFail_iff] at fails
  rw [readsFail_iff, state, NoLateData, dispatch]
  by_cases isReset : flags = flagRESET
  · simp [isReset, show flagRESET ≠ flagDATA by decide]
  by_cases isClose : flags = flagCLOSE
  · simpa [isClose, show flagCLOSE ≠ flagRESET by decide,
      show flagCLOSE ≠ flagDATA by decide] using fails
  by_cases isData : flags = flagDATA
  · simp only [isData, show flagDATA ≠ flagRESET by decide,
      show flagDATA ≠ flagCLOSE by decide, if_false, if_true, List.append_eq_nil_iff,
      true_implies]
    constructor
    · intro both isReset
      exact (both isReset).2
    · intro empty isReset
      exact ⟨fails isReset, empty isReset⟩
  · simpa [isReset, isClose, isData] using fails

theorem readsFail_act_iff (fails : life.ReadsFail) (a : Action) :
    (life.act a).ReadsFail ↔ life.NoLateData a := by
  cases a with
  | startRead | startWrite => exact iff_of_true fails trivial
  | read =>
    refine iff_of_true ?_ trivial
    rw [act, read]
    split
    · rw [readsFail_iff] at fails ⊢
      simp only [read_rest]
      intro isReset
      simp [fails isReset]
    · exact fails
  | send =>
    refine iff_of_true ?_ trivial
    rw [act, send]
    split <;> exact fails
  | close =>
    refine iff_of_true ?_ trivial
    rw [readsFail_iff] at fails ⊢
    rw [act, close]
    split <;> exact fails
  | reset =>
    refine iff_of_true ?_ trivial
    rw [readsFail_iff]
    intro _
    rfl
  | sendEnd =>
    refine iff_of_true ?_ trivial
    rw [act, sendEnd]
    split <;> exact fails
  | frame flags data => exact readsFail_frame_iff fails flags data

theorem writeFails_of_same {post : StreamLife} (sent : post.sent = life.sent)
    (writers : post.writers = life.writers) : WriteFails life post where
  unsent := sent
  failed _ _ _ found _ := .inl (writers ▸ found)

theorem writeFails_startWrite_iff (bytes : Bytes) :
    WriteFails life (life.act (.startWrite bytes)) ↔ bytes ≠ [] := by
  have last : (life.act (.startWrite bytes)).writers[life.writers.length]? =
      some (newWriter bytes) := List.getElem?_concat_length
  constructor
  · intro fails empty
    have ret : (newWriter bytes).result = some ⟨0, none⟩ := by simp [newWriter, empty]
    rcases fails.failed _ _ _ last ret with prev | failed
    · rw [List.getElem?_eq_none (Nat.le_refl _)] at prev
      cases prev
    · exact failed rfl
  intro filled
  constructor
  · rfl
  intro index wr res found ret
  rcases getElem?_append_eq_some found with prev | ⟨-, isNew⟩
  · exact .inl prev
  · rw [isNew] at ret
    simp [newWriter, filled] at ret

theorem writeFails_send_iff (index : Nat) (err : Option GoString) :
    WriteFails life (life.act (.send index err)) ↔
      ∀ wr, life.writers[index]? = some wr → wr.result = none → err ≠ none := by
  rw [act, send]
  split
  · rename_i total left found
    have only : (∀ wr, life.writers[index]? = some wr → wr.result = none →
        err ≠ none) ↔ err ≠ none := by
      constructor
      · intro all
        exact all _ found rfl
      · intro some _ _ _
        exact some
    rw [only]
    cases err with
    | none =>
      refine iff_of_false ?_ (by simp)
      intro fails
      simpa using fails.unsent
    | some =>
      refine iff_of_true ⟨rfl, ?_⟩ (by simp)
      intro pos wr res isWriter ret
      rcases getElem?_modify_eq_some isWriter with ⟨-, same⟩ | ⟨-, pre, isBefore, rfl⟩
      · exact .inl same
      rw [found, Option.some.injEq] at isBefore
      right
      simp only [Writer.send, ← isBefore, Option.some.injEq] at ret
      simp [← ret]
  rename_i idle
  refine iff_of_true (writeFails_of_same rfl rfl) ?_
  intro wr found going
  exact absurd (by rw [found, ← going]) (idle wr.total wr.left)

theorem writesFail_iff (a : Action) : life.WritesFail a ↔ life.NoLateWrite a := by
  rw [WritesFail]
  cases a with
  | startRead | reset => exact iff_of_true (fun _ => writeFails_of_same rfl rfl) trivial
  | read =>
    refine iff_of_true (fun _ => ?_) trivial
    rw [act, read]
    split <;> exact writeFails_of_same rfl rfl
  | startWrite bytes => exact imp_congr Iff.rfl (writeFails_startWrite_iff bytes)
  | send index err => exact imp_congr Iff.rfl (writeFails_send_iff index err)
  | close =>
    refine iff_of_true (fun _ => ?_) trivial
    rw [act, close]
    split <;> exact writeFails_of_same rfl rfl
  | sendEnd =>
    refine iff_of_true (fun _ => ?_) trivial
    rw [act, sendEnd]
    split <;> exact writeFails_of_same rfl rfl
  | frame =>
    refine iff_of_true (fun _ => ?_) trivial
    rw [act, frame]
    split <;> exact writeFails_of_same rfl rfl

/-- The end states of a stream are final exactly if no data comes in after a reset and every
`Write` after `Close` or `Reset` has something to send and cannot send it. -/
theorem endStates_final_iff (id : UInt64) (remote : PublicKey) (actions : List Action) :
    (machine.Always ReadsFail (newStreamLife id remote) actions ∧
        machine.Obeys WritesFail (newStreamLife id remote) actions) ↔
      (machine.Obeys NoLateData (newStreamLife id remote) actions ∧
        machine.Obeys NoLateWrite (newStreamLife id remote) actions) := by
  have writes : WritesFail = NoLateWrite := by
    funext life action
    exact propext (writesFail_iff action)
  rw [writes]
  refine and_congr ?_ Iff.rfl
  apply Machine.always_iff_obeys_of_step
  · intro life action fails
    exact readsFail_act_iff fails action
  · intro isReset
    cases isReset

/-- Data comes in for a stream that has been reset, and is read; a frame is written to it. -/
def usedAfterReset : List Action :=
  [.reset, .frame flagDATA (ascii "late"), .startRead 4, .read 0, .startWrite (ascii "more"),
    .send 0 none]

theorem usedAfterReset_goes_on :
    (machine.run (newStreamLife 1000 somebody) usedAfterReset).state.reset = true ∧
      (machine.run (newStreamLife 1000 somebody) usedAfterReset).readers =
        [⟨4, .returned (.data (ascii "late"))⟩] ∧
      (machine.run (newStreamLife 1000 somebody) usedAfterReset).sent =
        [streamFrame 1000 flagDATA (ascii "more")] ∧
      (machine.run (newStreamLife 1000 somebody) usedAfterReset).writers =
        [⟨4, [], some ⟨4, none⟩⟩] ∧
      ¬(machine.Always ReadsFail (newStreamLife 1000 somebody) usedAfterReset ∧
        machine.Obeys WritesFail (newStreamLife 1000 somebody) usedAfterReset) := by
  refine ⟨by decide, by decide, by decide, by decide, ?_⟩
  intro final
  have late := final.1 [.reset, .frame flagDATA (ascii "late")] _ rfl rfl 4
  exact absurd late (by decide)

end StreamLife

end Peerscale.IrohRelay
