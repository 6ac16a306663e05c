import Peerscale.Foundation.FileSystem
import Peerscale.Foundation.Program
import Peerscale.RelayFile.Wire

/-! # The receiver's operations

Everything a receive session does to the outside: files, the stream, the session
table and progress callbacks. `outcome` says how each operation may be answered
when any of them can fail; `handle` is the fault-free answer.
-/

namespace Peerscale.RelayFile

abbrev Files := FileSystem GoString

inductive TransferState
  | init
  | transfer
  | done
  | error
  | cancelled
  deriving DecidableEq

structure FileProgress where
  sessionID : GoString
  peerID : GoString
  name : GoString
  totalBytes : Int
  doneBytes : Int
  totalChunks : Int
  doneChunks : Int
  state : TransferState
  err : Option GoString
  deriving DecidableEq

/-- What belongs to one session: its `state` field, its entry in `sessions`, its
stream and its callback. `opened` records the descriptor of its `.part` file. -/
structure Local where
  state : TransferState
  registered : Bool
  streamClosed : Bool
  sent : List Reply
  progress : List FileProgress
  callback : Bool
  opened : Option Nat

/-- A session that has not started; `callback` tells whether one is registered
for the remote peer. -/
def Local.fresh (callback : Bool) : Local where
  state := .init
  registered := false
  streamClosed := false
  sent := []
  progress := []
  callback := callback
  opened := none

structure World where
  files : Files
  self : Local

inductive Op
  | mkdirAll (path : GoString)
  | openFile (path : GoString)
  | create (path : GoString)
  | stat (descriptor : Nat)
  | seek (descriptor : Nat) (offset : Int)
  | write (descriptor : Nat) (data : Bytes)
  | sync (descriptor : Nat)
  | close (descriptor : Nat)
  | readFile (path : GoString)
  | rename (source target : GoString)
  | remove (path : GoString)
  | send (reply : Reply)
  | closeStream
  | storeSession
  | deleteSession
  | cancelSession
  | beginCleanup
  | setDone
  | getRecvCB
  | report (progress : FileProgress)
  deriving DecidableEq

/-- Answers; an `Option GoString` is the error, if any. -/
abbrev Response : Op → Type
  | .mkdirAll _ => Option GoString
  | .openFile _ => Option Nat
  | .create _ => Except GoString Nat
  | .stat _ => Nat
  | .write _ _ => Option GoString
  | .readFile _ => Except GoString Bytes
  | .rename _ _ => Option GoString
  | .send _ => Option GoString
  | .beginCleanup => Bool
  | .getRecvCB => Bool
  | .seek _ _ | .sync _ | .close _ | .remove _ | .closeStream | .storeSession
  | .deleteSession | .cancelSession | .setDone | .report _ => Unit

abbrev Prog := Program Op Response GoPanic

def call (op : Op) : Prog (Response op) := Program.ask op

@[simp] theorem call_bind (op : Op) (cont : Response op → Prog α) :
    (call op >>= cont) = .perform op cont := rfl

namespace World

def withFiles (world : World) (files : Files) : World := { world with files := files }

def opened (world : World) (descriptor : Nat) (files : Files) : World :=
  { files := files, self := { world.self with opened := some descriptor } }

def seek (world : World) (descriptor : Nat) (offset : Int) : World :=
  -- A negative offset is refused by the system; the code ignores the error.
  if offset < 0 then world else world.withFiles (world.files.seek descriptor offset.toNat)

def sent (world : World) (reply : Reply) : World :=
  { world with self := { world.self with sent := world.self.sent ++ [reply] } }

def cleaned (world : World) : World :=
  { world with self := { world.self with state := .error } }

def isTerminal (world : World) : Bool :=
  world.self.state = .done ∨ world.self.state = .error ∨ world.self.state = .cancelled

def closedStream (world : World) : World :=
  { world with self := { world.self with streamClosed := true } }

def stored (world : World) : World :=
  { world with self := { world.self with registered := true, state := .transfer } }

def deleted (world : World) : World :=
  { world with self := { world.self with registered := false } }

/-- `CancelFileSession`, which finds the session only while it is registered. -/
def cancelled (world : World) : World :=
  if world.self.registered then
    { world with self := { world.self with state := .cancelled } }
  else world

def finished (world : World) : World :=
  { world with self := { world.self with state := .done } }

def reported (world : World) (progress : FileProgress) : World :=
  { world with self := { world.self with progress := world.self.progress ++ [progress] } }

end World

/-- How an operation may be answered. A failing write leaves any part of its data
behind; a removal may fail unnoticed; whether a callback is registered may change
at any time. -/
def outcome : (op : Op) → World → Response op → World → Prop
  | .mkdirAll _, world, _, after => after = world
  | .openFile path, world, answer, after =>
    (answer = none ∧ after = world) ∨ ∃ descriptor files, answer = some descriptor ∧
        world.files.openExisting path = some (descriptor, files) ∧
        after = world.opened descriptor files
  | .create path, world, answer, after =>
    (∃ reason, answer = .error reason ∧ after = world) ∨ (answer = .ok (world.files.create path).1 ∧
        after = world.opened (world.files.create path).1 (world.files.create path).2)
  | .stat descriptor, world, answer, after => answer = world.files.size descriptor ∧ after = world
  | .seek descriptor offset, world, _, after => after = world.seek descriptor offset
  | .write descriptor data, world, answer, after =>
    (answer = none ∧ after = world.withFiles (world.files.write descriptor data)) ∨
      ∃ reason written, answer = some reason ∧
        after = world.withFiles (world.files.write descriptor (data.take written))
  | .sync _, world, _, after => after = world
  | .close descriptor, world, _, after => after = world.withFiles (world.files.close descriptor)
  | .readFile path, world, answer, after =>
    after = world ∧ ((∃ reason, answer = .error reason) ∨
        ∃ bytes, answer = .ok bytes ∧ world.files.read path = some bytes)
  | .rename source target, world, answer, after =>
    (∃ reason, answer = some reason ∧ after = world) ∨
      ∃ files, answer = none ∧ world.files.rename source target = some files ∧
        after = world.withFiles files
  | .remove path, world, _, after =>
    after = world ∨ after = world.withFiles (world.files.remove path)
  | .send reply, world, answer, after =>
    (∃ reason, answer = some reason ∧ after = world) ∨ (answer = none ∧ after = world.sent reply)
  | .closeStream, world, _, after => after = world.closedStream
  | .storeSession, world, _, after => after = world.stored
  | .deleteSession, world, _, after => after = world.deleted
  | .cancelSession, world, _, after => after = world.cancelled
  | .beginCleanup, world, answer, after =>
    answer = !world.isTerminal ∧ after = if world.isTerminal then world else world.cleaned
  | .setDone, world, _, after => after = world.finished
  | .getRecvCB, world, _, after => after = world
  | .report progress, world, _, after => after = world.reported progress

def handle : (op : Op) → World → Response op × World
  | .mkdirAll _, world => (none, world)
  | .openFile path, world =>
    match world.files.openExisting path with
    | some (descriptor, files) => (some descriptor, world.opened descriptor files)
    | none => (none, world)
  | .create path, world =>
    (.ok (world.files.create path).1,
      world.opened (world.files.create path).1 (world.files.create path).2)
  | .stat descriptor, world => (world.files.size descriptor, world)
  | .seek descriptor offset, world => ((), world.seek descriptor offset)
  | .write descriptor data, world => (none, world.withFiles (world.files.write descriptor data))
  | .sync _, world => ((), world)
  | .close descriptor, world => ((), world.withFiles (world.files.close descriptor))
  | .readFile path, world =>
    match world.files.read path with
    | some bytes => (.ok bytes, world)
    | none => (.error (ascii "no such file or directory"), world)
  | .rename source target, world =>
    match world.files.rename source target with
    | some files => (none, world.withFiles files)
    | none => (some (ascii "no such file or directory"), world)
  | .remove path, world => ((), world.withFiles (world.files.remove path))
  | .send reply, world => (none, world.sent reply)
  | .closeStream, world => ((), world.closedStream)
  | .storeSession, world => ((), world.stored)
  | .deleteSession, world => ((), world.deleted)
  | .cancelSession, world => ((), world.cancelled)
  | .beginCleanup, world => if world.isTerminal then (false, world) else (true, world.cleaned)
  | .setDone, world => ((), world.finished)
  | .getRecvCB, world => (world.self.callback, world)
  | .report progress, world => ((), world.reported progress)

theorem outcome_handle (op : Op) (w : World) : outcome op w (handle op w).1 (handle op w).2 := by
  cases op with
  | openFile path =>
    cases found : w.files.openExisting path with
    | none => simp [outcome, handle, found]
    | some pair =>
      rcases pair with ⟨fd, files⟩
      simp [outcome, handle, found]
  | readFile path =>
    cases found : w.files.read path with
    | none | some => simp [outcome, handle, found]
  | rename src target =>
    cases found : w.files.rename src target with
    | none | some => simp [outcome, handle, found]
  | beginCleanup =>
    cases terminal : w.isTerminal with
    | false | true => simp [outcome, handle, terminal]
  | _ => simp [outcome, handle]

end Peerscale.RelayFile
