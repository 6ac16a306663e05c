import Peerscale.Foundation.GoValue
import Peerscale.Foundation.Machine

/-! # The path of a forwarded TCP connection

A client talks to `DriftServer.handleP2x`, that to `handleTunnel` over a libp2p stream, and
that to the target. Each handler has two goroutines that copy bytes, one from its TCP
connection to the stream and one back. The two connections and the stream deliver what is
written in order and without errors. Closing one of them ends both of its directions: the
other end finds the end of the stream after what has been written, and reads at this end
fail.
-/

namespace Peerscale.Pbtunnel

def bufSize : Nat := 3072

/-- One direction of a connection: what has been written and not yet read, whether the end
that writes has closed it, and whether the end that reads has. -/
structure Channel where
  buffer : Bytes
  ended : Bool
  dropped : Bool
  deriving DecidableEq

namespace Channel

def empty : Channel := ⟨[], false, false⟩

def write (channel : Channel) (bytes : Bytes) : Channel :=
  if channel.dropped then channel else { channel with buffer := channel.buffer ++ bytes }

def finish (channel : Channel) : Channel := { channel with ended := true }

def drop (channel : Channel) : Channel := { channel with dropped := true }

def Idle (channel : Channel) : Prop :=
  channel.buffer = [] ∧ channel.ended = false ∧ channel.dropped = false
  deriving Decidable

end Channel

/-- Where a goroutine is: before a read, before a write of the bytes that are left of the
last read, which may have come with an error, before the deferred calls, or at its end.
One of the goroutines calls `CloseWrite` before the deferred calls. -/
inductive Stage
  | reading
  | writing (first : UInt8) (rest : Bytes) (failed : Bool)
  | returning (halfCloses : Bool)
  | done
  deriving DecidableEq

def Stage.pending : Stage → Bytes
  | .writing first rest _ => first :: rest
  | _ => []

/-- What comes after a read, or after a part of a write: the write of what there is, and
then the error if there was one. -/
def Stage.after (halfCloses : Bool) (failed : Bool) : Bytes → Stage
  | [] => if failed then .returning halfCloses else .reading
  | first :: rest => .writing first rest failed

/-- One step of a loop that copies from `source` to `sink`. A read returns as much as the
network likes, and the end of the stream can come with the last bytes; `writen` writes a
part at a time. `flag` is whether the end comes with the bytes, and whether a write to an
end that has been closed fails. -/
def copy (halfCloses : Bool) (source sink : Channel) (stage : Stage) (amount : Nat)
    (flag : Bool) : Stage × Channel × Channel :=
  match stage with
  | .reading =>
    if source.dropped then (.returning halfCloses, source, sink)
    else
      let chunk := source.buffer.take (min bufSize (max 1 amount))
      let rest := source.buffer.drop (min bufSize (max 1 amount))
      let failed := source.ended && rest.isEmpty && (flag || chunk.isEmpty)
      (Stage.after halfCloses failed chunk, { source with buffer := rest }, sink)
  | .writing first rest failed =>
    if sink.ended || (sink.dropped && flag) then (.returning false, source, sink)
    else
      let count := max 1 amount
      (Stage.after halfCloses failed ((first :: rest).drop count), source,
        sink.write ((first :: rest).take count))
  | .returning halfCloses => (.returning halfCloses, source, sink)
  | .done => (.done, source, sink)

/-- One direction of the whole path: what its sender has sent and whether that has closed
its sending side, the connection of the sender, the goroutine that copies to the stream,
the stream, the goroutine that copies from it, the connection of the receiver, and what
that has received. -/
structure Lane where
  sent : Bytes
  closed : Bool
  into : Channel
  enter : Stage
  between : Channel
  leave : Stage
  out : Channel
  received : Bytes
  sawEnd : Bool
  deriving DecidableEq

namespace Lane

def start : Lane :=
  ⟨[], false, .empty, .reading, .empty, .reading, .empty, [], false⟩

def send (lane : Lane) (bytes : Bytes) : Lane :=
  if lane.closed then lane
  else { lane with sent := lane.sent ++ bytes, into := lane.into.write bytes }

def close (lane : Lane) : Lane := { lane with closed := true, into := lane.into.finish }

def copyIn (lane : Lane) (halfCloses : Bool) (amount : Nat) (flag : Bool) : Lane :=
  let (stage, source, sink) := copy halfCloses lane.into lane.between lane.enter amount flag
  { lane with enter := stage, into := source, between := sink }

def copyOut (lane : Lane) (amount : Nat) (flag : Bool) : Lane :=
  let (stage, source, sink) := copy false lane.between lane.out lane.leave amount flag
  { lane with leave := stage, between := source, out := sink }

def receive (lane : Lane) (amount : Nat) : Lane :=
  match lane.out.buffer with
  | [] => if lane.out.ended then { lane with sawEnd := true } else lane
  | first :: rest =>
    { lane with
      received := lane.received ++ (first :: rest).take (max 1 amount)
      out := { lane.out with buffer := (first :: rest).drop (max 1 amount) } }

end Lane

inductive Main
  | waiting
  | closing
  | returned
  deriving DecidableEq

/-- `up` is from the client to the target, `down` is back. -/
structure Path where
  up : Lane
  down : Lane
  handleP2x : Main
  handleTunnel : Main
  deriving DecidableEq

namespace Path

def start : Path := ⟨.start, .start, .waiting, .waiting⟩

def streamCloseP2x (path : Path) : Path :=
  { path with
    up := { path.up with between := path.up.between.finish }
    down := { path.down with between := path.down.between.drop } }

def connCloseP2x (path : Path) : Path :=
  { path with
    up := { path.up with into := path.up.into.drop }
    down := { path.down with out := path.down.out.finish } }

def closeStreamTunnel (path : Path) : Path :=
  { path with
    up := { path.up with between := path.up.between.drop }
    down := { path.down with between := path.down.between.finish } }

def connCloseTunnel (path : Path) : Path :=
  { path with
    up := { path.up with out := path.up.out.finish }
    down := { path.down with into := path.down.into.drop } }

/-- In `handleP2x`, from the connection to the stream: after an error of a read it calls
`CloseWrite`, and it always closes the stream. -/
def enterUp (path : Path) (amount : Nat) (flag : Bool) : Path :=
  match path.up.enter with
  | .returning true =>
    { path with
      up := { path.up with between := path.up.between.finish, enter := .returning false } }
  | .returning false =>
    { path.streamCloseP2x with up := { path.streamCloseP2x.up with enter := .done } }
  | _ => { path with up := path.up.copyIn true amount flag }

/-- In `handleTunnel`, from the stream to the connection: it closes the connection. -/
def leaveUp (path : Path) (amount : Nat) (flag : Bool) : Path :=
  match path.up.leave with
  | .returning _ =>
    { path.connCloseTunnel with up := { path.connCloseTunnel.up with leave := .done } }
  | _ => { path with up := path.up.copyOut amount flag }

def enterDown (path : Path) (amount : Nat) (flag : Bool) : Path :=
  match path.down.enter with
  | .returning _ => { path with down := { path.down with enter := .done } }
  | _ => { path with down := path.down.copyIn false amount flag }

/-- In `handleP2x`, from the stream to the connection: it closes the connection. -/
def leaveDown (path : Path) (amount : Nat) (flag : Bool) : Path :=
  match path.down.leave with
  | .returning _ =>
    { path.connCloseP2x with down := { path.connCloseP2x.down with leave := .done } }
  | _ => { path with down := path.down.copyOut amount flag }

def stepP2x (path : Path) : Path :=
  match path.handleP2x with
  | .waiting =>
    if path.up.enter = .done ∧ path.down.leave = .done then
      { path.streamCloseP2x with handleP2x := .closing }
    else path
  | .closing => { path.connCloseP2x with handleP2x := .returned }
  | .returned => path

def stepTunnel (path : Path) : Path :=
  match path.handleTunnel with
  | .waiting =>
    if path.down.enter = .done ∧ path.up.leave = .done then
      { path.connCloseTunnel with handleTunnel := .closing }
    else path
  | .closing => { path.closeStreamTunnel with handleTunnel := .returned }
  | .returned => path

inductive Move
  | enterUp (amount : Nat) (flag : Bool)
  | leaveUp (amount : Nat) (flag : Bool)
  | enterDown (amount : Nat) (flag : Bool)
  | leaveDown (amount : Nat) (flag : Bool)
  | handleP2x
  | handleTunnel
  | targetReads (amount : Nat)
  | clientReads (amount : Nat)
  deriving DecidableEq

def move (path : Path) : Move → Path
  | .enterUp amount flag => path.enterUp amount flag
  | .leaveUp amount flag => path.leaveUp amount flag
  | .enterDown amount flag => path.enterDown amount flag
  | .leaveDown amount flag => path.leaveDown amount flag
  | .handleP2x => path.stepP2x
  | .handleTunnel => path.stepTunnel
  | .targetReads amount => { path with up := path.up.receive amount }
  | .clientReads amount => { path with down := path.down.receive amount }

inductive Action
  | clientSends (bytes : Bytes)
  | clientCloses
  | targetSends (bytes : Bytes)
  | targetCloses
  | moves (move : Move)
  deriving DecidableEq

def act (path : Path) : Action → Path
  | .clientSends bytes => { path with up := path.up.send bytes }
  | .clientCloses => { path with up := path.up.close }
  | .targetSends bytes => { path with down := path.down.send bytes }
  | .targetCloses => { path with down := path.down.close }
  | .moves move => path.move move

def machine : Machine Path Action := ⟨act⟩

def Moves (path next : Path) : Prop := next ≠ path ∧ ∃ move, next = path.move move

/-- Each end has received what the other one has sent, and the end of the stream if the
other one has closed its sending side. -/
structure Delivered (path : Path) : Prop where
  up : path.up.received = path.up.sent ∧ (path.up.closed → path.up.sawEnd)
  down : path.down.received = path.down.sent ∧
    (path.down.closed → path.down.sawEnd)

end Path

end Peerscale.Pbtunnel
