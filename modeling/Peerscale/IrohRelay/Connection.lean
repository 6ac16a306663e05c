import Peerscale.Foundation.Machine
import Peerscale.Foundation.Time
import Peerscale.IrohRelay.Datagram

/-! # A connection to a relay

The goroutine `runLoop` dials a relay, makes the handshake and starts a goroutine `readLoop`.
When the connection is lost it closes the websocket and dials again. A `readLoop` takes the
current websocket anew for each message, and tells `runLoop` of an error through a channel
with one slot.
-/

namespace Peerscale.IrohRelay

def relayPingInterval : Duration := 9 * second

abbrev WebSocket := Nat

/-- Where `runLoop` is: in `connect`, which is called before the loop or by
`connectWithBackoff`, in the wait of the latter, or in its loop. -/
inductive RunStage
  | connect (initially : Bool)
  | dial (initially : Bool)
  | readChallenge (initially : Bool) (ws : WebSocket)
  | sendAuth (initially : Bool) (ws : WebSocket)
  | readConfirmation (initially : Bool) (ws : WebSocket)
  | report (ws : WebSocket)
  | backoff
  | check
  | checkStop
  | wait
  | returned
  deriving DecidableEq

inductive ReadStage
  | checkStop
  | load
  | reading (ws : WebSocket)
  | sendPong
  | failed (ws : WebSocket)
  | returned
  deriving DecidableEq

structure ReadLoop where
  own : WebSocket
  stage : ReadStage
  deriving DecidableEq

structure ReadCall where
  readLoop : Nat
  ws : WebSocket
  reported : Bool
  deriving DecidableEq

inductive Message
  | empty
  | ping
  | pong (seq : Option Nat)
  | other
  deriving DecidableEq

/-- The fields of an `irohRelayConn`, the goroutines, and what has happened: the websockets
that have been reported as alive, the reads, and the websockets that have been shut down
because of an error, with the websocket that had it. The slot of `reconnectNow` has the
websocket with the error as well. -/
structure IrohRelayConn where
  state : IrohRelayState
  ws : Option WebSocket
  dialled : Nat
  closed : List WebSocket
  reconnectNow : Option WebSocket
  stopped : Bool
  lastRecv : Time
  pingSeq : Nat
  pendingPing : Nat
  runLoop : RunStage
  readLoops : List ReadLoop
  reported : List WebSocket
  reads : List ReadCall
  shutdowns : List (WebSocket × WebSocket)
  deriving DecidableEq

namespace IrohRelayConn

def newRelayConn (now : Time) : IrohRelayConn where
  state := .disconnected
  ws := none
  dialled := 0
  closed := []
  reconnectNow := none
  stopped := false
  lastRecv := now
  pingSeq := 0
  pendingPing := 0
  runLoop := .connect true
  readLoops := []
  reported := []
  reads := []
  shutdowns := []

variable (conn : IrohRelayConn)

def stop : IrohRelayConn := { conn with stopped := true }

def shutdown : IrohRelayConn :=
  { conn with state := .disconnected, ws := none, closed := conn.ws.toList ++ conn.closed }

def connectFails (initially : Bool) : IrohRelayConn :=
  { conn with
    state := .disconnected
    runLoop := if initially then .check else .backoff }

def handshakeFails (initially : Bool) (ws : WebSocket) : IrohRelayConn :=
  { conn.connectFails initially with closed := ws :: conn.closed }

/-- One step of `runLoop`, other than a case of its `select`. `ok` is what the network answers,
and `now` what the clock shows. -/
def advance (ok : Bool) (now : Time) : IrohRelayConn :=
  match conn.runLoop with
  | .connect initially =>
    { conn with state := .connecting, reconnectNow := none, runLoop := .dial initially }
  | .dial initially =>
    if ok then
      { conn with
        ws := some conn.dialled
        dialled := conn.dialled + 1
        state := .authenticating
        runLoop := .readChallenge initially conn.dialled }
    else conn.connectFails initially
  | .readChallenge initially ws =>
    if ok then { conn with runLoop := .sendAuth initially ws }
    else conn.handshakeFails initially ws
  | .sendAuth initially ws =>
    if ok then { conn with runLoop := .readConfirmation initially ws }
    else conn.handshakeFails initially ws
  | .readConfirmation initially ws =>
    if ok then
      { conn with readLoops := conn.readLoops ++ [⟨ws, .checkStop⟩], runLoop := .report ws }
    else conn.handshakeFails initially ws
  | .report ws =>
    { conn with
      lastRecv := now
      state := .alive
      reported := ws :: conn.reported
      runLoop := .check }
  | .backoff => { conn with runLoop := .connect false }
  | .check =>
    if conn.state = .alive then { conn with runLoop := .wait }
    else { conn.shutdown with runLoop := .checkStop }
  | .checkStop =>
    if conn.stopped then { conn with runLoop := .returned }
    else { conn with runLoop := .connect false }
  | .wait => conn
  | .returned => conn

def takeStop : IrohRelayConn :=
  if conn.stopped then
    match conn.runLoop with
    | .wait => { conn.shutdown with runLoop := .returned }
    | .backoff => { conn with runLoop := .check }
    | _ => conn
  else conn

def takeReconnect : IrohRelayConn :=
  match conn.runLoop, conn.reconnectNow with
  | .wait, some failed =>
    { conn.shutdown with
      reconnectNow := none
      shutdowns := (conn.ws.toList.map fun ws => (failed, ws)) ++ conn.shutdowns
      runLoop := .check }
  | _, _ => conn

def takeTick (now : Time) (written : Bool) : IrohRelayConn :=
  match conn.runLoop with
  | .wait =>
    if Time.sub now conn.lastRecv > relayPingInterval * 3 then
      { conn.shutdown with runLoop := .check }
    else if conn.pendingPing ≠ 0 then { conn with runLoop := .check }
    else
      let seq := (conn.pingSeq + 1) % 2 ^ 64
      let pinged := { conn with pingSeq := seq, pendingPing := seq, runLoop := .check }
      if conn.ws.isSome && written then pinged else pinged.shutdown
  | _ => conn

inductive ReadEvent
  | turn (written : Bool)
  | message (message : Message) (now : Time)
  | error
  deriving DecidableEq

def setStage (index : Nat) (stage : ReadStage) : IrohRelayConn :=
  { conn with
    readLoops := conn.readLoops.modify index fun readLoop => { readLoop with stage := stage } }

def handleMessage (index : Nat) (now : Time) : Message → IrohRelayConn
  | .empty => conn.setStage index .checkStop
  | .ping => { conn with lastRecv := now }.setStage index .sendPong
  | .pong seq =>
    { conn with
      lastRecv := now
      pendingPing := if seq = some conn.pendingPing then 0 else conn.pendingPing }.setStage
        index .checkStop
  | .other => { conn with lastRecv := now }.setStage index .checkStop

/-- One step of a `readLoop`. From a websocket that has been closed no message is read. -/
def advanceRead (index : Nat) (event : ReadEvent) : IrohRelayConn :=
  match conn.readLoops[index]? with
  | none => conn
  | some readLoop =>
    match readLoop.stage, event with
    | .checkStop, _ => conn.setStage index (if conn.stopped then .returned else .load)
    | .load, _ =>
      match conn.ws with
      | none => conn.setStage index .returned
      | some ws =>
        { conn with reads := ⟨index, ws, decide (ws ∈ conn.reported)⟩ :: conn.reads }.setStage
          index (.reading ws)
    | .reading ws, .message message now =>
      if ws ∈ conn.closed then conn else conn.handleMessage index now message
    | .reading ws, .error => conn.setStage index (.failed ws)
    | .sendPong, .turn written =>
      conn.setStage index (if conn.ws.isSome && written then .checkStop else .returned)
    | .failed ws, _ =>
      if conn.stopped then conn.setStage index .returned
      else
        { conn with reconnectNow := some (conn.reconnectNow.getD ws) }.setStage index .returned
    | _, _ => conn

inductive Action
  | advance (ok : Bool) (now : Time)
  | takeStop
  | takeReconnect
  | takeTick (now : Time) (written : Bool)
  | advanceRead (index : Nat) (event : ReadEvent)
  | stop
  deriving DecidableEq

def machine : Machine IrohRelayConn Action where
  act conn
    | .advance ok now => conn.advance ok now
    | .takeStop => conn.takeStop
    | .takeReconnect => conn.takeReconnect
    | .takeTick now written => conn.takeTick now written
    | .advanceRead index event => conn.advanceRead index event
    | .stop => conn.stop

end IrohRelayConn

end Peerscale.IrohRelay
