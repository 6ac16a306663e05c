import Peerscale.Foundation.Machine
import Peerscale.Foundation.Time
import Peerscale.P2put.Protocols

/-! # Datagrams over streams

`DriftServer.ListenUDP` opens a stream for a client, to which it writes the datagrams of the
client, each after its length. On the other node the stream goes to the handler of its
protocol. `handleUDPTunnel` takes the datagrams apart again, and `handleTunnel` copies the
bytes to a TCP connection.
-/

namespace Peerscale.Pbtunnel

open P2put

def tunnelProto : GoString := ascii "tunnel/1.0"
def udpTunnelProto : GoString := ascii "udptunnel/1.0"

inductive Service
  | handlePushStream
  | handlePubSubFwdStream
  | handleFileStream
  | echo
  | handleExec
  | ipTunnel
  | handleTunnel
  | handleUDPTunnel
  deriving DecidableEq

def registrations : List (Protocols.Call Service) :=
  [.register (ascii "push/1.0") .handlePushStream false,
    .register (ascii "pubsub/1.0") .handlePubSubFwdStream false,
    .register (ascii "file/1.0") .handleFileStream false,
    .register (ascii "echo/1.0") .echo false,
    .register (ascii "shexec/1.0") .handleExec false,
    .register (ascii "iptunnel/1.0") .ipTunnel true,
    .register tunnelProto .handleTunnel true,
    .register udpTunnelProto .handleUDPTunnel true]

def handlers : Mux Service := (Protocols.start.run registrations).createHost.mux

theorem dispatch_tunnelProto :
    handlers.dispatch (fullProtoID tunnelProto) = some .handleTunnel := by
  decide +kernel

abbrev Datagram := { data : Bytes // data.length ≤ 65507 }

/-- A datagram as it is written to the stream. The length is taken as a `uint16`. -/
def frame (data : Bytes) : Bytes := bigEndian 2 data.length ++ data

inductive Decoder
  | header (buf : Bytes)
  | body (length : Nat) (buf : Bytes)
  deriving DecidableEq

namespace Decoder

def fill (length : Nat) (buf : Bytes) : Decoder × List Bytes :=
  if buf.length < length then (.body length buf, []) else (.header [], [buf])

def take (byte : UInt8) : Decoder → Decoder × List Bytes
  | .header buf =>
    if buf.length = 0 then (.header (buf ++ [byte]), [])
    else fill (ofBigEndian (buf ++ [byte])) []
  | .body length buf => fill length (buf ++ [byte])

/-- However the bytes are split into reads, `io.ReadFull` waits for what is missing. -/
def feed (decoder : Decoder) : Bytes → Decoder × List Bytes
  | [] => (decoder, [])
  | byte :: bytes =>
    let (next, data) := decoder.take byte
    let (last, more) := next.feed bytes
    (last, data ++ more)

end Decoder

/-- A stream to the other node: whether the handler there has reached its target, what has
been written to the stream and not read, and what the handler has done with the rest. -/
structure Stream where
  protocol : ProtocolID
  served : Bool
  closed : Bool
  queue : Bytes
  decoder : Decoder
  forwarded : Bytes
  deriving DecidableEq

/-- The handler reads from the stream. The datagrams that it passes on are returned; the other
handlers do not use the targets of this package. -/
def Stream.read (stream : Stream) (amount : Nat) : Stream × List Bytes :=
  if stream.served then
    let bytes := stream.queue.take amount
    let rest := { stream with queue := stream.queue.drop amount }
    match handlers.dispatch stream.protocol with
    | some .handleUDPTunnel =>
      let (decoder, data) := stream.decoder.feed bytes
      ({ rest with decoder := decoder }, data)
    | some .handleTunnel => ({ rest with forwarded := stream.forwarded ++ bytes }, [])
    | _ => (rest, [])
  else (stream, [])

structure UdpSession where
  stream : Nat
  lastUse : Time
  deriving DecidableEq

/-- A server and the other node, as far as one client is concerned: the session of its
address, all streams that have been opened for it, what `ListenUDP` is about to write to one
of them, the datagrams that it has sent, and those that the UDP target has received. -/
structure DriftServer where
  udpSession : Option UdpSession
  streams : List Stream
  writing : Option (Nat × Bytes)
  sent : List Bytes
  received : List Bytes
  deriving DecidableEq

namespace DriftServer

def udpTimeout : Duration := 5 * minute

def listenUDP : DriftServer := ⟨none, [], none, [], []⟩

variable (srv : DriftServer)

def updateStream (index : Nat) (change : Stream → Stream) : DriftServer :=
  { srv with streams := srv.streams.modify index change }

def removeUDPSession : DriftServer :=
  match srv.udpSession with
  | some session =>
    { srv.updateStream session.stream fun stream => { stream with closed := true } with
      udpSession := none }
  | none => srv

/-- A new session, if the other node has a handler. `rdproto` is the name of the protocol. -/
def newUDPSession (rdproto : GoString) (now : Time) (served : Bool) : DriftServer :=
  match handlers.dispatch (fullProtoID rdproto) with
  | some _ =>
    { srv with
      udpSession := some ⟨srv.streams.length, now⟩
      streams := srv.streams ++ [⟨fullProtoID rdproto, served, false, [], .header [], []⟩] }
  | none => srv

def readFrom (rdproto : GoString) (data : Datagram) (now : Time) (served : Bool) : DriftServer :=
  match srv.writing with
  | some _ => srv
  | none =>
    let found : DriftServer := match srv.udpSession with
      | some session => { srv with udpSession := some { session with lastUse := now } }
      | none => srv.newUDPSession rdproto now served
    { found with
      sent := srv.sent ++ [data.val]
      writing := found.udpSession.map fun session => (session.stream, frame data) }

/-- The write fails if the stream has been closed, and may do so if the handler of the other
node has gone. -/
def write (fails : Bool) : DriftServer :=
  match srv.writing with
  | none => srv
  | some (index, bytes) =>
    match srv.streams[index]? with
    | none => srv
    | some stream =>
      if stream.closed || (fails && !stream.served) then
        { srv.removeUDPSession with writing := none }
      else
        { srv.updateStream index fun stream => { stream with queue := stream.queue ++ bytes } with
          writing := none }

def writeTo (index : Nat) (now : Time) : DriftServer :=
  match srv.udpSession with
  | some session =>
    if session.stream = index then
      { srv with udpSession := some { session with lastUse := now } }
    else srv
  | none => srv

def reapUDP (now : Time) : DriftServer :=
  match srv.udpSession with
  | some session =>
    if Time.sub now session.lastUse > udpTimeout then srv.removeUDPSession else srv
  | none => srv

def handle (index amount : Nat) : DriftServer :=
  match srv.streams[index]? with
  | none => srv
  | some stream =>
    { srv.updateStream index fun stream => (stream.read amount).1 with
      received := srv.received ++ (stream.read amount).2 }

inductive Action
  | readFrom (data : Datagram) (now : Time) (served : Bool)
  | write (fails : Bool)
  | writeTo (index : Nat) (now : Time)
  | reapUDP (now : Time)
  | handle (index amount : Nat)
  deriving DecidableEq

def machine (rdproto : GoString) : Machine DriftServer Action where
  act srv
    | .readFrom data now served => srv.readFrom rdproto data now served
    | .write fails => srv.write fails
    | .writeTo index now => srv.writeTo index now
    | .reapUDP now => srv.reapUDP now
    | .handle index amount => srv.handle index amount

end DriftServer

end Peerscale.Pbtunnel
