import Mathlib.Logic.Function.Basic
import Mathlib.Logic.Relation
import Peerscale.Foundation.GoValue
import Peerscale.Foundation.Machine

/-! # Messages by gossip and by forwarding

A message that a node publishes goes from neighbour to neighbour among the nodes that have
subscribed to its topic. The `topicListener` of the node that has published it also forwards it
to the peers of its database that are not among its neighbours, as a message with a sequence
number of its own. Each node remembers the IDs of the messages that it has seen.
-/

namespace Peerscale.P2put

variable {Peer : Type}

/-- Who has subscribed, `ListPeers` of the topic at each node, and the peers of its database. -/
structure Topology (Peer : Type) where
  subscribed : GoString → Peer → Bool
  listPeers : GoString → Peer → List Peer
  peerDB : Peer → List Peer
  listed : ∀ topic peer other, other ∈ listPeers topic peer → subscribed topic other
  distinct : ∀ peer, (peerDB peer).Nodup

structure Message (Peer : Type) where
  sender : Peer
  data : Bytes
  seqno : UInt64
  topic : GoString
  deriving DecidableEq

/-- `DefaultMsgIdFn`, which takes the sender and the sequence number. -/
abbrev MsgID (Peer : Type) := Peer × UInt64

def Message.id (message : Message Peer) : MsgID Peer := (message.sender, message.seqno)

def maxPublishSize : Nat := 2 ^ 20

/-- A message on its way to a peer, with the number that `ForwardToLimitedPeers` gives it. -/
structure Forward (Peer : Type) where
  target : Peer
  number : Nat
  seqno : UInt64
  deriving DecidableEq

structure Emission where
  number : Nat
  forwarded : Bool
  deriving DecidableEq

/-- The messages that a node has by gossip, the IDs that it has seen, which are not forgotten
before `dedupTTL`, and the events that it has emitted. -/
structure GossipNode (Peer : Type) where
  held : List Nat
  seenMsgIDs : List (MsgID Peer)
  emitted : List Emission

/-- All messages in the order of publication, by which they are numbered. -/
structure GossipNetwork (Peer : Type) where
  messages : List (Message Peer)
  forwards : List (Forward Peer)
  nodes : Peer → GossipNode Peer

namespace GossipNetwork

def start : GossipNetwork Peer := ⟨[], [], fun _ => ⟨[], [], []⟩⟩

variable [DecidableEq Peer] (topo : Topology Peer) (net : GossipNetwork Peer)

def setNode (peer : Peer) (node : GossipNode Peer) : GossipNetwork Peer :=
  { net with nodes := Function.update net.nodes peer node }

def hold (peer : Peer) (number : Nat) : GossipNetwork Peer :=
  net.setNode peer { net.nodes peer with held := number :: (net.nodes peer).held }

def publishTopic (peer : Peer) (topic : GoString) (data : Bytes) (seqno : UInt64) :
    GossipNetwork Peer :=
  if topo.subscribed topic peer ∧ data.length ≤ maxPublishSize then
    { net with messages := net.messages ++ [Message.mk peer data seqno topic] }.hold peer
      net.messages.length
  else net

def relay (source target : Peer) (number : Nat) : GossipNetwork Peer :=
  match net.messages[number]? with
  | none => net
  | some message =>
    if number ∈ (net.nodes source).held ∧
        target ∈ topo.listPeers message.topic source then
      net.hold target number
    else net

/-- The peers to which `ForwardToLimitedPeers` sends. A stream to the node itself is not
opened. -/
def limitedPeers (message : Message Peer) : List Peer :=
  (topo.peerDB message.sender).filter fun peer =>
    peer ∉ topo.listPeers message.topic message.sender ∧ peer ≠ message.sender

def emit (peer : Peer) (ids : List (MsgID Peer)) (emission : Emission) : GossipNetwork Peer :=
  net.setNode peer
    { net.nodes peer with
      seenMsgIDs := ids ++ (net.nodes peer).seenMsgIDs
      emitted := emission :: (net.nodes peer).emitted }

/-- A message comes to the `topicListener` of a node. `now` is what the clock shows. -/
def topicListener (peer : Peer) (number : Nat) (now : UInt64) : GossipNetwork Peer :=
  match net.messages[number]? with
  | none => net
  | some message =>
    if number ∈ (net.nodes peer).held ∧
        message.id ∉ (net.nodes peer).seenMsgIDs then
      if message.sender = peer then
        { net with
          forwards := net.forwards ++
            (limitedPeers topo message).map fun target => Forward.mk target number now }.emit
          peer [message.id, (peer, now)] ⟨number, false⟩
      else net.emit peer [message.id] ⟨number, false⟩
    else net

def handlePubSubFwdStream (index : Nat) : GossipNetwork Peer :=
  match net.forwards[index]? with
  | none => net
  | some forward =>
    match net.messages[forward.number]? with
    | none => net
    | some message =>
      let taken := { net with forwards := net.forwards.eraseIdx index }
      let id := (message.sender, forward.seqno)
      if id ∈ (net.nodes forward.target).seenMsgIDs then taken
      else taken.emit forward.target [id] ⟨forward.number, true⟩

inductive Action (Peer : Type)
  | publishTopic (peer : Peer) (topic : GoString) (data : Bytes) (seqno : UInt64)
  | relay (source target : Peer) (number : Nat)
  | topicListener (peer : Peer) (number : Nat) (now : UInt64)
  | handlePubSubFwdStream (index : Nat)
  deriving DecidableEq

def machine : Machine (GossipNetwork Peer) (Action Peer) where
  act net
    | .publishTopic peer topic data seqno => net.publishTopic topo peer topic data seqno
    | .relay source target number => net.relay topo source target number
    | .topicListener peer number now => net.topicListener topo peer number now
    | .handlePubSubFwdStream index => net.handlePubSubFwdStream index

end GossipNetwork

end Peerscale.P2put
