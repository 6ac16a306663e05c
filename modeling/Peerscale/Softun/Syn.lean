import Mathlib.Data.List.AList
import Mathlib.Tactic
import Peerscale.Foundation.Machine
import Peerscale.Foundation.Time
import Peerscale.Softun.Packets

/-! # SYNs to open and closed ports

`handleInboundTCP` marks the connection as pending, passes the SYN to the local stack and
looks whether the mark is still there. The stack answers a SYN to an open port before it
returns, and the answer removes the mark. Copies of a SYN share one mark.
-/

namespace Peerscale.Softun

open Packet

def synTTL : Duration := 30 * second

/-- A node with its local stack. The stack answers a SYN to an open port with a SYN-ACK in
the opposite direction; `drops` are the broadcast and multicast addresses, for which
`routeWrite` does nothing, and `peerIDByVirtAddr` is empty for the addresses of no peer. -/
structure Node where
  vtcp : Parser
  localAddr : Bool → Bytes
  drops : Addr → Bool
  peerIDByVirtAddr : Addr → GoString
  isOpen : Nat → Bool
  answer : Packet → Packet
  answers : ∀ pkt, isSynOnly pkt →
    (answer pkt).protocol = protocolTCP ∧ isSynAck (answer pkt) ∧
      (answer pkt).dstAddr = pkt.srcAddr ∧ field (answer pkt).payload 0 2 = field pkt.payload 2 2 ∧
      field (answer pkt).payload 2 2 = field pkt.payload 0 2

/-- Whether `routeWrite` passes a packet on: to the local stack, or to a peer of the VLAN. -/
def Node.routes (node : Node) (dst : Addr) : Bool :=
  !node.drops dst && (dst.bytes = node.localAddr dst.is6 ||
    vlanContains dst && node.peerIDByVirtAddr dst ≠ [])

variable {node : Node}

inductive Stage
  | ready
  | marked (since : Time)
  | sent (since : Time)
  | returned
  deriving DecidableEq

structure Call (node : Node) where
  packet : Packet
  key : SynKey
  syn : isSynOnly packet
  keyed : synKeyForPacket packet = some key
  isLocal : packet.dst = node.localAddr packet.is6
  stage : Stage

structure Handshakes (node : Node) where
  synPend : AList fun _ : SynKey => Time
  calls : List (Call node)
  resets : List (Packet × Reset)

namespace Handshakes

def start (node : Node) : Handshakes node := ⟨∅, [], []⟩

def takeSynPending (state : Handshakes node) (key : SynKey) : Bool × Handshakes node :=
  ((state.synPend.lookup key).isSome, { state with synPend := state.synPend.erase key })

def stale (state : Handshakes node) (now : Time) : List SynKey :=
  state.synPend.keys.filter fun key =>
    (state.synPend.lookup key).any fun since => Time.sub now since > synTTL

def reapSynPending (state : Handshakes node) (now : Time) : Handshakes node :=
  { state with
    synPend := (state.stale now).foldl (fun pending key => pending.erase key) state.synPend }

def clearSynPendingForPacket (state : Handshakes node) (pkt : Packet) : Handshakes node :=
  if pkt.protocol = protocolTCP ∧ isSynAck pkt then
    match synAckKeyFromPacket pkt with
    | some key => (state.takeSynPending key).2
    | none => state
  else state

def routeWrite (state : Handshakes node) (pkt : Packet) : Handshakes node :=
  if node.drops pkt.dstAddr then state else state.clearSynPendingForPacket pkt

def send (state : Handshakes node) (pkt : Packet) (port : Nat) : Handshakes node :=
  if node.isOpen port then state.routeWrite (node.answer pkt) else state

/-- A reset answers the packet, unless none can be made or `routeWrite` drops it. -/
def sendRST (state : Handshakes node) (pkt : Packet) : Handshakes node :=
  match buildRST node.vtcp pkt with
  | none => state
  | some rst =>
    if node.routes pkt.srcAddr then { state with resets := state.resets ++ [(pkt, rst)] } else state

def step (state : Handshakes node) (index : Nat) (call : Call node) (now : Time) :
    Handshakes node :=
  match call.stage with
  | .ready =>
    { state with
      synPend := state.synPend.insert call.key now
      calls := state.calls.set index { call with stage := .marked now } }
  | .marked since =>
    let sent := state.send call.packet call.key.localPort
    { sent with calls := state.calls.set index { call with stage := .sent since } }
  | .sent _ =>
    let (pending, taken) := state.takeSynPending call.key
    let answered := if pending then taken.sendRST call.packet else taken
    { answered with calls := state.calls.set index { call with stage := .returned } }
  | .returned => state

inductive Action
  | inbound (pkt : Packet)
  | step (index : Nat) (now : Time)
  | reap (now : Time)

def act (state : Handshakes node) : Action → Handshakes node
  | .inbound pkt =>
    match keyed : synKeyForPacket pkt with
    | none => state
    | some key =>
      if accepted : isSynOnly pkt ∧ pkt.dst = node.localAddr pkt.is6 then
        if pkt.protocol = protocolTCP then
          { state with
            calls := state.calls ++ [⟨pkt, key, accepted.1, keyed, accepted.2, .ready⟩] }
        else state
      else state
  | .step index now =>
    match state.calls[index]? with
    | none => state
    | some call => state.step index call now
  | .reap now => state.reapSynPending now

def machine (node : Node) : Machine (Handshakes node) Action := ⟨act⟩

def Answerable (node : Node) (pkt : Packet) : Prop :=
  (buildRST node.vtcp pkt).isSome ∧ node.routes pkt.srcAddr
  deriving Decidable

end Handshakes

theorem Call.synAckKeyFromPacket_answer (call : Call node) :
    synAckKeyFromPacket (node.answer call.packet) = some call.key := by
  rcases node.answers call.packet call.syn with ⟨-, isAck, addr, ports, rev⟩
  have long : ¬(node.answer call.packet).payload.length < 4 := by
    intro short
    rw [isSynAck, tcpFlags, if_pos (by omega)] at isAck
    cases isAck
  rw [synAckKeyFromPacket, if_neg long, addr, ports, rev, (synKeyForPacket_eq_some call.keyed).2]

theorem Call.tuple_eq {call other : Call node} (same : call.key = other.key) :
    call.packet.tuple = other.packet.tuple := by
  have own := (synKeyForPacket_eq_some call.keyed).2
  have others := (synKeyForPacket_eq_some other.keyed).2
  rw [same, others, SynKey.mk.injEq, srcAddr, srcAddr, Addr.mk.injEq] at own
  rcases own with ⟨⟨version, src⟩, remotePort, localPort⟩
  rw [tuple, tuple, srcAddr, srcAddr, dstAddr, dstAddr,
    call.isLocal, other.isLocal, version, src, remotePort, localPort]

namespace Handshakes

theorem send_eq (state : Handshakes node) (call : Call node)
    (answerable : Answerable node call.packet) :
    state.send call.packet call.key.localPort = if node.isOpen call.key.localPort then
        { state with synPend := state.synPend.erase call.key }
      else state := by
  rcases node.answers call.packet call.syn with ⟨protocol, isAck, addr, -⟩
  have kept : node.drops call.packet.srcAddr = false := by
    have routes := answerable.2
    rw [Node.routes, Bool.and_eq_true] at routes
    exact Bool.not_eq_true' _ ▸ routes.1
  rw [send]
  split
  · rw [routeWrite, addr, kept, if_neg (by decide), clearSynPendingForPacket,
      if_pos ⟨protocol, isAck⟩, call.synAckKeyFromPacket_answer]
    rfl
  · rfl

theorem sendRST_eq (state : Handshakes node) (answerable : Answerable node pkt) :
    ∃ rst, state.sendRST pkt = { state with resets := state.resets ++ [(pkt, rst)] } := by
  rcases Option.isSome_iff_exists.mp answerable.1 with ⟨rst, made⟩
  refine ⟨rst, ?_⟩
  rw [sendRST, made]
  exact if_pos answerable.2

inductive Effect (state : Handshakes node) : Action → Handshakes node → Prop
  | received {pkt : Packet} (call : Call node) (packet : call.packet = pkt)
      (ready : call.stage = .ready) :
      Effect state (.inbound pkt) { state with calls := state.calls ++ [call] }
  | marked {index : Nat} {call : Call node} (found : state.calls[index]? = some call)
      (ready : call.stage = .ready) (now : Time) :
      Effect state (.step index now)
        { state with
          synPend := state.synPend.insert call.key now
          calls := state.calls.set index { call with stage := .marked now } }
  | sent {index : Nat} {call : Call node} (found : state.calls[index]? = some call)
      (since now : Time) (isMarked : call.stage = .marked since) :
      Effect state (.step index now)
        { state with
          synPend := if node.isOpen call.key.localPort then state.synPend.erase call.key
            else state.synPend
          calls := state.calls.set index { call with stage := .sent since } }
  | answered {index : Nat} {call : Call node} (found : state.calls[index]? = some call)
      (since now : Time) (isSent : call.stage = .sent since)
      (pending : (state.synPend.lookup call.key).isSome) (rst : Reset) :
      Effect state (.step index now)
        { synPend := state.synPend.erase call.key
          calls := state.calls.set index { call with stage := .returned }
          resets := state.resets ++ [(call.packet, rst)] }
  | unanswered {index : Nat} {call : Call node} (found : state.calls[index]? = some call)
      (since now : Time) (isSent : call.stage = .sent since)
      (taken : state.synPend.lookup call.key = none) :
      Effect state (.step index now)
        { state with
          synPend := state.synPend.erase call.key
          calls := state.calls.set index { call with stage := .returned } }
  | reaped (now : Time) : Effect state (.reap now) (state.reapSynPending now)
  | nothing (action : Action) : Effect state action state

theorem effect_step {state : Handshakes node} (found : state.calls[index]? = some call)
    (answerable : Answerable node call.packet) (now : Time) :
    Effect state (.step index now) (state.step index call now) := by
  rw [step]
  split
  · rename_i ready
    exact Effect.marked found ready now
  · rename_i since isMarked
    have eff := Effect.sent found since now isMarked
    rw [state.send_eq call answerable]
    split
    · rename_i isOpen
      rw [if_pos isOpen] at eff
      exact eff
    rename_i closed
    rw [if_neg closed] at eff
    exact eff
  · rename_i since isSent
    dsimp only [takeSynPending]
    split
    · rename_i pending
      rcases sendRST_eq { state with synPend := state.synPend.erase call.key } answerable with
        ⟨rst, same⟩
      rw [same]
      exact Effect.answered found since now isSent pending rst
    · rename_i absent
      exact Effect.unanswered found since now isSent (Option.not_isSome_iff_eq_none.mp absent)
  · exact Effect.nothing _

theorem effect_act {state : Handshakes node}
    (answerable : ∀ call ∈ state.calls, Answerable node call.packet) (a : Action) :
    Effect state a (state.act a) := by
  cases a with
  | inbound =>
    rw [act]
    split
    · exact Effect.nothing _
    split
    · split
      · exact Effect.received _ rfl rfl
      · exact Effect.nothing _
    · exact Effect.nothing _
  | step index now =>
    rw [act]
    split
    · exact Effect.nothing _
    · rename_i call found
      exact effect_step found (answerable call (List.mem_of_getElem? found)) now
  | reap now => exact Effect.reaped now

end Handshakes

end Peerscale.Softun
