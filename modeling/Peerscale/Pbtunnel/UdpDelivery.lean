import Peerscale.Pbtunnel.Datagrams

/-! # Where datagrams arrive

The datagrams of a client arrive if the stream is opened with a protocol that goes to
`handleUDPTunnel`. `newUDPSession` opens it with `tunnelProto`, which goes to `handleTunnel`.
-/

namespace Peerscale.Pbtunnel

open P2put List

theorem Stream.protocol_read (stream : Stream) (amt : Nat) :
    (stream.read amt).1.protocol = stream.protocol := by
  rw [read]
  split
  · split <;> rfl
  · rfl

namespace DriftServer

variable {server : DriftServer}

theorem protocol_updateStream (server : DriftServer) (index : Nat)
    (keeps : ∀ stream, (change stream).protocol = stream.protocol) :
    (server.updateStream index change).streams.map Stream.protocol =
      server.streams.map Stream.protocol := by
  apply ext_getElem
  · simp [updateStream]
  intro pos x y
  simp only [updateStream, getElem_map, getElem_modify]
  split
  · exact keeps _
  · rfl

structure Misdirected (server : DriftServer) : Prop where
  protocols : ∀ protocol ∈ server.streams.map Stream.protocol, protocol = fullProtoID tunnelProto
  opened : server.sent ≠ [] ∨ server.udpSession.isSome → server.streams.map Stream.protocol ≠ []
  unopened : server.sent = [] → server.streams = []
  received : server.received = []

namespace Misdirected

theorem updateStream (misdirected : server.Misdirected) (index : Nat) (change : Stream → Stream)
    (keeps : ∀ stream, (change stream).protocol = stream.protocol) :
    (server.updateStream index change).Misdirected := by
  have same := protocol_updateStream server index keeps
  refine ⟨?_, ?_, ?_, misdirected.received⟩
  · rw [same]
    exact misdirected.protocols
  · rw [same]
    exact misdirected.opened
  intro unsent
  rw [DriftServer.updateStream, misdirected.unopened unsent]
  exact modify_nil ..

theorem removeUDPSession (misdirected : server.Misdirected) :
    server.removeUDPSession.Misdirected := by
  rw [DriftServer.removeUDPSession]
  split
  · rename_i session _
    have closed := misdirected.updateStream session.stream
      (fun stream => { stream with closed := true }) fun _ => rfl
    refine ⟨closed.protocols, ?_, closed.unopened, closed.received⟩
    rintro (sent | session)
    · exact closed.opened (.inl sent)
    · cases session
  · exact misdirected

theorem readFrom (misdirected : server.Misdirected) (data : Datagram) (now : Time)
    (served : Bool) : (server.readFrom tunnelProto data now served).Misdirected := by
  rw [DriftServer.readFrom]
  split
  · exact misdirected
  split
  · rename_i session found
    have opened := misdirected.opened (.inr (by rw [found]; rfl))
    refine ⟨misdirected.protocols, fun _ => opened, ?_, misdirected.received⟩
    intro unsent
    exact absurd unsent (append_ne_nil_of_right_ne_nil _ (cons_ne_nil _ _))
  rw [newUDPSession, dispatch_tunnelProto]
  refine ⟨?_, ?_, ?_, misdirected.received⟩
  · intro protocol mem
    rw [map_append, mem_append, map_singleton, mem_singleton] at mem
    rcases mem with pre | new
    · exact misdirected.protocols protocol pre
    · exact new
  · intro _ none
    rw [map_append, map_singleton] at none
    exact append_ne_nil_of_right_ne_nil _ (cons_ne_nil _ _) none
  · intro unsent
    exact absurd unsent (append_ne_nil_of_right_ne_nil _ (cons_ne_nil _ _))

theorem read_eq_nil {stream : Stream} (tunnelled : stream.protocol = fullProtoID tunnelProto)
    (amt : Nat) : (stream.read amt).2 = [] := by
  rw [Stream.read, tunnelled, dispatch_tunnelProto]
  split <;> rfl

theorem handle (misdirected : server.Misdirected) (index amt : Nat) :
    (server.handle index amt).Misdirected := by
  rw [DriftServer.handle]
  split
  · exact misdirected
  rename_i stream found
  have updated := misdirected.updateStream index (fun stream => (stream.read amt).1)
    fun stream => stream.protocol_read amt
  refine ⟨updated.protocols, updated.opened, updated.unopened, ?_⟩
  have tunnelled := misdirected.protocols stream.protocol (mem_map_of_mem (mem_of_getElem? found))
  rw [misdirected.received, read_eq_nil tunnelled]
  rfl

theorem act (misdirected : server.Misdirected) (a : Action) :
    ((machine tunnelProto).act server a).Misdirected := by
  cases a with
  | readFrom data now served => exact misdirected.readFrom data now served
  | write fails =>
    dsimp only [machine]
    rw [write]
    split
    · exact misdirected
    split
    · exact misdirected
    split
    · have removed := misdirected.removeUDPSession
      exact ⟨removed.protocols, removed.opened, removed.unopened, removed.received⟩
    rename_i index bytes _ _ _ _ _
    have updated := misdirected.updateStream index
      (fun stream => { stream with queue := stream.queue ++ bytes }) fun _ => rfl
    exact ⟨updated.protocols, updated.opened, updated.unopened, updated.received⟩
  | writeTo index now =>
    dsimp only [machine]
    rw [writeTo]
    split
    · rename_i session found
      split
      · have opened := misdirected.opened (.inr (by rw [found]; rfl))
        exact ⟨misdirected.protocols, fun _ => opened, misdirected.unopened, misdirected.received⟩
      · exact misdirected
    · exact misdirected
  | reapUDP =>
    dsimp only [machine]
    rw [reapUDP]
    split
    · split
      · exact misdirected.removeUDPSession
      · exact misdirected
    · exact misdirected
  | handle index amt => exact misdirected.handle index amt

end Misdirected

theorem misdirected_listenUDP : listenUDP.Misdirected where
  protocols _ mem := by cases mem
  opened := by
    rintro (sent | session)
    · exact absurd rfl sent
    · cases session
  unopened _ := rfl
  received := rfl

theorem misdirected_run (acts : List Action) :
    ((machine tunnelProto).run listenUDP acts).Misdirected :=
  Machine.invariant misdirected_listenUDP (fun _ a misdirected => misdirected.act a) acts

structure Delivered (server : DriftServer) : Prop where
  dispatched : ∀ stream ∈ server.streams, handlers.Dispatches stream.protocol .handleUDPTunnel
  received : server.received = server.sent

/-- `newUDPSession` opens its streams with `tunnelProto`, so that nothing ever arrives. -/
theorem delivered_iff (actions : List Action) :
    ((machine tunnelProto).run listenUDP actions).Delivered ↔
      ((machine tunnelProto).run listenUDP actions).sent = [] := by
  have misdirected := misdirected_run actions
  constructor
  · intro delivered
    rw [← delivered.received, misdirected.received]
  intro unsent
  refine ⟨?_, by rw [misdirected.received, unsent]⟩
  rw [misdirected.unopened unsent]
  intro stream member
  cases member

theorem misdirects_hi : let actions : List Action :=
      [.readFrom ⟨ascii "hi", by decide⟩ 0 true, .write false, .handle 0 100]
    let server := (machine tunnelProto).run listenUDP actions
    server.sent = [ascii "hi"] ∧ server.received = [] ∧ server.writing = none ∧
      server.streams.map Stream.queue = [[]] ∧
      server.streams.map Stream.forwarded = [[0, 2] ++ ascii "hi"] ∧ ¬server.Delivered := by
  refine ⟨by decide +kernel, by decide +kernel, by decide +kernel, by decide +kernel,
    by decide +kernel, ?_⟩
  intro delivered
  exact absurd delivered.received (by decide +kernel)

end DriftServer

end Peerscale.Pbtunnel
