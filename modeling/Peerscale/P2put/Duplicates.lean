import Peerscale.P2put.Gossip

/-! # One event for a message

A forwarded message has another ID than the one that goes by gossip, so that a node that gets
both emits two events. This does not happen if and only if no peer that is forwarded to can be
reached by gossip.
-/

namespace Peerscale.P2put

open List

variable {Peer : Type}

namespace Topology

variable (topo : Topology Peer)

def Reachable (topic : GoString) : Peer → Peer → Prop :=
  Relation.ReflTransGen fun source target => target ∈ topo.listPeers topic source

/-- What a publisher knows of and can be reached by gossip is one of its neighbours. -/
def Direct : Prop :=
  ∀ topic publisher, topo.subscribed topic publisher →
    ∀ peer ∈ topo.peerDB publisher, peer ≠ publisher →
      topo.Reachable topic publisher peer → peer ∈ topo.listPeers topic publisher

end Topology

namespace GossipNetwork

def AtMostOnce (topo : Topology Peer) (net : GossipNetwork Peer) : Prop :=
  ∀ peer num msg, net.messages[num]? = some msg → topo.subscribed msg.topic peer →
      ((net.nodes peer).emitted.filter fun emission => emission.number = num).length ≤ 1

variable [DecidableEq Peer] {topo : Topology Peer} {net : GossipNetwork Peer}

section Nodes

variable (net) (peer other : Peer)

theorem mem_held_hold :
    held ∈ ((net.hold peer num).nodes other).held ↔
      other = peer ∧ held = num ∨ held ∈ (net.nodes other).held := by
  by_cases same : other = peer
  · subst same
    simp [hold, setNode]
  · simp [hold, setNode, same]

@[simp] theorem seenMsgIDs_hold (num : Nat) : ((net.hold peer num).nodes other).seenMsgIDs =
      (net.nodes other).seenMsgIDs := by
  by_cases same : other = peer
  · subst same
    simp [hold, setNode]
  · simp [hold, setNode, same]

@[simp] theorem emitted_hold (num : Nat) :
    ((net.hold peer num).nodes other).emitted = (net.nodes other).emitted := by
  by_cases same : other = peer
  · subst same
    simp [hold, setNode]
  · simp [hold, setNode, same]

variable (ids : List (MsgID Peer)) (emission : Emission)

@[simp] theorem held_emit :
    ((net.emit peer ids emission).nodes other).held = (net.nodes other).held := by
  by_cases same : other = peer
  · subst same
    simp [emit, setNode]
  · simp [emit, setNode, same]

theorem mem_seenMsgIDs_emit {id : MsgID Peer} :
    id ∈ ((net.emit peer ids emission).nodes other).seenMsgIDs ↔
      other = peer ∧ id ∈ ids ∨ id ∈ (net.nodes other).seenMsgIDs := by
  by_cases same : other = peer
  · subst same
    simp [emit, setNode]
  · simp [emit, setNode, same]

theorem mem_emitted_emit :
    emitted ∈ ((net.emit peer ids emission).nodes other).emitted ↔
      other = peer ∧ emitted = emission ∨ emitted ∈ (net.nodes other).emitted := by
  by_cases same : other = peer
  · subst same
    simp [emit, setNode]
  · simp [emit, setNode, same]

@[simp] theorem emitted_emit_self : ((net.emit peer ids emission).nodes peer).emitted =
      emission :: (net.nodes peer).emitted := by
  simp [emit, setNode]

@[simp] theorem seenMsgIDs_emit_self : ((net.emit peer ids emission).nodes peer).seenMsgIDs =
      ids ++ (net.nodes peer).seenMsgIDs := by
  simp [emit, setNode]

theorem nodup_emitted_emit (distinct : (net.nodes other).emitted.Nodup)
    (new : emission ∉ (net.nodes peer).emitted) :
    ((net.emit peer ids emission).nodes other).emitted.Nodup := by
  by_cases same : other = peer
  · subst same
    simpa [emit, setNode] using ⟨new, distinct⟩
  · simpa [emit, setNode, same] using distinct

end Nodes

def Sent (net : GossipNetwork Peer) (peer : Peer) (num : Nat) : Prop :=
  ⟨num, true⟩ ∈ (net.nodes peer).emitted ∨
    (peer, num) ∈ net.forwards.map fun forward => (forward.target, forward.number)

structure Sound (topology : Topology Peer) (network : GossipNetwork Peer) : Prop where
  published : ∀ message ∈ network.messages,
    topology.subscribed message.topic message.sender
  reached : ∀ peer, ∀ num ∈ (network.nodes peer).held, ∃ message,
    network.messages[num]? = some message ∧ topology.Reachable message.topic message.sender peer
  heard : ∀ peer num, ⟨num, false⟩ ∈ (network.nodes peer).emitted →
    num ∈ (network.nodes peer).held ∧ ∀ message, network.messages[num]? = some message →
      message.id ∈ (network.nodes peer).seenMsgIDs
  sent : ∀ peer num, network.Sent peer num → ∃ message,
    network.messages[num]? = some message ∧ peer ∈ limitedPeers topology message ∧
      message.id ∈ (network.nodes message.sender).seenMsgIDs
  distinct : ∀ peer, (network.nodes peer).emitted.Nodup
  pending : (network.forwards.map fun forward => (forward.target, forward.number)).Nodup
  undelivered : ∀ forward ∈ network.forwards,
    ⟨forward.number, true⟩ ∉ (network.nodes forward.target).emitted

variable {num : Nat}

theorem Sound.not_heard (sound : Sound topo net) (direct : topo.Direct)
    (sent : net.Sent peer num) : ⟨num, false⟩ ∉ (net.nodes peer).emitted := by
  intro heard
  rcases sound.sent peer num sent with ⟨msg, found, limited, -⟩
  have subscribed := sound.published msg (mem_of_getElem? found)
  rcases sound.reached peer num (sound.heard peer num heard).1 with ⟨other, otherFound, reachable⟩
  rw [found, Option.some.injEq] at otherFound
  rw [← otherFound] at reachable
  rw [limitedPeers, mem_filter, decide_eq_true_iff] at limited
  exact limited.2.1 (direct _ _ subscribed peer limited.1 limited.2.2 reachable)

theorem Sound.atMostOnce (sound : Sound topo net) (direct : topo.Direct) : AtMostOnce topo net := by
  intro peer num msg _ _
  have distinct := (sound.distinct peer).filter fun emission => emission.number = num
  have only : ∃ one, ∀ emission ∈ (net.nodes peer).emitted, emission.number = num →
      emission = one := by
    by_cases sent : (⟨num, true⟩ : Emission) ∈ (net.nodes peer).emitted
    · refine ⟨⟨num, true⟩, ?_⟩
      rintro ⟨other, forwarded⟩ mem rfl
      cases forwarded with
      | true => rfl
      | false => exact absurd mem (sound.not_heard direct (.inl sent))
    refine ⟨⟨num, false⟩, ?_⟩
    rintro ⟨other, forwarded⟩ mem rfl
    cases forwarded with
    | true => exact absurd mem sent
    | false => rfl
  rcases only with ⟨one, isOne⟩
  have within : ((net.nodes peer).emitted.filter fun emission => emission.number = num) ⊆
      [one] := by
    intro emission mem
    rw [mem_filter, decide_eq_true_iff] at mem
    exact mem_singleton.mpr (isOne emission mem.1 mem.2)
  exact (distinct.subperm within).length_le

theorem sound_start : Sound topo (start : GossipNetwork Peer) where
  published _ mem := by cases mem
  reached _ _ mem := by cases mem
  heard _ _ mem := by cases mem
  sent := by
    rintro _ _ (mem | mem) <;> cases mem
  distinct _ := nodup_nil
  pending := nodup_nil
  undelivered _ mem := by cases mem

namespace Sound

variable {msg : Message Peer} {num : Nat}

section

variable (sound : Sound topo net)

include sound

theorem publishes (msg : Message Peer) (subscribed : topo.subscribed msg.topic msg.sender) :
    Sound topo { net with messages := net.messages ++ [msg] } := by
  have stays : ∀ {num : Nat} {other : Message Peer}, net.messages[num]? = some other →
        (net.messages ++ [msg])[num]? = some other := by
    intro num other found
    rw [List.getElem?_append_left (List.getElem?_eq_some_iff.mp found).1]
    exact found
  refine ⟨?_, ?_, ?_, ?_, sound.distinct, sound.pending, sound.undelivered⟩
  · intro other mem
    rcases List.mem_append.mp mem with before | new
    · exact sound.published other before
    · rw [List.mem_singleton.mp new]
      exact subscribed
  · intro peer num held
    rcases sound.reached peer num held with ⟨other, found, reachable⟩
    exact ⟨other, stays found, reachable⟩
  · intro peer num emitted
    rcases sound.heard peer num emitted with ⟨held, seen⟩
    rcases sound.reached peer num held with ⟨other, found, -⟩
    refine ⟨held, ?_⟩
    intro another anotherFound
    rw [stays found, Option.some.injEq] at anotherFound
    exact anotherFound ▸ seen other found
  intro peer num sent
  rcases sound.sent peer num sent with ⟨other, found, rest⟩
  exact ⟨other, stays found, rest⟩

section

variable (found : net.messages[num]? = some msg)

include found

theorem hold (reachable : topo.Reachable msg.topic msg.sender peer) :
    Sound topo (net.hold peer num) := by
  refine ⟨sound.published, ?_, ?_, ?_, ?_, sound.pending, ?_⟩
  · intro other held mem
    rcases (mem_held_hold net peer other).mp mem with ⟨rfl, rfl⟩ | before
    · exact ⟨msg, found, reachable⟩
    · exact sound.reached other held before
  · intro other heard emitted
    rw [emitted_hold] at emitted
    rcases sound.heard other heard emitted with ⟨held, seen⟩
    rw [seenMsgIDs_hold]
    exact ⟨(mem_held_hold net peer other).mpr (.inr held), seen⟩
  · intro other forwarded sent
    rw [Sent, emitted_hold] at sent
    rcases sound.sent other forwarded sent with ⟨orig, originalFound, limited, seen⟩
    refine ⟨orig, originalFound, limited, ?_⟩
    rw [seenMsgIDs_hold]
    exact seen
  · intro other
    rw [emitted_hold]
    exact sound.distinct other
  intro forward mem
  rw [emitted_hold]
  exact sound.undelivered forward mem

theorem hears (held : num ∈ (net.nodes peer).held)
    (unseen : msg.id ∉ (net.nodes peer).seenMsgIDs) {ids : List (MsgID Peer)}
    (marks : msg.id ∈ ids) : Sound topo (net.emit peer ids ⟨num, false⟩) := by
  have keeps : ∀ {other : Peer} {forwarded : Nat}, (⟨forwarded, true⟩ : Emission) ∈
          ((net.emit peer ids ⟨num, false⟩).nodes other).emitted ↔
        ⟨forwarded, true⟩ ∈ (net.nodes other).emitted := by
    intro other forwarded
    rw [mem_emitted_emit]
    simp
  refine ⟨sound.published, ?_, ?_, ?_, ?_, sound.pending, ?_⟩
  · intro other
    rw [held_emit]
    exact sound.reached other
  · intro other heard emitted
    rw [held_emit]
    rcases (mem_emitted_emit net peer other ids _).mp emitted with ⟨rfl, same⟩ | before
    · rw [Emission.mk.injEq] at same
      rw [same.1]
      refine ⟨held, ?_⟩
      intro another anotherFound
      cases found.symm.trans anotherFound
      exact (mem_seenMsgIDs_emit net other other ids _).mpr (.inl ⟨rfl, marks⟩)
    rcases sound.heard other heard before with ⟨otherHeld, seen⟩
    refine ⟨otherHeld, ?_⟩
    intro another anotherFound
    exact (mem_seenMsgIDs_emit net peer other ids _).mpr (.inr (seen another anotherFound))
  · intro other forwarded sent
    rw [Sent, keeps] at sent
    rcases sound.sent other forwarded sent with ⟨orig, originalFound, limited, seen⟩
    exact ⟨orig, originalFound, limited, (mem_seenMsgIDs_emit net peer _ ids _).mpr (.inr seen)⟩
  · intro other
    apply nodup_emitted_emit net peer other ids _ (sound.distinct other)
    intro before
    exact unseen ((sound.heard peer num before).2 msg found)
  intro forward mem
  rw [keeps]
  exact sound.undelivered forward mem

theorem forwards (seen : msg.id ∈ (net.nodes msg.sender).seenMsgIDs)
    (unsent : ∀ peer, ¬net.Sent peer num) (seqno : UInt64) :
    Sound topo { net with
      forwards := net.forwards ++
        (limitedPeers topo msg).map fun target => Forward.mk target num seqno } := by
  refine ⟨sound.published, sound.reached, sound.heard, ?_, sound.distinct, ?_, ?_⟩
  · rintro peer forwarded (emitted | mem)
    · exact sound.sent peer forwarded (.inl emitted)
    rw [map_append, mem_append] at mem
    rcases mem with before | new
    · exact sound.sent peer forwarded (.inr before)
    rw [map_map] at new
    rcases mem_map.mp new with ⟨target, limited, same⟩
    cases same
    exact ⟨msg, found, limited, seen⟩
  · rw [map_append, map_map]
    refine sound.pending.append ?_ ?_
    · refine List.Nodup.map ?_ ((topo.distinct msg.sender).filter _)
      intro x y same
      exact congrArg Prod.fst same
    intro pair before new
    rcases mem_map.mp new with ⟨target, -, rfl⟩
    exact unsent target (.inr before)
  intro forward mem
  rcases mem_append.mp mem with before | new
  · exact sound.undelivered forward before
  · rcases mem_map.mp new with ⟨target, -, rfl⟩
    exact fun emitted => unsent target (.inl emitted)

end

theorem taken (index : Nat) : Sound topo { net with forwards := net.forwards.eraseIdx index } := by
  have fewer := eraseIdx_sublist net.forwards index
  refine ⟨sound.published, sound.reached, sound.heard, ?_, sound.distinct, ?_, ?_⟩
  · rintro peer num (emitted | mem)
    · exact sound.sent peer num (.inl emitted)
    · exact sound.sent peer num (.inr ((fewer.map _).subset mem))
  · exact sound.pending.sublist (fewer.map _)
  · intro forward mem
    exact sound.undelivered forward (fewer.subset mem)

theorem delivers {index : Nat} (isForward : net.forwards[index]? = some forward)
    (ids : List (MsgID Peer)) :
    Sound topo ({ net with forwards := net.forwards.eraseIdx index }.emit forward.target ids
        ⟨forward.number, true⟩) := by
  have rest := sound.taken index
  have mem := List.mem_of_getElem? isForward
  have keeps : ∀ {other : Peer} {heard : Nat}, (⟨heard, false⟩ : Emission) ∈
          (({ net with forwards := net.forwards.eraseIdx index }.emit forward.target ids
            ⟨forward.number, true⟩).nodes other).emitted ↔
        ⟨heard, false⟩ ∈ (net.nodes other).emitted := by
    intro other heard
    rw [mem_emitted_emit]
    simp
  refine ⟨sound.published, ?_, ?_, ?_, ?_, rest.pending, ?_⟩
  · intro other
    rw [held_emit]
    exact sound.reached other
  · intro other heard emitted
    rw [keeps] at emitted
    rw [held_emit]
    rcases sound.heard other heard emitted with ⟨held, seen⟩
    refine ⟨held, ?_⟩
    intro msg found
    exact (mem_seenMsgIDs_emit _ _ other ids _).mpr (.inr (seen msg found))
  · intro other num sent
    have before : net.Sent other num := by
      rcases sent with emitted | pending
      · rcases (mem_emitted_emit _ _ other ids _).mp emitted with ⟨rfl, same⟩ | prev
        · rw [Emission.mk.injEq] at same
          rw [same.1]
          exact .inr (List.mem_map.mpr ⟨forward, mem, rfl⟩)
        · exact .inl prev
      · exact .inr (((List.eraseIdx_sublist _ _).map _).subset pending)
    rcases sound.sent other num before with ⟨msg, found, limited, seen⟩
    exact ⟨msg, found, limited, (mem_seenMsgIDs_emit _ _ _ ids _).mpr (.inr seen)⟩
  · intro other
    exact nodup_emitted_emit _ _ other ids _ (sound.distinct other) (sound.undelivered forward mem)
  intro other remaining emitted
  rcases (mem_emitted_emit _ _ other.target ids _).mp emitted with ⟨target, same⟩ | prev
  · rcases List.mem_eraseIdx_iff_getElem?.mp remaining with ⟨pos, elsewhere, isOther⟩
    rw [Emission.mk.injEq] at same
    refine elsewhere ((List.getElem?_inj ?_ sound.pending).mp ?_)
    · rw [List.length_map]
      exact (List.getElem?_eq_some_iff.mp isOther).1
    · rw [List.getElem?_map, List.getElem?_map, isOther, isForward, Option.map_some,
        Option.map_some, target, same.1]
  · exact rest.undelivered other remaining prev

theorem not_sent (found : net.messages[num]? = some msg)
    (unseen : msg.id ∉ (net.nodes msg.sender).seenMsgIDs) (peer : Peer) : ¬net.Sent peer num := by
  intro sent
  rcases sound.sent peer num sent with ⟨other, otherFound, -, seen⟩
  cases found.symm.trans otherFound
  exact unseen seen

theorem listens (peer : Peer) (num : Nat) (now : UInt64) :
    Sound topo (net.topicListener topo peer num now) := by
  rw [topicListener]
  split
  · exact sound
  rename_i msg found
  split
  · rename_i may
    split
    · rename_i own
      subst own
      have hears := sound.hears found may.1 may.2 (mem_cons_self (l := [(msg.sender, now)]))
      refine hears.forwards found ?_ ?_ now
      · exact (mem_seenMsgIDs_emit _ _ _ _ _).mpr (.inl ⟨rfl, mem_cons_self⟩)
      intro peer sent
      apply sound.not_sent found may.2 peer
      rw [Sent, mem_emitted_emit] at sent
      rcases sent with (⟨-, same⟩ | prev) | pending
      · cases same
      · exact .inl prev
      · exact .inr pending
    · exact sound.hears found may.1 may.2 (mem_singleton_self _)
  · exact sound

theorem act (a : Action Peer) : Sound topo ((machine topo).act net a) := by
  cases a with
  | publishTopic peer topic data seqno =>
    dsimp only [machine]
    rw [publishTopic]
    split
    · rename_i may
      have published := sound.publishes ⟨peer, data, seqno, topic⟩ may.1
      exact published.hold getElem?_concat_length Relation.ReflTransGen.refl
    · exact sound
  | relay src target num =>
    dsimp only [machine]
    rw [relay]
    split
    · exact sound
    rename_i msg found
    split
    · rename_i may
      rcases sound.reached src num may.1 with ⟨other, otherFound, reachable⟩
      cases found.symm.trans otherFound
      exact sound.hold found (reachable.tail may.2)
    · exact sound
  | topicListener peer num now => exact sound.listens peer num now
  | handlePubSubFwdStream index =>
    dsimp only [machine]
    rw [handlePubSubFwdStream]
    split
    · exact sound
    rename_i forward isForward
    split
    · exact sound
    dsimp only
    split
    · exact sound.taken index
    · exact sound.delivers isForward _

end

end Sound

variable {msg : Message Peer}

theorem exists_relays (found : net.messages[num]? = some msg)
    (held : num ∈ (net.nodes src).held) (reachable : topo.Reachable msg.topic src target) :
    ∃ acts, num ∈ (((machine topo).run net acts).nodes target).held ∧
      ((machine topo).run net acts).messages = net.messages ∧
      ∀ peer, (((machine topo).run net acts).nodes peer).emitted = (net.nodes peer).emitted ∧
        (((machine topo).run net acts).nodes peer).seenMsgIDs = (net.nodes peer).seenMsgIDs := by
  induction reachable with
  | refl => exact ⟨[], held, rfl, fun _ => ⟨rfl, rfl⟩⟩
  | @tail mid target _ neighbour ih =>
    rcases ih with ⟨acts, middleHeld, messages, same⟩
    have relayed : (machine topo).run net (acts ++ [.relay mid target num]) =
        ((machine topo).run net acts).hold target num := by
      rw [Machine.run_concat]
      dsimp only [machine] at middleHeld messages ⊢
      rw [relay, messages, found]
      exact if_pos ⟨middleHeld, neighbour⟩
    refine ⟨acts ++ [.relay mid target num], ?_⟩
    rw [relayed]
    refine ⟨(mem_held_hold _ target target).mpr (.inl ⟨rfl, rfl⟩), messages, ?_⟩
    intro peer
    rw [emitted_hold, seenMsgIDs_hold]
    exact same peer

theorem exists_forward (subscribed : topo.subscribed msg.topic msg.sender)
    (short : msg.data.length ≤ maxPublishSize) (limited : peer ∈ limitedPeers topo msg)
    (now : UInt64) :
    ∃ acts, ((machine topo).run start acts).messages[0]? = some msg ∧
      0 ∈ (((machine topo).run start acts).nodes msg.sender).held ∧
      (((machine topo).run start acts).nodes peer).emitted = [⟨0, true⟩] ∧
      (((machine topo).run start acts).nodes peer).seenMsgIDs = [(msg.sender, now)] := by
  have other : peer ≠ msg.sender := by
    rw [limitedPeers, mem_filter, decide_eq_true_iff] at limited
    exact limited.2.2
  rcases mem_iff_getElem?.mp limited with ⟨index, isPeer⟩
  let published : GossipNetwork Peer := { start with messages := [msg] }.hold msg.sender 0
  let heard := { published with
    forwards := (limitedPeers topo msg).map fun target => Forward.mk target 0 now }.emit
      msg.sender [msg.id, (msg.sender, now)] ⟨0, false⟩
  let delivered := { heard with forwards := heard.forwards.eraseIdx index }.emit peer
    [(msg.sender, now)] ⟨0, true⟩
  have publishes : start.publishTopic topo msg.sender msg.topic msg.data
      msg.seqno = published := if_pos ⟨subscribed, short⟩
  have hears : published.topicListener topo msg.sender 0 now = heard := by
    have x : published.messages[0]? = some msg := rfl
    have accepted : 0 ∈ (published.nodes msg.sender).held ∧
        msg.id ∉ (published.nodes msg.sender).seenMsgIDs := by
      refine ⟨(mem_held_hold _ _ _).mpr (.inl ⟨rfl, rfl⟩), ?_⟩
      rw [seenMsgIDs_hold]
      exact not_mem_nil
    rw [topicListener, x]
    dsimp only
    rw [if_pos accepted, if_pos rfl]
    rfl
  have untouched : (heard.nodes peer).seenMsgIDs = [] ∧ (heard.nodes peer).emitted = [] := by
    simp [heard, published, emit, hold, setNode, other, start]
  have delivers : heard.handlePubSubFwdStream index = delivered := by
    have isForward : heard.forwards[index]? = some ⟨peer, 0, now⟩ := by
      dsimp only [heard, emit, setNode]
      rw [getElem?_map, isPeer]
      rfl
    rw [handlePubSubFwdStream, isForward]
    dsimp only
    rw [untouched.1]
    exact if_neg not_mem_nil
  let acts : List (Action Peer) := [.publishTopic msg.sender msg.topic msg.data msg.seqno,
      .topicListener msg.sender 0 now, .handlePubSubFwdStream index]
  have ran : (machine topo).run start acts = delivered := by
    rw [← delivers, ← hears, ← publishes]
    rfl
  refine ⟨acts, ?_⟩
  rw [ran]
  refine ⟨rfl, ?_, ?_, ?_⟩
  · simp only [delivered, heard, published, held_emit]
    exact (mem_held_hold _ _ _).mpr (.inl ⟨rfl, rfl⟩)
  · simp only [delivered, emitted_emit_self]
    exact congrArg (_ :: ·) untouched.2
  · simp only [delivered, seenMsgIDs_emit_self]
    exact congrArg (_ ++ ·) untouched.1

theorem topicListener_eq (found : net.messages[num]? = some msg)
    (held : num ∈ (net.nodes peer).held)
    (unseen : msg.id ∉ (net.nodes peer).seenMsgIDs) (other : msg.sender ≠ peer) (now : UInt64) :
    net.topicListener topo peer num now = net.emit peer [msg.id] ⟨num, false⟩ := by
  rw [topicListener, found]
  dsimp only
  rw [if_pos ⟨held, unseen⟩, if_neg other]

theorem exists_duplicate (subscribed : topo.subscribed topic publisher)
    (known : peer ∈ topo.peerDB publisher) (other : peer ≠ publisher)
    (reachable : topo.Reachable topic publisher peer)
    (distant : peer ∉ topo.listPeers topic publisher) :
    ∃ acts, ¬AtMostOnce topo ((machine topo).run start acts) := by
  let msg : Message Peer := ⟨publisher, [], 0, topic⟩
  have limited : peer ∈ limitedPeers topo msg := by
    rw [limitedPeers, mem_filter, decide_eq_true_iff]
    exact ⟨known, distant, other⟩
  have peerSubscribed : topo.subscribed topic peer := by
    rcases reachable.cases_tail with same | ⟨mid, -, neighbour⟩
    · exact absurd same other
    · exact topo.listed topic mid peer neighbour
  rcases exists_forward subscribed (Nat.zero_le _) limited 1 with ⟨x, found, held, emitted, seen⟩
  rcases exists_relays found held reachable with ⟨y, peerHeld, messages, same⟩
  rw [← Machine.run_append] at peerHeld messages same
  have unseen : msg.id ∉ (((machine topo).run start (x ++ y)).nodes peer).seenMsgIDs := by
    rw [(same peer).2, seen, mem_singleton, Message.id]
    intro eq
    have sameSeqno : (0 : UInt64) = 1 := congrArg Prod.snd eq
    exact absurd sameSeqno (by decide)
  have stillFound : ((machine topo).run start (x ++ y)).messages[0]? =
      some msg := by
    rw [messages, found]
  have listens : (machine topo).run start (x ++ y ++ [.topicListener peer 0 2]) =
      ((machine topo).run start (x ++ y)).emit peer [msg.id] ⟨0, false⟩ :=
    (Machine.run_concat _ _ _ _).trans (topicListener_eq stillFound peerHeld unseen other.symm 2)
  refine ⟨x ++ y ++ [.topicListener peer 0 2], ?_⟩
  rw [listens]
  intro once
  have few := once peer 0 msg stillFound peerSubscribed
  rw [emitted_emit_self, (same peer).1, emitted] at few
  exact absurd few (by decide)

theorem sound_run (topo : Topology Peer) (acts : List (Action Peer)) :
    Sound topo ((machine topo).run start acts) :=
  Machine.invariant sound_start (fun _ a sound => sound.act a) acts

/-- Every node emits one event at most for each message, in all runs, if and only if the peers
that a publisher forwards to cannot be reached by gossip. -/
theorem atMostOnce_iff (topology : Topology Peer) :
    (∀ actions, (machine topology).Always (AtMostOnce topology) start actions) ↔
      topology.Direct := by
  constructor
  · intro once topic publisher subscribed peer known other reachable
    by_contra distant
    rcases exists_duplicate subscribed known other reachable distant with ⟨actions, twice⟩
    exact twice (once actions actions [] (append_nil _).symm)
  · intro direct actions earlier later _
    exact (sound_run topology earlier).atMostOnce direct

def line : Topology (Fin 3) where
  subscribed _ _ := true
  listPeers _ peer := if peer = 1 then [0, 2] else [1]
  peerDB peer := if peer = 0 then [1, 2] else []
  listed _ _ _ _ := rfl
  distinct := by decide

theorem line_twice :
    let network := (machine line).run start
      [.publishTopic 0 (ascii "news") (ascii "hi") 1, .topicListener 0 0 2, .relay 0 1 0,
        .relay 1 2 0, .handlePubSubFwdStream 0, .topicListener 2 0 3]
    (network.nodes 2).emitted = [⟨0, false⟩, ⟨0, true⟩] ∧ ¬AtMostOnce line network := by
  intro network
  have emitted : (network.nodes 2).emitted = [⟨0, false⟩, ⟨0, true⟩] := by decide +kernel
  refine ⟨emitted, ?_⟩
  intro once
  have few := once 2 0 ⟨0, ascii "hi", 1, ascii "news"⟩ (by decide +kernel) rfl
  rw [emitted] at few
  exact absurd few (by decide)

end GossipNetwork

end Peerscale.P2put
