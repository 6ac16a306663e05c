import Peerscale.P2put.Polling

/-! # Which events a client gets

`topicListener` asks for the topics of a client, and `onEvents` looks into the buffers of its
topics only. `broadcastLoop` sends an event of any topic to all clients.
-/

namespace Peerscale.P2put.EventHub

variable {Value : Type} {topics : Topics} {hub : EventHub Value}

def Filtered (topics : Topics) (hub : EventHub Value) : Prop :=
  ∀ event ∈ hub.received ++ inHand hub.poll, topics.Relevant event

def Fitting (topics : Topics) (hub : EventHub Value) : Action Value → Prop
  | .broadcast raw now => hub.Listening → topics.Relevant (wrapped now raw)
  | _ => True

theorem mem_inHand_send {ev other : Event Value} :
    other ∈ inHand (hub.send ev) ↔ other ∈ inHand hub.poll ∨ other = ev ∧ hub.Listening := by
  rw [send, Listening]
  cases hub.poll with
  | none => simp [inHand]
  | some poll =>
    by_cases room : poll.channel.length < channelCap
    · simp [inHand, room, or_assoc]
    · simp [inHand, room]

theorem subset_actPoll {poll : Poll Value} (isPoll : hub.poll = some poll) (a : PollAction Value) :
    (hub.actPoll poll a).received ++ inHand (hub.actPoll poll a).poll ⊆
      hub.received ++ inHand hub.poll := by
  rw [isPoll]
  cases a with
  | advance sh =>
    rw [actPoll, advance]
    split
    · exact List.Subset.refl _
    · rw [cut_eq_nil]
      exact List.Subset.refl _
    all_goals grind [setPoll, write, inHand]
  | take => grind [actPoll, take, setPoll, inHand]
  | timeout => grind [actPoll, timeout, setPoll, write, inHand]
  | cancel => grind [actPoll, cancel, setPoll, inHand]
  | unregister => grind [actPoll, unregister, inHand]

theorem filtered_act (filtered : Filtered topics hub) (a : Action Value) :
    Filtered topics ((machine topics).act hub a) ↔ Fitting topics hub a := by
  cases a with
  | broadcast raw now =>
    simp only [Filtered, machine, broadcast, List.mem_append, mem_inHand_send] at filtered ⊢
    grind [Fitting]
  | listen topic val now =>
    refine iff_of_true ?_ trivial
    simp only [Filtered, machine, listen, List.mem_append] at filtered ⊢
    intro ev mem
    split at mem
    · rename_i listed
      rw [mem_inHand_send] at mem
      rcases mem with old | old | ⟨rfl, -⟩
      · exact filtered ev (.inl old)
      · exact filtered ev (.inr old)
      · exact .inl listed
    · exact filtered ev mem
  | pushToBuf index now =>
    refine iff_of_true ?_ trivial
    simp only [Filtered, machine, pushToBuf]
    split <;> exact filtered
  | beginPoll =>
    refine iff_of_true ?_ trivial
    simp only [Filtered, machine, beginPoll] at filtered ⊢
    split <;> grind [inHand]
  | poll a =>
    refine iff_of_true ?_ trivial
    dsimp only [machine]
    split
    · rename_i poll isPoll
      exact fun ev mem => filtered ev (subset_actPoll isPoll a mem)
    · exact filtered

/-- All along a run the client has events of its topics only, exactly if nothing else is
broadcast while its channel takes it; and then it receives no others. -/
theorem filtered_iff (topics : Topics) (acts : List (Action Value)) :
    ((machine topics).Always (Filtered topics) .start acts ↔
        (machine topics).Obeys (Fitting topics) .start acts) ∧
      ((machine topics).Obeys (Fitting topics) .start acts →
        ∀ event ∈ ((machine topics).run .start acts).received, topics.Relevant event) := by
  have exactly : (machine topics).Always (Filtered topics) .start acts ↔
      (machine topics).Obeys (Fitting topics) .start acts :=
    Machine.always_iff_obeys_of_step (fun _ action filtered => filtered_act filtered action)
      (by simp [Filtered, start, inHand]) acts
  refine ⟨exactly, fun fitting event received => ?_⟩
  exact exactly.mpr fitting acts [] (List.append_nil acts).symm event
    (List.mem_append_left _ received)

theorem received_unfiltered :
    let topics : Topics := ⟨[ascii "a"], by decide⟩
    let ev : Event Unit := ⟨1, ascii "pubsub", ascii "b", ()⟩
    let advance : Action Unit := .poll (.advance (.asIs _))
    let hub := (machine topics).run .start [.beginPoll, advance, advance, advance, advance,
      .broadcast (.event ev) 1, .poll .take, .poll .timeout]
    hub.received = [ev] ∧ ¬topics.Relevant ev := by
  decide +kernel

end Peerscale.P2put.EventHub
