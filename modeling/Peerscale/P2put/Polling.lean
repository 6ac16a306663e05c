import Peerscale.P2put.Events

/-! # What a client receives by polling

`maxCap` is zero, so that a poll answers with nothing of what it finds in the buffers. A client
gets the events that are sent to the channel of one of its polls and that the poll takes from
there, and no others.
-/

namespace Peerscale.P2put

open Topics List

variable {Value : Type}

def Topics.Relevant (ts : Topics) (event : Event Value) : Prop :=
  event.topic ∈ ts.list ∨ event.topic = []
  deriving Decidable

def Topics.relevant (ts : Topics) (events : List (Event Value)) : List (Event Value) :=
  events.filter fun event => ts.Relevant event

theorem Topics.relevant_append (ts : Topics) (x y : List (Event Value)) :
    ts.relevant (x ++ y) = ts.relevant x ++ ts.relevant y :=
  filter_append ..

theorem Topics.relevant_singleton_of_not {ts : Topics} (irrelevant : ¬ts.Relevant ev) :
    ts.relevant [ev] = [] := by
  simp [relevant, irrelevant]

def PollStage.gathers : PollStage Value → Bool
  | .drain => true
  | .collect => true
  | _ => false

namespace EventHub

variable {ts : Topics} {hub : EventHub Value}

def inHand : Option (Poll Value) → List (Event Value)
  | some poll => poll.events ++ poll.channel
  | none => []

def Waiting (hub : EventHub Value) : Prop :=
  (∃ poll, hub.poll = some poll ∧ poll.stage = .wait ∧ poll.channel = []) ∧ hub.pushing = []

/-- When the client waits, it has received every event of its topics once, in the order of
their publication. -/
def Complete (ts : Topics) (hub : EventHub Value) : Prop :=
  hub.Waiting → (ts.relevant hub.received).map Event.content =
    (ts.relevant hub.published).map Event.content

def Listening (hub : EventHub Value) : Prop :=
  ∃ poll ∈ hub.poll, poll.channel.length < channelCap
  deriving Decidable

/-- An event for the client is sent to the clients while a poll is registered whose channel
has room; `topicListener` does not have the empty topic; a poll is unregistered with no such
event in its channel, and cancelled with no such event taken from there. -/
def Caught (ts : Topics) (hub : EventHub Value) : Action Value → Prop
  | .broadcast raw now => ts.Relevant (wrapped now raw) → hub.Listening
  | .listen topic _ _ => topic ≠ [] ∧ (topic ∈ ts.list → hub.Listening)
  | .poll .unregister => ∀ poll ∈ hub.poll, ts.relevant poll.channel = []
  | .poll .cancel => ∀ poll ∈ hub.poll, ts.relevant poll.events = []
  | _ => True

instance (ts : Topics) (hub : EventHub Value) (action : Action Value) :
    Decidable (Caught ts hub action) :=
  match action with
  | .broadcast _ _ => inferInstanceAs (Decidable (_ → _))
  | .listen _ _ _ => inferInstanceAs (Decidable (_ ∧ (_ → _)))
  | .poll .unregister => inferInstanceAs (Decidable (∀ poll ∈ hub.poll, _))
  | .poll .cancel => inferInstanceAs (Decidable (∀ poll ∈ hub.poll, _))
  | .poll (.advance _) => inferInstanceAs (Decidable True)
  | .poll .take => inferInstanceAs (Decidable True)
  | .poll .timeout => inferInstanceAs (Decidable True)
  | .pushToBuf _ _ => inferInstanceAs (Decidable True)
  | .beginPoll => inferInstanceAs (Decidable True)

/-- Everything that has been published for the client has been received or is in hand. -/
structure Kept (ts : Topics) (hub : EventHub Value) : Prop where
  complete : ts.relevant hub.received ++ ts.relevant (inHand hub.poll) =
    ts.relevant hub.published
  bare : ∀ poll, hub.poll = some poll → poll.stage.gathers = false → poll.events = []

theorem Kept.toComplete (kept : Kept ts hub) : Complete ts hub := by
  rintro ⟨⟨poll, isPoll, stage, empty⟩, -⟩
  have complete := kept.complete
  rw [isPoll, inHand, kept.bare poll isPoll (by rw [stage]; rfl), empty, append_nil] at complete
  rw [← complete]
  exact congrArg _ (append_nil _).symm

theorem cut_eq_nil (sh : Shuffle (Event Value)) (found : List (Event Value)) : cut sh found = [] :=
  take_zero ..

namespace Kept

theorem relevant_send (caught : ts.Relevant ev → hub.Listening) :
    ts.relevant (inHand (hub.send ev)) = ts.relevant (inHand hub.poll) ++ ts.relevant [ev] := by
  rw [send]
  cases isPoll : hub.poll with
  | none =>
    have irrelevant : ¬ts.Relevant ev := by
      intro relevant
      rcases caught relevant with ⟨poll, found, -⟩
      rw [isPoll, Option.mem_def] at found
      cases found
    rw [relevant_singleton_of_not irrelevant]
    rfl
  | some poll =>
    rw [Option.map_some]
    split
    · rw [inHand, inHand, ← append_assoc, relevant_append]
    rename_i full
    have irrelevant : ¬ts.Relevant ev := by
      intro relevant
      rcases caught relevant with ⟨other, found, room⟩
      rw [isPoll, Option.mem_some_iff] at found
      exact full (found ▸ room)
    rw [relevant_singleton_of_not irrelevant, append_nil]

section

variable (kept : Kept ts hub)

include kept

theorem bare_send (ev : Event Value) (poll : Poll Value) (isPoll : hub.send ev = some poll)
    (gathers : poll.stage.gathers = false) : poll.events = [] := by
  rw [send, Option.map_eq_some_iff] at isPoll
  rcases isPoll with ⟨pre, isBefore, rfl⟩
  split at gathers
  · rename_i room
    rw [if_pos room]
    exact kept.bare pre isBefore gathers
  rename_i full
  rw [if_neg full]
  exact kept.bare pre isBefore gathers

theorem broadcast (caught : Caught ts hub (.broadcast raw now)) :
    Kept ts (hub.broadcast raw now) where
  complete := by
    dsimp only [EventHub.broadcast]
    rw [relevant_send caught, ← append_assoc, kept.complete, relevant_append]
  bare := kept.bare_send _

theorem listen (caught : Caught ts hub (.listen topic val now)) :
    Kept ts (hub.listen ts topic val now) := by
  rcases caught with ⟨nonempty, listening⟩
  rw [EventHub.listen]
  split
  · rename_i mem
    refine ⟨?_, kept.bare_send _⟩
    rw [relevant_send fun _ => listening mem, ← append_assoc, kept.complete, relevant_append]
  rename_i notMember
  have irrelevant : ¬ts.Relevant (⟨now, ascii "pubsub", topic, val⟩ : Event Value) := by
    rintro (mem | empty)
    · exact notMember mem
    · exact nonempty empty
  refine ⟨?_, kept.bare⟩
  rw [relevant_append, relevant_singleton_of_not irrelevant, append_nil]
  exact kept.complete

theorem pushToBuf (index : Nat) (now : Int) : Kept ts (hub.pushToBuf index now) := by
  rw [EventHub.pushToBuf]
  split
  · exact kept
  · exact ⟨kept.complete, kept.bare⟩

theorem beginPoll : Kept ts (hub.beginPoll ts) := by
  rw [EventHub.beginPoll]
  split
  · exact kept
  rename_i unregistered
  refine ⟨?_, ?_⟩
  · have complete := kept.complete
    rw [unregistered] at complete
    exact complete
  intro poll isPoll _
  cases isPoll
  rfl

section

variable {poll : Poll Value} (isPoll : hub.poll = some poll)

include isPoll

theorem setPoll (same : ts.relevant (inHand (some new)) = ts.relevant (inHand (some poll)))
    (bare : new.stage.gathers = false → new.events = []) : Kept ts (hub.setPoll new) where
  complete := by
    have complete := kept.complete
    rw [isPoll, ← same] at complete
    exact complete
  bare other isOther := by
    cases isOther
    exact bare

theorem write : Kept ts (hub.write poll) where
  complete := by
    have complete := kept.complete
    rw [isPoll, inHand, relevant_append, ← append_assoc] at complete
    dsimp only [EventHub.write]
    rw [relevant_append]
    exact complete
  bare other isOther _ := by
    cases isOther
    rfl

theorem advance (sh : Shuffle (Event Value)) : Kept ts (hub.advance sh poll) := by
  have bare := kept.bare poll isPoll
  rw [EventHub.advance]
  cases isStage : poll.stage with
  | replay rest =>
    rw [isStage] at bare
    cases rest with
    | nil =>
      dsimp only
      rw [cut_eq_nil]
      exact kept.setPoll isPoll rfl nofun
    | cons => exact kept.setPoll isPoll rfl bare
  | drain =>
    dsimp only
    split
    · split
      · rename_i ev channel isChannel
        refine kept.setPoll isPoll ?_ nofun
        rw [inHand, inHand, isChannel, append_assoc]
        rfl
      refine kept.setPoll isPoll rfl ?_
      intro gathers
      by_contra some
      rw [if_neg some] at gathers
      cases gathers
    · exact kept.write isPoll
  | wait | leaving => exact kept
  | collect =>
    dsimp only
    split
    · exact kept
    · exact kept.write isPoll

theorem take : Kept ts (hub.take poll) := by
  rw [EventHub.take]
  split
  · rename_i ev channel isStage isChannel
    refine kept.setPoll isPoll ?_ nofun
    rw [inHand, inHand, isChannel, append_assoc]
    rfl
  · rename_i ev channel isStage isChannel
    split
    · refine kept.setPoll isPoll ?_ nofun
      rw [inHand, inHand, isChannel, append_assoc]
      rfl
    · exact kept
  · exact kept

theorem drops (none : ts.relevant poll.events = []) :
    Kept ts (hub.setPoll { poll with stage := .leaving, events := [] }) := by
  refine kept.setPoll isPoll ?_ fun _ => rfl
  rw [inHand, inHand, relevant_append ts poll.events, none]
  rfl

theorem timeout : Kept ts (hub.timeout poll) := by
  rw [EventHub.timeout]
  split
  · rename_i isStage
    apply kept.drops isPoll
    rw [kept.bare poll isPoll (by rw [isStage]; rfl)]
    rfl
  · split
    · exact kept.write isPoll
    · exact kept
  · exact kept

theorem cancel (caught : Caught ts hub (.poll .cancel)) : Kept ts (hub.cancel poll) := by
  rw [EventHub.cancel]
  split
  · exact kept.drops isPoll (caught poll isPoll)
  · split
    · exact kept.drops isPoll (caught poll isPoll)
    · exact kept
  · exact kept

theorem unregister (caught : Caught ts hub (.poll .unregister)) :
    Kept ts (hub.unregister poll) := by
  rw [EventHub.unregister]
  split
  · rename_i isStage
    refine ⟨?_, nofun⟩
    have complete := kept.complete
    rw [isPoll, inHand, relevant_append, caught poll isPoll,
      kept.bare poll isPoll (by rw [isStage]; rfl)] at complete
    exact complete
  · exact kept

end

theorem act (caught : Caught ts hub a) : Kept ts ((machine ts).act hub a) := by
  cases a with
  | broadcast => exact kept.broadcast caught
  | listen => exact kept.listen caught
  | pushToBuf index now => exact kept.pushToBuf index now
  | beginPoll => exact kept.beginPoll
  | poll a =>
    dsimp only [machine]
    split
    · rename_i poll isPoll
      cases a with
      | advance sh => exact kept.advance isPoll sh
      | take => exact kept.take isPoll
      | timeout => exact kept.timeout isPoll
      | cancel => exact kept.cancel isPoll caught
      | unregister => exact kept.unregister isPoll caught
    · exact kept

end

end Kept

theorem kept_start (ts : Topics) : Kept ts (start : EventHub Value) :=
  ⟨rfl, nofun⟩

/-- If all events for the client are caught by one of its polls, then it receives each of them
once, in the order of publication. -/
theorem complete_of_caught (topics : Topics) (actions : List (Action Value))
    (caught : (machine topics).Obeys (Caught topics) start actions) :
    (machine topics).Always (Complete topics) start actions := by
  rintro earlier later rfl
  have kept := caught.append.1.invariant (kept_start topics)
    fun hub action kept permitted => kept.act permitted
  exact kept.toComplete

def waits : List (Action Nat) :=
  .beginPoll :: List.replicate 4 (.poll (.advance (Shuffle.asIs _)))

def news : Topics := ⟨[ascii "news"], by decide⟩

theorem waits_receives :
    let actions := waits ++ [.listen (ascii "news") 7 1000, .pushToBuf 0 1001, .poll .take,
      .poll .timeout, .poll .unregister] ++ waits
    (machine news).Obeys (Caught news) start actions ∧
      ((machine news).run start actions).received.map Event.value = [7] ∧
      (machine news).Always (Complete news) start actions :=
  ⟨by decide +kernel, by decide +kernel, complete_of_caught news _ (by decide +kernel)⟩

/-- An event that comes between two polls. The second poll finds it in the buffer, and waits. -/
theorem betweenPolls_lost :
    let actions := waits ++ [.poll .timeout, .poll .unregister,
      .listen (ascii "news") 7 1000, .pushToBuf 0 1001] ++ waits
    let hub := (machine news).run start actions
    hub.Waiting ∧ hub.received = [] ∧ hub.published.map Event.value = [7] ∧ ¬Complete news hub := by
  intro actions hub
  have waiting : hub.Waiting := by
    refine ⟨⟨⟨0, .wait, [], []⟩, ?_, rfl, rfl⟩, ?_⟩ <;> decide +kernel
  refine ⟨waiting, by decide +kernel, by decide +kernel, ?_⟩
  intro complete
  exact absurd (complete waiting) (by decide +kernel)

end EventHub

end Peerscale.P2put
