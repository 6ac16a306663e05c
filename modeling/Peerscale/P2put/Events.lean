import Mathlib.Data.List.AList
import Peerscale.Foundation.GoValue
import Peerscale.Foundation.Machine
import Peerscale.Foundation.Sorting

/-! # Events

Events are sent to the clients that are polling at that moment, and then put into a buffer for
each topic. `onEvents` answers a poll: it looks into the buffers, and then waits for events in
a channel of its own. This is what one client sees that polls again and again with the same
topics.
-/

namespace Peerscale.P2put

open List

def eventBufCap : Nat := 128
def maxCap : Nat := 0

def channelCap : Nat := 128

structure Event (Value : Type) where
  eventID : Int
  type : GoString
  topic : GoString
  value : Value
  deriving DecidableEq

variable {Value : Type}

/-- An event without its number, which is not the same in the channel and in the buffer. -/
def Event.content (event : Event Value) : GoString × GoString × Value :=
  (event.type, event.topic, event.value)

structure EventBuffer (Value : Type) where
  events : List (Event Value)
  lastID : Int
  deriving DecidableEq

namespace EventBuffer

def empty : EventBuffer Value := ⟨[], 0⟩

variable (buf : EventBuffer Value)

def push (event : Event Value) (now : Int) : EventBuffer Value :=
  let id := if now ≤ buf.lastID then buf.lastID + 1 else now
  let events := buf.events ++ [{ event with eventID := id }]
  ⟨events.drop (events.length - eventBufCap), id⟩

def replay (afterID : Int) : List (Event Value) :=
  buf.events.filter fun event => afterID < event.eventID

/-- The buffer after some pushes, each with what the clock shows, and the events in the order in
which they were pushed, with the numbers they were given. -/
def pushAll (pushes : List (Event Value × Int)) : EventBuffer Value × List (Event Value) :=
  pushes.foldl (fun state push =>
    let buf := state.1.push push.1 push.2
    (buf, state.2 ++ [{ push.1 with eventID := buf.lastID }])) (empty, [])

structure Tracks (buf : EventBuffer Value) (done : List (Event Value)) : Prop where
  held : buf.events = done.drop (done.length - eventBufCap)
  increasing : done.Pairwise fun x y => x.eventID < y.eventID
  last : ∀ event ∈ done, event.eventID ≤ buf.lastID

theorem Tracks.push {buf : EventBuffer Value} (tracks : Tracks buf done) (event : Event Value)
    (now : Int) : Tracks (buf.push event now)
      (done ++ [{ event with eventID := (buf.push event now).lastID }]) := by
  have grows : buf.lastID < (buf.push event now).lastID := by
    simp only [EventBuffer.push]
    split <;> omega
  have last := tracks.last
  constructor
  · have skipped (n c : Nat) : n - c + (n - (n - c) + 1 - c) = n + 1 - c ∧
        n - (n - c) + 1 - c - (n - (n - c)) = n + 1 - c - n := by omega
    simp only [EventBuffer.push, tracks.held, length_append, length_drop, length_singleton]
    rw [drop_append, drop_append, drop_drop, length_drop, (skipped _ _).1, (skipped _ _).2]
  · rw [pairwise_append]
    refine ⟨tracks.increasing, pairwise_singleton _ _, fun other mem new isNew => ?_⟩
    rw [mem_singleton.mp isNew]
    exact (last other mem).trans_lt grows
  · intro other mem
    rcases mem_append.mp mem with old | new
    · exact (last other old).trans grows.le
    · rw [mem_singleton.mp new]

theorem pushAll_concat (pushes : List (Event Value × Int)) (event : Event Value) (now : Int) :
    pushAll (pushes ++ [(event, now)]) =
      let buf := (pushAll pushes).1.push event now
      (buf, (pushAll pushes).2 ++ [{ event with eventID := buf.lastID }]) := by
  rw [pushAll, foldl_concat]
  rfl

theorem pushAll_spec (pushes : List (Event Value × Int)) :
    Tracks (pushAll pushes).1 (pushAll pushes).2 ∧
      (pushAll pushes).2.map Event.content = pushes.map (·.1.content) ∧
      ((∀ push ∈ pushes, push.2 < 2 ^ 62) →
        (pushAll pushes).1.lastID < 2 ^ 62 + pushes.length) := by
  induction pushes using reverseRecOn with
  | nil =>
    exact ⟨⟨drop_nil.symm, .nil, nofun⟩, rfl, fun _ => show (0 : Int) < 2 ^ 62 + 0 by decide⟩
  | append_singleton pushes push ih =>
    rcases ih with ⟨tracks, contents, bound⟩
    rw [pushAll_concat]
    refine ⟨tracks.push push.1 push.2, ?_, fun below => ?_⟩
    · rw [map_append, map_append, contents]
      rfl
    have earlier := bound fun push mem => below push (mem_append_left _ mem)
    have now := below push (mem_append_right _ (mem_singleton_self _))
    simp only [EventBuffer.push, length_append, length_singleton]
    split <;> omega

/-- A client that has seen everything up to an event gets what came later and is still held. -/
theorem Tracks.replay_eq {buf : EventBuffer Value} {event : Event Value}
    (tracks : Tracks buf (seen ++ event :: later)) :
    buf.replay event.eventID = later.drop (later.length - eventBufCap) := by
  have increasing := tracks.increasing
  rw [append_cons, pairwise_append, pairwise_append] at increasing
  rcases increasing with ⟨⟨-, -, before⟩, -, after⟩
  have skipped : (seen ++ [event] ++ later).length - eventBufCap - (seen ++ [event]).length =
      later.length - eventBufCap := by
    rw [length_append]
    omega
  rw [replay, tracks.held, append_cons, drop_append, filter_append, skipped,
    filter_eq_nil_iff.mpr, filter_eq_self.mpr, nil_append]
  · intro other mem
    exact decide_eq_true (after event (by simp) other (mem_of_mem_drop mem))
  intro other mem
  rw [decide_eq_true_eq]
  rcases mem_append.mp (mem_of_mem_drop mem) with isBefore | same
  · exact (before other isBefore event (mem_singleton_self _)).not_gt
  · rw [mem_singleton.mp same]
    exact lt_irrefl _

theorem buffer_exact (pushes : List (Event Value × Int)) :
    (pushAll pushes).2.map Event.content = pushes.map (·.1.content) ∧
      ((pushAll pushes).2.Pairwise fun x y => x.eventID < y.eventID) ∧
      ((∀ push ∈ pushes, push.2 < 2 ^ 62) →
        ∀ event ∈ (pushAll pushes).2, event.eventID < 2 ^ 62 + pushes.length) ∧
      (pushAll pushes).1.events = (pushAll pushes).2.drop ((pushAll pushes).2.length - 128) ∧
      (∀ after, (pushAll pushes).1.replay after =
        (pushAll pushes).1.events.filter fun event => after < event.eventID) ∧
      ∀ seen event later, (pushAll pushes).2 = seen ++ event :: later →
        (pushAll pushes).1.replay event.eventID = later.drop (later.length - 128) := by
  rcases pushAll_spec pushes with ⟨tracks, contents, bound⟩
  refine ⟨contents, tracks.increasing, fun below event mem => ?_, tracks.held, fun _ => rfl, ?_⟩
  · exact (tracks.last event mem).trans_lt (bound below)
  · intro seen event later split
    rw [split] at tracks
    exact tracks.replay_eq

end EventBuffer

inductive PollStage (Value : Type)
  | replay (rest : List GoString) (found : List (Event Value))
  | drain
  | wait
  | collect
  | leaving
  deriving DecidableEq

structure Poll (Value : Type) where
  after : Int
  stage : PollStage Value
  channel : List (Event Value)
  events : List (Event Value)
  deriving DecidableEq

inductive Raw (Value : Type)
  | event (event : Event Value)
  | other (type : GoString) (value : Value)
  deriving DecidableEq

structure Topics where
  list : List GoString
  nonempty : ∀ topic ∈ list, topic ≠ []

/-- The buffers, the events that have been sent to the clients and are not in the buffers yet,
the poll of the client, what it has received in all of its polls, and what has been published
in the order in which it was sent to the clients. -/
structure EventHub (Value : Type) where
  topicBuf : AList fun _ : GoString => EventBuffer Value
  pushing : List (Event Value)
  poll : Option (Poll Value)
  received : List (Event Value)
  published : List (Event Value)

namespace EventHub

def start : EventHub Value := ⟨∅, [], none, [], []⟩

variable (hub : EventHub Value)

def send (event : Event Value) : Option (Poll Value) :=
  hub.poll.map fun poll =>
    if poll.channel.length < channelCap then { poll with channel := poll.channel ++ [event] }
    else poll

def wrapped (now : Int) : Raw Value → Event Value
  | .event event => { event with eventID := now }
  | .other type value => ⟨now, type, [], value⟩

def broadcast (raw : Raw Value) (now : Int) : EventHub Value :=
  let event := wrapped now raw
  { hub with
    poll := hub.send event
    pushing := hub.pushing ++ [event]
    published := hub.published ++ [event] }

def listen (topics : Topics) (topic : GoString) (value : Value) (now : Int) : EventHub Value :=
  let event : Event Value := ⟨now, ascii "pubsub", topic, value⟩
  { hub with
    poll := if topic ∈ topics.list then hub.send event else hub.poll
    pushing := hub.pushing ++ [event]
    published := hub.published ++ [event] }

def pushToBuf (index : Nat) (now : Int) : EventHub Value :=
  match hub.pushing[index]? with
  | none => hub
  | some event =>
    { hub with
      topicBuf := hub.topicBuf.insert event.topic
        (((hub.topicBuf.lookup event.topic).getD .empty).push event now)
      pushing := hub.pushing.eraseIdx index }

def largestID : Int := hub.received.foldl (fun largest event => max largest event.eventID) 0

def beginPoll (topics : Topics) : EventHub Value :=
  match hub.poll with
  | some _ => hub
  | none => { hub with poll := some ⟨hub.largestID, .replay (topics.list ++ [[]]) [], [], []⟩ }

def cut (shuffle : Shuffle (Event Value)) (found : List (Event Value)) : List (Event Value) :=
  (shuffle.sortSlice (fun first second => first.eventID < second.eventID) found).take maxCap

def write (poll : Poll Value) : EventHub Value :=
  { hub with
    poll := some { poll with stage := .leaving, events := [] }
    received := hub.received ++ poll.events }

def setPoll (poll : Poll Value) : EventHub Value := { hub with poll := some poll }

def advance (shuffle : Shuffle (Event Value)) (poll : Poll Value) : EventHub Value :=
  match poll.stage with
  | .replay (topic :: rest) found =>
    let buffered := ((hub.topicBuf.lookup topic).map fun buf => buf.replay poll.after)
    hub.setPoll { poll with stage := .replay rest (found ++ buffered.getD []) }
  | .replay [] found =>
    match cut shuffle found with
    | [] => hub.setPoll { poll with stage := .drain }
    | first :: rest => hub.write { poll with events := first :: rest }
  | .drain =>
    if poll.events.length < 20 then
      match poll.channel with
      | event :: channel =>
        hub.setPoll { poll with channel := channel, events := poll.events ++ [event] }
      | [] => hub.setPoll { poll with stage := if poll.events = [] then .wait else .collect }
    else hub.write poll
  | .wait => hub
  | .collect => if poll.events.length < 20 then hub else hub.write poll
  | .leaving => hub

def take (poll : Poll Value) : EventHub Value :=
  match poll.stage, poll.channel with
  | .wait, event :: channel => hub.setPoll ⟨poll.after, .collect, channel, poll.events ++ [event]⟩
  | .collect, event :: channel =>
    if poll.events.length < 20 then
      hub.setPoll ⟨poll.after, .collect, channel, poll.events ++ [event]⟩
    else hub
  | _, _ => hub

/-- The time is over, which is 30 s for the first event and 200 ms for the following ones. The
answer to the former has no events. -/
def timeout (poll : Poll Value) : EventHub Value :=
  match poll.stage with
  | .wait => hub.setPoll { poll with stage := .leaving, events := [] }
  | .collect => if poll.events.length < 20 then hub.write poll else hub
  | _ => hub

def cancel (poll : Poll Value) : EventHub Value :=
  match poll.stage with
  | .wait => hub.setPoll { poll with stage := .leaving, events := [] }
  | .collect =>
    if poll.events.length < 20 then hub.setPoll { poll with stage := .leaving, events := [] }
    else hub
  | _ => hub

def unregister (poll : Poll Value) : EventHub Value :=
  match poll.stage with
  | .leaving => { hub with poll := none }
  | _ => hub

inductive PollAction (Value : Type)
  | advance (shuffle : Shuffle (Event Value))
  | take
  | timeout
  | cancel
  | unregister

inductive Action (Value : Type)
  | broadcast (raw : Raw Value) (now : Int)
  | listen (topic : GoString) (value : Value) (now : Int)
  | pushToBuf (index : Nat) (now : Int)
  | beginPoll
  | poll (action : PollAction Value)

def actPoll (poll : Poll Value) : PollAction Value → EventHub Value
  | .advance shuffle => hub.advance shuffle poll
  | .take => hub.take poll
  | .timeout => hub.timeout poll
  | .cancel => hub.cancel poll
  | .unregister => hub.unregister poll

def machine (topics : Topics) : Machine (EventHub Value) (Action Value) where
  act hub
    | .broadcast raw now => hub.broadcast raw now
    | .listen topic value now => hub.listen topics topic value now
    | .pushToBuf index now => hub.pushToBuf index now
    | .beginPoll => hub.beginPoll topics
    | .poll action =>
      match hub.poll with
      | some poll => hub.actPoll poll action
      | none => hub

end EventHub

end Peerscale.P2put
