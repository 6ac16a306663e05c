import Mathlib.Logic.Function.Basic
import Peerscale.Foundation.GoValue
import Peerscale.Foundation.Machine

/-! # The channels of polling clients

Each `onEvents` makes a channel and puts it into two maps. At its end it takes the channel out
of them, and closes it when it has given up the lock. Senders go through one of the maps while
they hold the lock.
-/

namespace Peerscale.P2put

structure ClientChannel where
  buffered : Nat
  closed : Bool

inductive SendResult
  | sent
  | dropped
  | blocked
  | panicked
  deriving DecidableEq

def ClientChannel.select (channel : ClientChannel) (hasDefault : Bool) : SendResult :=
  if channel.closed then .panicked
  else if channel.buffered < 128 then .sent
  else if hasDefault then .dropped
  else .blocked

inductive RequestStage
  | absent
  | active
  | leaving
  | left
  deriving DecidableEq

structure ClientHub where
  next : Nat
  stage : Nat → RequestStage
  channel : Nat → ClientChannel
  clients : List Nat
  clientTopics : List (Nat × List GoString)
  results : List SendResult
  closedTwice : Bool

namespace ClientHub

def start : ClientHub := ⟨0, fun _ => .absent, fun _ => ⟨0, false⟩, [], [], [], false⟩

variable (hub : ClientHub)

def register (topics : List GoString) : ClientHub where
  next := hub.next + 1
  stage := Function.update hub.stage hub.next .active
  channel := Function.update hub.channel hub.next ⟨0, false⟩
  clients := hub.next :: hub.clients
  clientTopics := if topics = [] then hub.clientTopics else (hub.next, topics) :: hub.clientTopics
  results := hub.results
  closedTwice := hub.closedTwice

def send (targets : List Nat) : ClientHub :=
  { hub with
    channel := fun id =>
      let channel := hub.channel id
      if id ∈ targets ∧ channel.select true = .sent then
        { channel with buffered := channel.buffered + 1 }
      else channel
    results := hub.results ++ targets.map fun id => (hub.channel id).select true }

def fireClients : ClientHub := hub.send hub.clients

def listen (topic : GoString) : ClientHub :=
  hub.send ((hub.clientTopics.filter fun client => client.2.contains topic).map Prod.fst)

def receive (id : Nat) : ClientHub :=
  let channel := hub.channel id
  { hub with channel := Function.update hub.channel id ⟨channel.buffered - 1, channel.closed⟩ }

def remove (id : Nat) : ClientHub :=
  if hub.stage id = .active then
    { hub with
      stage := Function.update hub.stage id .leaving
      clients := hub.clients.filter (· ≠ id)
      clientTopics := hub.clientTopics.filter (·.1 ≠ id) }
  else hub

def close (id : Nat) : ClientHub :=
  if hub.stage id = .leaving then
    { hub with
      stage := Function.update hub.stage id .left
      channel := Function.update hub.channel id { hub.channel id with closed := true }
      closedTwice := hub.closedTwice || (hub.channel id).closed }
  else hub

inductive Action
  | register (topics : List GoString)
  | fireClients
  | listen (topic : GoString)
  | receive (id : Nat)
  | remove (id : Nat)
  | close (id : Nat)

def machine : Machine ClientHub Action where
  act hub
    | .register topics => hub.register topics
    | .fireClients => hub.fireClients
    | .listen topic => hub.listen topic
    | .receive id => hub.receive id
    | .remove id => hub.remove id
    | .close id => hub.close id

/-- What is in the maps is active, and what has not left is open. -/
structure Sound (hub : ClientHub) : Prop where
  clients : ∀ id ∈ hub.clients, hub.stage id = .active
  clientTopics : ∀ client ∈ hub.clientTopics, hub.stage client.1 = .active
  isOpen : ∀ id, hub.stage id ≠ .left → (hub.channel id).closed = false
  results : ∀ result ∈ hub.results, result = .sent ∨ result = .dropped
  closedOnce : hub.closedTwice = false

variable {hub : ClientHub}

theorem Sound.send (sound : Sound hub) (active : ∀ id ∈ targets, hub.stage id = .active) :
    Sound (hub.send targets) where
  clients := sound.clients
  clientTopics := sound.clientTopics
  isOpen id inside := by
    have isOpen := sound.isOpen id inside
    dsimp only [ClientHub.send]
    split <;> exact isOpen
  results res mem := by
    rcases List.mem_append.mp mem with old | new
    · exact sound.results res old
    · rcases List.mem_map.mp new with ⟨id, isTarget, rfl⟩
      have isOpen := sound.isOpen id (by rw [active id isTarget]; decide)
      grind [ClientChannel.select]
  closedOnce := sound.closedOnce

theorem Sound.act (sound : Sound hub) (action : Action) : Sound (machine.act hub action) := by
  rcases sound with ⟨clients, clientTopics, isOpen, results, closedOnce⟩
  cases action with
  | register topics =>
    refine ⟨?_, ?_, ?_, results, closedOnce⟩ <;>
      simp only [machine, register, Function.update_apply] <;> grind
  | fireClients => exact Sound.send ⟨clients, clientTopics, isOpen, results, closedOnce⟩ clients
  | listen topic =>
    refine Sound.send ⟨clients, clientTopics, isOpen, results, closedOnce⟩ ?_
    intro id mem
    rcases List.mem_map.mp mem with ⟨client, isClient, rfl⟩
    exact clientTopics client (List.mem_of_mem_filter isClient)
  | receive id =>
    refine ⟨clients, clientTopics, ?_, results, closedOnce⟩
    simp only [machine, receive, Function.update_apply]
    grind
  | remove id =>
    simp only [machine, remove]
    split
    · refine ⟨?_, ?_, ?_, results, closedOnce⟩ <;> simp only [Function.update_apply] <;> grind
    · exact ⟨clients, clientTopics, isOpen, results, closedOnce⟩
  | close id =>
    simp only [machine, close]
    split
    · refine ⟨?_, ?_, ?_, results, ?_⟩ <;> simp only [Function.update_apply] <;> grind
    · exact ⟨clients, clientTopics, isOpen, results, closedOnce⟩

/-- No send panics or blocks, no channel is closed twice, and the maps are empty when no request
is active. -/
theorem channels_safe (acts : List Action) :
    let hub := machine.run start acts
    (∀ result ∈ hub.results, result = .sent ∨ result = .dropped) ∧ hub.closedTwice = false ∧
      ((∀ id, hub.stage id ≠ .active) → hub.clients = [] ∧ hub.clientTopics = []) := by
  have sound := machine.invariant (⟨nofun, nofun, fun _ _ => rfl, nofun, rfl⟩ : Sound start)
    (fun _ action sound => sound.act action) acts
  refine ⟨sound.results, sound.closedOnce, fun none => ⟨?_, ?_⟩⟩
  · exact List.eq_nil_iff_forall_not_mem.mpr fun id member => none id (sound.clients id member)
  · exact List.eq_nil_iff_forall_not_mem.mpr fun client member =>
      none client.1 (sound.clientTopics client member)

end ClientHub

end Peerscale.P2put
