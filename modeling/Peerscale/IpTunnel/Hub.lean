import Mathlib.Data.List.AList
import Mathlib.Data.List.Nodup
import Mathlib.Tactic
import Peerscale.Foundation.GoValue
import Peerscale.Foundation.Time

/-! # Hubs of the IP tunnel

For each peer a hub has the streams to that peer, its carriers. Hubs and carriers are
shared by goroutines, some of which go on with a hub that the registry has forgotten, or
with a carrier that its hub has dropped; both are kept at the place at which they were
made.
-/

namespace Peerscale.IpTunnel

abbrev PeerID := GoString

def hubIdle : Duration := 2 * minute

inductive Direction
  | inbound
  | outbound
  deriving DecidableEq

structure Carrier where
  hub : Nat
  direction : Direction
  dead : Bool
  deriving DecidableEq

structure Hub where
  peerID : PeerID
  carriers : List Nat
  opening : Bool
  lastUse : Time
  deriving DecidableEq

/-- The carriers and hubs that have been made, and the hub that `hubs` has for a peer. -/
structure Heap where
  carriers : List Carrier
  hubs : List Hub
  registry : AList fun _ : PeerID => Nat

namespace Heap

variable (heap : Heap)

def list (hub : Nat) : List Nat := (heap.hubs[hub]?.map Hub.carriers).getD []

def isOpening (hub : Nat) : Bool := (heap.hubs[hub]?.map Hub.opening).getD false

def Live (place : Nat) : Prop :=
  ∃ carrier, heap.carriers[place]? = some carrier ∧ carrier.dead = false
  deriving Decidable

def Directed (place : Nat) (direction : Direction) : Prop :=
  ∃ carrier, heap.carriers[place]? = some carrier ∧ carrier.direction = direction
  deriving Decidable

def modifyHub (hub : Nat) (change : Hub → Hub) : Heap :=
  { heap with hubs := heap.hubs.modify hub change }

def markDead (places : List Nat) : Heap :=
  { heap with
    carriers := heap.carriers.mapIdx fun place carrier =>
      if place ∈ places then { carrier with dead := true } else carrier }

def hubFor (peerID : PeerID) : Nat × Heap :=
  match heap.registry.lookup peerID with
  | some hub => (hub, heap)
  | none =>
    (heap.hubs.length,
      { heap with
        hubs := heap.hubs ++ [{ peerID := peerID, carriers := [], opening := false, lastUse := 0 }]
        registry := heap.registry.insert peerID heap.hubs.length })

def replaced (hub : Nat) (direction : Direction) : List Nat :=
  (heap.list hub).filter fun place => heap.Directed place direction ∧ heap.Live place

/-- The region of `attach`: the live carriers of the same direction make way for the new
one. -/
def attach (hub : Nat) (direction : Direction) (now : Time) : Heap :=
  let replaced := heap.replaced hub direction
  let kept := (heap.list hub).filter fun place => place ∉ replaced
  let marked := heap.markDead replaced
  let added : Heap := { marked with carriers := marked.carriers ++ [⟨hub, direction, false⟩] }
  added.modifyHub hub fun state =>
    { state with carriers := kept ++ [heap.carriers.length], lastUse := now }

def detach (hub place : Nat) : Heap × Bool :=
  if place ∈ heap.list hub then
    let removed := heap.modifyHub hub fun state =>
      { state with carriers := state.carriers.erase place }
    if heap.isOpening hub then (removed, false)
    else (removed.modifyHub hub fun state => { state with opening := true }, true)
  else (heap, false)

def unused (hub : Nat) (now : Time) : Bool :=
  match heap.hubs[hub]? with
  | none => false
  | some state =>
    let busy := state.opening || state.carriers.any fun place => heap.Live place
    let idle := Time.sub now state.lastUse > hubIdle
    !busy && idle

end Heap

end Peerscale.IpTunnel
