import Peerscale.IpTunnel.Carriers

/-! # The registry of hubs

The reaper deletes a hub that has no live carrier and has not been used for a while. A
call that has got the hub and has not used it yet goes on with it, and so does a carrier
that is dead but not yet detached, while others get a new hub for the same peer.
-/

namespace Peerscale.IpTunnel.Tunnel

def Registered (tunnel : Tunnel) (hub : Nat) : Prop :=
  ∃ peerID, tunnel.heap.peer hub = some peerID ∧ tunnel.heap.registry.lookup peerID = some hub

def Active (tunnel : Tunnel) (hub : Nat) : Prop :=
  tunnel.heap.list hub ≠ [] ∨ tunnel.Holds hub

def deleting (tunnel : Tunnel) : Action → Option PeerID
  | .reap => tunnel.sweep.bind Sweep.doomed
  | _ => none

/-- If an action deletes a hub, then that has no carriers and no task has got it. -/
def DeletesUnused (tunnel : Tunnel) (action : Action) : Prop :=
  ∀ peerID ∈ tunnel.deleting action, ∀ hub ∈ tunnel.heap.registry.lookup peerID,
    tunnel.heap.list hub = [] ∧ ∀ task ∈ tunnel.tasks, task.hub ≠ some hub
  deriving Decidable

theorem registered_of_old {tun post : Tunnel} (pre : ∀ hub, tun.Active hub → tun.Registered hub)
    (reg : post.heap.registry = tun.heap.registry)
    (peer : ∀ hub, post.heap.peer hub = tun.heap.peer hub)
    (active : ∀ hub, post.Active hub → tun.Active hub) (hub : Nat)
    (isActive : post.Active hub) : post.Registered hub := by
  rcases pre hub (active hub isActive) with ⟨peerID, isPeer, found⟩
  refine ⟨peerID, ?_, ?_⟩
  · rw [peer]
    exact isPeer
  · rw [reg]
    exact found

theorem registered_lookedUp {post : Tunnel} (grounded : Grounded tun)
    (pre : ∀ hub, tun.Active hub → tun.Registered hub)
    (heap : post.heap = (tun.heap.hubFor peerID).2)
    (holds : ∀ hub, post.Holds hub → tun.Holds hub ∨ hub = (tun.heap.hubFor peerID).1)
    (hub : Nat) (isActive : post.Active hub) : post.Registered hub := by
  rcases Heap.hubFor_spec grounded.registry peerID with ⟨own, ownPeer, peers, others⟩
  have old : tun.Active hub → post.Registered hub := by
    intro active
    rcases pre hub active with ⟨one, isPeer, found⟩
    refine ⟨one, ?_, ?_⟩
    · rw [heap, peers hub (by rw [isPeer]; rfl)]
      exact isPeer
    rw [heap]
    by_cases same : one = peerID
    · rw [same] at found
      rw [Heap.hubFor, found, same]
      exact found
    · rw [others one same]
      exact found
  rcases isActive with carriers | held
  · rw [heap, Heap.list_hubFor] at carriers
    exact old (.inl carriers)
  rcases holds hub held with prev | rfl
  · exact old (.inr prev)
  refine ⟨peerID, ?_, ?_⟩
  · rw [heap]
    exact ownPeer
  · rw [heap]
    exact own

theorem registered_deleted {tun post : Tunnel} (pre : ∀ hub, tun.Active hub → tun.Registered hub)
    (unused : ∀ hub ∈ tun.heap.registry.lookup peerID, ¬tun.Active hub)
    (heap : post.heap = { tun.heap with registry := tun.heap.registry.erase peerID })
    (holds : ∀ hub, post.Holds hub → tun.Holds hub) (hub : Nat) (isActive : post.Active hub) :
    post.Registered hub := by
  have active : tun.Active hub := by
    rcases isActive with carriers | held
    · rw [heap] at carriers
      exact .inl carriers
    · exact .inr (holds hub held)
  rcases pre hub active with ⟨one, isPeer, found⟩
  refine ⟨one, ?_, ?_⟩
  · rw [heap]
    exact isPeer
  rw [heap]
  by_cases same : one = peerID
  · rw [same] at found
    exact absurd active (unused hub found)
  · rw [AList.lookup_erase_ne same]
    exact found

theorem registered_act (grounded : Grounded tun)
    (pre : ∀ hub, tun.Active hub → tun.Registered hub) (may : tun.DeletesUnused a) :
    ∀ hub, (tun.act a).Active hub → (tun.act a).Registered hub := by
  have eff := tun.effect_act a
  generalize tun.act a = post at eff
  cases eff with
  | quiet heap holds =>
    apply registered_of_old pre heap.registry heap.peer
    rintro hub (carriers | held)
    · rw [heap.list] at carriers
      exact .inl carriers
    · exact .inr (holds hub held)
  | died p heap holds =>
    apply registered_of_old pre (by rw [heap]; rfl) (fun hub => by rw [heap]; rfl)
    rintro hub (carriers | held)
    · rw [heap] at carriers
      exact .inl carriers
    · exact .inr (holds hub held)
  | lookedUp peerID heap holds => exact registered_lookedUp grounded pre heap holds
  | attached hub dir now attaching holder heap holds =>
    apply registered_of_old pre (by rw [heap]; rfl) (fun other => by rw [heap, Heap.peer_attach])
    rintro other (carriers | held)
    · by_cases here : other = hub
      · exact .inr (here ▸ holder)
      · rw [heap, Heap.list_attach_of_ne here] at carriers
        exact .inl carriers
    · exact .inr (holds other held)
  | detached hub p mem heap holds =>
    apply registered_of_old pre (by rw [heap, Heap.registry_detach])
      (fun other => by rw [heap, Heap.peer_detach])
    rintro other (carriers | held)
    · left
      intro none
      have shrunk := (Heap.shrinks_detach mem).list other
      rw [none, List.sublist_nil, ← heap] at shrunk
      exact carriers shrunk
    rcases holds other held with prev | rfl
    · exact .inr prev
    · exact .inl (List.ne_nil_of_mem mem)
  | deleted peerID isReap doomed heap holds =>
    subst isReap
    apply registered_deleted pre _ heap holds
    intro hub found active
    rcases may peerID doomed hub found with ⟨empty, nobody⟩
    rcases active with carriers | ⟨task, mem, has⟩
    · exact carriers empty
    · exact nobody task mem has

def HasLive (tunnel : Tunnel) (hub : Nat) : Prop :=
  ∃ place ∈ tunnel.heap.list hub, tunnel.heap.Live place

/-- Hubs with live carriers are those that the registry has, and no two of them are for one
peer. -/
structure LiveRegistered (tunnel : Tunnel) : Prop where
  registered : ∀ hub, tunnel.HasLive hub → tunnel.Registered hub
  unique : ∀ hub other, tunnel.HasLive hub → tunnel.HasLive other →
    tunnel.heap.peer hub = tunnel.heap.peer other → hub = other

theorem LiveRegistered.of_active {tun : Tunnel}
    (active : ∀ hub, tun.Active hub → tun.Registered hub) : tun.LiveRegistered := by
  have registered : ∀ hub, tun.HasLive hub → tun.Registered hub := by
    rintro hub ⟨p, mem, -⟩
    exact active hub (.inl (List.ne_nil_of_mem mem))
  refine ⟨registered, ?_⟩
  intro hub other hubLive otherLive samePeer
  rcases registered hub hubLive with ⟨peerID, isPeer, found⟩
  rcases registered other otherLive with ⟨otherID, otherPeer, otherFound⟩
  rw [isPeer, otherPeer, Option.some.injEq] at samePeer
  rw [samePeer, otherFound, Option.some.injEq] at found
  exact found.symm

/-- In every run in which the reaper deletes only hubs that have no carriers and that no
task has got, live carriers are in registered hubs. -/
theorem live_registered {actions : List Action}
    (obeys : machine.Obeys DeletesUnused start actions) :
    machine.Always LiveRegistered start actions := by
  rintro earlier later rfl
  have initially : start.Grounded ∧ ∀ hub, start.Active hub → start.Registered hub := by
    refine ⟨grounded_start, ?_⟩
    rintro hub (carriers | ⟨task, member, -⟩)
    · exact absurd rfl carriers
    · cases member
  have invariant := @Machine.Obeys.invariant Tunnel Action machine DeletesUnused
    (fun tunnel => tunnel.Grounded ∧ ∀ hub, tunnel.Active hub → tunnel.Registered hub) start
    earlier obeys.append.1 initially fun _ action both permitted =>
      ⟨both.1.act action, registered_act both.1 both.2 permitted⟩
  exact LiveRegistered.of_active invariant.2

def goOn (index : Nat) : Action := .step index (1000 * minute) true false

theorem written_registered :
    machine.Always LiveRegistered start
      [.writeToPeer (ascii "bob") 1000, goOn 0, goOn 0, goOn 0, goOn 0, goOn 0, goOn 0, goOn 0,
        goOn 0, goOn 0, .startSweep (1000 * minute) (.asIs _), .reap, .reap] :=
  live_registered (by decide +kernel)

def reapedEarly : List Action :=
  [.writeToPeer (ascii "bob") 1000, goOn 0, .startSweep (1000 * minute) (.asIs _), .reap, .reap,
    .reap, goOn 0, goOn 0, goOn 0, goOn 0, goOn 0, .handleStream (ascii "bob"), goOn 2, goOn 2]

theorem reapedEarly_unregistered :
    (machine.run start reapedEarly).heap.registry.lookup (ascii "bob") = some 1 ∧
      (machine.run start reapedEarly).heap.hubs.map Hub.peerID = [ascii "bob", ascii "bob"] ∧
      (machine.run start reapedEarly).heap.hubs.map Hub.carriers = [[0], [1]] ∧
      (machine.run start reapedEarly).heap.carriers.map Carrier.dead = [false, false] ∧
      ¬machine.Always LiveRegistered start reapedEarly := by
  have found : (machine.run start reapedEarly).heap.registry.lookup (ascii "bob") = some 1 := by
    decide +kernel
  have live : 0 ∈ (machine.run start reapedEarly).heap.list 0 ∧
      (machine.run start reapedEarly).heap.Live 0 := by
    decide +kernel
  have peer : (machine.run start reapedEarly).heap.peer 0 = some (ascii "bob") := by decide +kernel
  refine ⟨found, by decide +kernel, by decide +kernel, by decide +kernel, ?_⟩
  intro always
  have registered := (always reapedEarly [] (List.append_nil _).symm).registered 0 ⟨0, live⟩
  rcases registered with ⟨peerID, isPeer, isFound⟩
  rw [peer, Option.some.injEq] at isPeer
  rw [← isPeer, found] at isFound
  cases isFound

end Peerscale.IpTunnel.Tunnel
