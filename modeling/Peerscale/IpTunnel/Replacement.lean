import Peerscale.IpTunnel.Carriers

/-! # Replaced carriers

`detach` opens a stream if it finds its carrier in the list of the hub. A carrier that
`attach` replaces is taken out of the list, unless it is dead already: then it stays there
beside the new one, and its `detach` opens another stream.
-/

namespace Peerscale.IpTunnel

def Heap.Distinct (heap : Heap) : Prop :=
  ∀ hub, ∀ first ∈ heap.list hub, ∀ second ∈ heap.list hub, ∀ direction,
    heap.Directed first direction → heap.Directed second direction → first = second

namespace Heap

theorem Distinct.shrinks (distinct : Distinct pre) (shrinks : pre.Shrinks post) :
    post.Distinct := by
  intro hub x firstMember y secondMember direction firstDirected secondDirected
  exact distinct hub x ((shrinks.list hub).subset firstMember) y
    ((shrinks.list hub).subset secondMember) direction
    (shrinks.directed x direction firstDirected)
    (shrinks.directed y direction secondDirected)

/-- If the carriers of the direction are all live, then none of them stays beside the new
one. -/
theorem Distinct.attach (distinct : Distinct heap) (tidy : heap.Orderly) (now : Time)
    (live : ∀ p ∈ heap.list hub, heap.Directed p direction → heap.Live p) :
    (heap.attach hub direction now).Distinct := by
  intro other x firstMember y secondMember one firstDirected secondDirected
  by_cases new : other = hub ∧ one = direction
  · have isNew : ∀ p ∈ (heap.attach hub direction now).list hub,
        (heap.attach hub direction now).Directed p direction → p = heap.carriers.length := by
      intro p mem directed
      rcases mem_list_attach mem with ⟨inList, kept⟩ | ⟨-, isLast⟩
      · rw [directed_attach (tidy.bounded hub p inList)] at directed
        have replaced := mem_replaced.mpr ⟨inList, directed, live p inList directed⟩
        exact absurd replaced (kept rfl)
      · exact isLast
    rcases new with ⟨rfl, rfl⟩
    rw [isNew x firstMember firstDirected, isNew y secondMember secondDirected]
  rcases tidy.mem_list_of_other firstMember firstDirected new with ⟨firstIn, firstOld⟩
  rcases tidy.mem_list_of_other secondMember secondDirected new with ⟨secondIn, secondOld⟩
  rw [directed_attach firstOld] at firstDirected
  rw [directed_attach secondOld] at secondDirected
  exact distinct other x firstIn y secondIn one firstDirected secondDirected

end Heap

namespace Tunnel

def direction (tunnel : Tunnel) (place : Nat) : Option Direction :=
  tunnel.heap.carriers[place]?.map Carrier.direction

/-- If an action is a `detach` that starts to open a stream, then no live carrier of the
direction of the detached one remains in the hub. -/
def OpensRightly (tunnel : Tunnel) (action : Action) : Prop :=
  ∀ entry ∈ tunnel.detaching action, (tunnel.heap.detach entry.1 entry.2).2 →
    ∀ other ∈ (tunnel.heap.detach entry.1 entry.2).1.list entry.1,
      tunnel.direction other = tunnel.direction entry.2 → ¬tunnel.heap.Live other
  deriving Decidable

/-- If an action attaches a carrier, then no dead one of its direction is in the list any
more. -/
def AttachesAfterDetach (tunnel : Tunnel) (action : Action) : Prop :=
  ∀ entry ∈ tunnel.attaching action, ∀ place ∈ tunnel.heap.list entry.1,
    tunnel.heap.Directed place entry.2 → tunnel.heap.Live place
  deriving Decidable

theorem distinct_act {tun : Tunnel} (tidy : tun.heap.Orderly)
    (distinct : tun.heap.Distinct) (may : tun.AttachesAfterDetach a) :
    (tun.act a).heap.Distinct := by
  rcases (tun.effect_act a).shrinks_or_attach with
    shrinks | ⟨hub, direction, now, attaching, -, attached⟩
  · exact distinct.shrinks shrinks
  · rw [attached]
    exact distinct.attach tidy now (may (hub, direction) attaching)

theorem opensRightly_of_distinct {tun : Tunnel} (tidy : tun.heap.Orderly)
    (distinct : tun.heap.Distinct) (a : Action) : tun.OpensRightly a := by
  rintro ⟨hub, p⟩ detaching opens other mem same live
  have found : p ∈ tun.heap.list hub := by
    by_contra missing
    rw [Heap.detach, if_neg missing] at opens
    cases opens
  rw [Heap.list_detach found, if_pos rfl, (tidy.nodup hub).mem_erase_iff] at mem
  rcases live with ⟨carrier, has, -⟩
  have others : tun.heap.Directed other carrier.direction := ⟨carrier, has, rfl⟩
  rw [direction, has, Option.map_some] at same
  have own : tun.heap.Directed p carrier.direction := by
    rcases Option.map_eq_some_iff.mp same.symm with ⟨detached, presentToo, alike⟩
    exact ⟨detached, presentToo, alike⟩
  exact mem.1 (distinct hub other mem.2 p found _ others own)

/-- In every run in which a carrier is attached only when no dead one of its direction is in
the list any more, `detach` opens a stream only if no live carrier of the direction
remains. -/
theorem opens_rightly {actions : List Action}
    (obeys : machine.Obeys AttachesAfterDetach start actions) :
    machine.Obeys OpensRightly start actions := by
  have initially : start.heap.Orderly ∧ start.heap.Distinct := ⟨orderly_start, nofun⟩
  have step : ∀ (tunnel : Tunnel) (action : Action), tunnel.heap.Orderly ∧ tunnel.heap.Distinct →
      tunnel.AttachesAfterDetach action →
        (tunnel.act action).heap.Orderly ∧ (tunnel.act action).heap.Distinct :=
    fun _ action both permitted => ⟨orderly_act both.1 action, distinct_act both.1 both.2 permitted⟩
  exact @Machine.Obeys.consequence Tunnel Action machine AttachesAfterDetach
    (fun tunnel => tunnel.heap.Orderly ∧ tunnel.heap.Distinct) start actions obeys initially
    step _ fun _ action both _ => opensRightly_of_distinct both.1 both.2 action

def ok (index : Nat) : Action := .step index (1000 * minute) true false
def fail (index : Nat) : Action := .step index (1000 * minute) false false

def firstWrite : List Action :=
  [.writeToPeer (ascii "bob") 1000, ok 0, ok 0, ok 0, ok 0, ok 0, ok 0, ok 0]

theorem firstWrite_opens_rightly :
    machine.Obeys OpensRightly start (firstWrite ++ [ok 0, ok 0, fail 1, ok 1, ok 2, ok 2]) :=
  opens_rightly (by decide +kernel)

def failedWrite : List Action :=
  firstWrite ++ [ok 0, fail 0, ok 0, ok 0, ok 0, ok 0, ok 0, ok 0, ok 0, fail 1, ok 1]

theorem failedWrite_opens_wrongly :
    (machine.run start failedWrite).tasks =
        [.returned (some 1), .returned none, .pump 0 1, .opener 0 .connect] ∧
      (machine.run start failedWrite).heap.Live 1 ∧
      ¬machine.Obeys OpensRightly start failedWrite := by
  decide +kernel

end Tunnel

end Peerscale.IpTunnel
