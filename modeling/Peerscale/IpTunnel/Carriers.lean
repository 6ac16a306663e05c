import Peerscale.IpTunnel.Tasks

/-! # Carriers of a hub

A hub has at most one live carrier in each direction. A carrier that a failed write has
marked as dead stays in the list until it is detached, and a new carrier may be attached
before that.
-/

namespace Peerscale.IpTunnel

open List Option

namespace Heap

variable {heap : Heap} {p : Nat} {dir : Direction}

theorem live_markDead : (heap.markDead places).Live p ↔ heap.Live p ∧ p ∉ places := by
  rw [Live, Live, markDead, getElem?_mapIdx]
  cases heap.carriers[p]? with
  | none => simp
  | some => by_cases dying : p ∈ places <;> simp [dying]

theorem directed_markDead : (heap.markDead places).Directed p dir ↔ heap.Directed p dir := by
  rw [Directed, Directed, markDead, getElem?_mapIdx]
  cases heap.carriers[p]? with
  | none => simp
  | some => by_cases dying : p ∈ places <;> simp [dying]

theorem length_markDead (places : List Nat) :
    (heap.markDead places).carriers.length = heap.carriers.length :=
  length_mapIdx

theorem list_modifyHub_self {carriers : List Nat} (known : (heap.peer hub).isSome)
    (changed : ∀ state, heap.hubs[hub]? = some state → (change state).carriers = carriers) :
    (heap.modifyHub hub change).list hub = carriers := by
  rw [peer, isSome_map] at known
  rcases isSome_iff_exists.mp known with ⟨state, found⟩
  rw [list, modifyHub, getElem?_modify, found]
  simp [changed state found]

theorem list_modifyHub_of_ne (change : Hub → Hub) (apart : other ≠ hub) :
    (heap.modifyHub hub change).list other = heap.list other := by
  rw [list, list, modifyHub, getElem?_modify]
  simp [apart.symm]

theorem list_of_unknown (unknown : ¬(heap.peer hub).isSome) : heap.list hub = [] := by
  rw [peer, isSome_map, not_isSome_iff_eq_none] at unknown
  rw [list, unknown]
  rfl

variable {hub : Nat} {now : Time}

theorem list_attach_self (known : (heap.peer hub).isSome) :
    (heap.attach hub dir now).list hub =
      (heap.list hub).filter (fun one => one ∉ heap.replaced hub dir) ++ [heap.carriers.length] :=
  list_modifyHub_self known fun _ _ => rfl

theorem list_attach_of_ne (apart : other ≠ hub) :
    (heap.attach hub dir now).list other = heap.list other :=
  list_modifyHub_of_ne _ apart

theorem carriers_attach :
    (heap.attach hub dir now).carriers =
      (heap.markDead (heap.replaced hub dir)).carriers ++ [⟨hub, dir, false⟩] := rfl

theorem getElem?_attach (pre : p < heap.carriers.length) :
    (heap.attach hub dir now).carriers[p]? =
      (heap.markDead (heap.replaced hub dir)).carriers[p]? := by
  rw [carriers_attach]
  exact getElem?_append_left (by rw [length_markDead]; exact pre)

theorem getElem?_attach_new :
    (heap.attach hub dir now).carriers[heap.carriers.length]? = some ⟨hub, dir, false⟩ := by
  rw [carriers_attach, ← length_markDead (heap.replaced hub dir)]
  exact getElem?_concat_length

theorem live_attach (pre : p < heap.carriers.length) :
    (heap.attach hub dir now).Live p ↔ heap.Live p ∧ p ∉ heap.replaced hub dir := by
  rw [Live, getElem?_attach pre]
  exact live_markDead

theorem directed_attach (pre : p < heap.carriers.length) :
    (heap.attach hub dir now).Directed p one ↔ heap.Directed p one := by
  rw [Directed, getElem?_attach pre]
  exact directed_markDead

theorem mem_replaced :
    p ∈ heap.replaced hub dir ↔ p ∈ heap.list hub ∧ heap.Directed p dir ∧ heap.Live p := by
  rw [replaced, mem_filter, decide_eq_true_iff]

end Heap

structure Heap.Shrinks (pre post : Heap) : Prop where
  length : post.carriers.length = pre.carriers.length
  list : ∀ hub, (post.list hub).Sublist (pre.list hub)
  live : ∀ p, post.Live p → pre.Live p
  directed : ∀ p direction, post.Directed p direction → pre.Directed p direction

namespace Heap

variable {pre post : Heap}

theorem Shrinks.of_carriers (carriers : post.carriers = pre.carriers)
    (list : ∀ hub, (post.list hub).Sublist (pre.list hub)) : pre.Shrinks post where
  length := by rw [carriers]
  list := list
  live p live := by
    rw [Live, carriers] at live
    exact live
  directed p dir directed := by
    rw [Directed, carriers] at directed
    exact directed

theorem Quiet.shrinks (quiet : pre.Quiet post) : pre.Shrinks post :=
  .of_carriers quiet.carriers fun hub => by rw [quiet.list]

theorem shrinks_markDead (heap : Heap) (places : List Nat) :
    heap.Shrinks (heap.markDead places) where
  length := length_markDead places
  list _ := List.Sublist.refl _
  live _ live := (live_markDead.mp live).1
  directed _ _ directed := directed_markDead.mp directed

theorem list_hubFor (heap : Heap) (peerID : PeerID) (hub : Nat) :
    (heap.hubFor peerID).2.list hub = heap.list hub := by
  rw [hubFor]
  split
  · rfl
  rw [list, list]
  rcases Nat.lt_trichotomy hub heap.hubs.length with prev | rfl | later
  · rw [getElem?_append_left prev]
  · rw [getElem?_concat_length, getElem?_eq_none (Nat.le_refl _)]
    rfl
  · rw [getElem?_eq_none (by simpa using later), getElem?_eq_none later.le]

theorem carriers_hubFor (heap : Heap) (peerID : PeerID) :
    (heap.hubFor peerID).2.carriers = heap.carriers := by
  rw [hubFor]
  split <;> rfl

theorem shrinks_hubFor (heap : Heap) (peerID : PeerID) : heap.Shrinks (heap.hubFor peerID).2 :=
  .of_carriers (heap.carriers_hubFor peerID) fun hub => by rw [list_hubFor]

theorem list_setOpening (heap : Heap) (hub other : Nat) (val : Bool) :
    (heap.modifyHub hub fun state => { state with opening := val }).list other =
      heap.list other := by
  apply Quiet.list
  exact heap.quiet_modifyHub hub (fun _ => rfl) (fun _ => rfl)

theorem list_erase_self (heap : Heap) (hub p : Nat) :
    (heap.modifyHub hub fun state => { state with carriers := state.carriers.erase p }).list
      hub = (heap.list hub).erase p := by
  by_cases known : (heap.peer hub).isSome
  · apply list_modifyHub_self known
    intro state found
    rw [list, found]
    rfl
  rw [heap.list_of_unknown known, list_of_unknown]
  · rfl
  rw [peer, modifyHub, getElem?_modify]
  rw [peer] at known
  simpa using known

theorem list_detach {heap : Heap} (mem : p ∈ heap.list hub) (other : Nat) :
    (heap.detach hub p).1.list other =
      if other = hub then (heap.list hub).erase p else heap.list other := by
  have removed : (heap.modifyHub hub fun state =>
      { state with carriers := state.carriers.erase p }).list other =
        if other = hub then (heap.list hub).erase p else heap.list other := by
    split
    · rename_i here
      rw [here, list_erase_self]
    · rename_i apart
      rw [list_modifyHub_of_ne _ apart]
  rw [detach, if_pos mem]
  split
  · exact removed
  · rw [list_setOpening, removed]

theorem detach_eq (heap : Heap) (hub p : Nat) :
    ∃ hubs, (heap.detach hub p).1 = { heap with hubs := hubs } := by
  rw [detach]
  split
  · split <;> exact ⟨_, rfl⟩
  · exact ⟨heap.hubs, rfl⟩

theorem carriers_detach (heap : Heap) (hub p : Nat) :
    (heap.detach hub p).1.carriers = heap.carriers := by
  rcases heap.detach_eq hub p with ⟨hubs, same⟩
  rw [same]

theorem shrinks_detach {heap : Heap} (mem : p ∈ heap.list hub) :
    heap.Shrinks (heap.detach hub p).1 := by
  apply Shrinks.of_carriers (heap.carriers_detach hub p)
  intro other
  rw [list_detach mem]
  split
  · rename_i here
    rw [here]
    exact erase_sublist
  · exact List.Sublist.refl _

end Heap

theorem Tunnel.Effect.shrinks_or_attach (eff : Tunnel.Effect tun a post) :
    tun.heap.Shrinks post.heap ∨ ∃ hub dir now, tun.attaching a = some (hub, dir) ∧ tun.Holds hub ∧
        post.heap = tun.heap.attach hub dir now := by
  cases eff with
  | quiet heap => exact .inl heap.shrinks
  | died p heap => exact .inl (heap ▸ tun.heap.shrinks_markDead [p])
  | lookedUp peerID heap => exact .inl (heap ▸ tun.heap.shrinks_hubFor peerID)
  | attached hub dir now attaching holder heap =>
    exact .inr ⟨hub, dir, now, attaching, holder, heap⟩
  | detached hub p mem heap => exact .inl (heap ▸ Heap.shrinks_detach mem)
  | deleted peerID isReap doomed heap =>
    exact .inl (heap ▸ Heap.Shrinks.of_carriers rfl fun _ => List.Sublist.refl _)

/-- No carrier is in a list twice, and no two live ones in a list have one direction. -/
structure Heap.Orderly (heap : Heap) : Prop where
  bounded : ∀ hub, ∀ p ∈ heap.list hub, p < heap.carriers.length
  nodup : ∀ hub, (heap.list hub).Nodup
  single : ∀ hub, ∀ first ∈ heap.list hub, ∀ second ∈ heap.list hub,
    heap.Live first → heap.Live second → ∀ direction,
      heap.Directed first direction → heap.Directed second direction → first = second

namespace Heap

variable {pre heap : Heap}

theorem Orderly.shrinks (tidy : pre.Orderly) (shrinks : pre.Shrinks post) : post.Orderly where
  bounded hub p mem := by
    rw [shrinks.length]
    exact tidy.bounded hub p ((shrinks.list hub).subset mem)
  nodup hub := (tidy.nodup hub).sublist (shrinks.list hub)
  single hub x firstMember y secondMember firstLive secondLive dir firstDirected
      secondDirected := by
    exact tidy.single hub x ((shrinks.list hub).subset firstMember) y
      ((shrinks.list hub).subset secondMember) (shrinks.live x firstLive)
      (shrinks.live y secondLive) dir (shrinks.directed x dir firstDirected)
      (shrinks.directed y dir secondDirected)

theorem list_attach_of_unknown (unknown : ¬(heap.peer hub).isSome) (dir : Direction)
    (now : Time) : (heap.attach hub dir now).list hub = [] := by
  apply list_of_unknown
  rw [peer, attach, modifyHub, getElem?_modify]
  rw [peer] at unknown
  simpa [markDead] using unknown

theorem mem_list_attach (mem : p ∈ (heap.attach hub dir now).list other) :
    p ∈ heap.list other ∧ (other = hub → p ∉ heap.replaced hub dir) ∨
      other = hub ∧ p = heap.carriers.length := by
  by_cases here : other = hub
  · subst here
    by_cases known : (heap.peer other).isSome
    · rw [list_attach_self known, mem_append, mem_filter, decide_eq_true_iff, mem_singleton] at mem
      rcases mem with ⟨inList, kept⟩ | new
      · exact .inl ⟨inList, fun _ => kept⟩
      · exact .inr ⟨rfl, new⟩
    · rw [list_attach_of_unknown known] at mem
      cases mem
  · rw [list_attach_of_ne here] at mem
    exact .inl ⟨mem, fun same => absurd same here⟩

theorem Orderly.live_iff_new (tidy : heap.Orderly) (mem : p ∈ (heap.attach hub dir now).list hub)
    (directed : (heap.attach hub dir now).Directed p dir) :
    (heap.attach hub dir now).Live p ↔ p = heap.carriers.length := by
  rcases mem_list_attach mem with ⟨inList, kept⟩ | ⟨-, new⟩
  · have pre := tidy.bounded hub p inList
    rw [directed_attach pre] at directed
    rw [live_attach pre]
    refine iff_of_false ?_ (Nat.ne_of_lt pre)
    intro both
    exact both.2 (mem_replaced.mpr ⟨inList, directed, both.1⟩)
  refine iff_of_true ?_ new
  rw [new]
  exact ⟨_, getElem?_attach_new, rfl⟩

theorem Orderly.mem_list_of_other (tidy : heap.Orderly)
    (mem : p ∈ (heap.attach hub dir now).list other)
    (directed : (heap.attach hub dir now).Directed p one) (apart : ¬(other = hub ∧ one = dir)) :
    p ∈ heap.list other ∧ p < heap.carriers.length := by
  rcases mem_list_attach mem with ⟨inList, -⟩ | ⟨here, rfl⟩
  · exact ⟨inList, tidy.bounded other p inList⟩
  rcases directed with ⟨carrier, found, same⟩
  rw [getElem?_attach_new, some.injEq] at found
  rw [← found] at same
  exact absurd ⟨here, same.symm⟩ apart

theorem Orderly.attach (tidy : heap.Orderly) (hub : Nat) (dir : Direction)
    (now : Time) : (heap.attach hub dir now).Orderly where
  bounded other p mem := by
    rw [carriers_attach, length_append, length_markDead, length_singleton]
    rcases mem_list_attach mem with ⟨inList, -⟩ | ⟨-, rfl⟩
    · exact Nat.lt_succ_of_lt (tidy.bounded other p inList)
    · exact Nat.lt_succ_self _
  nodup other := by
    by_cases here : other = hub
    · subst here
      by_cases known : (heap.peer other).isSome
      · rw [list_attach_self known, ← concat_eq_append, nodup_concat]
        refine ⟨?_, (tidy.nodup other).filter _⟩
        intro mem
        exact Nat.lt_irrefl _ (tidy.bounded other _ (mem_of_mem_filter mem))
      · rw [list_attach_of_unknown known]
        exact nodup_nil
    · rw [list_attach_of_ne here]
      exact tidy.nodup other
  single other x firstMember y secondMember firstLive secondLive one firstDirected
      secondDirected := by
    by_cases new : other = hub ∧ one = dir
    · rcases new with ⟨rfl, rfl⟩
      rw [(tidy.live_iff_new firstMember firstDirected).mp firstLive,
        (tidy.live_iff_new secondMember secondDirected).mp secondLive]
    rcases tidy.mem_list_of_other firstMember firstDirected new with ⟨firstIn, firstOld⟩
    rcases tidy.mem_list_of_other secondMember secondDirected new with ⟨secondIn, secondOld⟩
    rw [live_attach firstOld] at firstLive
    rw [live_attach secondOld] at secondLive
    rw [directed_attach firstOld] at firstDirected
    rw [directed_attach secondOld] at secondDirected
    exact tidy.single other x firstIn y secondIn firstLive.1 secondLive.1 one
      firstDirected secondDirected

end Heap

namespace Tunnel

theorem orderly_start : start.heap.Orderly where
  bounded := nofun
  nodup _ := nodup_nil
  single := nofun

theorem orderly_act {tun : Tunnel} (tidy : tun.heap.Orderly) (a : Action) :
    (tun.act a).heap.Orderly := by
  rcases (tun.effect_act a).shrinks_or_attach with
    shrinks | ⟨hub, dir, now, -, -, attached⟩
  · exact tidy.shrinks shrinks
  · rw [attached]
    exact tidy.attach hub dir now

theorem orderly_run (acts : List Action) : (machine.run start acts).heap.Orderly :=
  @Machine.invariant Tunnel Action machine (fun tun => tun.heap.Orderly) start
    orderly_start (fun _ a tidy => orderly_act tidy a) acts

/-! ## Hubs that tasks have got -/

/-- The registry has hubs of the peers that it has them for, and tasks have got hubs that
are there. -/
structure Grounded (tunnel : Tunnel) : Prop where
  registry : ∀ peerID hub, tunnel.heap.registry.lookup peerID = some hub →
    tunnel.heap.peer hub = some peerID
  held : ∀ hub, tunnel.Holds hub → (tunnel.heap.peer hub).isSome

end Tunnel

namespace Heap

variable (heap : Heap)

theorem peer_attach (hub : Nat) (dir : Direction) (now : Time) (other : Nat) :
    (heap.attach hub dir now).peer other = heap.peer other := by
  rw [attach]
  exact (peer_modifyHub _ (by intro state; rfl) hub other)

theorem peer_detach (hub p other : Nat) : (heap.detach hub p).1.peer other = heap.peer other := by
  rw [detach]
  split
  · split
    · rw [peer_modifyHub]
      intro state
      rfl
    rw [peer_modifyHub, peer_modifyHub]
    · intro state
      rfl
    · intro state
      rfl
  · rfl

theorem registry_detach (hub p : Nat) : (heap.detach hub p).1.registry = heap.registry := by
  rcases heap.detach_eq hub p with ⟨hubs, same⟩
  rw [same]

theorem hubFor_spec {heap : Heap} (grounded : ∀ peerID hub,
      heap.registry.lookup peerID = some hub → heap.peer hub = some peerID) (peerID : PeerID) :
    (heap.hubFor peerID).2.registry.lookup peerID = some (heap.hubFor peerID).1 ∧
      (heap.hubFor peerID).2.peer (heap.hubFor peerID).1 = some peerID ∧
      (∀ hub, (heap.peer hub).isSome → (heap.hubFor peerID).2.peer hub = heap.peer hub) ∧
      ∀ other, other ≠ peerID →
        (heap.hubFor peerID).2.registry.lookup other = heap.registry.lookup other := by
  rw [hubFor]
  split
  · rename_i hub found
    exact ⟨found, grounded peerID hub found, fun _ _ => rfl, fun _ _ => rfl⟩
  refine ⟨AList.lookup_insert _, ?_, ?_, fun other apart => AList.lookup_insert_ne apart⟩
  · rw [peer, List.getElem?_concat_length]
    rfl
  intro hub known
  rw [peer, isSome_map] at known
  rcases isSome_iff_exists.mp known with ⟨state, found⟩
  rw [peer, peer, List.getElem?_append_left (List.getElem?_eq_some_iff.mp found).1]

end Heap

namespace Tunnel

theorem grounded_start : start.Grounded where
  registry peerID hub found := by
    rw [start, AList.lookup_empty] at found
    cases found
  held := by
    rintro hub ⟨task, mem, -⟩
    cases mem

theorem Grounded.of_old {post : Tunnel} (grounded : Grounded tun)
    (registry : ∀ peerID hub, post.heap.registry.lookup peerID = some hub →
      tun.heap.registry.lookup peerID = some hub)
    (peer : ∀ hub, post.heap.peer hub = tun.heap.peer hub)
    (held : ∀ hub, post.Holds hub → tun.Holds hub ∨ (tun.heap.peer hub).isSome) :
    post.Grounded where
  registry peerID hub found := by
    rw [peer]
    exact grounded.registry peerID hub (registry peerID hub found)
  held hub holds := by
    rw [peer]
    rcases held hub holds with pre | known
    · exact grounded.held hub pre
    · exact known

theorem Grounded.act (grounded : Grounded tun) (a : Action) : (tun.act a).Grounded := by
  have eff := tun.effect_act a
  generalize tun.act a = post at eff
  cases eff with
  | quiet heap holds =>
    apply grounded.of_old
    · intro peerID hub found
      rw [heap.registry] at found
      exact found
    · exact heap.peer
    · exact fun hub held => .inl (holds hub held)
  | died p heap holds =>
    apply grounded.of_old
    · intro peerID hub found
      rw [heap] at found
      exact found
    · intro hub
      rw [heap]
      rfl
    · exact fun hub held => .inl (holds hub held)
  | lookedUp peerID heap holds =>
    rcases Heap.hubFor_spec grounded.registry peerID with ⟨own, ownPeer, peers, others⟩
    constructor
    · intro one hub found
      rw [heap] at found ⊢
      by_cases same : one = peerID
      · subst same
        rw [own, some.injEq] at found
        rw [← found]
        exact ownPeer
      rw [others one same] at found
      have known := grounded.registry one hub found
      rw [peers hub (by rw [known]; rfl)]
      exact known
    intro hub held
    rw [heap]
    rcases holds hub held with pre | rfl
    · have known := grounded.held hub pre
      rw [peers hub known]
      exact known
    · rw [ownPeer]
      rfl
  | attached hub dir now attaching holder heap holds =>
    apply grounded.of_old
    · intro peerID one found
      rw [heap] at found
      exact found
    · intro other
      rw [heap, Heap.peer_attach]
    · exact fun other held => .inl (holds other held)
  | detached hub p mem heap holds =>
    apply grounded.of_old
    · intro peerID one found
      rw [heap, Heap.registry_detach] at found
      exact found
    · intro other
      rw [heap, Heap.peer_detach]
    intro other held
    rcases holds other held with pre | rfl
    · exact .inl pre
    right
    by_contra unknown
    rw [Heap.list_of_unknown unknown] at mem
    cases mem
  | deleted peerID isReap doomed heap holds =>
    apply grounded.of_old
    · intro one hub found
      rw [heap] at found
      by_cases same : one = peerID
      · rw [same, AList.lookup_erase] at found
        cases found
      · rw [AList.lookup_erase_ne same] at found
        exact found
    · intro hub
      rw [heap]
      rfl
    · exact fun hub held => .inl (holds hub held)

theorem grounded_run (acts : List Action) : (machine.run start acts).Grounded :=
  Machine.invariant grounded_start (fun _ a grounded => grounded.act a) acts

/-! ## The live carriers of a run -/

theorem act_of_attaching {tun : Tunnel} (attaching : tun.attaching a = some (hub, dir)) :
    tun.Holds hub ∧ ∃ now, (tun.act a).heap = tun.heap.attach hub dir now := by
  cases a with
  | step index now ok rev =>
    rw [Tunnel.attaching] at attaching
    rw [act]
    split at attaching
    · rename_i one found
      cases attaching
      rw [found]
      exact ⟨⟨_, mem_of_getElem? found, rfl⟩, now, rfl⟩
    · rename_i call found
      cases attaching
      rw [found]
      exact ⟨⟨_, mem_of_getElem? found, rfl⟩, now, rfl⟩
    · rename_i one found
      cases attaching
      rw [found]
      exact ⟨⟨_, mem_of_getElem? found, rfl⟩, now, rfl⟩
    · cases attaching
  | _ => cases attaching

/-- In every run, no hub has a carrier twice or two live ones of one direction, and the
live carrier of a direction is, after `attach`, the new one. -/
theorem one_live_carrier (actions : List Action) :
    let tunnel := machine.run start actions
    (∀ hub, (tunnel.heap.list hub).Nodup) ∧
      (∀ hub, ∀ first ∈ tunnel.heap.list hub, ∀ second ∈ tunnel.heap.list hub,
        tunnel.heap.Live first → tunnel.heap.Live second → ∀ direction,
          tunnel.heap.Directed first direction → tunnel.heap.Directed second direction →
            first = second) ∧
      ∀ action hub direction, tunnel.attaching action = some (hub, direction) → ∀ place,
        place ∈ (tunnel.act action).heap.list hub ∧
            (tunnel.act action).heap.Directed place direction ∧
            (tunnel.act action).heap.Live place ↔
          place = tunnel.heap.carriers.length := by
  intro tunnel
  have orderly : tunnel.heap.Orderly := orderly_run actions
  have grounded : tunnel.Grounded := grounded_run actions
  refine ⟨orderly.nodup, orderly.single, ?_⟩
  intro action hub direction attaching place
  rcases act_of_attaching attaching with ⟨holder, now, attached⟩
  rw [attached]
  constructor
  · intro both
    exact (orderly.live_iff_new both.1 both.2.1).mp both.2.2
  rintro rfl
  refine ⟨?_, ⟨_, Heap.getElem?_attach_new, rfl⟩, ⟨_, Heap.getElem?_attach_new, rfl⟩⟩
  rw [Heap.list_attach_self (grounded.held hub holder)]
  exact List.mem_concat_self

end Tunnel

end Peerscale.IpTunnel
