import Mathlib.Data.List.Nodup
import Peerscale.IrohRelay.Names
import Peerscale.IrohRelay.Pair

/-! # Identifiers of two endpoints

Each endpoint numbers the streams it opens to the other one, one with even and the other
with odd identifiers. The counter is part of the manager for the other key, which is
dropped when that key is reported as gone, and then starts again.
-/

namespace Peerscale.IrohRelay

def identifier (odd : UInt64) (index : Nat) : UInt64 :=
  (streamIDBase + 2 * UInt64.ofNat index) ||| odd

theorem toNat_identifier (bit : odd = 0 ∨ odd = 1) (index : Nat) :
    (identifier odd index).toNat = (1000 + 2 * index) % 2 ^ 64 + odd.toNat := by
  have even : ∃ half, (1000 + 2 * index) % 2 ^ 64 = 2 ^ 1 * half := by
    refine ⟨(1000 + 2 * index) % 2 ^ 64 / 2, ?_⟩
    omega
  have counter : (streamIDBase + 2 * UInt64.ofNat index).toNat = (1000 + 2 * index) % 2 ^ 64 := by
    rw [UInt64.toNat_add, UInt64.toNat_mul, UInt64.toNat_ofNat']
    change (1000 + 2 * (index % 2 ^ 64) % 2 ^ 64) % 2 ^ 64 = _
    omega
  rcases even with ⟨half, doubled⟩
  rw [identifier, UInt64.toNat_or, counter, doubled]
  rcases bit with rfl | rfl <;> exact (Nat.two_pow_add_eq_or_of_lt (by decide) half).symm

theorem identifier_injective {odd : UInt64} (bit : odd = 0 ∨ odd = 1) {x y : Nat}
    (firstFits : x < 2 ^ 63) (secondFits : y < 2 ^ 63)
    (same : identifier odd x = identifier odd y) : x = y := by
  have values := congrArg UInt64.toNat same
  rw [toNat_identifier bit, toNat_identifier bit] at values
  omega

theorem identifier_ne (isOdd : odd = 1) (isEven : even = 0) (x y : Nat) :
    identifier odd x ≠ identifier even y := by
  intro same
  have values := congrArg UInt64.toNat same
  rw [toNat_identifier (.inr isOdd), toNat_identifier (.inl isEven), isOdd, isEven] at values
  change _ + 1 = _ + 0 at values
  omega

def oddBit (keys : Side → PublicKey) (side : Side) : UInt64 :=
  (newPeerStreamManager (keys side) (keys side.other)).oddBit

theorem oddBit_eq (keys : Side → PublicKey) (side : Side) :
    oddBit keys side = 0 ∨ oddBit keys side = 1 := by
  rw [oddBit, newPeerStreamManager]
  split
  · exact .inr rfl
  · exact .inl rfl

theorem oddBit_other (ne : keys .left ≠ keys .right) (side : Side) :
    oddBit keys side = 1 ∧ oddBit keys side.other = 0 ∨
      oddBit keys side = 0 ∧ oddBit keys side.other = 1 := by
  have apart : keys side ≠ keys side.other := by
    cases side with
    | left => exact ne
    | right => exact ne.symm
  have bytesApart : (keys side).bytes ≠ (keys side.other).bytes := by
    intro same
    have eq : keys side = keys side.other := by
      cases x : keys side
      cases y : keys side.other
      rw [x, y] at same
      cases same
      rfl
    exact apart eq
  rw [oddBit, oddBit, newPeerStreamManager, newPeerStreamManager, Side.other_other]
  by_cases less : (keys side).bytes < (keys side.other).bytes
  · exact .inl ⟨if_pos less, if_neg (List.lt_asymm less)⟩
  have greater : (keys side.other).bytes < (keys side).bytes := by
    by_contra notGreater
    exact bytesApart (List.le_antisymm (List.not_lt.mp notGreater) (List.not_lt.mp less))
  exact .inr ⟨if_neg less, if_pos greater⟩

namespace Pair

variable (pair : Pair)

def counter (side : Side) : UInt64 × UInt64 :=
  (pair.pool side).counter (pair.key side.other)

theorem nextIdentifier_eq (side : Side) :
    pair.nextIdentifier side = (pair.counter side).2 ||| (pair.counter side).1 := rfl

section

variable {pair post : Pair} {action : Action} (eff : Effect pair action post)

include eff

theorem Effect.extends {fresh : UInt64 → Prop}
    (opens : ∀ side, action = .openStream side → fresh (pair.nextIdentifier side))
    (arrives : ∀ fr ∈ pair.transit action.side, fresh fr.sid) :
    Pool.Extends (pair.key action.side.other) fresh (pair.pool action.side)
      (post.pool action.side) := by
  have unchanged : Pool.Extends (pair.key action.side.other) fresh (pair.pool action.side)
      (pair.pool action.side) :=
    Pool.Extends.of_same rfl rfl rfl fun _ mem => mem
  cases eff with
  | openStream side =>
    simp only [Action.side, pool_withPeer_self]
    exact Pool.Extends.openStream (pair.pool side) (opens side rfl)
  | write | lose | nothing => exact unchanged
  | endStream ends held finished =>
    rcases ends with rfl | rfl
    · simp only [pool_send, Action.side, pool_withPeer_self]
      exact Pool.Extends.finish finished
    · simp only [pool_send, Action.side, pool_withPeer_self]
      exact Pool.Extends.finish finished
  | acceptStream =>
    simp only [Action.side, pool_withPeer_self]
    exact Pool.Extends.of_same rfl rfl rfl fun _ mem => mem
  | deliver found =>
    simp only [pool_withTransit, Action.side, pool_withPeer_self]
    exact Pool.Extends.dispatchStreamFrame _ (arrives _ (List.mem_of_getElem? found)) _ _
  | sendRESET =>
    simp only [pool_send, Action.side, pool_withPeer_self]
    exact Pool.Extends.of_same rfl rfl rfl fun e mem => List.mem_of_mem_eraseIdx mem
  | endpointGone side =>
    simp only [Action.side, pool_withPeer_self]
    exact Pool.Extends.peerGone (pair.pool side)

/-- What is on its way was on its way before, or carries the identifier of a stream of the
endpoint that sent it. -/
theorem Effect.transit {one : Side} {fr : Frame} (mem : fr ∈ post.transit one) :
    fr ∈ pair.transit one ∨ (∃ name ∈ (pair.pool one.other).names, name.2 = fr.sid) ∨
      ∃ e ∈ (pair.pool one.other).resets, e.2 = fr.sid := by
  cases eff with
  | openStream | acceptStream | endpointGone | nothing => exact .inl mem
  | write data held has =>
    rcases mem_transit_send mem with pre | ⟨rfl, rfl⟩
    · exact .inl pre
    · rw [Side.other_other]
      exact .inr (.inl ⟨_, Pool.mem_names has, rfl⟩)
  | endStream ends held finished =>
    rcases mem_transit_send mem with pre | ⟨rfl, rfl⟩
    · exact .inl pre
    · rw [Side.other_other]
      exact .inr (.inl ⟨_, Pool.mem_names (Pool.finish_eq_some finished).1, rfl⟩)
  | deliver | lose => exact .inl (mem_transit_erase mem)
  | sendRESET found =>
    rcases mem_transit_send mem with pre | ⟨rfl, rfl⟩
    · exact .inl pre
    · rw [Side.other_other]
      exact .inr (.inr ⟨_, List.mem_of_getElem? found, rfl⟩)

theorem Effect.key (one : Side) : post.key one = pair.key one := by
  by_cases here : one = action.side
  · rw [here]
    exact (@Effect.extends pair post action eff (fun _ => True) (fun _ _ => trivial)
      fun _ _ => trivial).localPub
  · rw [Pair.key, Pair.key, pool, pool, eff.peers_of_ne here]

/-- Only `OpenStream` and the loss of the manager move the counter, and only `OpenStream`
hands out identifiers. -/
theorem Effect.steady (notOpen : action ≠ .openStream side) :
    (post.peers side).opened = (pair.peers side).opened ∧
      (action ≠ .endpointGone side → post.counter side = pair.counter side) := by
  rw [counter, counter, eff.key]
  by_cases here : side = action.side
  · cases eff with
    | openStream => exact absurd (congrArg Action.openStream here.symm) notOpen
    | write | lose | nothing _ _ _ => exact ⟨rfl, fun _ => rfl⟩
    | endStream ends held finished =>
      obtain rfl : side = _ := by
        rcases ends with rfl | rfl <;> exact here
      rw [peers_send, peers_withPeer_self, pool_send, pool_withPeer_self]
      rcases Pool.finish_eq_some finished with ⟨-, rfl⟩
      exact ⟨rfl, fun _ => Pool.counter_removeStream _ _ _ _⟩
    | acceptStream =>
      rw [here, Action.side, peers_withPeer_self, pool_withPeer_self]
      exact ⟨rfl, fun _ => rfl⟩
    | deliver =>
      rw [here, Action.side, peers_withTransit, peers_withPeer_self, pool_withTransit,
        pool_withPeer_self]
      exact ⟨rfl, fun _ => Pool.counter_dispatchStreamFrame _ _ _ _ _⟩
    | sendRESET =>
      rw [here, Action.side, peers_send, peers_withPeer_self, pool_send, pool_withPeer_self]
      exact ⟨rfl, fun _ => rfl⟩
    | endpointGone =>
      rw [here, Action.side, peers_withPeer_self]
      exact ⟨rfl, fun notGone => absurd rfl notGone⟩
  · rw [pool, pool, eff.peers_of_ne here]
    exact ⟨rfl, fun _ => rfl⟩

end

theorem Effect.opens (eff : Effect pair (.openStream side) post) :
    (post.peers side).opened = (pair.peers side).opened ++ [pair.nextIdentifier side] ∧
      post.counter side = ((pair.counter side).1, (pair.counter side).2 + 2) := by
  rw [counter, eff.key]
  cases eff with
  | openStream =>
    rw [peers_withPeer_self, pool_withPeer_self]
    refine ⟨rfl, ?_⟩
    exact (Pool.counter_enter _ _ _).trans (Pool.counter_setNextID _ _ _)
  | endStream ends => rcases ends with ends | ends <;> cases ends
  | nothing notOpen => exact absurd rfl (notOpen side)

theorem Effect.gone (eff : Effect pair (.endpointGone side) post) :
    post.counter side = newCounter (pair.key side) (pair.key side.other) := by
  rw [counter, eff.key]
  cases eff with
  | endpointGone =>
    rw [pool_withPeer_self]
    exact Pool.counter_peerGone _ _
  | endStream ends => rcases ends with ends | ends <;> cases ends
  | nothing notOpen notGone => exact absurd rfl (notGone side)

/-! ## Where identifiers come from -/

def allocated : List UInt64 := (pair.peers .left).opened ++ (pair.peers .right).opened

theorem mem_allocated {id : UInt64} :
    id ∈ pair.allocated ↔ ∃ side, id ∈ (pair.peers side).opened := by
  rw [allocated, List.mem_append]
  constructor
  · rintro (atLeft | atRight)
    · exact ⟨.left, atLeft⟩
    · exact ⟨.right, atRight⟩
  rintro ⟨side, handedOut⟩
  cases side with
  | left => exact .inl handedOut
  | right => exact .inr handedOut

/-- Every identifier that an endpoint knows, or that is on its way, has been handed out. -/
structure Traced (keys : Side → PublicKey) (pair : Pair) : Prop where
  key : ∀ side, pair.key side = keys side
  odd : ∀ side, (pair.counter side).1 = oddBit keys side
  names : ∀ side, ∀ name ∈ (pair.pool side).names, name.2 ∈ pair.allocated
  resets : ∀ side, ∀ entry ∈ (pair.pool side).resets, entry.2 ∈ pair.allocated
  transit : ∀ side, ∀ frame ∈ pair.transit side, frame.sid ∈ pair.allocated

theorem Effect.allocated {pair post : Pair} {action : Action}
    (eff : Effect pair action post) {id : UInt64} (handedOut : id ∈ pair.allocated) :
    id ∈ post.allocated := by
  rw [mem_allocated] at handedOut ⊢
  rcases handedOut with ⟨side, handedOut⟩
  refine ⟨side, ?_⟩
  by_cases opens : action = .openStream side
  · subst opens
    rw [eff.opens.1]
    exact List.mem_append_left _ handedOut
  · rw [(eff.steady opens).1]
    exact handedOut

theorem Traced.start (keys : Side → PublicKey) : Traced keys (Pair.start keys) where
  key _ := rfl
  odd _ := rfl
  names := nofun
  resets := nofun
  transit := nofun

theorem Traced.act {keys : Side → PublicKey} {pair : Pair} (traced : Traced keys pair)
    (action : Action) : Traced keys (pair.act action) := by
  have eff := pair.effect_act action
  generalize pair.act action = post at eff
  have extended : Pool.Extends (pair.key action.side.other) (· ∈ post.allocated)
      (pair.pool action.side) (post.pool action.side) := by
    apply eff.extends
    · rintro side rfl
      rw [mem_allocated]
      exact ⟨side, by rw [eff.opens.1]; exact List.mem_concat_self⟩
    · intro fr mem
      exact eff.allocated (traced.transit _ fr mem)
  constructor
  case key =>
    intro side
    rw [eff.key, traced.key]
  case odd =>
    intro side
    rw [counter, eff.key]
    by_cases here : side = action.side
    · rw [here]
      rcases extended.odd with same | again
      · rw [same, ← traced.odd]
        rfl
      · rw [again, oddBit, ← traced.key, ← traced.key]
        rfl
    · rw [pool, eff.peers_of_ne here, ← traced.odd]
      rfl
  case names =>
    intro side name mem
    by_cases here : side = action.side
    · subst here
      rcases extended.names name mem with prev | added
      · exact eff.allocated (traced.names _ name prev)
      · exact added.2
    · rw [pool, eff.peers_of_ne here] at mem
      exact eff.allocated (traced.names side name mem)
  case resets =>
    intro side e mem
    by_cases here : side = action.side
    · subst here
      rcases extended.resets e mem with prev | added
      · exact eff.allocated (traced.resets _ e prev)
      · exact added
    · rw [pool, eff.peers_of_ne here] at mem
      exact eff.allocated (traced.resets side e mem)
  case transit =>
    intro side fr mem
    rcases eff.transit mem with pre | ⟨name, named, same⟩ | ⟨e, reset, same⟩
    · exact eff.allocated (traced.transit side fr pre)
    · rw [← same]
      exact eff.allocated (traced.names _ name named)
    · rw [← same]
      exact eff.allocated (traced.resets _ e reset)

theorem Traced.run (keys : Side → PublicKey) (acts : List Action) :
    Traced keys (machine.run (Pair.start keys) acts) :=
  Machine.invariant (Traced.start keys) (fun _ action traced => traced.act action) acts

/-! ## How far an endpoint has counted -/

/-- Where an endpoint is in its numbering: it has opened nothing yet, it counts on, its
counter has started again after it had opened something, or it has opened something with a
counter that had started again. -/
inductive Stage (odd : UInt64) (side : Side) (done : List Action) (opened : List UInt64)
    (nextID : UInt64) : Prop
  | fresh (noOpen : ¬[.openStream side].Sublist done) (none : opened = [])
      (counter : nextID = streamIDBase)
  | counting (count : Nat) (some : [.openStream side].Sublist done)
      (noGone : ¬[.openStream side, .endpointGone side].Sublist done)
      (ids : opened = (List.range (count + 1)).map (identifier odd))
      (counter : nextID = streamIDBase + 2 * UInt64.ofNat (count + 1))
  | restarted (count : Nat) (gone : [.openStream side, .endpointGone side].Sublist done)
      (notAgain : ¬[.openStream side, .endpointGone side, .openStream side].Sublist done)
      (ids : opened = (List.range (count + 1)).map (identifier odd))
      (counter : nextID = streamIDBase)
  | reused (again : [.openStream side, .endpointGone side, .openStream side].Sublist done)
      (twice : ¬opened.Nodup)

section

variable {done : List Action}

theorem opens_concat :
    [.openStream side].Sublist (done ++ [action]) ↔
      [.openStream side].Sublist done ∨ .openStream side = action := by
  have newest := @concat_sublist_concat Action [] done (.openStream side) action
  rw [and_iff_left (List.nil_sublist done)] at newest
  exact newest

theorem gone_concat :
    [.openStream side, .endpointGone side].Sublist (done ++ [action]) ↔
      [.openStream side, .endpointGone side].Sublist done ∨
        .endpointGone side = action ∧ [.openStream side].Sublist done :=
  @concat_sublist_concat Action [.openStream side] done (.endpointGone side) action

theorem again_concat :
    [.openStream side, .endpointGone side, .openStream side].Sublist (done ++ [action]) ↔
      [.openStream side, .endpointGone side, .openStream side].Sublist done ∨
        .openStream side = action ∧ [.openStream side, .endpointGone side].Sublist done :=
  @concat_sublist_concat Action [.openStream side, .endpointGone side] done
    (.openStream side) action

theorem opens_of_gone (gone : [.openStream side, .endpointGone side].Sublist done) :
    [.openStream side].Sublist done :=
  (List.sublist_append_left [Action.openStream side] [.endpointGone side]).trans gone

theorem gone_of_again
    (again : [.openStream side, .endpointGone side, .openStream side].Sublist done) :
    [.openStream side, .endpointGone side].Sublist done :=
  (List.sublist_append_left [Action.openStream side, .endpointGone side]
    [.openStream side]).trans again

end

theorem counter_succ (count : Nat) :
    streamIDBase + 2 * UInt64.ofNat count + 2 = streamIDBase + 2 * UInt64.ofNat (count + 1) := by
  rw [UInt64.ofNat_add]
  grind

namespace Stage

variable {odd : UInt64} {side : Side} {done : List Action} {opened : List UInt64} {nextID : UInt64}

theorem start : Stage odd side [] [] streamIDBase :=
  fresh nofun rfl rfl

section

variable (stage : Stage odd side done opened nextID)

include stage

theorem steady (notOpen : action ≠ .openStream side) (notGone : action ≠ .endpointGone side) :
    Stage odd side (done ++ [action]) opened nextID := by
  have opens := or_iff_left (a := [.openStream side].Sublist done) (Ne.symm notOpen)
  have gone := or_iff_left (a := [.openStream side, .endpointGone side].Sublist done)
    (fun newest : .endpointGone side = action ∧ [.openStream side].Sublist done =>
      notGone newest.1.symm)
  have again := or_iff_left
    (a := [.openStream side, .endpointGone side, .openStream side].Sublist done)
    (fun newest : .openStream side = action ∧ [.openStream side, .endpointGone side].Sublist done =>
      notOpen newest.1.symm)
  rw [← opens_concat] at opens
  rw [← gone_concat] at gone
  rw [← again_concat] at again
  cases stage with
  | fresh noOpen none counter => exact fresh (mt opens.mp noOpen) none counter
  | counting count some noGone ids counter =>
    exact counting count (opens.mpr some) (mt gone.mp noGone) ids counter
  | restarted count isGone notAgain ids counter =>
    exact restarted count (gone.mpr isGone) (mt again.mp notAgain) ids counter
  | reused isAgain twice => exact reused (again.mpr isAgain) twice

theorem opens :
    Stage odd side (done ++ [.openStream side]) (opened ++ [nextID ||| odd]) (nextID + 2) := by
  have opened' : [.openStream side].Sublist (done ++ [Action.openStream side]) :=
    opens_concat.mpr (.inr rfl)
  cases stage with
  | fresh noOpen none counter =>
    subst none counter
    refine counting 0 opened' ?_ rfl rfl
    intro gone
    rcases gone_concat.mp gone with pre | newest
    · exact noOpen (opens_of_gone pre)
    · cases newest.1
  | counting count some noGone ids counter =>
    subst ids counter
    refine counting (count + 1) opened' ?_ ?_ (counter_succ (count + 1))
    · intro gone
      rcases gone_concat.mp gone with pre | newest
      · exact noGone pre
      · cases newest.1
    · rw [List.range_succ (n := count + 1), List.map_append]
      rfl
  | restarted count gone notAgain ids counter =>
    subst ids counter
    refine reused (again_concat.mpr (.inr ⟨rfl, gone⟩)) ?_
    intro distinct
    have x : identifier odd 0 ∈ (List.range (count + 1)).map (identifier odd) :=
      List.mem_map.mpr ⟨0, List.mem_range.mpr (Nat.succ_pos count), rfl⟩
    exact List.disjoint_of_nodup_append distinct x (List.mem_singleton.mpr rfl)
  | reused again twice =>
    refine reused (again_concat.mpr (.inl again)) ?_
    intro distinct
    exact twice (List.nodup_append.mp distinct).1

theorem gone : Stage odd side (done ++ [.endpointGone side]) opened streamIDBase := by
  have notAgain : ¬[.openStream side, .endpointGone side, .openStream side].Sublist done →
      ¬[.openStream side, .endpointGone side, .openStream side].Sublist
        (done ++ [.endpointGone side]) := by
    intro notBefore again
    rcases again_concat.mp again with pre | newest
    · exact notBefore pre
    · cases newest.1
  cases stage with
  | fresh noOpen none =>
    refine fresh ?_ none rfl
    intro isOpen
    rcases opens_concat.mp isOpen with pre | newest
    · exact noOpen pre
    · cases newest
  | counting count some noGone ids =>
    refine restarted count (gone_concat.mpr (.inr ⟨rfl, some⟩)) (notAgain ?_) ids rfl
    intro again
    exact noGone (gone_of_again again)
  | restarted count isGone pre ids =>
    exact restarted count (gone_concat.mpr (.inl isGone)) (notAgain pre) ids rfl
  | reused again twice => exact reused (again_concat.mpr (.inl again)) twice

/-- Unless it has opened a stream, lost the manager and opened a stream again, the
identifiers of an endpoint are the first ones of its sequence. -/
theorem sequence
    (notAgain : ¬[.openStream side, .endpointGone side, .openStream side].Sublist done) :
    ∃ count, opened = (List.range count).map (identifier odd) := by
  cases stage with
  | fresh noOpen none => exact ⟨0, none⟩
  | counting count some noGone ids | restarted count isGone pre ids => exact ⟨count + 1, ids⟩
  | reused again => exact absurd again notAgain

theorem not_again (distinct : opened.Nodup) :
    ¬[.openStream side, .endpointGone side, .openStream side].Sublist done := by
  intro again
  have gone := gone_of_again again
  cases stage with
  | fresh noOpen => exact noOpen (opens_of_gone gone)
  | counting count some noGone => exact noGone gone
  | restarted count isGone pre => exact pre again
  | reused _ twice => exact twice distinct

end

end Stage

theorem Stage.run (keys : Side → PublicKey) (side : Side) (acts : List Action) :
    Stage (oddBit keys side) side acts ((machine.run (Pair.start keys) acts).peers side).opened
      ((machine.run (Pair.start keys) acts).counter side).2 := by
  induction acts using List.reverseRecOn with
  | nil => exact Stage.start
  | append_singleton done action ih =>
    have traced := Traced.run keys done
    rw [Machine.run_concat]
    have eff := (machine.run (Pair.start keys) done).effect_act action
    generalize machine.run (Pair.start keys) done = pair at *
    change Stage _ _ _ ((pair.act action).peers side).opened ((pair.act action).counter side).2
    generalize pair.act action = post at *
    by_cases opens : action = .openStream side
    · subst opens
      rw [eff.opens.1, eff.opens.2, nextIdentifier_eq, traced.odd]
      exact ih.opens
    rw [(eff.steady opens).1]
    by_cases gone : action = .endpointGone side
    · subst gone
      rw [eff.gone]
      exact ih.gone
    · rw [(eff.steady opens).2 gone]
      exact ih.steady opens gone

/-- No identifier is handed out twice, and none is handed out that a stream of the other
endpoint has, into which the frames for the new stream would go. -/
structure NeverReused (keys : Side → PublicKey) (actions : List Action) : Prop where
  once : (machine.run (Pair.start keys) actions).allocated.Nodup
  unknown : ∀ earlier side later, actions = earlier ++ .openStream side :: later →
    ∀ stream ∈ ((machine.run (Pair.start keys) earlier).pool side.other).streams,
      stream.id ≠ (machine.run (Pair.start keys) earlier).nextIdentifier side

theorem opened_sublist (side : Side) (acts : List Action) :
    (pair.peers side).opened.Sublist ((machine.run pair acts).peers side).opened := by
  induction acts generalizing pair with
  | nil => exact List.Sublist.refl _
  | cons action acts ih =>
    refine List.Sublist.trans ?_ (ih (pair.act action))
    have eff := pair.effect_act action
    generalize pair.act action = post at eff
    by_cases opens : action = .openStream side
    · subst opens
      rw [eff.opens.1]
      exact List.sublist_append_left _ _
    · rw [(eff.steady opens).1]

theorem allocated_sublist (acts : List Action) :
    pair.allocated.Sublist (machine.run pair acts).allocated :=
  (pair.opened_sublist .left acts).append (pair.opened_sublist .right acts)

theorem nextIdentifier_notMem (once : (pair.act (.openStream side)).allocated.Nodup) :
    pair.nextIdentifier side ∉ pair.allocated := by
  have eff := pair.effect_act (.openStream side)
  generalize pair.act (.openStream side) = post at eff once
  have own := eff.opens.1
  have others := eff.peers_of_ne side.other_ne
  intro handedOut
  rw [allocated, List.mem_append] at handedOut
  rw [allocated, List.nodup_append] at once
  cases side with
  | left =>
    change post.peers .right = _ at others
    rw [own, others] at once
    rcases handedOut with atLeft | atRight
    · exact List.disjoint_of_nodup_append once.1 atLeft (List.mem_singleton.mpr rfl)
    · exact once.2.2 _ List.mem_concat_self _ atRight rfl
  | right =>
    change post.peers .left = _ at others
    rw [own, others] at once
    rcases handedOut with atLeft | atRight
    · exact once.2.2 _ atLeft _ List.mem_concat_self rfl
    · exact List.disjoint_of_nodup_append once.2.1 atRight (List.mem_singleton.mpr rfl)

theorem NeverReused.of_once (once : (machine.run (Pair.start keys) acts).allocated.Nodup) :
    NeverReused keys acts where
  once := once
  unknown := by
    rintro prev side later rfl stream mem same
    rw [Machine.run_append, Machine.run_cons] at once
    have soFar := once.sublist (allocated_sublist _ later)
    have named : (stream.remote, stream.id) ∈
        ((machine.run (Pair.start keys) prev).pool side.other).names :=
      List.mem_map.mpr ⟨stream, mem, rfl⟩
    have handedOut := (Traced.run keys prev).names _ _ named
    rw [same] at handedOut
    exact nextIdentifier_notMem _ soFar handedOut

theorem identifiers_nodup (ne : keys .left ≠ keys .right) (few : leftCount + rightCount < 2 ^ 63) :
    ((List.range leftCount).map (identifier (oddBit keys .left)) ++
      (List.range rightCount).map (identifier (oddBit keys .right))).Nodup := by
  have inSequence : ∀ side count, count < 2 ^ 63 →
      ((List.range count).map (identifier (oddBit keys side))).Nodup := by
    intro side count fits
    apply List.nodup_range.map_on
    intro x firstIn y secondIn same
    have firstLess := List.mem_range.mp firstIn
    have secondLess := List.mem_range.mp secondIn
    exact identifier_injective (oddBit_eq keys side) (by omega) (by omega) same
  rw [List.nodup_append]
  refine ⟨inSequence .left leftCount (by omega), inSequence .right rightCount (by omega), ?_⟩
  intro id atLeft other atRight same
  rw [List.mem_map] at atLeft atRight
  rcases atLeft with ⟨x, -, rfl⟩
  rcases atRight with ⟨y, -, rfl⟩
  rcases oddBit_other ne .left with ⟨odd, even⟩ | ⟨even, odd⟩
  · exact identifier_ne odd even x y same
  · exact identifier_ne odd even y x same.symm

theorem allocated_nodup (ne : keys .left ≠ keys .right)
    (few : (machine.run (Pair.start keys) acts).allocated.length < 2 ^ 63)
    (notAgain : ∀ side, ¬[.openStream side, .endpointGone side, .openStream side].Sublist acts) :
    (machine.run (Pair.start keys) acts).allocated.Nodup := by
  rcases (Stage.run keys .left acts).sequence (notAgain .left) with ⟨leftCount, atLeft⟩
  rcases (Stage.run keys .right acts).sequence (notAgain .right) with ⟨rightCount, atRight⟩
  rw [allocated, atLeft, atRight] at few ⊢
  rw [List.length_append, List.length_map, List.length_map, List.length_range,
    List.length_range] at few
  exact identifiers_nodup ne few

/-- Identifiers are reused exactly when an endpoint opens a stream, is told that the other
endpoint is gone, and opens a stream again. -/
theorem never_reused_iff {keys : Side → PublicKey} (different : keys .left ≠ keys .right)
    {actions : List Action}
    (few : (machine.run (Pair.start keys) actions).allocated.length < 2 ^ 63) :
    NeverReused keys actions ↔
      ∀ side, ¬[.openStream side, .endpointGone side, .openStream side].Sublist actions := by
  constructor
  · intro never side
    have distinct := List.nodup_append.mp never.once
    apply (Stage.run keys side actions).not_again
    cases side with
    | left => exact distinct.1
    | right => exact distinct.2.1
  · intro notAgain
    exact NeverReused.of_once (allocated_nodup different few notAgain)

theorem never_reused_before_gone :
    NeverReused aliceAndBob
      [.openStream .left, .openStream .right, .openStream .left, .endpointGone .left] :=
  (never_reused_iff (by decide) (by decide +kernel)).mpr fun side => by
    cases side with
    | left | right => decide

/-- Alice opens a stream, writes to it, is told that Bob is gone, opens another stream and
writes to that. -/
def reopening : List Action :=
  [.openStream .left, .write .left 0 (ascii "old"), .deliver .right 0, .acceptStream .right,
    .endpointGone .left, .openStream .left, .write .left 1 (ascii "new"), .deliver .right 0]

theorem reopening_reuses :
    aliceAndBob .left ≠ aliceAndBob .right ∧
      (machine.run (Pair.start aliceAndBob) reopening).allocated = [1001, 1001] ∧
      ¬NeverReused aliceAndBob reopening ∧
      ((machine.run (Pair.start aliceAndBob) reopening).pool .right).streams[0]?.map
        (fun stream => stream.state.rxBuf) = some (ascii "new") := by
  have twice : (machine.run (Pair.start aliceAndBob) reopening).allocated = [1001, 1001] := by
    decide +kernel
  refine ⟨by decide, twice, ?_, by decide +kernel⟩
  intro never
  have once := never.once
  rw [twice] at once
  exact absurd once (by decide)

end Pair

end Peerscale.IrohRelay
