import Mathlib.Data.List.Perm.Subperm
import Peerscale.IrohRelay.Identifiers

/-! # Accepted streams

A data frame with an identifier that the manager does not know makes a stream that
`AcceptStream` will return. The manager forgets an identifier when the stream is closed or
reset at this end, so that a data frame which arrives after that makes another stream.
-/

namespace Peerscale.IrohRelay

open Pool

def Pool.identifiers (pool : Pool) (places : List Nat) : List UInt64 :=
  places.filterMap fun place => pool.names[place]?.map Prod.snd

theorem Pool.identifiers_of_names {pool post : Pool} (names : post.names = pool.names ++ added)
    (there : ∀ p ∈ places, p < pool.names.length) :
    post.identifiers places = pool.identifiers places := by
  apply List.filterMap_congr
  intro p mem
  rw [names, List.getElem?_append_left (there p mem)]

@[simp] theorem Pool.acceptCh_removeStream (pool : Pool) (r : PublicKey)
    (sid : UInt64) : (pool.removeStream r sid).acceptCh = pool.acceptCh := by
  rw [removeStream]
  split <;> rfl

theorem Pool.length_names (pool : Pool) : pool.names.length = pool.streams.length :=
  List.length_map _

def Pool.Makes (pool : Pool) (src : PublicKey) (sid : UInt64) (flags : UInt8) : Prop :=
  flags = flagDATA ∧ pool.find src sid = none ∧ pool.acceptCh.length < acceptCapacity
  deriving Decidable

theorem Pool.Makes.dispatchStreamFrame (makes : Makes pool src sid flags) (data : Bytes) :
    (pool.dispatchStreamFrame src sid flags data).names = pool.names ++ [(src, sid)] ∧
      (pool.dispatchStreamFrame src sid flags data).acceptCh =
        pool.acceptCh ++ [pool.names.length] := by
  rcases makes with ⟨rfl, unknown, room⟩
  rw [dispatchStreamFrame_of_unknown unknown room, pool.length_names]
  exact ⟨names_enter _ src sid, rfl⟩

theorem Pool.acceptCh_of_not_makes {pool : Pool} (nothing : ¬pool.Makes src sid flags)
    (data : Bytes) : (pool.dispatchStreamFrame src sid flags data).acceptCh = pool.acceptCh := by
  rw [dispatchStreamFrame, dispatch, find_ensureManager]
  cases known : pool.find src sid with
  | some => rfl
  | none =>
    dsimp only
    split
    · rfl
    rename_i isData
    rw [if_neg]
    · exact acceptCh_removeStream _ src sid
    · intro room
      exact nothing ⟨Decidable.not_not.mp isData, known, room⟩

namespace Pair

/-! ## Streams that are returned by `AcceptStream` -/

/-- The places of the streams that `AcceptStream` has returned, and of those that it will
return. -/
def offers (pair : Pair) (side : Side) : List Nat :=
  (pair.peers side).accepted ++ (pair.pool side).acceptCh

def offered (pair : Pair) (side : Side) : List UInt64 :=
  (pair.pool side).identifiers (pair.offers side)

def accepted (pair : Pair) (side : Side) : List UInt64 :=
  (pair.pool side).identifiers (pair.peers side).accepted

def newcomer (pair : Pair) : Action → Option (Side × UInt64)
  | .deliver side index =>
    match (pair.transit side)[index]? with
    | none => none
    | some frame =>
      if (pair.pool side).Makes (pair.key side.other) frame.sid frame.flags then
        some (side, frame.sid)
      else none
  | _ => none

inductive Offering (pair after : Pair) (action : Action) (side : Side) : Prop
  | same (nobody : ∀ sid, pair.newcomer action ≠ some (side, sid))
      (added : List (PublicKey × UInt64))
      (names : (after.pool side).names = (pair.pool side).names ++ added)
      (offers : after.offers side = pair.offers side)
  | new (sid : UInt64) (newcomer : pair.newcomer action = some (side, sid))
      (names : (after.pool side).names = (pair.pool side).names ++ [(pair.key side.other, sid)])
      (offers : after.offers side = pair.offers side ++ [(pair.pool side).names.length])

theorem Offering.of_same {pair post : Pair} (nobody : ∀ sid, pair.newcomer a ≠ some (side, sid))
    (names : (post.pool side).names = (pair.pool side).names)
    (offers : post.offers side = pair.offers side) : Offering pair post a side :=
  .same nobody [] (by rw [names, List.append_nil]) offers

theorem newcomer_side {pair : Pair} (newcomer : pair.newcomer a = some (side, sid)) :
    side = a.side := by
  rw [Pair.newcomer.eq_def] at newcomer
  split at newcomer
  · split at newcomer
    · cases newcomer
    split at newcomer
    · rw [Option.some.injEq, Prod.mk.injEq] at newcomer
      exact newcomer.1.symm
    · cases newcomer
  · cases newcomer

theorem offering_deliver {pair : Pair} (found : (pair.transit side)[index]? = some fr) :
    Offering pair ((pair.withPeer side { pair.peers side with
        pool := (pair.pool side).dispatchStreamFrame (pair.key side.other) fr.sid
          fr.flags fr.data }).withTransit side ((pair.transit side).eraseIdx index))
      (.deliver side index) side := by
  by_cases makes : (pair.pool side).Makes (pair.key side.other) fr.sid fr.flags
  · have made := makes.dispatchStreamFrame fr.data
    apply Offering.new fr.sid
    · rw [newcomer, found]
      exact if_pos makes
    · rw [pool_withTransit, pool_withPeer_self]
      exact made.1
    rw [offers, pool_withTransit, pool_withPeer_self, peers_withTransit, peers_withPeer_self,
      made.2, ← List.append_assoc]
    rfl
  have nobody : ∀ sid, pair.newcomer (.deliver side index) ≠ some (side, sid) := by
    intro sid
    rw [newcomer, found]
    dsimp only
    rw [if_neg makes]
    exact nofun
  have same : ((pair.withPeer side { pair.peers side with
      pool := (pair.pool side).dispatchStreamFrame (pair.key side.other) fr.sid
        fr.flags fr.data }).withTransit side
          ((pair.transit side).eraseIdx index)).offers side = pair.offers side := by
    rw [offers, pool_withTransit, pool_withPeer_self, peers_withTransit, peers_withPeer_self,
      acceptCh_of_not_makes makes]
    rfl
  rcases (pair.pool side).names_dispatchStreamFrame (pair.key side.other) fr.sid fr.flags
    fr.data with names | names
  · apply Offering.of_same nobody _ same
    rw [pool_withTransit, pool_withPeer_self, names]
  · apply Offering.same nobody [(pair.key side.other, fr.sid)] _ same
    rw [pool_withTransit, pool_withPeer_self, names]

theorem Effect.offering (eff : Effect pair a post) (side : Side) : Offering pair post a side := by
  by_cases here : side = a.side
  · cases eff with
    | openStream one =>
      obtain rfl : side = one := here
      refine Offering.same (fun _ => nofun) [(pair.key side.other, pair.nextIdentifier side)] ?_ ?_
      · rw [pool_withPeer_self]
        exact names_enter _ _ _
      · rw [offers, pool_withPeer_self, peers_withPeer_self]
        rfl
    | write | lose => exact Offering.of_same (fun _ => nofun) rfl rfl
    | endStream ends held finished =>
      have nobody : ∀ sid, pair.newcomer a ≠ some (side, sid) := by
        intro sid
        rcases ends with rfl | rfl <;> exact nofun
      obtain rfl : side = _ := by
        rcases ends with rfl | rfl <;> exact here
      rcases finish_eq_some finished with ⟨-, rfl⟩
      apply Offering.of_same nobody
      · rw [pool_send, pool_withPeer_self, names_removeStream, names_modify]
      rw [offers, pool_send, pool_withPeer_self, peers_send, peers_withPeer_self,
        acceptCh_removeStream]
      rfl
    | @acceptStream one p rest waiting =>
      obtain rfl : side = one := here
      refine Offering.of_same (fun _ => nofun) ?_ ?_
      · rw [pool_withPeer_self]
        rfl
      · rw [offers, offers, pool_withPeer_self, peers_withPeer_self, waiting, List.append_assoc]
        rfl
    | @deliver one index fr found =>
      obtain rfl : side = one := here
      exact offering_deliver found
    | @sendRESET one =>
      obtain rfl : side = one := here
      refine Offering.of_same (fun _ => nofun) ?_ ?_
      · rw [pool_send, pool_withPeer_self]
        rfl
      · rw [offers, pool_send, pool_withPeer_self, peers_send, peers_withPeer_self]
        rfl
    | endpointGone one =>
      obtain rfl : side = one := here
      have waiting : ((pair.pool side).peerGone (pair.key side.other)).acceptCh =
          (pair.pool side).acceptCh :=
        observe_peerGone acceptCh (fun _ => rfl) rfl fun _ _ _ => rfl
      refine Offering.of_same (fun _ => nofun) ?_ ?_
      · rw [pool_withPeer_self, names_peerGone]
      · rw [offers, pool_withPeer_self, peers_withPeer_self, waiting]
        rfl
    | nothing notOpen notGone noFrame =>
      refine Offering.of_same ?_ rfl rfl
      intro sid newcomer
      rw [Pair.newcomer.eq_def] at newcomer
      split at newcomer
      · rw [noFrame _ _ rfl] at newcomer
        cases newcomer
      · cases newcomer
  have same := eff.peers_of_ne here
  apply Offering.of_same
  · intro sid newcomer
    exact here (newcomer_side newcomer)
  · rw [pool, pool, same]
  · rw [offers, offers, pool, pool, same]

def Bounded (pair : Pair) : Prop :=
  ∀ side, ∀ place ∈ pair.offers side, place < (pair.pool side).names.length

theorem Bounded.act (bounded : Bounded pair) (a : Action) : (pair.act a).Bounded := by
  intro side p mem
  cases (pair.effect_act a).offering side with
  | same nobody added names offers =>
    rw [offers] at mem
    rw [names, List.length_append]
    exact Nat.lt_add_right _ (bounded side p mem)
  | new sid newcomer names offers =>
    rw [offers, List.mem_append, List.mem_singleton] at mem
    rw [names, List.length_append, List.length_singleton]
    rcases mem with before | rfl
    · exact Nat.lt_succ_of_lt (bounded side p before)
    · exact Nat.lt_succ_self _

theorem Bounded.run (keys : Side → PublicKey) (acts : List Action) :
    (machine.run (Pair.start keys) acts).Bounded :=
  Machine.invariant nofun (fun _ a bounded => bounded.act a) acts

theorem Bounded.offered_act (bounded : Bounded pair) (a : Action) (side : Side) :
    (∀ sid, pair.newcomer a ≠ some (side, sid)) ∧ (pair.act a).offered side = pair.offered side ∨
      ∃ sid, pair.newcomer a = some (side, sid) ∧
        (pair.act a).offered side = pair.offered side ++ [sid] := by
  cases (pair.effect_act a).offering side with
  | same nobody added names offers =>
    refine .inl ⟨nobody, ?_⟩
    rw [offered, offers]
    exact identifiers_of_names names (bounded side)
  | new sid newcomer names offers =>
    refine .inr ⟨sid, newcomer, ?_⟩
    have before := identifiers_of_names names (bounded side)
    rw [offered, offers, offered, ← before, identifiers, identifiers, List.filterMap_append, names]
    simp

theorem Bounded.offered_sublist (bounded : Bounded pair) (a : Action) (side : Side) :
    (pair.offered side).Sublist ((pair.act a).offered side) := by
  rcases bounded.offered_act a side with ⟨-, same⟩ | ⟨sid, -, added⟩
  · rw [same]
  · rw [added]
    exact List.sublist_append_left _ _

theorem Traced.mem_offered (traced : Traced keys pair) (mem : sid ∈ pair.offered side) :
    sid ∈ pair.allocated := by
  rw [offered, identifiers, List.mem_filterMap] at mem
  rcases mem with ⟨p, -, found⟩
  rw [Option.map_eq_some_iff] at found
  rcases found with ⟨name, has, rfl⟩
  exact traced.names side name (List.mem_of_getElem? has)

/-- What an endpoint has opened and what has been offered to it are different streams. -/
def Apart (pair : Pair) : Prop :=
  ∀ side, ((pair.peers side).opened ++ pair.offered side).Nodup

/-- A frame that makes a stream is not for a stream that the endpoint has had already, and
has closed or reset. -/
def OnTime (pair : Pair) (action : Action) : Prop :=
  ∀ entry ∈ pair.newcomer action,
    entry.2 ∉ (pair.peers entry.1).opened ∧ entry.2 ∉ pair.offered entry.1
  deriving Decidable

theorem Apart.of_act (bounded : Bounded pair) (apart : (pair.act a).Apart) :
    pair.Apart ∧ pair.OnTime a := by
  constructor
  · intro side
    refine (apart side).sublist ?_
    exact (pair.opened_sublist side [a]).append (bounded.offered_sublist a side)
  rintro ⟨side, sid⟩ newcomer
  rcases bounded.offered_act a side with ⟨nobody, -⟩ | ⟨id, made, added⟩
  · exact absurd newcomer (nobody sid)
  have same : sid = id := by
    rw [Option.mem_def, made, Option.some.injEq, Prod.mk.injEq] at newcomer
    exact newcomer.2.symm
  have distinct := (apart side).sublist
    ((pair.opened_sublist side [a]).append (List.Sublist.refl _))
  rw [added, ← List.append_assoc, ← same] at distinct
  have notBefore := fun before =>
    List.disjoint_of_nodup_append distinct before (List.mem_singleton.mpr rfl)
  exact ⟨fun opened => notBefore (List.mem_append_left _ opened),
    fun offered => notBefore (List.mem_append_right _ offered)⟩

theorem Apart.act (traced : Traced keys pair) (bounded : pair.Bounded)
    (once : (pair.act a).allocated.Nodup) (apart : pair.Apart) (onTime : pair.OnTime a) :
    (pair.act a).Apart := by
  intro side
  by_cases opens : a = .openStream side
  · subst opens
    have fresh := pair.nextIdentifier_notMem once
    have opened := (pair.effect_act (.openStream side)).opens.1
    have offered : (pair.act (.openStream side)).offered side = pair.offered side := by
      rcases bounded.offered_act (.openStream side) side with ⟨-, same⟩ | ⟨sid, newcomer, -⟩
      · exact same
      · cases newcomer
    rw [opened, offered, List.append_assoc, List.singleton_append, List.nodup_middle,
      List.nodup_cons]
    refine ⟨?_, apart side⟩
    intro mem
    rcases List.mem_append.mp mem with before | before
    · exact fresh (pair.mem_allocated.mpr ⟨side, before⟩)
    · exact fresh (traced.mem_offered before)
  rw [((pair.effect_act a).steady opens).1]
  rcases bounded.offered_act a side with ⟨-, same⟩ | ⟨sid, newcomer, added⟩
  · rw [same]
    exact apart side
  have new := onTime (side, sid) newcomer
  rw [added, ← List.append_assoc, ← List.concat_eq_append, List.nodup_concat]
  refine ⟨?_, apart side⟩
  intro mem
  rcases List.mem_append.mp mem with before | before
  · exact new.1 before
  · exact new.2 before

theorem apart_run_iff (once : (machine.run (Pair.start keys) acts).allocated.Nodup) :
    (machine.run (Pair.start keys) acts).Apart ↔ machine.Obeys OnTime (Pair.start keys) acts := by
  induction acts using List.reverseRecOn with
  | nil => exact iff_of_true (fun _ => List.nodup_nil) trivial
  | append_singleton done a ih =>
    have bounded := Bounded.run keys done
    have traced := Traced.run keys done
    rw [Machine.run_concat] at once ⊢
    have onceBefore := once.sublist (allocated_sublist _ [a])
    rw [Machine.obeys_concat, ← ih onceBefore]
    constructor
    · exact Apart.of_act bounded
    · intro before
      exact Apart.act traced bounded once before.1 before.2

/-- However many of the waiting streams are accepted after a run, the accepted streams
correspond to different calls of `OpenStream` at the other endpoint. -/
def AcceptsOnce (keys : Side → PublicKey) (actions : List Action) : Prop :=
  ∀ (callers : List Side) (side : Side),
    let pair := machine.run (Pair.start keys) (actions ++ callers.map .acceptStream)
    (pair.accepted side).Subperm (pair.peers side.other).opened

theorem run_acceptStream (bounded : Bounded pair) (callers : List Side) (side : Side) :
    (machine.run pair (callers.map .acceptStream)).offered side = pair.offered side ∧
      ((machine.run pair (callers.map .acceptStream)).peers side).opened =
        (pair.peers side).opened := by
  induction callers generalizing pair with
  | nil => exact ⟨rfl, rfl⟩
  | cons caller callers ih =>
    rw [List.map_cons, Machine.run_cons, machine_act]
    rcases ih (bounded.act (.acceptStream caller)) with ⟨offered, opened⟩
    rw [offered, opened]
    constructor
    · rcases bounded.offered_act (.acceptStream caller) side with ⟨-, same⟩ | ⟨sid, made, -⟩
      · exact same
      · cases made
    · exact ((pair.effect_act (.acceptStream caller)).steady nofun).1

theorem offered_eq (pair : Pair) (side : Side) :
    pair.offered side =
      pair.accepted side ++ (pair.pool side).identifiers (pair.pool side).acceptCh :=
  List.filterMap_append

theorem acceptCh_run_acceptStream (pair : Pair) (side : Side) :
    ((machine.run pair ((List.replicate (pair.pool side).acceptCh.length side).map
      .acceptStream)).pool side).acceptCh = [] := by
  generalize waiting : (pair.pool side).acceptCh = places
  induction places generalizing pair with
  | nil => exact waiting
  | cons p rest ih =>
    rw [List.length_cons, List.replicate_succ, List.map_cons, Machine.run_cons]
    apply ih
    have accepted : (pair.peers side).pool.acceptStream =
        some (p, { pair.pool side with acceptCh := rest }) := by
      rw [acceptStream]
      rw [pool] at waiting
      rw [waiting]
      rfl
    simp only [machine_act, act, accepted, pool_withPeer_self]

theorem accepted_run_acceptStream (bounded : Bounded pair) (side : Side) :
    (machine.run pair ((List.replicate (pair.pool side).acceptCh.length side).map
      .acceptStream)).accepted side = pair.offered side := by
  rw [← (run_acceptStream bounded _ side).1, offered_eq, acceptCh_run_acceptStream]
  exact (List.append_nil _).symm

theorem opened_nodup {pair : Pair} (once : pair.allocated.Nodup) (side : Side) :
    (pair.peers side).opened.Nodup ∧
      ∀ id ∈ (pair.peers side).opened, id ∉ (pair.peers side.other).opened := by
  rw [allocated, List.nodup_append] at once
  cases side with
  | left => exact ⟨once.1, fun id own others => once.2.2 id own id others rfl⟩
  | right => exact ⟨once.2.1, fun id own others => once.2.2 id others id own rfl⟩

theorem accepts_once_iff_apart (once : (machine.run (Pair.start keys) acts).allocated.Nodup) :
    AcceptsOnce keys acts ↔ (machine.run (Pair.start keys) acts).Apart := by
  have bounded := Bounded.run keys acts
  have traced := Traced.run keys acts
  simp only [AcceptsOnce, Machine.run_append]
  generalize machine.run (Pair.start keys) acts = pair at *
  constructor
  · intro acceptsOnce side
    have within : (pair.offered side).Subperm (pair.peers side.other).opened := by
      rw [← accepted_run_acceptStream bounded side,
        ← (run_acceptStream bounded (List.replicate (pair.pool side).acceptCh.length side)
          side.other).2]
      exact acceptsOnce _ side
    have own := opened_nodup once side
    have others := opened_nodup once side.other
    have distinct : (pair.offered side).Nodup := by
      rcases within with ⟨arranged, perm, sublist⟩
      exact perm.nodup_iff.mp (others.1.sublist sublist)
    refine List.nodup_append.mpr ⟨own.1, distinct, ?_⟩
    intro id opened other offered same
    exact own.2 id opened (within.subset (same ▸ offered))
  intro apart callers side
  rw [(run_acceptStream bounded callers side.other).2]
  have inOffered : ((machine.run pair (callers.map .acceptStream)).accepted side).Sublist
      (pair.offered side) := by
    rw [← (run_acceptStream bounded callers side).1, offered_eq]
    exact List.sublist_append_left _ _
  have distinct := List.nodup_append.mp (apart side)
  refine List.subperm_of_subset (distinct.2.1.sublist inOffered) ?_
  intro id accepted
  have offered := inOffered.subset accepted
  rcases pair.mem_allocated.mp (traced.mem_offered offered) with ⟨one, opened⟩
  rcases side.eq_or_eq_other one with rfl | rfl
  · exact absurd rfl (distinct.2.2 id opened id offered)
  · exact opened

/-- Every accepted stream corresponds to a call of its own exactly when no data frame that
makes a stream comes for a stream that the endpoint has closed or reset. -/
theorem accepts_once_iff {keys : Side → PublicKey} (different : keys .left ≠ keys .right)
    {actions : List Action}
    (few : (machine.run (Pair.start keys) actions).allocated.length < 2 ^ 63)
    (notGone : ∀ side, .endpointGone side ∉ actions) :
    AcceptsOnce keys actions ↔ machine.Obeys OnTime (Pair.start keys) actions := by
  have once := allocated_nodup different few fun side again =>
    notGone side (again.subset (List.mem_cons_of_mem _ List.mem_cons_self))
  rw [accepts_once_iff_apart once, apart_run_iff once]

def oneStream : List Action :=
  [.openStream .left, .write .left 0 (ascii "first"), .deliver .right 0, .acceptStream .right,
    .close .left 0, .deliver .right 0]

theorem oneStream_accepted_once : AcceptsOnce aliceAndBob oneStream :=
  (accepts_once_iff (by decide) (by decide +kernel) (fun side => by cases side <;> decide)).mpr
    (by decide +kernel)

def lateData : List Action :=
  [.openStream .left, .write .left 0 (ascii "first"), .deliver .right 0, .acceptStream .right,
    .close .right 0, .write .left 0 (ascii "second"), .deliver .right 0]

theorem lateData_accepted_twice :
    (machine.run (Pair.start aliceAndBob) lateData).allocated = [1001] ∧
      (machine.run (Pair.start aliceAndBob) (lateData ++ [.acceptStream .right])).accepted
        .right = [1001, 1001] ∧
      ¬AcceptsOnce aliceAndBob lateData := by
  refine ⟨by decide +kernel, by decide +kernel, ?_⟩
  intro acceptsOnce
  have once := (acceptsOnce [.right] .right).length_le
  revert once
  decide +kernel

end Pair

end Peerscale.IrohRelay
