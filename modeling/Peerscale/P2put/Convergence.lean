import Peerscale.Foundation.Machine
import Peerscale.P2put.PeerDB

/-! # The database of peers converges

A sweep may remove the newest record of a peer, and an older update that comes after it is
stored as if it were new. Both are too old to be returned by then.
-/

namespace Peerscale.P2put.PeerDB

open List

inductive Action
  | update (record : PeerRecord)
  | sweep (now : Time)

def machine : Machine PeerDB Action where
  act db
    | .update record => db.update record.peerID record.addrs record.seenAt
    | .sweep now => db.cleanup now

def updates (acts : List Action) : List PeerRecord :=
  acts.filterMap fun
    | .update record => some record
    | .sweep _ => none

def Distinct (records : List PeerRecord) : Prop :=
  ∀ first ∈ records, ∀ second ∈ records,
    first.peerID = second.peerID → first.seenAt = second.seenAt → first = second

def Newest (records : List PeerRecord) (record : PeerRecord) : Prop :=
  record ∈ records ∧ ∀ other ∈ records, other.peerID = record.peerID → other.seenAt ≤ record.seenAt

/-- Only updates are stored, and an update that is not is older than the one that is, or too
old. -/
structure Tracks (limit : Duration) (now : Time) (records : List PeerRecord) (db : PeerDB) :
    Prop where
  limited : db.ttl = limit
  stored : ∀ pid record, db.peers.lookup pid = some record → record ∈ records
  kept : ∀ record ∈ records, Time.sub now record.seenAt > limit ∨
    ∃ newer, db.peers.lookup record.peerID = some newer ∧ record.seenAt ≤ newer.seenAt

theorem lookup_update_le (db : PeerDB) (addrs : List GoString) (seenAt : Time)
    (found : db.peers.lookup pid = some record) :
    ∃ newer, (db.update subject addrs seenAt).peers.lookup pid = some newer ∧
      record.seenAt ≤ newer.seenAt := by
  by_cases same : pid = subject
  · subst same
    rw [update, found]
    dsimp only
    split
    · rename_i later
      exact ⟨_, AList.lookup_insert _, Int.le_of_lt later⟩
    · exact ⟨record, found, Int.le_refl _⟩
  have put : (db.put ⟨subject, addrs, seenAt⟩).peers.lookup pid = some record :=
    (AList.lookup_insert_ne same).trans found
  refine ⟨record, ?_, Int.le_refl _⟩
  rw [update]
  repeat' split
  all_goals assumption

section

variable (tracks : Tracks limit now records db)

include tracks

theorem Tracks.update (record : PeerRecord) :
    Tracks limit now (records ++ [record]) (machine.act db (.update record)) where
  limited := by
    rw [← tracks.limited]
    change (db.update _ _ _).ttl = _
    rw [PeerDB.update]
    repeat' split
    all_goals rfl
  stored pid found isFound := by
    rcases lookup_update isFound with old | ⟨-, rfl⟩
    · exact mem_append_left _ (tracks.stored pid found old)
    · exact mem_append_right _ (mem_singleton_self _)
  kept prev mem := by
    rcases mem_append.mp mem with old | new
    · rcases tracks.kept prev old with expired | ⟨newer, found, pre⟩
      · exact .inl expired
      · rcases lookup_update_le db record.addrs record.seenAt found with ⟨newest, isNewest, le⟩
        exact .inr ⟨newest, isNewest, pre.trans le⟩
    · rw [mem_singleton.mp new]
      exact .inr (lookup_update_self db record.peerID record.addrs record.seenAt)

theorem Tracks.sweep (prev : time ≤ now) :
    Tracks limit now records (machine.act db (.sweep time)) where
  limited := tracks.limited
  stored pid record found := tracks.stored pid record (lookup_cleanup found)
  kept record mem := by
    rcases tracks.kept record mem with expired | ⟨newer, found, pre⟩
    · exact .inl expired
    by_cases expired : Time.sub time newer.seenAt > db.ttl
    · rw [tracks.limited] at expired
      exact .inl (expired.trans_le ((Time.sub_le_sub prev _).trans (Time.sub_mono pre)))
    have has := AList.mem_lookup_iff.mp found
    exact .inr ⟨newer, AList.mem_lookup_iff.mpr (mem_filter.mpr ⟨has, decide_eq_true expired⟩), pre⟩

theorem Tracks.run (prev : ∀ time, Action.sweep time ∈ acts → time ≤ now) :
    Tracks limit now (records ++ updates acts) (machine.run db acts) := by
  induction acts generalizing db records with
  | nil =>
    rw [updates, filterMap_nil, append_nil]
    exact tracks
  | cons a acts ih =>
    have rest : ∀ time, Action.sweep time ∈ acts → time ≤ now :=
      fun time mem => prev time (mem_cons_of_mem _ mem)
    cases a with
    | update record =>
      have next := ih (tracks.update record) rest
      rw [append_assoc] at next
      exact next
    | sweep time => exact ih (tracks.sweep (prev time mem_cons_self)) rest

theorem Tracks.get_iff (distinct : Distinct records) :
    db.get now pid = some record ↔
      record.peerID = pid ∧ Newest records record ∧ ¬Time.sub now record.seenAt > limit := by
  have keyed : ∀ record, db.peers.lookup pid = some record → record.peerID = pid :=
    fun record found => db.keyed _ (AList.mem_lookup_iff.mp found)
  have got : db.get now pid = some record ↔
      db.peers.lookup pid = some record ∧ ¬Time.sub now record.seenAt > limit := by
    rw [get, tracks.limited]
    cases db.peers.lookup pid <;> grind
  rw [got]
  constructor
  · rintro ⟨found, young⟩
    refine ⟨keyed record found, ⟨tracks.stored pid record found, ?_⟩, young⟩
    intro other mem same
    rcases tracks.kept other mem with expired | ⟨newer, isNewer, pre⟩
    · by_contra later
      exact young (expired.trans_le (Time.sub_mono (Int.le_of_lt (Int.not_le.mp later))))
    · rw [same, keyed record found, found, Option.some.injEq] at isNewer
      exact isNewer ▸ pre
  rintro ⟨rfl, ⟨mem, newest⟩, young⟩
  refine ⟨?_, young⟩
  rcases (tracks.kept record mem).resolve_left young with ⟨newer, found, pre⟩
  have stored := tracks.stored _ newer found
  have post := newest newer stored (keyed newer found)
  rw [distinct record mem newer stored (keyed newer found).symm
    (Int.le_antisymm pre post), keyed newer found]
  exact found

end

theorem mem_list_iff {db : PeerDB} {record : PeerRecord} :
    record ∈ db.list sh now ↔ db.get now record.peerID = some record := by
  rw [list, (sh.perm _).mem_iff]
  constructor
  · intro mem
    rcases lookup_of_mem_fresh mem with ⟨found, young⟩
    rw [get, found]
    exact if_neg young
  intro got
  rw [get] at got
  split at got
  · cases got
  rename_i found isFound
  split at got
  · cases got
  rename_i young
  rw [Option.some.inj got] at isFound young
  exact mem_filter.mpr ⟨mem_map.mpr ⟨_, AList.mem_lookup_iff.mp isFound, rfl⟩, decide_eq_true young⟩

/-- Two runs with the same updates, in any order and with any sweeps, return the same: the
newest update of each peer, if it is not too old. -/
theorem converges {limit : Duration} {now : Time} {acts other : List Action}
    (distinct : Distinct (updates acts))
    (same : ∀ record, record ∈ updates other ↔ record ∈ updates acts)
    (earlier : ∀ time, Action.sweep time ∈ acts ++ other → time ≤ now)
    (shuffle otherShuffle : Shuffle PeerRecord) :
    let db := machine.run (newPeerDB limit) acts
    let otherDB := machine.run (newPeerDB limit) other
    (∀ pid record, db.get now pid = some record ↔ record.peerID = pid ∧
      Newest (updates acts) record ∧ ¬Time.sub now record.seenAt > limit) ∧
    (∀ record, record ∈ db.list shuffle now ↔ db.get now record.peerID = some record) ∧
    (∀ pid, otherDB.get now pid = db.get now pid) ∧
    (otherDB.list otherShuffle now).Perm (db.list shuffle now) ∧
    (otherDB.listIDs otherShuffle now).Perm (db.listIDs shuffle now) := by
  intro db otherDB
  have start : Tracks limit now [] (newPeerDB limit) := ⟨rfl, nofun, nofun⟩
  have tracks : Tracks limit now (updates acts) db :=
    start.run fun time member => earlier time (List.mem_append_left _ member)
  have otherTracks : Tracks limit now (updates other) otherDB :=
    start.run fun time member => earlier time (List.mem_append_right _ member)
  have otherDistinct : Distinct (updates other) := fun first isFirst second isSecond =>
    distinct first ((same first).mp isFirst) second ((same second).mp isSecond)
  have get : ∀ pid, otherDB.get now pid = db.get now pid := by
    intro pid
    apply Option.ext
    intro record
    rw [otherTracks.get_iff otherDistinct, tracks.get_iff distinct]
    simp only [Newest, same]
  have nodup : ∀ (db : PeerDB) (shuffle : Shuffle PeerRecord), (db.list shuffle now).Nodup :=
    fun db shuffle => (db.nodup_listIDs shuffle now).of_map _
  have perm : (otherDB.list otherShuffle now).Perm (db.list shuffle now) := by
    rw [List.perm_ext_iff_of_nodup (nodup _ _) (nodup _ _)]
    intro record
    rw [mem_list_iff, mem_list_iff, get]
  exact ⟨fun pid record => tracks.get_iff distinct, fun record => mem_list_iff, get, perm,
    perm.map _⟩

theorem converges_swept :
    let newer : PeerRecord := ⟨[1], [[2]], 10⟩
    let older : PeerRecord := ⟨[1], [[3]], 5⟩
    (machine.run (newPeerDB 3) [.update newer, .sweep 20, .update older]).get 20 [1] =
      (machine.run (newPeerDB 3) [.update older, .update newer]).get 20 [1] := by
  refine ((converges ?_ ?_ ?_ (.asIs _) (.asIs _)).2.2.1 [1]).symm
  · unfold Distinct
    decide
  · simp [updates, or_comm]
  intro time member
  simp at member
  exact member.le

end Peerscale.P2put.PeerDB
