import Mathlib.Data.Finset.Dedup
import Mathlib.Data.List.AList
import Peerscale.Foundation.GoValue
import Peerscale.Foundation.Sorting
import Peerscale.Foundation.Time

/-! # The database of peers

`PeerDB` keeps one record for each peer and lists those that have been seen lately, in the
order in which the map is iterated.
-/

namespace Peerscale.P2put

abbrev PeerID := GoString

structure PeerRecord where
  peerID : PeerID
  addrs : List GoString
  seenAt : Time
  deriving DecidableEq

structure PeerDB where
  peers : AList fun _ : PeerID => PeerRecord
  ttl : Duration
  keyed : ∀ entry ∈ peers.entries, entry.2.peerID = entry.1

namespace PeerDB

def newPeerDB (ttl : Duration) : PeerDB := ⟨∅, ttl, nofun⟩

def put (db : PeerDB) (rec : PeerRecord) : PeerDB :=
  { db with
    peers := db.peers.insert rec.peerID rec
    keyed := by
      intro entry member
      rcases List.mem_cons.mp member with rfl | old
      · rfl
      · exact db.keyed entry ((List.kerase_sublist _ _).subset old) }

def update (db : PeerDB) (pid : PeerID) (addrs : List GoString) (seenAt : Time) : PeerDB :=
  match db.peers.lookup pid with
  | some existing => if seenAt > existing.seenAt then db.put ⟨pid, addrs, seenAt⟩ else db
  | none => db.put ⟨pid, addrs, seenAt⟩

def get (db : PeerDB) (now : Time) (pid : PeerID) : Option PeerRecord :=
  match db.peers.lookup pid with
  | none => none
  | some rec => if Time.sub now rec.seenAt > db.ttl then none else some rec

def cleanup (db : PeerDB) (now : Time) : PeerDB where
  peers := ⟨db.peers.entries.filter fun entry => ¬Time.sub now entry.2.seenAt > db.ttl,
    List.NodupKeys.sublist List.filter_sublist db.peers.nodupKeys⟩
  ttl := db.ttl
  keyed entry member := db.keyed entry (List.mem_of_mem_filter member)

def fresh (db : PeerDB) (now : Time) : List PeerRecord :=
  (db.peers.entries.map Sigma.snd).filter fun rec => ¬Time.sub now rec.seenAt > db.ttl

def list (db : PeerDB) (shuffle : Shuffle PeerRecord) (now : Time) : List PeerRecord :=
  shuffle.order (db.fresh now)

def listIDs (db : PeerDB) (shuffle : Shuffle PeerRecord) (now : Time) : List PeerID :=
  (shuffle.order (db.fresh now)).map PeerRecord.peerID

def members (db : PeerDB) (now : Time) : Finset PeerID :=
  ((db.fresh now).map PeerRecord.peerID).toFinset

theorem mem_listIDs {db : PeerDB} {id : PeerID} : id ∈ db.listIDs sh now ↔ id ∈ db.members now := by
  rw [members, List.mem_toFinset, listIDs, ((sh.perm _).map _).mem_iff]

theorem nodup_listIDs (db : PeerDB) (sh : Shuffle PeerRecord) (now : Time) :
    (db.listIDs sh now).Nodup := by
  have ids : (db.peers.entries.map Sigma.snd).map PeerRecord.peerID = db.peers.keys := by
    rw [AList.keys, List.keys, List.map_map]
    exact List.map_congr_left db.keyed
  rw [listIDs, ((sh.perm _).map _).nodup_iff]
  apply List.Nodup.sublist (List.filter_sublist.map _)
  rw [ids]
  exact db.peers.keys_nodup

variable {db : PeerDB} {pid : PeerID} {rec : PeerRecord} {now : Time}

theorem lookup_update (found : (db.update subject addrs seenAt).peers.lookup pid = some rec) :
    db.peers.lookup pid = some rec ∨ pid = subject ∧ rec = ⟨subject, addrs, seenAt⟩ := by
  have put : (db.put ⟨subject, addrs, seenAt⟩).peers.lookup pid = some rec →
      db.peers.lookup pid = some rec ∨ pid = subject ∧ rec = ⟨subject, addrs, seenAt⟩ := by
    intro found
    by_cases same : pid = subject
    · subst same
      have found := (AList.lookup_insert db.peers).symm.trans found
      exact .inr ⟨rfl, (Option.some.inj found).symm⟩
    · exact .inl ((AList.lookup_insert_ne same).symm.trans found)
  rw [update] at found
  split at found
  · split at found
    · exact put found
    · exact .inl found
  · exact put found

theorem lookup_update_self (db : PeerDB) (pid : PeerID) (addrs : List GoString) (seenAt : Time) :
    ∃ rec, (db.update pid addrs seenAt).peers.lookup pid = some rec ∧ seenAt ≤ rec.seenAt := by
  rw [update]
  split
  · rename_i existing found
    split
    · exact ⟨_, AList.lookup_insert _, Int.le_refl _⟩
    · rename_i older
      exact ⟨existing, found, Int.not_lt.mp older⟩
  · exact ⟨_, AList.lookup_insert _, Int.le_refl _⟩

theorem lookup_cleanup (found : (db.cleanup now).peers.lookup pid = some rec) :
    db.peers.lookup pid = some rec := by
  have mem := AList.mem_lookup_iff.mp found
  exact AList.mem_lookup_iff.mpr (List.mem_of_mem_filter mem)

theorem lookup_of_mem_fresh (mem : rec ∈ db.fresh now) :
    db.peers.lookup rec.peerID = some rec ∧ ¬Time.sub now rec.seenAt > db.ttl := by
  rw [fresh, List.mem_filter, List.mem_map] at mem
  rcases mem with ⟨⟨e, has, rfl⟩, young⟩
  refine ⟨AList.mem_lookup_iff.mpr ?_, of_decide_eq_true young⟩
  rw [db.keyed e has]
  exact has

theorem not_returned (old : ∀ rec, db.peers.lookup pid = some rec →
      Time.sub now rec.seenAt > db.ttl) (sh : Shuffle PeerRecord) :
    db.get now pid = none ∧ (∀ rec ∈ db.list sh now, rec.peerID ≠ pid) ∧
      pid ∉ db.listIDs sh now := by
  have unlisted : ∀ rec ∈ db.list sh now, rec.peerID ≠ pid := by
    rintro rec mem rfl
    have fresh := lookup_of_mem_fresh ((sh.perm _).mem_iff.mp mem)
    exact fresh.2 (old rec fresh.1)
  refine ⟨?_, unlisted, ?_⟩
  · rw [get]
    split
    · rfl
    · rename_i rec found
      rw [if_pos (old rec found)]
  intro mem
  rcases List.mem_map.mp mem with ⟨rec, listed, same⟩
  exact unlisted rec listed same

end PeerDB

end Peerscale.P2put
