import Peerscale.Foundation.Machine
import Peerscale.P2put.PeerDB

/-! # Pushing peers

`PushToPeer` sends the peer's own addresses and gets the records of the other side in
return. Those who are pushed stamp the record with their clock. Those who push take the time
that comes with the record, in milliseconds, and their clock if there is none.
-/

namespace Peerscale.P2put

/-- `peer.Decode` and `multiaddr.NewMultiaddr`. -/
structure Multiformats where
  decode : GoString → Option PeerID
  newMultiaddr : GoString → Option GoString

structure PeerInfo where
  id : GoString
  addrs : List GoString
  seenAt : Int
  deriving DecidableEq

section Handlers

variable (formats : Multiformats) (self : PeerID)

def subject (p : PeerInfo) : Option PeerID :=
  match formats.decode p.id with
  | none => none
  | some rpid => if rpid = self then none else some rpid

def enter (p : PeerInfo) (seenAt : Time) (db : PeerDB) : PeerDB :=
  match subject formats self p with
  | none => db
  | some rpid => db.update rpid (p.addrs.filterMap formats.newMultiaddr) seenAt

def handleRequestPeer (now : Time) (p : PeerInfo) (db : PeerDB) : PeerDB :=
  enter formats self p now db

def responseSeenAt (now : Time) (p : PeerInfo) : Time :=
  if p.seenAt > 0 then Time.ofUnixMilli p.seenAt else now

def handleResponsePeer (now : Time) (p : PeerInfo) (db : PeerDB) : PeerDB :=
  enter formats self p (responseSeenAt now p) db

def request (addrs : List GoString) : List PeerInfo := [⟨self, addrs, 0⟩]

def response (db : PeerDB) (shuffle : Shuffle PeerRecord) (pid : PeerID) (now : Time) :
    List PeerInfo :=
  ((db.list shuffle now).filter fun r => r.peerID ≠ self ∧ r.peerID ≠ pid).map fun r =>
    ⟨r.peerID, r.addrs, r.seenAt.unixMilli⟩

end Handlers

theorem lookup_enter (found : (enter formats self p seenAt db).peers.lookup pid = some rec) :
    db.peers.lookup pid = some rec ∨ subject formats self p = some pid ∧ rec.seenAt = seenAt := by
  rw [enter] at found
  split at found
  · exact .inl found
  rename_i rpid isSubject
  rcases PeerDB.lookup_update found with old | ⟨same, new⟩
  · exact .inl old
  · rw [same, new]
    exact .inr ⟨isSubject, rfl⟩

theorem lookup_enter_subject (isSubject : subject formats self p = some pid) :
    ∃ rec, (enter formats self p seenAt db).peers.lookup pid = some rec ∧ seenAt ≤ rec.seenAt := by
  rw [enter, isSubject]
  exact db.lookup_update_self pid _ seenAt

theorem decode_of_subject (isSubject : subject formats self p = some pid) :
    formats.decode p.id = some pid := by
  rw [subject] at isSubject
  split at isSubject
  · cases isSubject
  rename_i rpid decoded
  split at isSubject
  · cases isSubject
  · rw [decoded, isSubject]

end Peerscale.P2put
