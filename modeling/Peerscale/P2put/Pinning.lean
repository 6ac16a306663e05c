import Peerscale.P2put.Push

/-! # Records from remote peers

A node handles any number of push messages at a time, with contents that the remote peers
choose. A record that comes in a request is stamped with the clock of the node. One that
comes in a response has a time of its own, which may be in the future.
-/

namespace Peerscale.P2put

inductive Origin
  | request
  | response
  deriving DecidableEq

structure Task where
  origin : Origin
  remaining : List PeerInfo
  deriving DecidableEq

structure Host where
  formats : Multiformats
  self : PeerID

structure Node (host : Host) where
  clock : Time
  db : PeerDB
  tasks : List Task

namespace Node

variable {host : Host}

def start (host : Host) (clock : Time) (ttl : Duration) : Node host :=
  ⟨clock, .newPeerDB ttl, []⟩

def handlePeer (node : Node host) (origin : Origin) (p : PeerInfo) : PeerDB :=
  match origin with
  | .request => handleRequestPeer host.formats host.self node.clock p node.db
  | .response => handleResponsePeer host.formats host.self node.clock p node.db

inductive Action
  | tick (elapsed : Nat)
  | receive (origin : Origin) (peers : List PeerInfo)
  | step (index : Nat)
  /-- `reconnectFromPeerDB` has got an answer to its ping. -/
  | pinged (pid : PeerID) (addrs : List GoString)
  | cleanup
  deriving DecidableEq

def act (node : Node host) : Action → Node host
  | .tick elapsed => { node with clock := node.clock + elapsed }
  | .receive origin peers => { node with tasks := node.tasks ++ [⟨origin, peers⟩] }
  | .step index =>
    match node.tasks[index]? with
    | some ⟨origin, p :: rest⟩ =>
      { node with
        db := node.handlePeer origin p
        tasks := node.tasks.set index ⟨origin, rest⟩ }
    | _ => node
  | .pinged pid addrs => { node with db := node.db.update pid addrs node.clock }
  | .cleanup => { node with db := node.db.cleanup node.clock }

def machine (host : Host) : Machine (Node host) Action := ⟨act⟩

def Past (node : Node host) : Prop :=
  ∀ pid record, node.db.peers.lookup pid = some record → record.seenAt ≤ node.clock

/-- No record is of the future, so that each of them expires if it is not replaced, and
gives way to one that is made now. -/
structure Unpinned (node : Node host) : Prop where
  past : node.Past
  expires : ∀ (db : PeerDB) (pid : PeerID) (later : Time) (shuffle : Shuffle PeerRecord),
    db.ttl = node.db.ttl → db.peers.lookup pid = node.db.peers.lookup pid →
      Time.sub later node.clock > node.db.ttl →
        db.get later pid = none ∧ (∀ record ∈ db.list shuffle later, record.peerID ≠ pid) ∧
          pid ∉ db.listIDs shuffle later
  accepts : ∀ (pid : PeerID) (addrs : List GoString) (later : Time), node.clock ≤ later →
    ∃ record, (node.db.update pid addrs later).peers.lookup pid = some record ∧
      record.seenAt = later

theorem unpinned_iff {node : Node host} : node.Unpinned ↔ node.Past := by
  refine ⟨Unpinned.past, fun past => ⟨past, ?_, ?_⟩⟩
  · intro db pid later sh sameTtl same old
    apply PeerDB.not_returned
    intro rec found
    rw [same] at found
    rw [sameTtl]
    exact lt_of_lt_of_le old (Time.sub_mono (past pid rec found))
  intro pid addrs later notEarlier
  rcases node.db.lookup_update_self pid addrs later with ⟨rec, found, atLeast⟩
  refine ⟨rec, found, le_antisymm ?_ atLeast⟩
  rcases PeerDB.lookup_update found with old | ⟨-, rfl⟩
  · exact le_trans (past pid rec old) notEarlier
  · exact le_refl later

def Dated (node : Node host) : Action → Prop
  | .step index => ∀ task ∈ node.tasks[index]?, task.origin = .response →
      ∀ p ∈ task.remaining.head?, (subject host.formats host.self p).isSome →
        0 < p.seenAt → Time.ofUnixMilli p.seenAt ≤ node.clock
  | _ => True

instance (node : Node host) (action : Action) : Decidable (node.Dated action) :=
  match action with
  | .step _ => inferInstanceAs (Decidable (∀ _ ∈ _, _))
  | .tick _ => inferInstanceAs (Decidable True)
  | .receive _ _ => inferInstanceAs (Decidable True)
  | .pinged _ _ => inferInstanceAs (Decidable True)
  | .cleanup => inferInstanceAs (Decidable True)

theorem past_enter_iff (past : Past node) (p : PeerInfo) (seenAt : Time) (tasks : List Task) :
    ({ node with db := enter host.formats host.self p seenAt node.db, tasks := tasks } :
        Node host).Past ↔
      ((subject host.formats host.self p).isSome → seenAt ≤ node.clock) := by
  constructor
  · intro stillPast isSome
    rcases Option.isSome_iff_exists.mp isSome with ⟨pid, isSubject⟩
    rcases lookup_enter_subject isSubject with ⟨rec, found, atLeast⟩
    exact le_trans atLeast (stillPast pid rec found)
  intro stamped pid rec found
  rcases lookup_enter found with old | ⟨isSubject, sameTime⟩
  · exact past pid rec old
  · rw [sameTime]
    exact stamped (Option.isSome_iff_exists.mpr ⟨pid, isSubject⟩)

theorem past_step_iff (past : Past node) (index : Nat) :
    (node.act (.step index)).Past ↔ node.Dated (.step index) := by
  rw [act, Dated]
  split
  · rename_i origin p rest found
    rw [found]
    cases origin with
    | request =>
      refine iff_of_true ((past_enter_iff past p node.clock _).mpr fun _ => le_refl _) ?_
      rintro task ⟨rfl⟩ isResponse
      cases isResponse
    | response =>
      refine (past_enter_iff past p _ _).trans ?_
      rw [responseSeenAt]
      constructor
      · rintro stamped task ⟨rfl⟩ - p ⟨rfl⟩ isSome pos
        have bound := stamped isSome
        rw [if_pos pos] at bound
        exact bound
      intro dated isSome
      split
      · rename_i pos
        exact dated _ rfl rfl p rfl isSome pos
      · exact le_refl _
  rename_i other
  refine iff_of_true past ?_
  rintro ⟨origin, remaining⟩ found - p x
  cases remaining with
  | nil => cases x
  | cons p rest => exact absurd found (other origin p rest)

theorem past_act_iff (past : Past node) (a : Action) : (node.act a).Past ↔ node.Dated a := by
  cases a with
  | tick =>
    refine iff_of_true ?_ trivial
    intro pid rec found
    exact le_trans (past pid rec found) (Int.le_add_of_nonneg_right (Int.natCast_nonneg _))
  | receive => exact iff_of_true past trivial
  | step index => exact past_step_iff past index
  | pinged =>
    refine iff_of_true ?_ trivial
    intro other rec found
    rcases PeerDB.lookup_update found with old | ⟨-, rfl⟩
    · exact past other rec old
    · exact le_refl _
  | cleanup =>
    refine iff_of_true ?_ trivial
    intro pid rec found
    exact past pid rec (PeerDB.lookup_cleanup found)

/-- All along a run, no record is pinned, exactly if every time that comes with a record of a
response is not in the future when the record is entered. -/
theorem unpinned_iff_dated (host : Host) (clock : Time) (ttl : Duration) (actions : List Action) :
    (machine host).Always Unpinned (start host clock ttl) actions ↔
      (machine host).Obeys Dated (start host clock ttl) actions := by
  refine Machine.always_iff_obeys_of_step ?_ ?_ actions
  · intro node action unpinned
    rw [unpinned_iff] at unpinned ⊢
    exact past_act_iff unpinned action
  rw [unpinned_iff]
  intro pid record found
  cases found

def plainHost : Host := ⟨⟨some, some⟩, ascii "local"⟩

def farFuture : List Action :=
  [.receive .response [⟨ascii "remote", [], 33000000000000⟩], .step 0]

theorem farFuture_pins :
    let node := (machine plainHost).run
      (start plainHost (Time.ofUnixMilli 1700000000000) (600 * minute)) farFuture
    let later := Time.ofUnixMilli 30000000000000
    ¬node.Unpinned ∧ node.db.listIDs (.asIs _) later = [ascii "remote"] ∧
      (node.db.update (ascii "remote") [ascii "/ip4/1.2.3.4"] later).peers.lookup (ascii "remote") =
        node.db.peers.lookup (ascii "remote") := by
  refine ⟨?_, by decide +kernel, by decide +kernel⟩
  intro unpinned
  have bound := unpinned.past (ascii "remote") ⟨ascii "remote", [], Time.ofUnixMilli 33000000000000⟩
    (by decide +kernel)
  revert bound
  decide +kernel

end Node

end Peerscale.P2put
