import Peerscale.P2put.Push

/-! # Peers that are gone

In a network of honest nodes, records of a peer go from node to node with the time at which
the peer was last heard of, rounded down. No exchange makes a record younger.
-/

namespace Peerscale.P2put

open List

abbrev Member (formats : Multiformats) := { id : PeerID // formats.decode id = some id }

/-- What is left of a push: peers that are still to be entered by the side that handles it,
and after its answer by the side that has pushed. -/
inductive Phase
  | handling (remaining : List PeerInfo)
  | receiving (remaining : List PeerInfo)
  deriving DecidableEq

structure Exchange (formats : Multiformats) where
  pusher : Member formats
  handler : Member formats
  phase : Phase

/-- The nodes share a clock. `heard` are the peers of which some node has handled a push or
got an answer to a ping, and when. -/
structure Network (formats : Multiformats) where
  clock : Time
  db : Member formats → PeerDB
  exchanges : List (Exchange formats)
  heard : List (PeerID × Time)

structure Founding where
  clock : Time
  ttl : Duration
  modern : unixEpoch + millisecond < clock

namespace Network

variable {formats : Multiformats}

def start (formats : Multiformats) (founding : Founding) : Network formats where
  clock := founding.clock
  db _ := .newPeerDB founding.ttl
  exchanges := []
  heard := []

def setDB (net : Network formats) (node : Member formats) (db : PeerDB) :
    Network formats :=
  { net with db := Function.update net.db node db }

def setPhase (net : Network formats) (index : Nat) (exchange : Exchange formats)
    (phase : Phase) : Network formats :=
  { net with exchanges := net.exchanges.set index { exchange with phase := phase } }

def hear (net : Network formats) (peer : Member formats) : Network formats :=
  { net with heard := (peer.val, net.clock) :: net.heard }

def step (net : Network formats) (index : Nat) (exchange : Exchange formats)
    (shuffle : Shuffle PeerRecord) : Network formats :=
  let pusher := exchange.pusher
  let handler := exchange.handler
  match exchange.phase with
  | .handling (p :: rest) =>
    ((net.hear pusher).setDB handler (handleRequestPeer formats handler.val net.clock p
      (net.db handler))).setPhase index exchange (.handling rest)
  | .handling [] =>
    net.setPhase index exchange
      (.receiving (response handler.val (net.db handler) shuffle pusher.val net.clock))
  | .receiving (p :: rest) =>
    (net.setDB pusher (handleResponsePeer formats pusher.val net.clock p
      (net.db pusher))).setPhase index exchange (.receiving rest)
  | .receiving [] => net

inductive Action (formats : Multiformats)
  | tick (elapsed : Nat)
  | push (pusher handler : Member formats) (addrs : List GoString)
  | step (index : Nat) (shuffle : Shuffle PeerRecord)
  /-- A ping of `reconnectFromPeerDB` is answered. -/
  | pinged (node peer : Member formats) (addrs : List GoString)
  | cleanup (node : Member formats)

def act (net : Network formats) : Action formats → Network formats
  | .tick elapsed => { net with clock := net.clock + elapsed }
  | .push pusher handler addrs =>
    { net with
      exchanges := net.exchanges ++ [⟨pusher, handler, .handling (request pusher.val addrs)⟩] }
  | .step index shuffle =>
    match net.exchanges[index]? with
    | some exchange => net.step index exchange shuffle
    | none => net
  | .pinged node peer addrs =>
    (net.hear peer).setDB node ((net.db node).update peer.val addrs net.clock)
  | .cleanup node => net.setDB node ((net.db node).cleanup net.clock)

def machine (formats : Multiformats) : Machine (Network formats) (Action formats) := ⟨act⟩

def HeardSince (heard : List (PeerID × Time)) (pid : PeerID) (time : Time) : Prop :=
  ∃ moment, (pid, moment) ∈ heard ∧ time ≤ moment

/-- A time at which the peer has been heard of, for a peer with a valid ID, and late enough
that its milliseconds are positive. -/
structure Known (formats : Multiformats) (heard : List (PeerID × Time)) (pid : PeerID)
    (time : Time) : Prop where
  valid : formats.decode pid = some pid
  modern : unixEpoch + millisecond ≤ time
  heard : HeardSince heard pid time

def Honest (heard : List (PeerID × Time)) (pusher : Member formats) : Phase → Prop
  | .handling remaining => ∀ p ∈ remaining, p.id = pusher.val
  | .receiving remaining => ∀ p ∈ remaining,
      0 < p.seenAt ∧ Known formats heard p.id (Time.ofUnixMilli p.seenAt)

structure Sound (network : Network formats) : Prop where
  modern : unixEpoch + millisecond ≤ network.clock
  records : ∀ node pid record, (network.db node).peers.lookup pid = some record →
    Known formats network.heard pid record.seenAt
  exchanges : ∀ exchange ∈ network.exchanges,
    Honest network.heard exchange.pusher exchange.phase

theorem Known.mono {heard more : List (PeerID × Time)} {time : Time}
    (known : Known formats heard pid time) (subset : heard ⊆ more) :
    Known formats more pid time := by
  rcases known.heard with ⟨mo, mem, notBefore⟩
  exact ⟨known.valid, known.modern, mo, subset mem, notBefore⟩

theorem Honest.mono {heard more : List (PeerID × Time)} (honest : Honest heard pusher phase)
    (subset : heard ⊆ more) : Honest more pusher phase := by
  cases phase with
  | handling => exact honest
  | receiving =>
    intro p mem
    exact ⟨(honest p mem).1, (honest p mem).2.mono subset⟩

namespace Sound

variable {net : Network formats} (sound : net.Sound)

include sound

theorem hear (peer : Member formats) : (net.hear peer).Sound where
  modern := sound.modern
  records node pid rec found := (sound.records node pid rec found).mono (subset_cons_self _ _)
  exchanges exchange mem := (sound.exchanges exchange mem).mono (subset_cons_self _ _)

theorem known_hear (peer : Member formats) :
    Known formats (net.hear peer).heard peer.val net.clock :=
  ⟨peer.property, sound.modern, net.clock, mem_cons_self, le_refl _⟩

theorem setDB {db : PeerDB} (known : ∀ pid rec, db.peers.lookup pid = some rec →
      (net.db node).peers.lookup pid = some rec ∨
        Known formats net.heard pid rec.seenAt) : (net.setDB node db).Sound where
  modern := sound.modern
  records other pid rec found := by
    change (Function.update net.db node db other).peers.lookup pid = some rec at found
    by_cases same : other = node
    · subst same
      rw [Function.update_self] at found
      rcases known pid rec found with old | new
      · exact sound.records other pid rec old
      · exact new
    · rw [Function.update_of_ne same] at found
      exact sound.records other pid rec found
  exchanges := sound.exchanges

theorem setPhase {exchange : Exchange formats} (honest : Honest net.heard exchange.pusher phase) :
    (net.setPhase index exchange phase).Sound where
  modern := sound.modern
  records := sound.records
  exchanges other mem := by
    rcases mem_or_eq_of_mem_set mem with old | rfl
    · exact sound.exchanges other old
    · exact honest

theorem honest_response (pusher hd : Member formats) (sh : Shuffle PeerRecord) :
    Honest net.heard pusher (.receiving (response hd.val (net.db hd) sh pusher.val net.clock)) := by
  intro p mem
  rw [response, mem_map] at mem
  rcases mem with ⟨rec, listed, rfl⟩
  have fresh := (sh.perm _).mem_iff.mp (mem_of_mem_filter listed)
  have known := sound.records hd rec.peerID rec (PeerDB.lookup_of_mem_fresh fresh).1
  have pos := Time.unixMilli_pos known.modern
  rcases known.heard with ⟨mo, heard, notBefore⟩
  exact ⟨pos, known.valid, Time.le_ofUnixMilli pos, mo, heard,
    le_trans (Time.ofUnixMilli_unixMilli_le _) notBefore⟩

theorem step (mem : exchange ∈ net.exchanges) (sh : Shuffle PeerRecord) :
    (net.step index exchange sh).Sound := by
  have honest := sound.exchanges exchange mem
  rw [Network.step]
  split
  · rename_i p rest phase
    rw [phase] at honest
    refine setPhase (setDB (sound.hear exchange.pusher) ?_) ?_
    · intro pid rec found
      rcases lookup_enter found with old | ⟨isSubject, sameTime⟩
      · exact .inl old
      right
      have decoded := decode_of_subject isSubject
      rw [honest p mem_cons_self, exchange.pusher.property, Option.some.injEq] at decoded
      rw [sameTime, ← decoded]
      exact sound.known_hear exchange.pusher
    · intro other among
      exact honest other (mem_cons_of_mem p among)
  · exact sound.setPhase (sound.honest_response exchange.pusher exchange.handler sh)
  · rename_i p rest phase
    rw [phase] at honest
    have known := honest p mem_cons_self
    refine setPhase (sound.setDB ?_) ?_
    · intro pid rec found
      rcases lookup_enter found with old | ⟨isSubject, sameTime⟩
      · exact .inl old
      right
      have decoded := decode_of_subject isSubject
      rw [known.2.valid, Option.some.injEq] at decoded
      rw [responseSeenAt, if_pos known.1] at sameTime
      rw [sameTime, ← decoded]
      exact known.2
    · intro other among
      exact honest other (mem_cons_of_mem p among)
  · exact sound

theorem act (a : Action formats) : (net.act a).Sound := by
  cases a with
  | tick =>
    exact
      { sound with
        modern := le_trans sound.modern (Int.le_add_of_nonneg_right (Int.natCast_nonneg _)) }
  | push =>
    refine { sound with exchanges := ?_ }
    intro exchange mem
    rcases mem_append.mp mem with old | new
    · exact sound.exchanges exchange old
    rw [mem_singleton.mp new]
    intro p own
    rw [mem_singleton.mp own]
  | step index sh =>
    rw [Network.act]
    split
    · rename_i exchange found
      exact sound.step (mem_of_getElem? found) sh
    · exact sound
  | pinged node peer =>
    refine setDB (sound.hear peer) ?_
    intro pid rec found
    rcases PeerDB.lookup_update found with old | ⟨rfl, rfl⟩
    · exact .inl old
    · exact .inr (sound.known_hear peer)
  | cleanup =>
    refine sound.setDB ?_
    intro pid rec found
    exact .inl (PeerDB.lookup_cleanup found)

end Sound

theorem sound_start (formats : Multiformats) (founding : Founding) :
    (start formats founding).Sound where
  modern := le_of_lt founding.modern
  records node pid rec found := by cases found
  exchanges := nofun

/-- In every run, a record of a peer is not younger than the last moment at which some node
has heard of the peer from the peer itself. Once that moment is longer ago than a record
lives, no node returns the peer. -/
theorem forgotten (formats : Multiformats) (founding : Founding)
    (actions : List (Action formats)) (node : Member formats) (peer : PeerID) :
    let network := (machine formats).run (start formats founding) actions
    (∀ record, (network.db node).peers.lookup peer = some record →
      HeardSince network.heard peer record.seenAt) ∧
    ((∀ moment, (peer, moment) ∈ network.heard →
        Time.sub network.clock moment > (network.db node).ttl) →
      ∀ shuffle, (network.db node).get network.clock peer = none ∧
        (∀ record ∈ (network.db node).list shuffle network.clock, record.peerID ≠ peer) ∧
        peer ∉ (network.db node).listIDs shuffle network.clock) := by
  intro network
  have sound : network.Sound :=
    Machine.invariant (sound_start formats founding) (fun _ action sound => sound.act action)
      actions
  refine ⟨fun record found => (sound.records node peer record found).heard, ?_⟩
  intro longAgo shuffle
  apply PeerDB.not_returned
  intro record found
  rcases (sound.records node peer record found).heard with ⟨moment, heard, notBefore⟩
  exact lt_of_lt_of_le (longAgo moment heard) (Time.sub_mono notBefore)

end Network

end Peerscale.P2put
