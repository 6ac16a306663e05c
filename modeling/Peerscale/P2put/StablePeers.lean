import Mathlib.Data.List.AList
import Peerscale.Foundation.Machine
import Peerscale.P2put.PeerDB

/-! # Stable peers

A table of at most 32 peers says since when they are online and how long they have been online
before. A peer for which there is no room takes the place of the one that has left, or was
first seen, the longest time ago, which may be online.
-/

namespace Peerscale.P2put

open AList

def maxStablePeers : Nat := 32

/-- The zero time is `none`. -/
structure StableInfo where
  firstSeen : Time
  onlineSince : Option Time
  totalOnline : Duration
  lastSeen : Option Time
  deriving DecidableEq

inductive Connectedness
  | notConnected
  | connected
  | canConnect
  | cannotConnect
  | limited
  deriving DecidableEq

abbrev StableEntry := Sigma fun _ : PeerID => StableInfo

abbrev StablePeers := AList fun _ : PeerID => StableInfo

structure ConnEvent where
  peer : PeerID
  connectedness : Connectedness
  now : Time
  shuffle : Shuffle StableEntry

def StableInfo.mark (si : StableInfo) : Time := si.lastSeen.getD si.firstSeen

/-- No two times are so far apart, 292 years, that their difference is not a duration. -/
def elapsed (now : Time) (since : Option Time) : Duration := (since.map (now - ·)).getD 0

namespace StablePeers

def older (best : Option (PeerID × Time)) (entry : StableEntry) : Option (PeerID × Time) :=
  match best with
  | none => some (entry.1, entry.2.mark)
  | some (_, oldest) => if entry.2.mark < oldest then some (entry.1, entry.2.mark) else best

def victim (peers : StablePeers) (sh : Shuffle StableEntry) : Option PeerID :=
  ((sh.order peers.entries).foldl older none).map Prod.fst

def evictOne (peers : StablePeers) (sh : Shuffle StableEntry) : StablePeers :=
  match peers.victim sh with
  | some id => peers.erase id
  | none => peers

def handlePeerConnectednessChanged (isBootstrapPeer : PeerID → Bool) (peers : StablePeers)
    (e : ConnEvent) : StablePeers :=
  match isBootstrapPeer e.peer, e.connectedness, peers.lookup e.peer with
  | false, .connected, some si =>
    peers.insert e.peer { si with onlineSince := some (si.onlineSince.getD e.now) }
  | false, .connected, none =>
    let room := if maxStablePeers ≤ peers.keys.length then peers.evictOne e.shuffle else peers
    room.insert e.peer ⟨e.now, some e.now, 0, none⟩
  | false, .notConnected, some si =>
    peers.insert e.peer { si with
      totalOnline := si.totalOnline + elapsed e.now si.onlineSince
      onlineSince := none
      lastSeen := some e.now }
  | _, _, _ => peers

variable {peers : StablePeers} {sh : Shuffle StableEntry}

theorem foldl_older (entries : List StableEntry) (x : StableEntry) :
    ∃ oldest ∈ x :: entries,
      entries.foldl older (some (x.1, x.2.mark)) = some (oldest.1, oldest.2.mark) ∧
        ∀ entry ∈ x :: entries, oldest.2.mark ≤ entry.2.mark := by
  induction entries generalizing x with
  | nil => exact ⟨x, by simp⟩
  | cons entry entries ih =>
    rw [List.foldl_cons, older]
    split
    · rcases ih entry with ⟨oldest, mem, found, least⟩
      exact ⟨oldest, by grind, found, by grind⟩
    · rcases ih x with ⟨oldest, mem, found, least⟩
      exact ⟨oldest, by grind, found, by grind⟩

theorem victim_spec (sh : Shuffle StableEntry) (nonempty : 0 < peers.keys.length) :
    ∃ oldest ∈ peers.entries, peers.victim sh = some oldest.1 ∧
      ∀ entry ∈ peers.entries, oldest.2.mark ≤ entry.2.mark := by
  have perm := sh.perm peers.entries
  rw [victim]
  cases isOrder : sh.order peers.entries with
  | nil =>
    rw [isOrder, List.nil_perm] at perm
    rw [keys, List.keys, perm] at nonempty
    cases nonempty
  | cons x entries =>
    rcases foldl_older entries x with ⟨oldest, mem, found, least⟩
    rw [isOrder] at perm
    refine ⟨oldest, perm.mem_iff.mp mem, ?_, ?_⟩
    · rw [List.foldl_cons, older, found]
      rfl
    · exact fun entry isEntry => least entry (perm.mem_iff.mpr isEntry)

theorem foldl_older_of_least {entries : List StableEntry} {first : StableEntry}
    (least : ∀ entry ∈ entries, first.2.mark ≤ entry.2.mark) :
    entries.foldl older (some (first.1, first.2.mark)) = some (first.1, first.2.mark) := by
  induction entries with
  | nil => rfl
  | cons entry entries ih =>
    rw [List.foldl_cons, older, if_neg (not_lt.mpr (least entry List.mem_cons_self))]
    exact ih fun other isOther => least other (List.mem_cons_of_mem entry isOther)

theorem victim_front {entry : StableEntry} (member : entry ∈ peers.entries)
    (least : ∀ other ∈ peers.entries, entry.2.mark ≤ other.2.mark) :
    peers.victim (.front entry) = some entry.1 := by
  rw [victim, Shuffle.front]
  dsimp only
  rw [if_pos member, List.foldl_cons, older,
    foldl_older_of_least fun other isOther => least other (List.mem_of_mem_erase isOther)]
  rfl

theorem lookup_evictOne (found : (peers.evictOne sh).lookup pid = some si) :
    peers.lookup pid = some si := by
  rw [evictOne] at found
  split at found
  · rename_i id _
    by_cases same : pid = id
    · rw [same, lookup_erase] at found
      cases found
    · rwa [lookup_erase_ne same] at found
  · exact found

section Length

variable {α : Type} [DecidableEq α] {β : α → Type} {map : AList β} {key : α}

theorem length_erase (mem : key ∈ map) : (map.erase key).keys.length = map.keys.length - 1 := by
  rw [keys_erase, List.length_erase_of_mem (mem_keys.mp mem)]

theorem length_insert (val : β key) : (map.insert key val).keys.length =
    if key ∈ map then map.keys.length else map.keys.length + 1 := by
  rw [keys_insert, List.length_cons, List.length_erase]
  have := fun mem : key ∈ map.keys => List.length_pos_of_mem mem
  grind [mem_keys]

end Length

theorem length_evictOne (sh : Shuffle StableEntry) (nonempty : 0 < peers.keys.length) :
    (peers.evictOne sh).keys.length = peers.keys.length - 1 := by
  rcases victim_spec sh nonempty with ⟨oldest, held, isVictim, -⟩
  rw [evictOne, isVictim]
  exact length_erase (mem_keys.mpr (List.mem_map_of_mem held))

/-- A new peer for which there is no room takes the place of the victim. -/
theorem lost_iff (regular : isBootstrapPeer pid = false) (absent : pid ∉ peers)
    (full : maxStablePeers ≤ peers.keys.length) {entry : StableEntry}
    (member : entry ∈ peers.entries) :
    entry.1 ∉ (peers.handlePeerConnectednessChanged isBootstrapPeer
      ⟨pid, .connected, now, sh⟩).keys ↔ peers.victim sh = some entry.1 := by
  have held : entry.1 ∈ peers := mem_keys.mpr (List.mem_map_of_mem member)
  have other : entry.1 ≠ pid := fun same => absent (same ▸ held)
  rcases victim_spec sh (Nat.lt_of_lt_of_le (by decide) full) with ⟨oldest, -, found, -⟩
  rw [handlePeerConnectednessChanged]
  simp only [regular, lookup_eq_none.mpr absent]
  rw [if_pos full, evictOne, found, ← mem_keys, mem_insert, mem_erase]
  simp [other, held, eq_comm]

theorem length_handle (size : peers.keys.length ≤ maxStablePeers) (e : ConnEvent) :
    (peers.handlePeerConnectednessChanged isBootstrapPeer e).keys.length ≤ maxStablePeers := by
  have few : 0 < maxStablePeers := by decide
  have held : ∀ {si}, peers.lookup e.peer = some si → e.peer ∈ peers :=
    fun found => lookup_isSome.mp (Option.isSome_of_mem found)
  rw [handlePeerConnectednessChanged]
  split
  · rename_i found
    rwa [length_insert, if_pos (held found)]
  · rename_i found
    rw [length_insert]
    have evicted := @length_evictOne peers e.shuffle
    have absent := lookup_eq_none.mp found
    grind
  · rename_i found
    rwa [length_insert, if_pos (held found)]
  · exact size

end StablePeers

/-- The times at which a peer has come, with `true`, and gone since it is in the table. -/
abbrev Visits := List (Time × Bool)

namespace Visits

/-- The intervals from a time at which it comes, and was not there, to the next at which it
goes. -/
def intervals : Option Time → Visits → List (Time × Time)
  | _, [] => []
  | since, (now, true) :: rest => intervals (some (since.getD now)) rest
  | some start, (now, false) :: rest => (start, now) :: intervals none rest
  | none, (_, false) :: rest => intervals none rest

def total : List (Time × Time) → Duration
  | [] => 0
  | (start, now) :: rest => now - start + total rest

def since : Option Time → Visits → Option Time
  | start, [] => start
  | start, (now, true) :: rest => since (some (start.getD now)) rest
  | _, (_, false) :: rest => since none rest

theorem since_concat (visits : Visits) (visit : Time × Bool) :
    since start (visits ++ [visit]) =
      if visit.2 then some ((since start visits).getD visit.1) else none := by
  induction visits generalizing start with
  | nil => rcases visit with ⟨now, _ | _⟩ <;> rfl
  | cons x rest ih => rcases x with ⟨now, _ | _⟩ <;> exact ih

theorem total_concat (visits : Visits) (visit : Time × Bool) :
    total (intervals start (visits ++ [visit])) = total (intervals start visits) +
      if visit.2 then 0 else elapsed visit.1 (since start visits) := by
  induction visits generalizing start with
  | nil =>
    rcases visit with ⟨now, _ | _⟩ <;> cases start <;> simp [intervals, total, elapsed, since]
  | cons x rest ih =>
    rcases x with ⟨now, _ | _⟩
    · cases start with
      | none => exact ih
      | some start =>
        rw [List.cons_append, intervals, intervals, total, total, ih, add_assoc]
        rfl
    · exact ih

end Visits

structure Exact (now : Time) (visits : Visits) (si : StableInfo) : Prop where
  total : si.totalOnline = Visits.total (visits.intervals none)
  since : si.onlineSince = visits.since none
  bound : si.totalOnline + elapsed now si.onlineSince ≤ now - si.firstSeen

namespace Exact

variable {visits : Visits}

theorem later (exact : Exact pre visits si) (later : pre ≤ now) : Exact now visits si := by
  rcases exact with ⟨total, since, bound⟩
  refine ⟨total, since, ?_⟩
  cases isSince : si.onlineSince <;> simp only [isSince, elapsed] at bound ⊢ <;> grind

theorem connected (exact : Exact now visits si) :
    Exact now (visits ++ [(now, true)])
      { si with onlineSince := some (si.onlineSince.getD now) } where
  total := by rw [Visits.total_concat, exact.total, if_pos rfl, add_zero]
  since := by rw [Visits.since_concat, exact.since, if_pos rfl]
  bound := by
    have bound := exact.bound
    cases isSince : si.onlineSince <;> simp_all [elapsed]

theorem notConnected (exact : Exact now visits si) :
    Exact now (visits ++ [(now, false)]) { si with
      totalOnline := si.totalOnline + elapsed now si.onlineSince
      onlineSince := none
      lastSeen := some now } where
  total := by
    rw [Visits.total_concat, exact.total, exact.since]
    rfl
  since := (Visits.since_concat visits (now, false)).symm
  bound := (add_zero _).trans_le exact.bound

theorem new (now : Time) : Exact now [(now, true)] ⟨now, some now, 0, none⟩ :=
  ⟨rfl, rfl, by simp [elapsed]⟩

end Exact

/-- The table, the visits of the peers that are in it, and the time of the last event. -/
structure StableWatch where
  peers : StablePeers
  visits : PeerID → Visits
  now : Time

namespace StableWatch

def start (now : Time) : StableWatch := ⟨∅, fun _ => [], now⟩

def visited (watch : StableWatch) (isBootstrapPeer : PeerID → Bool) (e : ConnEvent) : Visits :=
  let visits := watch.visits e.peer
  match isBootstrapPeer e.peer, e.connectedness, watch.peers.lookup e.peer with
  | false, .connected, some _ => visits ++ [(e.now, true)]
  | false, .connected, none => [(e.now, true)]
  | false, .notConnected, some _ => visits ++ [(e.now, false)]
  | _, _, _ => visits

def machine (isBootstrapPeer : PeerID → Bool) : Machine StableWatch ConnEvent where
  act watch e := ⟨watch.peers.handlePeerConnectednessChanged isBootstrapPeer e,
    Function.update watch.visits e.peer (watch.visited isBootstrapPeer e), e.now⟩

variable {watch : StableWatch} {isBootstrapPeer : PeerID → Bool}

def Accounts (watch : StableWatch) : Prop :=
  ∀ pid si, watch.peers.lookup pid = some si → Exact watch.now (watch.visits pid) si

def Later (watch : StableWatch) (e : ConnEvent) : Prop := watch.now ≤ e.now
  deriving Decidable

theorem Accounts.act (accounts : Accounts watch) (later : Later watch e) :
    Accounts ((machine isBootstrapPeer).act watch e) := by
  have exact : ∀ pid si, watch.peers.lookup pid = some si → Exact e.now (watch.visits pid) si :=
    fun pid si found => (accounts pid si found).later later
  intro pid si found
  by_cases same : pid = e.peer
  · subst same
    dsimp only [machine] at found ⊢
    rw [Function.update_self, visited]
    rw [StablePeers.handlePeerConnectednessChanged] at found
    split at found
    · rename_i held
      rw [← Option.some.inj ((lookup_insert _).symm.trans found)]
      exact (exact _ _ held).connected
    · rw [← Option.some.inj ((lookup_insert _).symm.trans found)]
      exact .new e.now
    · rename_i held
      rw [← Option.some.inj ((lookup_insert _).symm.trans found)]
      exact (exact _ _ held).notConnected
    · exact exact _ _ found
  have old : watch.peers.lookup pid = some si := by
    dsimp only [machine, StablePeers.handlePeerConnectednessChanged] at found
    split at found
    · rwa [lookup_insert_ne same] at found
    · rw [lookup_insert_ne same] at found
      split at found
      · exact StablePeers.lookup_evictOne found
      · exact found
    · rwa [lookup_insert_ne same] at found
    · exact found
  dsimp only [machine]
  rw [Function.update_of_ne same]
  exact exact pid si old

/-- The table holds at most 32 peers, and for each of them the time that it has been online is
that of its visits, and not more than has gone by since it was first seen. -/
theorem stable_accounts (isBootstrapPeer : PeerID → Bool) (first : Time) (events : List ConnEvent)
    (ordered : (machine isBootstrapPeer).Obeys Later (start first) events) :
    let watch := (machine isBootstrapPeer).run (start first) events
    watch.peers.keys.length ≤ maxStablePeers ∧ ∀ pid si, watch.peers.lookup pid = some si →
        si.totalOnline = Visits.total ((watch.visits pid).intervals none) ∧
        si.onlineSince = (watch.visits pid).since none ∧
        ∀ now ≥ watch.now, si.totalOnline + elapsed now si.onlineSince ≤ now - si.firstSeen := by
  intro watch
  have size : watch.peers.keys.length ≤ maxStablePeers :=
    @Machine.invariant _ _ (machine isBootstrapPeer)
      (fun watch => watch.peers.keys.length ≤ maxStablePeers) (start first) (Nat.zero_le _)
      (fun _ e size => StablePeers.length_handle size e) events
  have accounts : Accounts watch := ordered.invariant nofun fun _ _ => Accounts.act
  exact ⟨size, fun pid si found => ⟨(accounts pid si found).total, (accounts pid si found).since,
    fun now later => ((accounts pid si found).later later).bound⟩⟩

theorem stable_accounts_eight :
    let event (connectedness : Connectedness) (now : Time) : ConnEvent :=
      ⟨[1], connectedness, now, .asIs _⟩
    let events := [event .connected 3, event .connected 5, event .notConnected 8]
    let watch := (machine fun _ => false).run (start 0) events
    ∃ si, watch.peers.lookup [1] = some si ∧ si.totalOnline = 5 := by
  intro event events watch
  have held : watch.peers.lookup [1] = some ⟨3, none, 5, some 8⟩ := by decide +kernel
  exact ⟨_, held, ((stable_accounts _ 0 events (by decide +kernel)).2 [1] _ held).1⟩

/-- The event evicts no peer that is connected while there is one that is not. -/
def Spares (isBootstrapPeer : PeerID → Bool) (peers : StablePeers) (e : ConnEvent) : Prop :=
  ∀ entry ∈ peers.entries, entry.1 ∉ (peers.handlePeerConnectednessChanged isBootstrapPeer e).keys →
      entry.2.onlineSince.isSome → ∀ other ∈ peers.entries, other.2.onlineSince.isSome

/-- Unless all peers are connected, each of those that are has a later mark than some other. -/
def GoneFirst (peers : StablePeers) : Prop :=
  ∀ entry ∈ peers.entries, entry.2.onlineSince.isSome →
    ∀ other ∈ peers.entries, other.2.onlineSince.isSome ∨
      ∃ gone ∈ peers.entries, gone.2.mark < entry.2.mark

/-- When a new peer comes and the table is full, then in every order of the map no connected peer
is evicted before one that has gone exactly if one that has gone has the oldest mark. -/
theorem spares_iff_goneFirst (isBootstrapPeer : PeerID → Bool) (first : Time)
    (events : List ConnEvent) (pid : PeerID) (now : Time) :
    let peers := ((machine isBootstrapPeer).run (start first) events).peers
    isBootstrapPeer pid = false → pid ∉ peers → peers.keys.length = maxStablePeers →
      ((∀ shuffle, Spares isBootstrapPeer peers ⟨pid, .connected, now, shuffle⟩) ↔
        GoneFirst peers) := by
  intro peers regular absent full
  constructor
  · intro spares entry member online other isOther
    by_contra neither
    obtain ⟨gone, none⟩ := not_or.mp neither
    refine gone (spares (.front entry) entry member ?_ online other isOther)
    rw [StablePeers.lost_iff regular absent full.ge member]
    exact StablePeers.victim_front member fun third isThird =>
      not_lt.mp fun before => none ⟨third, isThird, before⟩
  intro goneFirst shuffle entry member lost online other isOther
  rw [StablePeers.lost_iff regular absent full.ge member] at lost
  rcases goneFirst entry member online other isOther with present | ⟨gone, isGone, before⟩
  · exact present
  rcases StablePeers.victim_spec shuffle (List.length_pos_of_mem (List.mem_map_of_mem member))
    with ⟨oldest, isOldest, found, least⟩
  have same := Option.some.inj (lost.symm.trans found)
  rw [List.NodupKeys.eq_of_fst_eq (AList.nodupKeys _) member isOldest same] at before
  exact absurd (least gone isGone) (not_le.mpr before)

/-- Peer 0 has gone, and 31 others have come after it. -/
theorem spares_gone :
    let ev (peer : UInt8) (connectedness : Connectedness) (now : Time) : ConnEvent :=
      ⟨[peer], connectedness, now, .asIs _⟩
    let events := [ev 0 .connected 0, ev 0 .notConnected 0] ++
      (List.range' 1 31).map fun peer => ev (.ofNat peer) .connected peer
    Spares (fun _ => false) ((machine fun _ => false).run (start 0) events).peers
      (ev 32 .connected 41) := by
  intro ev events
  have goneFirst : GoneFirst ((machine fun _ => false).run (start 0) events).peers := by
    unfold GoneFirst
    decide +kernel
  exact (spares_iff_goneFirst _ 0 events [32] 41 rfl (by decide +kernel)
    (by decide +kernel)).mpr goneFirst (.asIs _)

/-- Peer 0 is there all the time, and 31 others come after it. One of them goes, and peer 0 is
evicted for the next one. -/
theorem present_evicted :
    let ev (peer : UInt8) (connectedness : Connectedness) (now : Time) : ConnEvent :=
      ⟨[peer], connectedness, now, .asIs _⟩
    let watch := (machine fun _ => false).run (start 0)
      ((List.range 32).map (fun peer => ev (.ofNat peer) .connected peer) ++
        [ev 1 .notConnected 40])
    watch.peers.keys.length = maxStablePeers ∧
      ¬Spares (fun _ => false) watch.peers (ev 32 .connected 41) ∧ [0] ∈ watch.peers.keys ∧
      [0] ∉ (watch.peers.handlePeerConnectednessChanged (fun _ => false)
        (ev 32 .connected 41)).keys := by
  unfold Spares
  decide +kernel

end StableWatch

end Peerscale.P2put
