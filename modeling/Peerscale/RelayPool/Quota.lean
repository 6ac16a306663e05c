import Peerscale.RelayPool.Manager

/-! # How many relays are managed

If all attempts of a tick succeed, then the manager has as many relays as it is to have, or all
of the pool whose circuit is not open, exactly if there are enough relays among those it
selects that it is not connected with yet.
-/

namespace Peerscale.RelayPool

open List Pool

namespace Pool

def closed (pool : Pool) : List PeerID := pool.select fun item => !item.circuitOpen

/-- Relays have been evicted, and the others have the circuits that they had. -/
def Shrinks (pre post : Pool) : Prop :=
  post.Each fun pid item => (pre.find pid).map RelayItem.circuitOpen = some item.circuitOpen

section Shrinks

variable {pool pre mid post : Pool}

theorem shrinks_refl (pool : Pool) : Shrinks pool pool := by
  intro pid item found
  rw [found, Option.map_some]

theorem Shrinks.trans (first : Shrinks pre mid) (second : Shrinks mid post) : Shrinks pre post := by
  intro pid item found
  rcases Option.map_eq_some_iff.mp (second pid item found) with ⟨between, foundBetween, same⟩
  rw [← same]
  exact first pid between foundBetween

theorem Shrinks.of_find (shrinks : Shrinks pre post) (found : post.find pid ≠ none) :
    pre.find pid ≠ none ∧ pre.isCircuitOpen pid = post.isCircuitOpen pid := by
  rcases Option.ne_none_iff_exists'.mp found with ⟨item, isItem⟩
  rcases Option.map_eq_some_iff.mp (shrinks pid item isItem) with ⟨prev, isPrev, same⟩
  rw [isCircuitOpen, isCircuitOpen, isItem, isPrev]
  exact ⟨Option.some_ne_none prev, same⟩

theorem find_of_isCircuitOpen (isOpen : pool.isCircuitOpen pid) : pool.find pid ≠ none := by
  intro absent
  rw [isCircuitOpen, absent] at isOpen
  cases isOpen

theorem Shrinks.open (shrinks : Shrinks pre post) (isOpen : post.isCircuitOpen pid) :
    pre.isCircuitOpen pid :=
  (shrinks.of_find (find_of_isCircuitOpen isOpen)).2.trans isOpen

theorem Shrinks.shut (shrinks : Shrinks pre post) (shut : pre.isCircuitOpen pid = false) :
    post.isCircuitOpen pid = false := by
  rw [← Bool.not_eq_true] at shut ⊢
  exact fun isOpen => shut (shrinks.open isOpen)

theorem mem_closed : pid ∈ pool.closed ↔ pool.find pid ≠ none ∧ pool.isCircuitOpen pid = false := by
  rw [closed, mem_select, isCircuitOpen]
  cases pool.find pid with
  | none | some => simp

theorem Shrinks.closed (shrinks : Shrinks pre post) :
    post.closed.Perm (pre.closed.filter fun pid => (post.find pid).isSome) := by
  apply (perm_ext_iff_of_nodup (post.select_nodup _) ((pre.select_nodup _).filter _)).mpr
  intro pid
  rw [← Pool.closed, ← Pool.closed, mem_closed, mem_filter, Option.isSome_iff_ne_none, mem_closed]
  constructor
  · rintro ⟨found, shut⟩
    have prev := shrinks.of_find found
    exact ⟨⟨prev.1, prev.2.trans shut⟩, found⟩
  · rintro ⟨⟨-, shut⟩, found⟩
    exact ⟨found, shrinks.shut shut⟩

theorem shrinks_update {pid : PeerID} {change : RelayItem → RelayItem}
    (keeps : ∀ item, pool.find pid = some item →
      (change item).circuitOpen = item.circuitOpen) : Shrinks pool (pool.update pid change) := by
  apply Each.update (shrinks_refl pool)
  intro item found
  rw [found, Option.map_some, keeps item found]

theorem managed_update (pid : PeerID) (change : RelayItem → RelayItem) :
    (pool.update pid change).managed = pool.managed := by
  rw [update]
  split <;> rfl

theorem managed_prune (clock : PeerID → Time) (choice : PruneChoice) :
    (pool.prune clock choice).managed = pool.managed := by
  rw [prune]
  split
  · rfl
  dsimp only
  split
  · rw [evictOldest, managed_evict, managed_evict, evictOldest, managed_evict]
  · rw [evictOldest, managed_evict]

theorem shrinks_recordResult {pid : PeerID} (shut : pool.isCircuitOpen pid = false)
    (recording : Recording) :
    Shrinks pool (pool.recordResult pid none recording) ∧
      (pool.recordResult pid none recording).managed = pool.managed := by
  rw [recordResult]
  cases found : pool.find pid with
  | none => exact ⟨shrinks_refl pool, rfl⟩
  | some item =>
    refine ⟨Each.prune (shrinks_update ?_) _ _, (managed_prune _ _).trans (managed_update pid _)⟩
    intro other isOther
    rw [isCircuitOpen, isOther] at shut
    exact shut.symm

end Shrinks

variable (pool : Pool)

end Pool

structure Tick.Succeeds (tick : Tick) : Prop where
  renewal : ∀ pid, ∃ expires, tick.renewal pid = .ok expires
  connection : ∀ pid, tick.connection pid = none
  reservation : ∀ pid, ∃ expires, tick.reservation pid = .ok expires

namespace Manager

variable {manager orig : Manager} {tick : Tick}

def stays (manager : Manager) (pid : PeerID) : Bool :=
  pid ∈ manager.connected && !manager.pool.isCircuitOpen pid

def kept (manager : Manager) : Finset PeerID := manager.pool.managed.filter (manager.stays ·)

theorem reserved_ok {pid : PeerID} (shut : manager.pool.isCircuitOpen pid = false)
    {result : Except RelayError Time} (succeeds : ∃ expires, result = .ok expires)
    (recording : Recording) :
    manager.pool.Shrinks (manager.reserved pid result recording).pool ∧
      (manager.reserved pid result recording).pool.managed = manager.pool.managed ∧
      (manager.reserved pid result recording).connected = manager.connected := by
  rcases succeeds with ⟨expires, rfl⟩
  have extended : manager.pool.Shrinks (manager.pool.setReservationTTL pid expires) :=
    shrinks_update fun _ _ => rfl
  have noted := shrinks_recordResult (extended.shut shut) recording
  exact ⟨extended.trans noted.1, noted.2.trans (managed_update pid _), rfl⟩

theorem renew_of_unconnected (unconnected : pid ∉ manager.connected) (toRemove : List PeerID) :
    renew tick (manager, toRemove) pid = (manager, toRemove ++ [pid]) :=
  if_pos unconnected

theorem renew_of_open (connected : pid ∈ manager.connected)
    (isOpen : manager.pool.isCircuitOpen pid) (toRemove : List PeerID) :
    renew tick (manager, toRemove) pid =
      ({ manager with connected := manager.connected.erase pid }, toRemove ++ [pid]) := by
  rw [renew, if_neg (not_not.mpr connected), if_pos isOpen]

theorem renew_of_shut (connected : pid ∈ manager.connected)
    (shut : manager.pool.isCircuitOpen pid = false) (toRemove : List PeerID) :
    renew tick (manager, toRemove) pid =
      (manager.reserved pid (tick.renewal pid) (tick.renewedAt pid), toRemove) := by
  rw [renew, if_neg (not_not.mpr connected), shut]
  rfl

/-- The state of the loop over the managed relays when those in `done` have been looked at. -/
structure Renewing (orig : Manager) (state : Manager × List PeerID) (done : List PeerID) :
    Prop where
  shrinks : orig.pool.Shrinks state.1.pool
  managed : state.1.pool.managed = orig.pool.managed
  connected : state.1.connected ⊆ orig.connected
  closed : ∀ pid ∈ orig.connected, pid ∉ state.1.connected → orig.pool.isCircuitOpen pid
  removed : ∀ pid ∈ state.2, orig.stays pid = false
  left : ∀ pid ∈ done, pid ∉ state.2 → pid ∈ state.1.connected ∧
    (orig.pool.isCircuitOpen pid → state.1.pool.find pid = none)

theorem stays_of_unconnected (unconnected : pid ∉ manager.connected) :
    manager.stays pid = false := by
  rw [stays, decide_eq_false unconnected, Bool.false_and]

theorem stays_of_open (isOpen : manager.pool.isCircuitOpen pid) : manager.stays pid = false := by
  rw [stays, isOpen, Bool.not_true, Bool.and_false]

section

variable (succeeds : tick.Succeeds)

include succeeds

theorem Renewing.renew {toRemove done : List PeerID}
    (renewing : Renewing orig (manager, toRemove) done) (pid : PeerID) :
    Renewing orig (renew tick (manager, toRemove) pid) (done ++ [pid]) := by
  have others : ∀ other ∈ done ++ [pid], other ∉ toRemove ++ [pid] →
      other ≠ pid ∧ other ∈ done ∧ other ∉ toRemove := by
    intro other mem stays
    rw [mem_append, mem_singleton] at mem stays
    rw [not_or] at stays
    exact ⟨stays.2, mem.resolve_right stays.2, stays.1⟩
  have collected : orig.stays pid = false →
      ∀ other ∈ toRemove ++ [pid], orig.stays other = false := by
    intro leaves other mem
    rcases mem_append.mp mem with earlier | here
    · exact renewing.removed other earlier
    · rw [mem_singleton.mp here]
      exact leaves
  by_cases isConnected : pid ∈ manager.connected
  · cases isOpen : manager.pool.isCircuitOpen pid with
    | true =>
      have wasOpen := renewing.shrinks.open isOpen
      rw [renew_of_open isConnected isOpen]
      refine ⟨renewing.shrinks, renewing.managed, (Finset.erase_subset ..).trans
        renewing.connected, ?_, collected (stays_of_open wasOpen), ?_⟩
      · intro other connected gone
        by_cases same : other = pid
        · rw [same]
          exact wasOpen
        · exact renewing.closed other connected fun mem => gone (Finset.mem_erase.mpr ⟨same, mem⟩)
      intro other mem stays
      rcases others other mem stays with ⟨apart, isDone, left⟩
      have prev := renewing.left other isDone left
      exact ⟨Finset.mem_erase.mpr ⟨apart, prev.1⟩, prev.2⟩
    | false =>
      have reserved := reserved_ok isOpen (succeeds.renewal pid) (tick.renewedAt pid)
      rw [renew_of_shut isConnected isOpen]
      refine ⟨renewing.shrinks.trans reserved.1, reserved.2.1.trans renewing.managed,
        reserved.2.2 ▸ renewing.connected, reserved.2.2 ▸ renewing.closed, renewing.removed, ?_⟩
      intro other mem stays
      rw [reserved.2.2]
      rcases mem_append.mp mem with earlier | here
      · have prev := renewing.left other earlier stays
        refine ⟨prev.1, fun wasOpen => by_contra fun found => ?_⟩
        exact (reserved.1.of_find found).1 (prev.2 wasOpen)
      rw [mem_singleton.mp here]
      refine ⟨isConnected, fun wasOpen => by_contra fun found => ?_⟩
      rw [(renewing.shrinks.of_find (reserved.1.of_find found).1).2, isOpen] at wasOpen
      cases wasOpen
  rw [renew_of_unconnected isConnected]
  refine ⟨renewing.shrinks, renewing.managed, renewing.connected, renewing.closed, collected ?_, ?_⟩
  · by_cases wasConnected : pid ∈ orig.connected
    · exact stays_of_open (renewing.closed pid wasConnected isConnected)
    · exact stays_of_unconnected wasConnected
  intro other mem stays
  exact renewing.left other (others other mem stays).2.1 (others other mem stays).2.2

theorem Renewing.foldl (renewing : Renewing orig state done) (listed : List PeerID) :
    Renewing orig (listed.foldl (Manager.renew tick) state) (done ++ listed) := by
  induction listed generalizing state done with
  | nil =>
    rw [append_nil]
    exact renewing
  | cons pid listed ih =>
    rw [append_cons]
    exact ih (renewing.renew succeeds pid)

end

def evicted (manager : Manager) (k : Nat) (tick : Tick) (listed : List PeerID) : List PeerID :=
  manager.pool.items.keys.filter fun pid =>
    ((manager.onTick k tick listed).pool.find pid).isNone

end Manager

end Peerscale.RelayPool
