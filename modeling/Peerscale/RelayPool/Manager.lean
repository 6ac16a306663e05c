import Peerscale.RelayPool.Prune

/-! # The manager of a RelayPool

`relayPoolManager` holds reservations with a number of relays of the pool. Once a minute it
renews those of the relays that it is still connected with, gives up the others, and looks for
new ones among the best relays of the pool.
-/

namespace Peerscale.RelayPool

structure AddrInfo where
  id : PeerID
  addr : Multiaddr
  deriving DecidableEq

/-- What a call of `RecordResult` meets: its time, and the clock and the orders of its
`prune`. -/
structure Recording where
  now : Time
  clock : PeerID → Time
  choice : PruneChoice

namespace Pool

variable (pool : Pool)

def isCircuitOpen (pid : PeerID) : Bool := (pool.find pid).any RelayItem.circuitOpen

def addManaged (pids : List PeerID) : Pool :=
  { pool with managed := pool.managed ∪ pids.toFinset }

def removeManaged (pids : List PeerID) : Pool :=
  { pool with managed := pool.managed \ pids.toFinset }

def setReservationTTL (pid : PeerID) (expires : Time) : Pool :=
  pool.update pid fun item => { item with reservationExpires := expires }

def recordResult (pid : PeerID) (err : Option RelayError) (recording : Recording) : Pool :=
  match pool.find pid with
  | none => pool
  | some _ =>
    (pool.update pid fun item => item.recordResult recording.now (classifyError err)).prune
      recording.clock recording.choice

def scoredEntries (clock : PeerID → Time) : List (AddrInfo × Rat) :=
  pool.items.keys.filterMap fun pid =>
    match pool.find pid with
    | none => none
    | some item =>
      if item.circuitOpen then none
      else some (⟨pid, item.addr⟩, calcScore pool.config (clock pid) item)

def selectN (clock : PeerID → Time) (shuffle : Shuffle (AddrInfo × Rat)) (n : Nat) :
    List AddrInfo :=
  ((shuffle.sortSlice (fun first second => first.2 > second.2)
    (pool.scoredEntries clock)).take n).map Prod.fst

end Pool

structure Manager where
  pool : Pool
  connected : Finset PeerID

structure Tick where
  renewal : PeerID → Except RelayError Time
  renewedAt : PeerID → Recording
  clock : PeerID → Time
  order : Shuffle (AddrInfo × Rat)
  connection : PeerID → Option RelayError
  connectedAt : PeerID → Recording
  reservation : PeerID → Except RelayError Time
  reservedAt : PeerID → Recording

namespace Manager

variable (mgr : Manager)

def reserved (pid : PeerID) (result : Except RelayError Time) (recording : Recording) : Manager :=
  match result with
  | .error err => { mgr with pool := mgr.pool.recordResult pid (some err) recording }
  | .ok expires =>
    { mgr with
      pool := (mgr.pool.setReservationTTL pid expires).recordResult pid none recording }

/-- One turn of the loop over the managed relays, which also collects those to give up. -/
def renew (tick : Tick) (state : Manager × List PeerID) (pid : PeerID) : Manager × List PeerID :=
  let (mgr, toRemove) := state
  if pid ∉ mgr.connected then (mgr, toRemove ++ [pid])
  else if mgr.pool.isCircuitOpen pid then
    -- `ClosePeer`
    ({ mgr with connected := mgr.connected.erase pid }, toRemove ++ [pid])
  else (mgr.reserved pid (tick.renewal pid) (tick.renewedAt pid), toRemove)

def doRelayReserve (tick : Tick) (ai : AddrInfo) : Manager :=
  match tick.connection ai.id with
  | some err =>
    { mgr with
      pool := mgr.pool.recordResult ai.id (some err) (tick.connectedAt ai.id) }
  | none =>
    { pool := mgr.pool.recordResult ai.id none (tick.connectedAt ai.id)
      connected := insert ai.id mgr.connected : Manager }.reserved ai.id
        (tick.reservation ai.id) (tick.reservedAt ai.id)

def recruit (tick : Tick) (ai : AddrInfo) : Manager :=
  if ai.id ∈ mgr.connected then mgr
  else { mgr with pool := mgr.pool.addManaged [ai.id] }.doRelayReserve tick ai

def selected (k : Nat) (tick : Tick) : List AddrInfo :=
  mgr.pool.selectN tick.clock tick.order (k - mgr.pool.managed.card)

def refill (k : Nat) (tick : Tick) : Manager :=
  if mgr.pool.managed.card < k then
    (mgr.selected k tick).foldl (fun mgr ai => mgr.recruit tick ai) mgr
  else mgr

/-- The managed relays that are still good keep their place. `listed` are the managed relays
in the order of `ListManaged`. -/
def renewed (tick : Tick) (listed : List PeerID) : Manager :=
  let (mgr, toRemove) := listed.foldl (renew tick) (mgr, [])
  { mgr with pool := mgr.pool.removeManaged toRemove }

def onTick (k : Nat) (tick : Tick) (listed : List PeerID) : Manager :=
  (mgr.renewed tick listed).refill k tick

def start (k : Nat) (tick : Tick) : Manager :=
  let initial := mgr.pool.selectN tick.clock tick.order k
  initial.foldl (fun mgr ai => mgr.doRelayReserve tick ai)
    { mgr with pool := mgr.pool.addManaged (initial.map AddrInfo.id) }

end Manager

end Peerscale.RelayPool
