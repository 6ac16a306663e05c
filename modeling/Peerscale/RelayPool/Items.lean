import Mathlib.Data.Finset.Basic
import Mathlib.Data.List.AList
import Mathlib.Data.Rat.Lemmas
import Mathlib.Tactic
import Peerscale.Foundation.GoValue
import Peerscale.Foundation.Time

/-! # Relays of a RelayPool

A relay is on probation until it has first been used with success, and is then in main.
Results of uses and of health checks change its score, its tier and its circuit breaker.

Scores are the rational numbers that the source computes in floating point.
-/

namespace Peerscale.RelayPool

abbrev PeerID := GoString

structure Component where
  protocol : Nat
  value : GoString
  deriving DecidableEq

abbrev Multiaddr := List Component

def P_P2P : Nat := 421

/-- What go-multiaddr is assumed to return: the value of the first component of the protocol. -/
def Multiaddr.valueForProtocol (address : Multiaddr) (protocol : Nat) : Option GoString :=
  (address.find? fun component => component.protocol = protocol).map Component.value

/-- The part before the first component with a property, and the part from it on. -/
def Multiaddr.splitFunc (address : Multiaddr) (property : Component → Bool) :
    Multiaddr × Multiaddr :=
  (address.takeWhile fun component => !property component,
    address.dropWhile fun component => !property component)

/-- The relay and the address under which `Add` stores it. The text of the address has
been read already, `decode` is `peer.Decode`. -/
def addTarget (decode : GoString → Option PeerID) (address : Multiaddr) :
    Option (PeerID × Multiaddr) := do
  let pidStr ← address.valueForProtocol P_P2P
  let pid ← decode pidStr
  let (_, addr) := address.splitFunc fun component => component.protocol = P_P2P
  return (pid, addr)

def poolHighWater : Nat := 50
def poolLowWater : Nat := 40
def demoteThreshold : Nat := 3

structure WeightConfig where
  success : Rat
  latency : Rat
  dataLimit : Rat
  durationLimit : Rat
  ttl : Rat
  uptime : Rat
  deriving DecidableEq

def defaultWeights : WeightConfig where
  success := 35 / 100
  latency := 20 / 100
  dataLimit := 15 / 100
  durationLimit := 15 / 100
  ttl := 10 / 100
  uptime := 5 / 100

/-- A relay. Its `PeerID` is the key under which the pool keeps it. The counters are of type int,
and are assumed not to overflow. -/
structure RelayItem where
  addr : Multiaddr
  inMain : Bool
  successScore : Rat
  avgRTT : Duration
  limitDuration : Duration
  limitData : Int
  rateLimitHits : Nat
  consecutiveFails : Nat
  circuitOpen : Bool
  reservationExpires : Time
  connectedSince : Time
  lastResult : Time
  deriving DecidableEq

def newItem (addr : Multiaddr) (now : Time) : RelayItem where
  addr := addr
  inMain := false
  successScore := 70 / 100
  avgRTT := 0
  limitDuration := 0
  limitData := 0
  rateLimitHits := 0
  consecutiveFails := 0
  circuitOpen := false
  reservationExpires := 0
  connectedSince := now
  lastResult := 0

def ema (old newVal alpha : Rat) : Rat := alpha * newVal + (1 - alpha) * old

/-- The source truncates a float64, which can be a nanosecond less than the exact value. -/
def emaRTT (old newVal : Duration) (alpha : Rat) : Duration :=
  let value := ema old newVal alpha
  if 0 ≤ value then value.floor else value.ceil

def calcLatency (rtt : Duration) : Rat :=
  if rtt = 0 then 1 / 2
  else if rtt < 50 * millisecond then 1
  else if rtt > 2000 * millisecond then 1 / 10
  else 1 - ((rtt - 50 * millisecond : Int) : Rat) / ((1950 * millisecond : Int) : Rat) * (9 / 10)

def calcDataLimit (data : Int) : Rat :=
  if data = 0 then 1 / 2 else min ((data : Rat) / 131072) 1

def calcDurationLimit (duration : Duration) : Rat :=
  if duration = 0 then 1 / 2 else min ((duration : Rat) / ((2 * minute : Int) : Rat)) 1

def calcTTL (now expires : Time) : Rat :=
  let remaining := Time.sub expires now
  if remaining < 0 then 0
  else if remaining > 10 * minute then 1
  else (remaining : Rat) / ((10 * minute : Int) : Rat)

def calcUptime (now since : Time) : Rat :=
  let duration := Time.sub now since
  if duration > 5 * minute then 1
  else if duration < 10 * second then 3 / 10
  else 3 / 10 + ((duration - 10 * second : Int) : Rat) / ((290 * second : Int) : Rat) * (7 / 10)

def calcScore (config : WeightConfig) (now : Time) (item : RelayItem) : Rat :=
  if item.circuitOpen then 0
  else
    config.success * item.successScore + config.latency * calcLatency item.avgRTT +
      config.dataLimit * calcDataLimit item.limitData +
      config.durationLimit * calcDurationLimit item.limitDuration +
      config.ttl * calcTTL now item.reservationExpires +
      config.uptime * calcUptime now item.connectedSince

inductive ReservationStatus
  | reservationRefused
  | other
  deriving DecidableEq

/-- What `errors.Is` and `errors.As` find in an error: the reset of a stream, and a
reservation that failed. -/
structure RelayError where
  isReset : Bool
  reservation : Option ReservationStatus
  deriving DecidableEq

inductive ErrType
  | errOK
  | errRateLimited
  | errFailed
  deriving DecidableEq

def classifyError : Option RelayError → ErrType
  | none => .errOK
  | some err =>
    if err.isReset then .errRateLimited
    else if err.reservation = some .reservationRefused then .errRateLimited
    else .errFailed

def RelayItem.recordResult (item : RelayItem) (now : Time) : ErrType → RelayItem
  | .errOK =>
    { item with
      successScore := ema item.successScore 1 (3 / 10)
      consecutiveFails := 0
      circuitOpen := false
      inMain := true
      lastResult := now }
  | .errRateLimited =>
    { item with
      successScore := ema item.successScore 0 (1 / 2)
      rateLimitHits := item.rateLimitHits + 1
      lastResult := now }
  | .errFailed =>
    let consecutiveFails := item.consecutiveFails + 1
    let demoted := item.inMain && demoteThreshold ≤ consecutiveFails
    { item with
      successScore := if demoted then 70 / 100 else ema item.successScore 0 (3 / 10)
      consecutiveFails := consecutiveFails
      inMain := if demoted then false else item.inMain
      circuitOpen := if 5 ≤ consecutiveFails then true else item.circuitOpen
      lastResult := now }

def RelayItem.pinged (item : RelayItem) (rtt : Duration) : RelayItem :=
  { item with
    avgRTT := emaRTT item.avgRTT rtt (3 / 10)
    successScore := ema item.successScore 1 (3 / 10)
    consecutiveFails := 0 }

structure Pool where
  items : AList fun _ : PeerID => RelayItem
  config : WeightConfig
  protectedIDs : Finset PeerID
  managed : Finset PeerID
  lowWater : Nat
  highWater : Nat

def newRelayPool (config : WeightConfig) : Pool where
  items := ∅
  config := if config.success = 0 ∧ config.latency = 0 ∧ config.dataLimit = 0 ∧
        config.durationLimit = 0 ∧ config.ttl = 0 ∧ config.uptime = 0 then defaultWeights
    else config
  protectedIDs := ∅
  managed := ∅
  lowWater := poolLowWater
  highWater := poolHighWater

namespace Pool

def find (pool : Pool) (pid : PeerID) : Option RelayItem := pool.items.lookup pid

def size (pool : Pool) : Nat := pool.items.keys.length

def insert (pool : Pool) (pid : PeerID) (addr : Multiaddr) (now : Time) : Pool :=
  match pool.find pid with
  | some _ => pool
  | none => { pool with items := pool.items.insert pid (newItem addr now) }

def update (pool : Pool) (pid : PeerID) (change : RelayItem → RelayItem) : Pool :=
  match pool.find pid with
  | some item => { pool with items := pool.items.insert pid (change item) }
  | none => pool

def remove (pool : Pool) (pid : PeerID) : Pool :=
  { pool with
    items := pool.items.erase pid
    protectedIDs := pool.protectedIDs.erase pid
    managed := pool.managed.erase pid }

def protect (pool : Pool) (pid : PeerID) : Pool :=
  { pool with protectedIDs := Insert.insert pid pool.protectedIDs }

def unprotect (pool : Pool) (pid : PeerID) : Pool :=
  { pool with protectedIDs := pool.protectedIDs.erase pid }

/-- The relays that a round of the health check pings, in the order of an iteration. -/
def targets (pool : Pool) (connected : PeerID → Bool) : List PeerID :=
  pool.items.keys.filter fun pid =>
    (pool.find pid).any (fun item => !item.circuitOpen) && connected pid

variable (pool : Pool)

theorem update_of_find_none (absent : pool.find pid = none) (change : RelayItem → RelayItem) :
    pool.update pid change = pool := by
  rw [update, absent]

theorem find_update_self (found : pool.find pid = some item) (change : RelayItem → RelayItem) :
    (pool.update pid change).find pid = some (change item) := by
  rw [update, found]
  exact AList.lookup_insert _

theorem find_update_of_ne (apart : other ≠ pid) (change : RelayItem → RelayItem) :
    (pool.update pid change).find other = pool.find other := by
  rw [update]
  split
  · exact AList.lookup_insert_ne apart
  · rfl

theorem size_update (pid : PeerID) (change : RelayItem → RelayItem) :
    (pool.update pid change).size = pool.size := by
  rw [update]
  cases found : pool.find pid with
  | none => rfl
  | some =>
    have mem : pid ∈ pool.items.keys :=
      AList.mem_keys.mp (AList.lookup_isSome.mp (by rw [← find, found]; rfl))
    rw [size, size, AList.keys_insert, List.length_cons]
    exact @List.length_erase_add_one _ instBEqOfDecidableEq inferInstance pid _ mem

end Pool

end Peerscale.RelayPool
