import Mathlib.Data.List.AList
import Mathlib.Tactic
import Peerscale.IrohRelay.Datagram

/-! # IrohRelay pool

An endpoint's streams: one manager for each remote key, the streams the managers know,
and the queue of streams that wait to be accepted. A stream outlives its entry in a
manager, so that streams are kept apart, each at the place at which it was made, and
managers and queue name them by place.
-/

namespace Peerscale.IrohRelay

open Option

def streamIDBase : UInt64 := 1000

def acceptCapacity : Nat := 64

structure StreamState where
  rxBuf : Bytes
  closed : Bool
  reset : Bool
  deriving DecidableEq

structure Stream where
  id : UInt64
  remote : PublicKey
  state : StreamState
  deriving DecidableEq

def newStream (id : UInt64) (r : PublicKey) : Stream where
  id := id
  remote := r
  state := { rxBuf := [], closed := false, reset := false }

def StreamState.dispatch (state : StreamState) (flags : UInt8) (data : Bytes) :
    StreamState :=
  if flags = flagRESET then { state with reset := true, rxBuf := [] }
  else if flags = flagCLOSE then { state with closed := true }
  else if flags = flagDATA then { state with rxBuf := state.rxBuf ++ data }
  else state

inductive ReadResult
  | waits
  | data (bytes : Bytes)
  | eof
  | errClosed
  deriving DecidableEq

def StreamState.read (state : StreamState) (n : Nat) : ReadResult × StreamState :=
  if state.rxBuf = [] then
    if state.reset then (.errClosed, state)
    else if state.closed then (.eof, state)
    else (.waits, state)
  else (.data (state.rxBuf.take n), { state with rxBuf := state.rxBuf.drop n })

variable {n : Nat}

theorem StreamState.read_data {state : StreamState} (res : state.read n = (.data bytes, next)) :
    state = { next with rxBuf := bytes ++ next.rxBuf } := by
  rw [StreamState.read] at res
  split at res
  · split at res
    · simp at res
    · split at res <;> simp at res
  · rcases res with ⟨rfl, rfl⟩
    simp only [List.take_append_drop]

/-- The streams shared with one remote key, by identifier. The key itself is the one
under which the pool keeps the manager. -/
structure PeerStreamManager where
  oddBit : UInt64
  nextID : UInt64
  streams : AList fun _ : UInt64 => Nat
  deriving DecidableEq

def newPeerStreamManager (localPub remotePub : PublicKey) : PeerStreamManager where
  oddBit := if localPub.bytes < remotePub.bytes then 1 else 0
  nextID := streamIDBase
  streams := ∅

abbrev PeerMap := AList fun _ : PublicKey => PeerStreamManager

def PeerMap.find (pmap : PeerMap) (r : PublicKey) (sid : UInt64) : Option Nat :=
  (pmap.lookup r).bind fun manager => manager.streams.lookup sid

variable {pmap : PeerMap}

theorem PeerMap.find_of_lookup (found : pmap.lookup r = some mgr) (sid : UInt64) :
    pmap.find r sid = mgr.streams.lookup sid := by
  rw [PeerMap.find, found, bind_some]

theorem PeerMap.find_of_lookup_none (absent : pmap.lookup r = none) (sid : UInt64) :
    pmap.find r sid = none := by
  rw [PeerMap.find, absent, bind_none]

theorem PeerMap.find_insert (pmap : PeerMap) (r : PublicKey)
    (mgr : PeerStreamManager) (sid : UInt64) :
    PeerMap.find (pmap.insert r mgr) r sid = mgr.streams.lookup sid :=
  PeerMap.find_of_lookup (AList.lookup_insert pmap) sid

theorem PeerMap.find_insert_ne (pmap : PeerMap) (mgr : PeerStreamManager)
    (apart : other ≠ r) (sid : UInt64) :
    PeerMap.find (pmap.insert r mgr) other sid = pmap.find other sid := by
  rw [PeerMap.find, PeerMap.find, AList.lookup_insert_ne apart]

theorem PeerMap.find_insert_same {mgr : PeerStreamManager}
    (same : ∀ sid, mgr.streams.lookup sid = pmap.find r sid) (other : PublicKey)
    (sid : UInt64) : PeerMap.find (pmap.insert r mgr) other sid = pmap.find other sid := by
  by_cases apart : other = r
  · rw [apart, PeerMap.find_insert, same]
  · exact PeerMap.find_insert_ne pmap mgr apart sid

/-- An endpoint. Each stream that a manager knows is there, under the identifier and the
key the manager knows it by. `resets` are the `RESET` frames that goroutines have been
started to send. -/
structure Pool where
  localPub : PublicKey
  pmap : PeerMap
  streams : List Stream
  acceptCh : List Nat
  resets : List (PublicKey × UInt64)
  known : ∀ r sid place, pmap.find r sid = some place →
    ∃ state, streams[place]? = some ⟨sid, r, state⟩

def newPool (localPub : PublicKey) : Pool where
  localPub := localPub
  pmap := ∅
  streams := []
  acceptCh := []
  resets := []
  known := by
    intro r sid place found
    rw [PeerMap.find_of_lookup_none (AList.lookup_empty r)] at found
    cases found

def Pool.find (pool : Pool) (r : PublicKey) (sid : UInt64) : Option Nat :=
  pool.pmap.find r sid

def Pool.manager (pool : Pool) (r : PublicKey) : PeerStreamManager :=
  (pool.pmap.lookup r).getD (newPeerStreamManager pool.localPub r)

theorem Pool.lookup_manager (pool : Pool) (r : PublicKey) (sid : UInt64) :
    (pool.manager r).streams.lookup sid = pool.pmap.find r sid := by
  rw [Pool.manager]
  cases found : pool.pmap.lookup r with
  | none => rw [PeerMap.find_of_lookup_none found]; rfl
  | some => rw [PeerMap.find_of_lookup found]; rfl

def Pool.setNextID (pool : Pool) (r : PublicKey) (nextID : UInt64) : Pool :=
  { pool with
    pmap := pool.pmap.insert r { pool.manager r with nextID := nextID }
    known := by
      intro other sid place found
      rw [PeerMap.find_insert_same] at found
      · exact pool.known other sid place found
      · exact pool.lookup_manager r }

def Pool.enter (pool : Pool) (r : PublicKey) (sid : UInt64) : Pool :=
  { pool with
    pmap := pool.pmap.insert r
      { pool.manager r with
        streams := (pool.manager r).streams.insert sid pool.streams.length }
    streams := pool.streams ++ [newStream sid r]
    known := by
      intro other id place found
      have earlier : pool.pmap.find other id = some place →
          ∃ state, (pool.streams ++ [newStream sid r])[place]? = some ⟨id, other, state⟩ := by
        intro pre
        rcases pool.known other id place pre with ⟨state, present⟩
        refine ⟨state, ?_⟩
        rw [List.getElem?_append_left (List.getElem?_eq_some_iff.mp present).1, present]
      by_cases sameKey : other = r
      · rw [sameKey, PeerMap.find_insert] at found
        by_cases sameId : id = sid
        · rw [sameId, AList.lookup_insert, Option.some.injEq] at found
          refine ⟨(newStream sid r).state, ?_⟩
          rw [← found, List.getElem?_concat_length, sameKey, sameId]
          rfl
        · rw [AList.lookup_insert_ne sameId, pool.lookup_manager, ← sameKey] at found
          exact earlier found
      · rw [PeerMap.find_insert_ne _ _ sameKey] at found
        exact earlier found }

def Pool.removeStream (pool : Pool) (r : PublicKey) (sid : UInt64) : Pool :=
  match present : pool.pmap.lookup r with
  | none => pool
  | some manager =>
    { pool with
      pmap := pool.pmap.insert r { manager with streams := manager.streams.erase sid }
      known := by
        intro other id place found
        apply pool.known other id place
        by_cases sameKey : other = r
        · rw [sameKey, PeerMap.find_insert] at found
          by_cases sameId : id = sid
          · rw [sameId, AList.lookup_erase] at found
            cases found
          · rw [AList.lookup_erase_ne sameId] at found
            rw [sameKey, PeerMap.find_of_lookup present, found]
        · rw [PeerMap.find_insert_ne _ _ sameKey] at found
          exact found }

def Pool.modify (pool : Pool) (place : Nat) (change : StreamState → StreamState) : Pool :=
  { pool with
    streams := pool.streams.modify place fun stream => { stream with state := change stream.state }
    known := by
      intro other id position found
      rcases pool.known other id position found with ⟨state, present⟩
      rw [List.getElem?_modify, present]
      by_cases here : place = position
      · exact ⟨change state, by simp [here]⟩
      · exact ⟨state, by simp [here]⟩ }

def Pool.detach (pool : Pool) (r : PublicKey) : Pool :=
  { pool with
    pmap := pool.pmap.erase r
    known := by
      intro other id place found
      apply pool.known other id place
      by_cases sameKey : other = r
      · rw [sameKey, PeerMap.find_of_lookup_none (AList.lookup_erase _ _)] at found
        cases found
      · rw [PeerMap.find, AList.lookup_erase_ne sameKey] at found
        exact found }

def PeerStreamManager.allocID (manager : PeerStreamManager) : UInt64 × UInt64 :=
  (manager.nextID ||| manager.oddBit, manager.nextID + 2)

def Pool.ensureManager (pool : Pool) (r : PublicKey) : Pool :=
  pool.setNextID r (pool.manager r).nextID

def Pool.openStream (pool : Pool) (r : PublicKey) : Stream × Nat × Pool :=
  let (sid, nextID) := (pool.manager r).allocID
  (newStream sid r, pool.streams.length, (pool.setNextID r nextID).enter r sid)

def Pool.acceptStream (pool : Pool) : Option (Nat × Pool) :=
  match pool.acceptCh with
  | [] => none
  | place :: rest => some (place, { pool with acceptCh := rest })

def Pool.read (pool : Pool) (place n : Nat) : Option (ReadResult × Pool) :=
  pool.streams[place]?.map fun stream =>
    ((stream.state.read n).1, pool.modify place fun state => (state.read n).2)

/-- What `Close` and `Reset` do at their own end: the stream changes and its manager
forgets it. -/
def Pool.finish (pool : Pool) (place : Nat) (change : StreamState → StreamState) :
    Option (Stream × Pool) :=
  pool.streams[place]?.map fun stream =>
    (stream, (pool.modify place change).removeStream stream.remote stream.id)

/-- `Close`, unless the stream has been closed at either end already. -/
def Pool.close (pool : Pool) (place : Nat) : Option (Stream × Pool) :=
  if (pool.streams[place]?.map fun stream => stream.state.closed) = some true then none
  else pool.finish place fun state => { state with closed := true }

def Pool.reset (pool : Pool) (place : Nat) : Option (Stream × Pool) :=
  pool.finish place fun state => { state with reset := true, rxBuf := [] }

/-- A frame reaches the manager. A stream that is not known is made by its first data
frame; what that frame carries goes nowhere. -/
def Pool.dispatch (pool : Pool) (r : PublicKey) (sid : UInt64) (flags : UInt8)
    (data : Bytes) : Pool :=
  match pool.find r sid with
  | none =>
    if flags ≠ flagDATA then pool
    else
      let entered := pool.enter r sid
      if entered.acceptCh.length < acceptCapacity then
        { entered with acceptCh := entered.acceptCh ++ [pool.streams.length] }
      else
        let removed := entered.removeStream r sid
        { removed with resets := removed.resets ++ [(r, sid)] }
  | some place => pool.modify place fun state => state.dispatch flags data

def Pool.dispatchStreamFrame (pool : Pool) (src : PublicKey) (sid : UInt64)
    (flags : UInt8) (data : Bytes) : Pool :=
  (pool.ensureManager src).dispatch src sid flags data

def Pool.peerGone (pool : Pool) (key : PublicKey) : Pool :=
  match pool.pmap.lookup key with
  | none => pool
  | some manager =>
    manager.streams.entries.foldl
      (fun pool entry => pool.modify entry.2 fun state => state.dispatch flagRESET [])
      (pool.detach key)

def Pool.receive (pool : Pool) (message : Bytes) : Pool :=
  match readMessage message with
  | .datagram datagram =>
    pool.dispatchStreamFrame datagram.src datagram.sid datagram.flags datagram.data
  | .endpointGone key => pool.peerGone key
  | .ignored => pool

variable {place : Nat} {pool : Pool} {stream : Stream}

@[simp] theorem Pool.find_ensureManager (pool : Pool) (key r : PublicKey)
    (sid : UInt64) : (pool.ensureManager key).find r sid = pool.find r sid :=
  PeerMap.find_insert_same (fun id => pool.lookup_manager key id) r sid

@[simp] theorem Pool.find_enter (pool : Pool) (r : PublicKey) (sid : UInt64) :
    (pool.enter r sid).find r sid = some pool.streams.length := by
  rw [Pool.find, Pool.enter]
  exact (PeerMap.find_insert _ _ _ _).trans (AList.lookup_insert _)

theorem Pool.lookup_modify (has : pool.streams[place]? = some stream)
    (change : StreamState → StreamState) :
    (pool.modify place change).streams[place]? =
      some { stream with state := change stream.state } := by
  simp [Pool.modify, has]

theorem Pool.dispatchStreamFrame_of_known (known : pool.find src sid = some place) (flags : UInt8)
    (data : Bytes) :
    pool.dispatchStreamFrame src sid flags data =
      (pool.ensureManager src).modify place fun state => state.dispatch flags data := by
  rw [Pool.dispatchStreamFrame, Pool.dispatch, Pool.find_ensureManager, known]

theorem Pool.dispatchStreamFrame_of_unknown (unknown : pool.find src sid = none)
    (room : pool.acceptCh.length < acceptCapacity) (data : Bytes) :
    pool.dispatchStreamFrame src sid flagDATA data =
      { (pool.ensureManager src).enter src sid with
        acceptCh := pool.acceptCh ++ [pool.streams.length] } := by
  rw [Pool.dispatchStreamFrame, Pool.dispatch, Pool.find_ensureManager, unknown]
  exact if_pos room

theorem Pool.acceptStream_eq_some (accepted : pool.acceptStream = some (place, post)) :
    ∃ rest, pool.acceptCh = place :: rest ∧ post = { pool with acceptCh := rest } := by
  rw [Pool.acceptStream] at accepted
  split at accepted
  · cases accepted
  rename_i x rest waiting
  rw [some.injEq, Prod.mk.injEq] at accepted
  exact ⟨rest, by rw [waiting, accepted.1], accepted.2.symm⟩

theorem Pool.read_eq_some (ran : pool.read place n = some (res, post)) :
    ∃ stream, pool.streams[place]? = some stream ∧ (stream.state.read n).1 = res ∧
      post = pool.modify place fun state => (state.read n).2 := by
  rw [Pool.read, map_eq_some_iff] at ran
  rcases ran with ⟨stream, has, ran⟩
  rw [Prod.mk.injEq] at ran
  exact ⟨stream, has, ran.1, ran.2.symm⟩

theorem Pool.read_of_present (pool : Pool) (has : pool.streams[place]? = some stream) (n : Nat) :
    pool.read place n = some ((stream.state.read n).1,
      pool.modify place fun state => (state.read n).2) := by
  rw [Pool.read, has, map_some]

theorem Pool.read_data (has : pool.streams[place]? = some stream)
    (ran : pool.read place n = some (.data bytes, post)) :
    ∃ next, post.streams[place]? = some { stream with state := next } ∧
      stream.state.rxBuf = bytes ++ next.rxBuf := by
  rcases Pool.read_eq_some ran with ⟨found, foundHere, outcome, rfl⟩
  obtain rfl : stream = found := some.inj (has.symm.trans foundHere)
  refine ⟨(stream.state.read n).2, pool.lookup_modify has _, ?_⟩
  have taken : stream.state.read n = (.data bytes, (stream.state.read n).2) := Prod.ext outcome rfl
  exact congrArg StreamState.rxBuf (StreamState.read_data taken)

theorem Pool.read_elsewhere (ran : pool.read pos n = some (res, post))
    (apart : place ≠ pos) : post.streams[place]? = pool.streams[place]? := by
  rcases Pool.read_eq_some ran with ⟨stream, has, -, rfl⟩
  simp [Pool.modify, Ne.symm apart]

theorem Pool.read_identity (ran : pool.read pos n = some (res, post))
    (has : post.streams[place]? = some ⟨sid, r, state⟩) :
    ∃ prev, pool.streams[place]? = some ⟨sid, r, prev⟩ := by
  by_cases here : place = pos
  · rcases Pool.read_eq_some ran with ⟨stream, found, -, rfl⟩
    rw [here, pool.lookup_modify found, some.injEq, Stream.mk.injEq] at has
    obtain ⟨rfl, rfl, -⟩ := has
    exact ⟨stream.state, here ▸ found⟩
  · exact ⟨state, (Pool.read_elsewhere ran here).symm.trans has⟩

theorem Pool.length_read (ran : pool.read place n = some (res, post)) :
    place < pool.streams.length ∧ post.streams.length = pool.streams.length := by
  rcases Pool.read_eq_some ran with ⟨stream, found, -, rfl⟩
  exact ⟨(List.getElem?_eq_some_iff.mp found).1, List.length_modify _ _ _⟩

theorem Pool.find_read (ran : pool.read place n = some (res, post)) (r : PublicKey)
    (sid : UInt64) : post.find r sid = pool.find r sid := by
  rcases Pool.read_eq_some ran with ⟨stream, has, -, rfl⟩
  rfl

/-! ## What does not concern a stream -/

/-- The streams of a key with an identifier are known, waiting and in the state they
were in. -/
structure Undisturbed (r : PublicKey) (sid : UInt64) (pre after : Pool) : Prop where
  find : after.find r sid = pre.find r sid
  streams : ∀ (place : Nat) (state : StreamState),
    after.streams[place]? = some ⟨sid, r, state⟩ ↔ pre.streams[place]? = some ⟨sid, r, state⟩
  queued : ∀ place ∈ pre.acceptCh, place ∈ after.acceptCh
  grown : pre.streams.length ≤ after.streams.length

namespace Undisturbed

variable {r : PublicKey} {sid : UInt64} {pre : Pool} {id : UInt64} {key : PublicKey}

theorem refl (pool : Pool) : Undisturbed r sid pool pool :=
  ⟨rfl, fun _ _ => Iff.rfl, fun _ mem => mem, Nat.le_refl _⟩

theorem trans (before : Undisturbed r sid pre mid)
    (after : Undisturbed r sid mid post) : Undisturbed r sid pre post where
  find := after.find.trans before.find
  streams place state := (after.streams place state).trans (before.streams place state)
  queued place mem := after.queued place (before.queued place mem)
  grown := before.grown.trans after.grown

theorem ensureManager (pool : Pool) (key : PublicKey) :
    Undisturbed r sid pool (pool.ensureManager key) :=
  ⟨pool.find_ensureManager key r sid, fun _ _ => Iff.rfl, fun _ mem => mem, Nat.le_refl _⟩

theorem enter (pool : Pool) (apart : ¬(key = r ∧ id = sid)) :
    Undisturbed r sid pool (pool.enter key id) where
  find := by
    by_cases sameKey : r = key
    · have otherId : sid ≠ id := fun same => apart ⟨sameKey.symm, same.symm⟩
      rw [Pool.find, Pool.enter, sameKey]
      refine (PeerMap.find_insert _ _ _ _).trans ?_
      exact (AList.lookup_insert_ne otherId).trans (pool.lookup_manager key sid)
    · exact PeerMap.find_insert_ne _ _ sameKey sid
  streams place state := by
    show (pool.streams ++ [newStream id key])[place]? = _ ↔ _
    rcases Nat.lt_trichotomy place pool.streams.length with pre | rfl | beyond
    · rw [List.getElem?_append_left pre]
    · rw [List.getElem?_concat_length, List.getElem?_eq_none (Nat.le_refl _)]
      refine iff_of_false ?_ (by simp)
      intro made
      simp only [newStream, some.injEq, Stream.mk.injEq] at made
      exact apart ⟨made.2.1, made.1⟩
    · rw [List.getElem?_eq_none (by simpa using beyond), List.getElem?_eq_none beyond.le]
  queued _ mem := mem
  grown := by simp [Pool.enter]

theorem removeStream (pool : Pool) (apart : ¬(key = r ∧ id = sid)) :
    Undisturbed r sid pool (pool.removeStream key id) := by
  rw [Pool.removeStream]
  split
  · exact refl pool
  rename_i mgr has
  refine ⟨?_, fun _ _ => Iff.rfl, fun _ mem => mem, Nat.le_refl _⟩
  by_cases sameKey : r = key
  · have otherId : sid ≠ id := fun same => apart ⟨sameKey.symm, same.symm⟩
    rw [Pool.find, Pool.find, sameKey, PeerMap.find_of_lookup has]
    exact (PeerMap.find_insert _ _ _ _).trans (AList.lookup_erase_ne otherId)
  · exact PeerMap.find_insert_ne _ _ sameKey sid

theorem modify (pool : Pool) (has : pool.streams[place]? = some ⟨id, key, state⟩)
    (apart : ¬(key = r ∧ id = sid)) (change : StreamState → StreamState) :
    Undisturbed r sid pool (pool.modify place change) where
  find := rfl
  streams pos other := by
    by_cases here : pos = place
    · rw [here, pool.lookup_modify has, has]
      simp only [some.injEq, Stream.mk.injEq]
      exact iff_of_false (fun same => apart ⟨same.2.1, same.1⟩)
        (fun same => apart ⟨same.2.1, same.1⟩)
    · simp [Pool.modify, Ne.symm here]
  queued _ mem := mem
  grown := by simp [Pool.modify]

theorem dispatch (pool : Pool) (apart : ¬(key = r ∧ id = sid)) (flags : UInt8) (data : Bytes) :
    Undisturbed r sid pool (pool.dispatch key id flags data) := by
  rw [Pool.dispatch]
  cases found : pool.find key id with
  | none =>
    by_cases isData : flags = flagDATA
    · have entered := enter pool apart
      simp only [isData, ne_eq, not_true, if_false]
      split
      · refine ⟨entered.find, entered.streams, ?_, entered.grown⟩
        intro place mem
        exact List.mem_append_left _ (entered.queued place mem)
      · have removed := entered.trans (removeStream (pool.enter key id) apart)
        exact ⟨removed.find, removed.streams, removed.queued, removed.grown⟩
    · simp only [ne_eq, isData, not_false_eq_true, if_true]
      exact refl pool
  | some place =>
    rcases pool.known key id place found with ⟨state, has⟩
    exact modify pool has apart _

theorem detach (pool : Pool) (apart : key ≠ r) : Undisturbed r sid pool (pool.detach key) := by
  refine ⟨?_, fun _ _ => Iff.rfl, fun _ mem => mem, Nat.le_refl _⟩
  rw [Pool.find, Pool.find, Pool.detach, PeerMap.find, PeerMap.find,
    AList.lookup_erase_ne apart.symm]

theorem resetAll (entries : List (Sigma fun _ : UInt64 => Nat)) (pool : Pool) (apart : key ≠ r)
    (owned : ∀ e ∈ entries, ∃ id state, pool.streams[e.2]? = some ⟨id, key, state⟩) :
    Undisturbed r sid pool (entries.foldl
      (fun pool e => pool.modify e.2 fun state => state.dispatch flagRESET []) pool) := by
  induction entries generalizing pool with
  | nil => exact refl pool
  | cons e entries ih =>
    rw [List.foldl_cons]
    rcases owned e List.mem_cons_self with ⟨id, state, has⟩
    refine (modify pool has (fun same => apart same.1) _).trans (ih _ ?_)
    intro other mem
    rcases owned other (List.mem_cons_of_mem e mem) with ⟨otherId, otherState, held⟩
    by_cases here : other.2 = e.2
    · rw [here, pool.lookup_modify has]
      exact ⟨id, _, rfl⟩
    · refine ⟨otherId, otherState, ?_⟩
      simp [Pool.modify, Ne.symm here, held]

theorem peerGone (pool : Pool) (apart : key ≠ r) : Undisturbed r sid pool (pool.peerGone key) := by
  rw [Pool.peerGone]
  cases has : pool.pmap.lookup key with
  | none => exact refl pool
  | some mgr =>
    refine (detach pool apart).trans (resetAll _ _ apart ?_)
    intro e mem
    have listed : mgr.streams.lookup e.1 = some e.2 := AList.mem_lookup_iff.mpr mem
    rw [← PeerMap.find_of_lookup has] at listed
    rcases pool.known key e.1 e.2 listed with ⟨state, held⟩
    exact ⟨e.1, state, held⟩

end Undisturbed

def Foreign (r : PublicKey) (sid : UInt64) (message : Bytes) : Prop :=
  match readMessage message with
  | .datagram datagram => ¬(datagram.src = r ∧ datagram.sid = sid)
  | .endpointGone key => key ≠ r
  | .ignored => True

theorem Undisturbed.receive (pool : Pool) {r : PublicKey} {sid : UInt64}
    {msg : Bytes} (foreign : Foreign r sid msg) : Undisturbed r sid pool (pool.receive msg) := by
  rw [Foreign] at foreign
  rw [Pool.receive]
  cases arr : readMessage msg with
  | datagram =>
    rw [arr] at foreign
    exact (Undisturbed.ensureManager pool _).trans
      (Undisturbed.dispatch (pool.ensureManager _) foreign _ _)
  | endpointGone =>
    rw [arr] at foreign
    exact Undisturbed.peerGone pool foreign
  | ignored => exact Undisturbed.refl pool

end Peerscale.IrohRelay
