import Peerscale.IrohRelay.Pool

/-! # Names of streams

Which keys and identifiers the streams of a pool have, and where the identifiers of new
ones come from.
-/

namespace Peerscale.IrohRelay

open Pool List

def Pool.names (pool : Pool) : List (PublicKey × UInt64) :=
  pool.streams.map fun stream => (stream.remote, stream.id)

def Pool.counter (pool : Pool) (r : PublicKey) : UInt64 × UInt64 :=
  ((pool.manager r).oddBit, (pool.manager r).nextID)

def newCounter (localPub remotePub : PublicKey) : UInt64 × UInt64 :=
  ((newPeerStreamManager localPub remotePub).oddBit, streamIDBase)

theorem Pool.mem_names {pool : Pool} {p : Nat} (has : pool.streams[p]? = some stream) :
    (stream.remote, stream.id) ∈ pool.names :=
  mem_map.mpr ⟨stream, mem_of_getElem? has, rfl⟩

@[simp] theorem Pool.names_enter (pool : Pool) (r : PublicKey) (sid : UInt64) :
    (pool.enter r sid).names = pool.names ++ [(r, sid)] := by
  simp [names, enter, newStream]

@[simp] theorem Pool.names_modify (pool : Pool) (p : Nat)
    (change : StreamState → StreamState) : (pool.modify p change).names = pool.names := by
  apply ext_getElem?
  intro index
  cases found : pool.streams[index]? with
  | none =>
    have beyond := getElem?_eq_none_iff.mp found
    simp [names, modify, beyond]
  | some => by_cases here : p = index <;> simp [names, modify, found, here]

@[simp] theorem Pool.names_removeStream (pool : Pool) (r : PublicKey) (sid : UInt64) :
    (pool.removeStream r sid).names = pool.names := by
  rw [removeStream]
  split <;> rfl

section

variable {pool : Pool} {r : PublicKey} {mgr : PeerStreamManager}
  (found : pool.pmap.lookup r = some mgr)

include found

theorem Pool.manager_of_lookup : pool.manager r = mgr := by
  rw [manager, found, Option.getD_some]

theorem Pool.counter_of_lookup : pool.counter r = (mgr.oddBit, mgr.nextID) := by
  rw [counter, manager_of_lookup found]

end

@[simp] theorem Pool.counter_setNextID (pool : Pool) (r : PublicKey) (nextID : UInt64) :
    (pool.setNextID r nextID).counter r = ((pool.counter r).1, nextID) := by
  have found : (pool.setNextID r nextID).pmap.lookup r =
      some { pool.manager r with nextID := nextID } := AList.lookup_insert _
  rw [counter_of_lookup found]
  rfl

@[simp] theorem Pool.counter_enter (pool : Pool) (r : PublicKey) (sid : UInt64) :
    (pool.enter r sid).counter r = pool.counter r := by
  have found : (pool.enter r sid).pmap.lookup r = some { pool.manager r with
      streams := (pool.manager r).streams.insert sid pool.streams.length } :=
    AList.lookup_insert _
  rw [counter_of_lookup found]
  rfl

@[simp] theorem Pool.counter_modify (pool : Pool) (p : Nat)
    (change : StreamState → StreamState) (r : PublicKey) :
    (pool.modify p change).counter r = pool.counter r := rfl

@[simp] theorem Pool.counter_removeStream (pool : Pool) (key r : PublicKey)
    (sid : UInt64) : (pool.removeStream key sid).counter r = pool.counter r := by
  rw [removeStream]
  split
  · rfl
  rename_i mgr has
  by_cases same : r = key
  · subst same
    have found := AList.lookup_insert (a := r)
      (b := { mgr with streams := mgr.streams.erase sid }) pool.pmap
    rw [counter_of_lookup has, counter_of_lookup found]
  · rw [counter, counter, manager, manager, AList.lookup_insert_ne same]

theorem Pool.counter_of_lookup_none {pool : Pool} (absent : pool.pmap.lookup r = none) :
    pool.counter r = newCounter pool.localPub r := by
  rw [counter, manager, absent]
  rfl

section

variable (pool : Pool) (src : PublicKey) (sid : UInt64) (flags : UInt8) (data : Bytes)

theorem Pool.counter_dispatchStreamFrame :
    (pool.dispatchStreamFrame src sid flags data).counter src = pool.counter src := by
  have ensured : (pool.ensureManager src).counter src = pool.counter src :=
    counter_setNextID pool src _
  rw [dispatchStreamFrame, dispatch]
  cases (pool.ensureManager src).find src sid with
  | some => exact ensured
  | none =>
    dsimp only
    split
    · exact ensured
    have entered := (pool.ensureManager src).counter_enter src sid
    split
    · exact entered.trans ensured
    · have removed := ((pool.ensureManager src).enter src sid).counter_removeStream src src sid
      exact (removed.trans entered).trans ensured

theorem Pool.names_dispatchStreamFrame :
    (pool.dispatchStreamFrame src sid flags data).names = pool.names ∨
      (pool.dispatchStreamFrame src sid flags data).names = pool.names ++ [(src, sid)] := by
  rw [dispatchStreamFrame, dispatch]
  cases (pool.ensureManager src).find src sid with
  | some p => exact .inl ((pool.ensureManager src).names_modify p _)
  | none =>
    dsimp only
    have entered := (pool.ensureManager src).names_enter src sid
    split
    · exact .inl rfl
    split
    · exact .inr entered
    · have removed := ((pool.ensureManager src).enter src sid).names_removeStream src sid
      exact .inr (removed.trans entered)

end

/-- What does not depend on the states of streams is, once the peer is gone, as it is
without the manager. -/
theorem Pool.observe_peerGone {Observation : Type} (observe : Pool → Observation)
    {val : Observation} {pool : Pool} {r : PublicKey}
    (absent : pool.pmap.lookup r = none → observe pool = val)
    (detached : observe (pool.detach r) = val)
    (modified : ∀ pool p change, observe (pool.modify p change) = observe pool) :
    observe (pool.peerGone r) = val := by
  rw [peerGone]
  cases has : pool.pmap.lookup r with
  | none => exact absent has
  | some mgr =>
    dsimp only
    generalize pool.detach r = start at detached
    induction mgr.streams.entries generalizing start with
    | nil => exact detached
    | cons e entries ih => exact ih _ ((modified _ _ _).trans detached)

theorem Pool.counter_peerGone (pool : Pool) (r : PublicKey) :
    (pool.peerGone r).counter r = newCounter pool.localPub r :=
  observe_peerGone (fun pool => pool.counter r) counter_of_lookup_none
    (counter_of_lookup_none (AList.lookup_erase r pool.pmap)) fun _ _ _ => rfl

theorem Pool.names_peerGone (pool : Pool) (r : PublicKey) : (pool.peerGone r).names = pool.names :=
  observe_peerGone names (fun _ => rfl) rfl names_modify

/-- The key of the endpoint stays, and its counters for another key go on or start
again; new names of that key have identifiers of `fresh`, as have the streams that are
reset. -/
structure Pool.Extends (r : PublicKey) (fresh : UInt64 → Prop) (before after : Pool) :
    Prop where
  localPub : after.localPub = before.localPub
  odd : (after.counter r).1 = (before.counter r).1 ∨
    after.counter r = newCounter before.localPub r
  names : ∀ name ∈ after.names, name ∈ before.names ∨ name.1 = r ∧ fresh name.2
  resets : ∀ entry ∈ after.resets, entry ∈ before.resets ∨ fresh entry.2

@[simp] theorem Pool.localPub_removeStream (pool : Pool) (r : PublicKey)
    (sid : UInt64) : (pool.removeStream r sid).localPub = pool.localPub := by
  rw [removeStream]
  split <;> rfl

@[simp] theorem Pool.resets_removeStream (pool : Pool) (r : PublicKey)
    (sid : UInt64) : (pool.removeStream r sid).resets = pool.resets := by
  rw [removeStream]
  split <;> rfl

theorem Pool.finish_eq_some {pool : Pool} (finished : pool.finish p change = some (stream, post)) :
    pool.streams[p]? = some stream ∧
      post = (pool.modify p change).removeStream stream.remote stream.id := by
  rw [finish, Option.map_eq_some_iff] at finished
  rcases finished with ⟨found, has, same⟩
  rw [Prod.mk.injEq] at same
  rw [← same.1]
  exact ⟨has, same.2.symm⟩

namespace Pool.Extends

theorem of_same {pre post : Pool} (localPub : post.localPub = pre.localPub)
    (counter : post.counter r = pre.counter r) (names : post.names = pre.names)
    (resets : ∀ e ∈ post.resets, e ∈ pre.resets) : Pool.Extends r fresh pre post where
  localPub := localPub
  odd := .inl (by rw [counter])
  names name mem := .inl (names ▸ mem)
  resets e mem := .inl (resets e mem)

theorem finish {pool : Pool} (finished : pool.finish p change = some (stream, post)) :
    Pool.Extends r fresh pool post := by
  rcases finish_eq_some finished with ⟨-, rfl⟩
  apply of_same
  · rw [localPub_removeStream]
    rfl
  · rw [counter_removeStream, counter_modify]
  · rw [names_removeStream, names_modify]
  intro e mem
  rw [resets_removeStream] at mem
  exact mem

theorem openStream (pool : Pool) (isFresh : fresh (pool.manager r).allocID.1) :
    Pool.Extends r fresh pool (pool.openStream r).2.2 where
  localPub := rfl
  odd := by
    left
    rw [Pool.openStream]
    rw [Pool.counter_enter, Pool.counter_setNextID]
  names name mem := by
    rw [Pool.openStream] at mem
    rw [Pool.names_enter, mem_append, mem_singleton] at mem
    rcases mem with prev | rfl
    · exact .inl prev
    · exact .inr ⟨rfl, isFresh⟩
  resets e mem := .inl mem

theorem dispatchStreamFrame (pool : Pool) (isFresh : fresh sid) (flags : UInt8) (data : Bytes) :
    Pool.Extends r fresh pool (pool.dispatchStreamFrame r sid flags data) where
  localPub := by
    rw [Pool.dispatchStreamFrame, Pool.dispatch]
    cases (pool.ensureManager r).find r sid with
    | some => rfl
    | none =>
      dsimp only
      split
      · rfl
      split
      · rfl
      · exact Pool.localPub_removeStream _ r sid
  odd := .inl (by rw [Pool.counter_dispatchStreamFrame])
  names name mem := by
    rcases pool.names_dispatchStreamFrame r sid flags data with same | added
    · rw [same] at mem
      exact .inl mem
    rw [added, mem_append, mem_singleton] at mem
    rcases mem with prev | rfl
    · exact .inl prev
    · exact .inr ⟨rfl, isFresh⟩
  resets e mem := by
    rw [Pool.dispatchStreamFrame, Pool.dispatch] at mem
    cases found : (pool.ensureManager r).find r sid with
    | some =>
      rw [found] at mem
      exact .inl mem
    | none =>
      rw [found] at mem
      dsimp only at mem
      split at mem
      · exact .inl mem
      split at mem
      · exact .inl mem
      rw [Pool.resets_removeStream, mem_append, mem_singleton] at mem
      rcases mem with prev | rfl
      · exact .inl prev
      · exact .inr isFresh

theorem peerGone (pool : Pool) : Pool.Extends r fresh pool (pool.peerGone r) where
  localPub := Pool.observe_peerGone Pool.localPub (fun _ => rfl) rfl fun _ _ _ => rfl
  odd := .inr (pool.counter_peerGone r)
  names name mem := by
    rw [Pool.names_peerGone] at mem
    exact .inl mem
  resets := by
    have same : (pool.peerGone r).resets = pool.resets :=
      Pool.observe_peerGone Pool.resets (fun _ => rfl) rfl fun _ _ _ => rfl
    intro e mem
    rw [same] at mem
    exact .inl mem

end Pool.Extends

end Peerscale.IrohRelay
