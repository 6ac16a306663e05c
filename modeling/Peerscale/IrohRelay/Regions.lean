import Peerscale.Foundation.Machine
import Peerscale.IrohRelay.Pool

/-! # Calls of an endpoint

The calls of an endpoint as goroutines. A region under `peerMu` or under the lock of a manager
is one step, as is each use of a counter, a channel or the lock of a stream. A call looks up a
manager in one step and uses it in another, when the pool may have dropped it; managers are
kept at the place at which they were made.
-/

namespace Peerscale.IrohRelay

open List Option AList Nat

/-- The managers that have been made with their `remotePub`, the one that `pmap` has for a key,
and the streams that have been made. -/
structure Registry where
  localPub : PublicKey
  managers : List (PublicKey × PeerStreamManager)
  pmap : AList fun _ : PublicKey => Nat
  streams : List Stream

namespace Registry

variable (reg : Registry)

def owner (mgr : Nat) : Option PublicKey := reg.managers[mgr]?.map Prod.fst

def entry (mgr : Nat) (sid : UInt64) : Option Nat :=
  reg.managers[mgr]?.bind fun manager => manager.2.streams.lookup sid

def find (r : PublicKey) (sid : UInt64) : Option Nat :=
  (reg.pmap.lookup r).bind fun mgr => reg.entry mgr sid

def modifyManager (mgr : Nat) (change : PeerStreamManager → PeerStreamManager) : Registry :=
  { reg with
    managers := reg.managers.modify mgr fun manager => (manager.1, change manager.2) }

def getManager (r : PublicKey) : Nat × Registry :=
  match reg.pmap.lookup r with
  | some mgr => (mgr, reg)
  | none =>
    (reg.managers.length,
      { reg with
        managers := reg.managers ++ [(r, newPeerStreamManager reg.localPub r)]
        pmap := reg.pmap.insert r reg.managers.length })

def allocID (mgr : Nat) : UInt64 × Registry :=
  match reg.managers[mgr]? with
  | none => (0, reg)
  | some manager =>
    (manager.2.allocID.1,
      reg.modifyManager mgr fun manager => { manager with nextID := manager.allocID.2 })

def addStream (sid : UInt64) (r : PublicKey) : Registry :=
  { reg with streams := reg.streams ++ [newStream sid r] }

/-- A new stream is entered, in place of the one that the manager had under its identifier. -/
def enter (mgr : Nat) (r : PublicKey) (sid : UInt64) : Registry :=
  (reg.addStream sid r).modifyManager mgr fun manager =>
    { manager with streams := manager.streams.insert sid reg.streams.length }

def forget (mgr : Nat) (sid : UInt64) : Registry :=
  reg.modifyManager mgr fun manager => { manager with streams := manager.streams.erase sid }

/-- The manager that the pool has now forgets the identifier, whatever stream it is of. -/
def removeStream (r : PublicKey) (sid : UInt64) : Registry :=
  match reg.pmap.lookup r with
  | none => reg
  | some mgr => reg.forget mgr sid

def detach (r : PublicKey) : Registry :=
  { reg with pmap := reg.pmap.erase r }

/-- The streams of a manager, in the order of the map, which is not specified. -/
def places (mgr : Nat) : List Nat :=
  match reg.managers[mgr]? with
  | none => []
  | some manager => manager.2.streams.entries.map fun entry => entry.2

def clear (mgr : Nat) : Registry :=
  reg.modifyManager mgr fun manager => { manager with streams := ∅ }

def modify (p : Nat) (change : StreamState → StreamState) : Registry :=
  { reg with
    streams := reg.streams.modify p fun stream => { stream with state := change stream.state } }

end Registry

inductive StreamTask
  /-- `OpenStream`: before it looks up the manager, before it takes an identifier, before it
  enters the stream, and before it returns it -/
  | openStream (r : PublicKey)
  | allocate (r : PublicKey) (mgr : Nat)
  | enter (r : PublicKey) (mgr : Nat) (sid : UInt64)
  | opened (p : Nat)
  /-- `dispatchStreamFrame`: before it looks up the manager, in the region of `dispatch`, before
  it offers a new stream, before it takes it back, and before it hands over to the stream -/
  | frame (src : PublicKey) (sid : UInt64) (flags : UInt8) (data : Bytes)
  | dispatch (src : PublicKey) (mgr : Nat) (sid : UInt64) (flags : UInt8) (data : Bytes)
  | offer (src : PublicKey) (mgr : Nat) (sid : UInt64) (p : Nat)
  | withdraw (src : PublicKey) (mgr : Nat) (sid : UInt64)
  | deliver (p : Nat) (flags : UInt8) (data : Bytes)
  /-- `peerGone`: before it drops the manager, before it empties it, and with the streams that
  are still to be reset -/
  | peerGone (key : PublicKey)
  | clear (mgr : Nat)
  | resetAll (places : List Nat)
  /-- `Close` and `Reset`, and `removeStream` after them -/
  | close (p : Nat)
  | reset (p : Nat)
  | remove (r : PublicKey) (sid : UInt64)
  | returned
  deriving DecidableEq

/-- An endpoint with its calls. `handed` are the streams that `OpenStream` has returned or that
have been queued for `AcceptStream`. -/
structure Endpoint where
  registry : Registry
  acceptCh : List Nat
  handed : List Nat
  tasks : List StreamTask

def newEndpoint (localPub : PublicKey) : Endpoint where
  registry := { localPub := localPub, managers := [], pmap := ∅, streams := [] }
  acceptCh := []
  handed := []
  tasks := []

namespace Endpoint

/-- One step of a call, and where it is then. `choice` tells which stream is reset next. -/
def advance (endpoint : Endpoint) (choice : Nat) : StreamTask → Endpoint × StreamTask
  | .openStream r =>
    ({ endpoint with registry := (endpoint.registry.getManager r).2 },
      .allocate r (endpoint.registry.getManager r).1)
  | .allocate r mgr =>
    ({ endpoint with registry := (endpoint.registry.allocID mgr).2 },
      .enter r mgr (endpoint.registry.allocID mgr).1)
  | .enter r mgr sid =>
    ({ endpoint with registry := endpoint.registry.enter mgr r sid },
      .opened endpoint.registry.streams.length)
  | .opened p => ({ endpoint with handed := endpoint.handed ++ [p] }, .returned)
  | .frame src sid flags data =>
    ({ endpoint with registry := (endpoint.registry.getManager src).2 },
      .dispatch src (endpoint.registry.getManager src).1 sid flags data)
  | .dispatch src mgr sid flags data =>
    match endpoint.registry.entry mgr sid with
    | none =>
      if flags ≠ flagDATA then (endpoint, .returned)
      else
        ({ endpoint with registry := endpoint.registry.enter mgr src sid },
          .offer src mgr sid endpoint.registry.streams.length)
    | some p => (endpoint, .deliver p flags data)
  | .offer src mgr sid p =>
    if endpoint.acceptCh.length < acceptCapacity then
      ({ endpoint with
        acceptCh := endpoint.acceptCh ++ [p]
        handed := endpoint.handed ++ [p] }, .returned)
    else (endpoint, .withdraw src mgr sid)
  | .withdraw _ mgr sid =>
    ({ endpoint with registry := endpoint.registry.forget mgr sid }, .returned)
  | .deliver p flags data =>
    ({ endpoint with
      registry := endpoint.registry.modify p fun state => state.dispatch flags data },
      .returned)
  | .peerGone key =>
    match endpoint.registry.pmap.lookup key with
    | none => (endpoint, .returned)
    | some mgr => ({ endpoint with registry := endpoint.registry.detach key }, .clear mgr)
  | .clear mgr =>
    ({ endpoint with registry := endpoint.registry.clear mgr },
      .resetAll (endpoint.registry.places mgr))
  | .resetAll places =>
    match places[choice]? with
    | none => (endpoint, if places = [] then .returned else .resetAll places)
    | some p =>
      ({ endpoint with
        registry := endpoint.registry.modify p fun state => state.dispatch flagRESET [] },
        .resetAll (places.eraseIdx choice))
  | .close p =>
    match endpoint.registry.streams[p]? with
    | none => (endpoint, .returned)
    | some stream =>
      if stream.state.closed then (endpoint, .returned)
      else
        ({ endpoint with
          registry := endpoint.registry.modify p fun state => { state with closed := true } },
          .remove stream.remote stream.id)
  | .reset p =>
    match endpoint.registry.streams[p]? with
    | none => (endpoint, .returned)
    | some stream =>
      ({ endpoint with
        registry := endpoint.registry.modify p fun state =>
          { state with reset := true, rxBuf := [] } },
        .remove stream.remote stream.id)
  | .remove r sid => ({ endpoint with registry := endpoint.registry.removeStream r sid }, .returned)
  | .returned => (endpoint, .returned)

inductive Action
  | openStream (r : PublicKey)
  | dispatchStreamFrame (src : PublicKey) (sid : UInt64) (flags : UInt8) (data : Bytes)
  | peerGone (key : PublicKey)
  | close (p : Nat)
  | reset (p : Nat)
  | acceptStream
  | step (index choice : Nat)

def spawn (endpoint : Endpoint) (task : StreamTask) : Endpoint :=
  { endpoint with tasks := endpoint.tasks ++ [task] }

def act (endpoint : Endpoint) : Action → Endpoint
  | .openStream r => endpoint.spawn (.openStream r)
  | .dispatchStreamFrame src sid flags data => endpoint.spawn (.frame src sid flags data)
  | .peerGone key => endpoint.spawn (.peerGone key)
  | .close p => endpoint.spawn (.close p)
  | .reset p => endpoint.spawn (.reset p)
  | .acceptStream => { endpoint with acceptCh := endpoint.acceptCh.tail }
  | .step index choice =>
    match endpoint.tasks[index]? with
    | none => endpoint
    | some task =>
      { (endpoint.advance choice task).1 with
        tasks := endpoint.tasks.set index (endpoint.advance choice task).2 }

def machine : Machine Endpoint Action := ⟨act⟩

theorem act_step {ep : Endpoint} (found : ep.tasks[index]? = some task) (ch : Nat) :
    ep.act (.step index ch) =
      { (ep.advance ch task).1 with
        tasks := ep.tasks.set index (ep.advance ch task).2 } := by
  rw [act, found]

end Endpoint

/-! ## What a step leaves -/

namespace Registry

variable {reg post : Registry} {mgr p : Nat} {key r : PublicKey} {sid : UInt64}
  {change : PeerStreamManager → PeerStreamManager}

def Named (reg : Registry) (p : Nat) (key : PublicKey) (sid : UInt64) : Prop :=
  ∃ state, reg.streams[p]? = some ⟨sid, key, state⟩

def Over (reg : Registry) (p : Nat) : Prop :=
  ∃ stream, reg.streams[p]? = some stream ∧ (stream.state.closed ∨ stream.state.reset)

def Hooked (reg : Registry) (p : Nat) : Prop :=
  ∃ stream, reg.streams[p]? = some stream ∧ reg.find stream.remote stream.id = some p

/-- The manager of a key is one for this key, and the streams of a manager have its key and the
identifiers under which it has them. -/
structure Sound (registry : Registry) : Prop where
  owned : ∀ key mgr, registry.pmap.lookup key = some mgr → registry.owner mgr = some key
  named : ∀ key mgr sid p, registry.owner mgr = some key →
    registry.entry mgr sid = some p → registry.Named p key sid

structure Extends (before post : Registry) : Prop where
  managers : before.managers.length ≤ post.managers.length
  owner : ∀ mgr key, before.owner mgr = some key → post.owner mgr = some key
  named : ∀ p key sid, before.Named p key sid → post.Named p key sid
  ended : ∀ p, before.Over p → post.Over p
  fresh : ∀ key mgr, post.pmap.lookup key = some mgr →
    before.pmap.lookup key = some mgr ∨ before.managers.length ≤ mgr

theorem Extends.refl (reg : Registry) : reg.Extends reg where
  managers := le_refl _
  owner _ _ owner := owner
  named _ _ _ named := named
  ended _ isOver := isOver
  fresh _ _ found := .inl found

theorem Extends.trans {last : Registry} (before : reg.Extends post)
    (after : post.Extends last) : reg.Extends last where
  managers := le_trans before.managers after.managers
  owner mgr key owner := after.owner mgr key (before.owner mgr key owner)
  named p key sid named := after.named p key sid (before.named p key sid named)
  ended p isOver := after.ended p (before.ended p isOver)
  fresh key mgr found := by
    rcases after.fresh key mgr found with pre | isNew
    · exact before.fresh key mgr pre
    · exact .inr (le_trans before.managers isNew)

theorem lt_of_owner (owner : reg.owner mgr = some key) : mgr < reg.managers.length := by
  obtain ⟨manager, found, -⟩ := map_eq_some_iff.mp owner
  exact (List.getElem?_eq_some_iff.mp found).1

theorem Named.lt (named : reg.Named p key sid) : p < reg.streams.length := by
  obtain ⟨state, found⟩ := named
  exact (List.getElem?_eq_some_iff.mp found).1

theorem Named.unique {id : UInt64} (named : reg.Named p key sid)
    (again : reg.Named p other id) : other = key ∧ id = sid := by
  obtain ⟨state, found⟩ := named
  obtain ⟨again, alsoFound⟩ := again
  rw [found, some.injEq, Stream.mk.injEq] at alsoFound
  exact ⟨alsoFound.2.1.symm, alsoFound.1.symm⟩

theorem named_of_find (sound : reg.Sound) (found : reg.find key sid = some p) :
    reg.Named p key sid := by
  obtain ⟨mgr, isManager, isEntry⟩ := bind_eq_some_iff.mp found
  exact sound.named key mgr sid p (sound.owned key mgr isManager) isEntry

theorem hooked_iff (named : reg.Named p key sid) : reg.Hooked p ↔ reg.find key sid = some p := by
  obtain ⟨state, found⟩ := named
  rw [Hooked, found]
  simp

/-! ### A manager changes -/

theorem owner_modifyManager (mgr other : Nat) :
    (reg.modifyManager mgr change).owner other = reg.owner other := by
  rw [owner, owner, modifyManager, getElem?_modify]
  cases reg.managers[other]? with
  | none => rfl
  | some => by_cases here : mgr = other <;> simp [here]

theorem entry_modifyManager_of_ne (apart : mgr ≠ other) (sid : UInt64) :
    (reg.modifyManager mgr change).entry other sid = reg.entry other sid := by
  rw [entry, entry, modifyManager, getElem?_modify]
  simp [apart]

theorem entry_modifyManager_self (found : reg.managers[mgr]? = some manager) (sid : UInt64) :
    (reg.modifyManager mgr change).entry mgr sid = (change manager.2).streams.lookup sid := by
  rw [entry, modifyManager, getElem?_modify, found]
  simp

theorem extends_modifyManager (reg : Registry) (mgr : Nat)
    (change : PeerStreamManager → PeerStreamManager) :
    reg.Extends (reg.modifyManager mgr change) where
  managers := le_of_eq (length_modify _ _ _).symm
  owner other _ owner := (owner_modifyManager mgr other).trans owner
  named _ _ _ named := named
  ended _ isOver := isOver
  fresh _ _ found := .inl found

theorem find_modifyManager_of_ne (apart : reg.pmap.lookup key ≠ some mgr) (sid : UInt64) :
    (reg.modifyManager mgr change).find key sid = reg.find key sid := by
  rw [find, find]
  refine bind_congr ?_
  intro other found
  refine entry_modifyManager_of_ne ?_ sid
  rintro rfl
  exact apart found

theorem find_modifyManager_self (cur : reg.pmap.lookup key = some mgr)
    {manager : PublicKey × PeerStreamManager}
    (found : reg.managers[mgr]? = some manager) (sid : UInt64) :
    (reg.modifyManager mgr change).find key sid = (change manager.2).streams.lookup sid := by
  have same : (reg.modifyManager mgr change).pmap.lookup key = some mgr := cur
  rw [find, same, bind_some, entry_modifyManager_self found]

theorem find_of_current (cur : reg.pmap.lookup key = some mgr)
    (found : reg.managers[mgr]? = some manager) (sid : UInt64) :
    reg.find key sid = manager.2.streams.lookup sid := by
  rw [find, cur, bind_some, entry, found, bind_some]

theorem Sound.modifyManager (sound : reg.Sound)
    (named : ∀ manager, reg.managers[mgr]? = some manager → ∀ sid p,
      (change manager.2).streams.lookup sid = some p → reg.Named p manager.1 sid) :
    (reg.modifyManager mgr change).Sound where
  owned key other cur := by
    rw [owner_modifyManager]
    exact sound.owned key other cur
  named key other sid p owner isEntry := by
    rw [owner_modifyManager] at owner
    by_cases here : mgr = other
    · subst here
      obtain ⟨manager, found, rfl⟩ := map_eq_some_iff.mp owner
      rw [entry_modifyManager_self found] at isEntry
      exact named manager found sid p isEntry
    · rw [entry_modifyManager_of_ne here] at isEntry
      exact sound.named key other sid p owner isEntry

/-! ### Looking up a manager -/

theorem lookup_getManager (reg : Registry) (r : PublicKey) :
    (reg.getManager r).2.pmap.lookup r = some (reg.getManager r).1 := by
  rw [getManager]
  split
  · rename_i mgr found
    exact found
  · exact lookup_insert _

theorem lookup_getManager_of_some (found : reg.pmap.lookup key = some mgr)
    (r : PublicKey) : (reg.getManager r).2.pmap.lookup key = some mgr := by
  rw [getManager]
  split
  · exact found
  rename_i absent
  have apart : key ≠ r := by
    rintro rfl
    rw [absent] at found
    cases found
  exact (lookup_insert_ne apart).trans found

theorem owner_append_of_some (owner : reg.owner mgr = some key) :
    Registry.owner { reg with managers := reg.managers ++ added } mgr = some key := by
  rw [Registry.owner, getElem?_append_left (lt_of_owner owner)]
  exact owner

theorem entry_append_new (r : PublicKey) (mgr : Nat) (sid : UInt64) :
    Registry.entry
        { reg with
          managers := reg.managers ++ [(r, newPeerStreamManager reg.localPub r)] } mgr sid =
      reg.entry mgr sid := by
  rw [entry, entry]
  by_cases pre : mgr < reg.managers.length
  · rw [getElem?_append_left pre]
  rw [getElem?_eq_none (Nat.le_of_not_lt pre), getElem?_append_right (Nat.le_of_not_lt pre)]
  cases mgr - reg.managers.length with
  | zero | succ => rfl

theorem find_getManager (r : PublicKey) (key : PublicKey) (sid : UInt64) :
    (reg.getManager r).2.find key sid = reg.find key sid := by
  rw [getManager]
  split
  · rfl
  rename_i absent
  rw [find, find]
  by_cases here : key = r
  · rw [here, absent]
    rw [lookup_insert, bind_some, bind_none]
    have new := @entry_append_new reg r reg.managers.length sid
    rw [entry, entry, getElem?_eq_none (le_refl _), bind_none] at new
    exact new
  rw [lookup_insert_ne here]
  refine bind_congr ?_
  intro mgr _
  exact @entry_append_new reg r mgr sid

theorem extends_getManager (reg : Registry) (r : PublicKey) : reg.Extends (reg.getManager r).2 := by
  rw [getManager]
  split
  · exact .refl reg
  constructor
  · simp
  · intro mgr key owner
    exact owner_append_of_some owner
  · exact fun _ _ _ named => named
  · exact fun _ isOver => isOver
  intro key mgr found
  by_cases here : key = r
  · subst here
    have isNew := some.inj ((lookup_insert reg.pmap).symm.trans found)
    exact .inr (le_of_eq isNew)
  · exact .inl ((lookup_insert_ne here).symm.trans found)

theorem owner_getManager (sound : reg.Sound) (r : PublicKey) :
    (reg.getManager r).2.owner (reg.getManager r).1 = some r := by
  rw [getManager]
  split
  · rename_i mgr found
    exact sound.owned r mgr found
  · simp [owner]

theorem Sound.getManager (sound : reg.Sound) (r : PublicKey) : (reg.getManager r).2.Sound := by
  rw [Registry.getManager]
  split
  · exact sound
  constructor
  · intro key mgr found
    by_cases here : key = r
    · subst here
      have isNew := some.inj ((lookup_insert reg.pmap).symm.trans found)
      subst isNew
      simp [owner]
    · have pre := (lookup_insert_ne here).symm.trans found
      exact owner_append_of_some (sound.owned key mgr pre)
  intro key mgr sid p owner isEntry
  have pre : reg.entry mgr sid = some p := (@entry_append_new reg r mgr sid).symm.trans isEntry
  obtain ⟨manager, found, -⟩ := bind_eq_some_iff.mp pre
  have inside := (List.getElem?_eq_some_iff.mp found).1
  rw [Registry.owner, List.getElem?_append_left inside] at owner
  exact sound.named key mgr sid p owner pre

theorem find_allocID (mgr : Nat) (key : PublicKey) (sid : UInt64) :
    (reg.allocID mgr).2.find key sid = reg.find key sid := by
  rw [allocID]
  split
  · rfl
  rename_i manager found
  by_cases cur : reg.pmap.lookup key = some mgr
  · have same := find_of_current cur found sid
    exact (find_modifyManager_self cur found sid).trans same.symm
  · exact find_modifyManager_of_ne cur sid

theorem extends_allocID (reg : Registry) (mgr : Nat) : reg.Extends (reg.allocID mgr).2 := by
  rw [allocID]
  split
  · exact .refl reg
  · dsimp only
    exact extends_modifyManager reg mgr _

theorem named_of_lookup (sound : reg.Sound) (found : reg.managers[mgr]? = some manager)
    (isEntry : manager.2.streams.lookup sid = some p) : reg.Named p manager.1 sid := by
  apply sound.named manager.1 mgr sid p
  · rw [owner, found, map_some]
  · rw [entry, found, bind_some]
    exact isEntry

theorem Sound.allocID (sound : reg.Sound) (mgr : Nat) : (reg.allocID mgr).2.Sound := by
  rw [Registry.allocID]
  split
  · exact sound
  dsimp only
  apply sound.modifyManager
  intro manager found sid p isEntry
  exact named_of_lookup sound found isEntry

theorem lookup_erase_eq_some {streams : AList fun _ : UInt64 => Nat} {id : UInt64}
    (found : (streams.erase sid).lookup id = some p) : id ≠ sid ∧ streams.lookup id = some p := by
  by_cases same : id = sid
  · rw [same, lookup_erase] at found
    cases found
  · rw [lookup_erase_ne same] at found
    exact ⟨same, found⟩

theorem Sound.forget (sound : reg.Sound) (mgr : Nat) (sid : UInt64) : (reg.forget mgr sid).Sound :=
  sound.modifyManager fun _ found _ _ isEntry =>
    named_of_lookup sound found (lookup_erase_eq_some isEntry).2

theorem Sound.clear (sound : reg.Sound) (mgr : Nat) : (reg.clear mgr).Sound :=
  sound.modifyManager nofun

theorem Sound.removeStream (sound : reg.Sound) (r : PublicKey) (sid : UInt64) :
    (reg.removeStream r sid).Sound := by
  rw [Registry.removeStream]
  split
  · exact sound
  · exact sound.forget _ sid

theorem streams_removeStream (reg : Registry) (r : PublicKey) (sid : UInt64) :
    (reg.removeStream r sid).streams = reg.streams := by
  rw [removeStream]
  split <;> rfl

theorem extends_removeStream (reg : Registry) (r : PublicKey) (sid : UInt64) :
    reg.Extends (reg.removeStream r sid) := by
  rw [removeStream]
  split
  · exact .refl reg
  · exact extends_modifyManager reg _ _

theorem lookup_detach_eq_some (found : (reg.detach r).pmap.lookup key = some mgr) :
    key ≠ r ∧ reg.pmap.lookup key = some mgr := by
  have found : (reg.pmap.erase r).lookup key = some mgr := found
  by_cases same : key = r
  · rw [same, lookup_erase] at found
    cases found
  · rw [lookup_erase_ne same] at found
    exact ⟨same, found⟩

theorem extends_detach (reg : Registry) (r : PublicKey) : reg.Extends (reg.detach r) where
  managers := le_refl _
  owner _ _ owner := owner
  named _ _ _ named := named
  ended _ isOver := isOver
  fresh _ _ found := .inl (lookup_detach_eq_some found).2

theorem Sound.detach (sound : reg.Sound) (r : PublicKey) : (reg.detach r).Sound where
  owned key mgr found := sound.owned key mgr (lookup_detach_eq_some found).2
  named := sound.named

/-! ### New streams -/

theorem getElem?_addStream (found : reg.streams[p]? = some stream) (sid : UInt64)
    (r : PublicKey) : (reg.addStream sid r).streams[p]? = some stream :=
  (List.getElem?_append_left (List.getElem?_eq_some_iff.mp found).1).trans found

theorem extends_addStream (reg : Registry) (sid : UInt64) (r : PublicKey) :
    reg.Extends (reg.addStream sid r) where
  managers := le_refl _
  owner _ _ owner := owner
  named _ _ _ named := named.imp fun _ found => getElem?_addStream found sid r
  ended _ isOver := isOver.imp fun _ ended => ⟨getElem?_addStream ended.1 sid r, ended.2⟩
  fresh _ _ found := .inl found

theorem over_of_addStream (named : reg.Named p key sid) {id : UInt64}
    (isOver : (reg.addStream id r).Over p) : reg.Over p := by
  obtain ⟨stream, found, ended⟩ := isOver
  exact ⟨stream, (getElem?_append_left named.lt).symm.trans found, ended⟩

theorem Sound.addStream (sound : reg.Sound) (sid : UInt64) (r : PublicKey) :
    (reg.addStream sid r).Sound where
  owned := sound.owned
  named key mgr id p owner isEntry :=
    (extends_addStream reg sid r).named p key id (sound.named key mgr id p owner isEntry)

theorem extends_enter (reg : Registry) (mgr : Nat) (r : PublicKey) (sid : UInt64) :
    reg.Extends (reg.enter mgr r sid) :=
  (extends_addStream reg sid r).trans (extends_modifyManager _ mgr _)

theorem named_enter (mgr : Nat) (r : PublicKey) (sid : UInt64) :
    (reg.enter mgr r sid).Named reg.streams.length r sid :=
  ⟨_, getElem?_concat_length⟩

theorem Sound.enter (sound : reg.Sound) (owner : reg.owner mgr = some r)
    (sid : UInt64) : (reg.enter mgr r sid).Sound := by
  apply (sound.addStream sid r).modifyManager
  intro manager found id p isEntry
  by_cases same : id = sid
  · subst same
    have isRemote : manager.1 = r := by
      have found : reg.managers[mgr]? = some manager := found
      rw [Registry.owner, found, map_some, some.injEq] at owner
      exact owner
    rw [lookup_insert, some.injEq] at isEntry
    rw [← isEntry, isRemote]
    exact named_enter mgr r id
  · rw [lookup_insert_ne same] at isEntry
    exact named_of_lookup (sound.addStream sid r) found isEntry

def Ends (change : StreamState → StreamState) : Prop :=
  ∀ state, state.closed ∨ state.reset → (change state).closed ∨ (change state).reset

section

variable {change : StreamState → StreamState}

theorem getElem?_modify {stream : Stream} (found : reg.streams[p]? = some stream) (other : Nat) :
    (reg.modify other change).streams[p]? =
      some (if other = p then { stream with state := change stream.state } else stream) := by
  rw [modify, List.getElem?_modify, found]
  by_cases here : other = p <;> simp [here]

theorem extends_modify (ends : Ends change)
    (reg : Registry) (other : Nat) : reg.Extends (reg.modify other change) where
  managers := le_refl _
  owner _ _ owner := owner
  named := by
    rintro p key sid ⟨state, found⟩
    have changed := @getElem?_modify reg p change _ found other
    by_cases here : other = p
    · exact ⟨change state, changed.trans (by rw [if_pos here])⟩
    · exact ⟨state, changed.trans (by rw [if_neg here])⟩
  ended := by
    rintro p ⟨stream, found, isOver⟩
    refine ⟨_, @getElem?_modify reg p change _ found other, ?_⟩
    split
    · exact ends stream.state isOver
    · exact isOver
  fresh _ _ found := .inl found

theorem Sound.modify (sound : reg.Sound)
    (ends : Ends change) (p : Nat) : (reg.modify p change).Sound where
  owned := sound.owned
  named key mgr sid other owner isEntry :=
    (extends_modify ends reg p).named other key sid (sound.named key mgr sid other owner isEntry)

end

theorem ends_dispatch (flags : UInt8) (data : Bytes) :
    Ends fun state => state.dispatch flags data := by
  intro state isOver
  dsimp only
  rw [StreamState.dispatch]
  split
  · exact .inr rfl
  split
  · exact .inl rfl
  · split <;> exact isOver

/-! ## What can be found after a step -/

section Find

variable {id : UInt64}

section

variable (sound : reg.Sound) (owner : reg.owner mgr = some r) (named : reg.Named p key id)

include sound owner named

theorem find_change_iff (others : ∀ manager : PeerStreamManager, ∀ other ≠ sid,
      (change manager).streams.lookup other = manager.streams.lookup other)
    (gone : ∀ manager : PeerStreamManager, (change manager).streams.lookup sid ≠ some p) :
    (reg.modifyManager mgr change).find key id = some p ↔ reg.find key id = some p ∧
        ¬(reg.pmap.lookup r = some mgr ∧ reg.find r sid = some p) := by
  by_cases cur : reg.pmap.lookup key = some mgr
  · have isKey : key = r := some.inj ((sound.owned key mgr cur).symm.trans owner)
    subst isKey
    obtain ⟨manager, found, -⟩ := map_eq_some_iff.mp owner
    rw [find_modifyManager_self cur found]
    by_cases same : id = sid
    · subst same
      refine iff_of_false (gone manager.2) ?_
      rintro ⟨isFound, stays⟩
      exact stays ⟨cur, isFound⟩
    rw [others manager.2 id same, ← find_of_current cur found]
    refine ⟨fun isFound => ⟨isFound, ?_⟩, fun both => both.1⟩
    rintro ⟨-, underSid⟩
    exact same ((named_of_find sound underSid).unique named).2
  rw [find_modifyManager_of_ne cur]
  refine ⟨fun isFound => ⟨isFound, ?_⟩, fun both => both.1⟩
  rintro ⟨isCurrent, underSid⟩
  have isKey := ((named_of_find sound underSid).unique named).1
  rw [isKey] at cur
  exact cur isCurrent

theorem find_forget_iff (sid : UInt64) :
    (reg.forget mgr sid).find key id = some p ↔ reg.find key id = some p ∧
      ¬(reg.pmap.lookup r = some mgr ∧ reg.find r sid = some p) := by
  apply find_change_iff sound owner named
  · intro manager other apart
    exact lookup_erase_ne apart
  · intro manager isFound
    exact absurd isFound (by rw [lookup_erase]; exact nofun)

theorem find_enter_iff (sid : UInt64) :
    (reg.enter mgr r sid).find key id = some p ↔ reg.find key id = some p ∧
        ¬(reg.pmap.lookup r = some mgr ∧ reg.find r sid = some p) := by
  apply find_change_iff (sound.addStream sid r) owner
    ((extends_addStream reg sid r).named p key id named)
  · intro manager other apart
    exact lookup_insert_ne apart
  intro manager isFound
  rw [lookup_insert, some.injEq] at isFound
  exact absurd isFound (ne_of_gt named.lt)

end

theorem find_enter_self (cur : reg.pmap.lookup r = some mgr)
    (owner : reg.owner mgr = some r) (sid : UInt64) :
    (reg.enter mgr r sid).find r sid = some reg.streams.length := by
  obtain ⟨manager, found, -⟩ := map_eq_some_iff.mp owner
  have same : (reg.addStream sid r).managers[mgr]? = some manager := found
  exact (@find_modifyManager_self (reg.addStream sid r) mgr r _ cur manager same
    sid).trans (lookup_insert _)

theorem find_removeStream_iff (sound : reg.Sound) (named : reg.Named p key id)
    (r : PublicKey) (sid : UInt64) :
    (reg.removeStream r sid).find key id = some p ↔
      reg.find key id = some p ∧ reg.find r sid ≠ some p := by
  rw [removeStream]
  split
  · rename_i absent
    have nothing : reg.find r sid = none := by rw [find, absent, bind_none]
    rw [nothing]
    simp
  rename_i mgr cur
  rw [find_forget_iff sound (sound.owned r mgr cur) named]
  simp [cur]

theorem find_detach_iff (sound : reg.Sound) (named : reg.Named p key id) (r : PublicKey) :
    (reg.detach r).find key id = some p ↔
      reg.find key id = some p ∧ ¬∃ sid, reg.find r sid = some p := by
  by_cases same : key = r
  · subst same
    have nothing : (reg.detach key).find key id = none := by
      rw [find, detach, lookup_erase, bind_none]
    rw [nothing]
    refine iff_of_false nofun ?_
    rintro ⟨isFound, stays⟩
    exact stays ⟨id, isFound⟩
  have unchanged : (reg.detach r).find key id = reg.find key id := by
    rw [find, detach, lookup_erase_ne same]
    rfl
  rw [unchanged]
  refine ⟨fun isFound => ⟨isFound, ?_⟩, fun both => both.1⟩
  rintro ⟨sid, underSid⟩
  exact same ((named_of_find sound underSid).unique named).1

end Find

end Registry

end Peerscale.IrohRelay
