import Mathlib.Logic.Function.Basic
import Peerscale.Foundation.GoValue
import Peerscale.Foundation.Machine
import Peerscale.Foundation.Time

/-! # The table of UDP flows

`handleUDP4` stores a flow for a key that it does not find. The read loop of a flow deletes the key
when it ends, and `udpCleanup` does so for a flow that has not been used for a minute. Both delete
by key, whatever is stored there by then.
-/

namespace Peerscale.Fbvirtun

open Option

structure UdpKey4 where
  srcIP : Bytes
  srcPort : UInt16
  dstIP : Bytes
  dstPort : UInt16
  deriving DecidableEq

inductive LoopStage
  | reading
  | closed
  | returned
  deriving DecidableEq

structure UdpFlow4 where
  key : UdpKey4
  lastUse : Time
  isOpen : Bool
  loop : LoopStage
  deriving DecidableEq

inductive Loaded
  | idle
  | found (flow : Nat)
  | missed (key : UdpKey4)
  deriving DecidableEq

/-- `udpCleanup` with an entry of the table: before its age is read, before its connection is
closed, and before its key is deleted. -/
inductive CleanupStage
  | visited
  | old
  | closed
  deriving DecidableEq

structure UdpTable where
  flows : Nat → Option UdpFlow4
  made : Nat
  udpConns4 : UdpKey4 → Option Nat
  loaded : Loaded
  cleanup : Option (UdpKey4 × Nat × CleanupStage)

namespace UdpTable

def start : UdpTable := ⟨fun _ => none, 0, fun _ => none, .idle, none⟩

variable (table : UdpTable)

def modifyFlow (flow : Nat) (change : UdpFlow4 → UdpFlow4) : UdpTable :=
  { table with flows := Function.update table.flows flow ((table.flows flow).map change) }

def delete (key : UdpKey4) : UdpTable :=
  { table with udpConns4 := Function.update table.udpConns4 key none }

def store (key : UdpKey4) (now : Time) : UdpTable :=
  { table with
    flows := Function.update table.flows table.made (some ⟨key, now, true, .reading⟩)
    made := table.made + 1
    udpConns4 := Function.update table.udpConns4 key (some table.made) }

/-- `load` to `store` are the steps of `handleUDP4`, `read` and `endLoop` those of the read loops,
and the others those of `udpCleanup`. -/
inductive Action
  | load (key : UdpKey4)
  | touch (now : Time)
  | store (dialled : Bool) (now : Time)
  | read (flow : Nat) (received : Option Time)
  | endLoop (flow : Nat)
  | visit (key : UdpKey4)
  | age (now : Time)
  | close
  | cleanupDelete

def act : Action → UdpTable
  | .load key =>
    match table.loaded with
    | .idle => { table with loaded := (table.udpConns4 key).elim (.missed key) .found }
    | _ => table
  | .touch now =>
    match table.loaded with
    | .found flow =>
      { table.modifyFlow flow fun state => { state with lastUse := now } with loaded := .idle }
    | _ => table
  | .store dialled now =>
    match table.loaded with
    | .missed key => { if dialled then table.store key now else table with loaded := .idle }
    | _ => table
  | .read flow received =>
    table.modifyFlow flow fun state =>
      if state.loop = .reading then
        match received with
        | some now => { state with lastUse := now }
        | none => { state with isOpen := false, loop := .closed }
      else state
  | .endLoop flow =>
    match table.flows flow with
    | some ⟨key, _, _, .closed⟩ =>
      (table.delete key).modifyFlow flow fun state => { state with loop := .returned }
    | _ => table
  | .visit key =>
    match table.cleanup with
    | none => { table with cleanup := (table.udpConns4 key).map fun flow => (key, flow, .visited) }
    | _ => table
  | .age now =>
    match table.cleanup with
    | some (key, flow, .visited) =>
      let isOld := (table.flows flow).any fun state => Time.sub now state.lastUse > minute
      { table with cleanup := if isOld then some (key, flow, .old) else none }
    | _ => table
  | .close =>
    match table.cleanup with
    | some (key, flow, .old) =>
      { table.modifyFlow flow fun state => { state with isOpen := false } with
        cleanup := some (key, flow, .closed) }
    | _ => table
  | .cleanupDelete =>
    match table.cleanup with
    | some (key, _, .closed) => { table.delete key with cleanup := none }
    | _ => table

def machine : Machine UdpTable Action := ⟨act⟩

/-- The read loops of all flows with the key have returned, and `udpCleanup` is not at it. -/
def Free (key : UdpKey4) : Prop :=
  (∀ flow state, table.flows flow = some state → state.key = key → state.loop = .returned) ∧
    ∀ flow stage, table.cleanup ≠ some (key, flow, stage)

def Settled : Action → Prop
  | .store true _ => ∀ key, table.loaded = .missed key → table.Free key
  | _ => True

def Stored : Prop :=
  ∀ flow state, table.flows flow = some state → state.isOpen → table.udpConns4 state.key = some flow

def Owns (flow : Nat) (key : UdpKey4) : Prop :=
  ∀ other, table.udpConns4 key = some other → other = flow

def DeletesOwn : Action → Prop
  | .endLoop flow => ∀ state, table.flows flow = some state → state.loop = .closed →
      table.Owns flow state.key
  | _ => True

structure Orderly : Prop where
  stored : table.Stored
  made : ∀ flow, table.made ≤ flow → table.flows flow = none
  known : ∀ key flow, table.udpConns4 key = some flow →
    ∃ state, table.flows flow = some state ∧ state.key = key
  closed : ∀ flow state, table.flows flow = some state → state.loop ≠ .reading →
    state.isOpen = false
  own : ∀ flow state, table.flows flow = some state → state.loop ≠ .returned →
    table.Owns flow state.key
  cleanup : ∀ key flow stage, table.cleanup = some (key, flow, stage) →
    (∃ state, table.flows flow = some state ∧ state.key = key ∧
      (stage = .closed → state.isOpen = false)) ∧ table.Owns flow key

variable {table}

theorem flows_modifyFlow :
    (table.modifyFlow flow change).flows other =
      (table.flows other).map fun state => if other = flow then change state else state := by
  by_cases same : other = flow <;> simp [UdpTable.modifyFlow, same]

structure Follows (before after : UdpFlow4) : Prop where
  key : after.key = before.key
  shuts : after.isOpen → before.isOpen
  closed : after.loop ≠ .reading → after.isOpen = false
  ends : after.loop ≠ .returned → before.loop ≠ .returned

namespace Orderly

variable (tidy : table.Orderly)

include tidy

theorem follows_self (found : table.flows flow = some state) : Follows state state :=
  ⟨rfl, id, tidy.closed flow state found, id⟩

theorem modifyFlow
    (changes : ∀ state, table.flows flow = some state → Follows state (change state)) :
    (table.modifyFlow flow change).Orderly := by
  have prev : ∀ {other state}, (table.modifyFlow flow change).flows other = some state →
      ∃ pre, table.flows other = some pre ∧ Follows pre state := by
    intro other state found
    rw [flows_modifyFlow, map_eq_some_iff] at found
    obtain ⟨pre, had, rfl⟩ := found
    refine ⟨pre, had, ?_⟩
    split
    next same => exact changes pre (same ▸ had)
    next => exact tidy.follows_self had
  have later : ∀ {other pre}, table.flows other = some pre →
      ∃ state, (table.modifyFlow flow change).flows other = some state ∧ Follows pre state := by
    intro other pre had
    rw [flows_modifyFlow, had]
    refine ⟨_, rfl, ?_⟩
    split
    next same => exact changes pre (same ▸ had)
    next => exact tidy.follows_self had
  refine ⟨?_, ?_, ?_, ?_, ?_, ?_⟩
  · intro other state found isOpen
    obtain ⟨pre, had, follows⟩ := prev found
    rw [follows.key]
    exact tidy.stored other pre had (follows.shuts isOpen)
  · intro other beyond
    rw [flows_modifyFlow, tidy.made other beyond, map_none]
  · intro key other isStored
    obtain ⟨pre, had, isKey⟩ := tidy.known key other isStored
    obtain ⟨state, found, follows⟩ := later had
    exact ⟨state, found, follows.key.trans isKey⟩
  · intro other state found
    obtain ⟨pre, -, follows⟩ := prev found
    exact follows.closed
  · intro other state found unfinished
    obtain ⟨pre, had, follows⟩ := prev found
    rw [follows.key]
    exact tidy.own other pre had (follows.ends unfinished)
  intro key other stage visiting
  obtain ⟨⟨pre, had, isKey, shut⟩, own⟩ := tidy.cleanup key other stage visiting
  obtain ⟨state, found, follows⟩ := later had
  refine ⟨⟨state, found, follows.key.trans isKey, fun isClosed => ?_⟩, own⟩
  exact Bool.eq_false_iff.mpr fun isOpen =>
    Bool.eq_false_iff.mp (shut isClosed) (follows.shuts isOpen)

theorem delete (shut : ∀ flow state, table.udpConns4 key = some flow →
    table.flows flow = some state → state.isOpen = false) : (table.delete key).Orderly := by
  have less : ∀ {other flow}, (table.delete key).udpConns4 other = some flow →
      table.udpConns4 other = some flow := by
    intro other flow found
    by_cases same : other = key
    · simp [UdpTable.delete, same] at found
    · simpa [UdpTable.delete, same] using found
  refine ⟨?_, tidy.made, fun other flow found => tidy.known other flow (less found),
    tidy.closed, fun flow state found unfinished other isStored =>
      tidy.own flow state found unfinished other (less isStored),
    fun other flow stage atKey => ?_⟩
  · intro flow state found isOpen
    have isStored := tidy.stored flow state found isOpen
    by_cases same : state.key = key
    · rw [same] at isStored
      rw [shut flow state isStored found] at isOpen
      cases isOpen
    · simpa [UdpTable.delete, same] using isStored
  · obtain ⟨there, own⟩ := tidy.cleanup other flow stage atKey
    exact ⟨there, fun another isStored => own another (less isStored)⟩

theorem store (now : Time) (free : table.Free key) : (table.store key now).Orderly := by
  have kept : ∀ {flow state}, table.flows flow = some state →
      (table.store key now).flows flow = some state := by
    intro flow state found
    refine (Function.update_of_ne (fun same => ?_) _ _).trans found
    rw [tidy.made flow (ge_of_eq same)] at found
    cases found
  have cases : ∀ {flow state}, (table.store key now).flows flow = some state →
      flow = table.made ∧ state = ⟨key, now, true, .reading⟩ ∨ table.flows flow = some state := by
    intro flow state found
    by_cases same : flow = table.made
    · simp [UdpTable.store, same] at found
      exact .inl ⟨same, found.symm⟩
    · simp [UdpTable.store, same] at found
      exact .inr found
  have atKey : (table.store key now).udpConns4 key = some table.made := Function.update_self ..
  have apart : ∀ {other}, other ≠ key →
      (table.store key now).udpConns4 other = table.udpConns4 other :=
    fun ne => Function.update_of_ne ne _ _
  refine ⟨?_, ?_, ?_, ?_, ?_, ?_⟩
  · intro flow state found isOpen
    rcases cases found with ⟨rfl, rfl⟩ | found
    · exact atKey
    have ne : state.key ≠ key := fun same => by
      have closed := tidy.closed flow state found (by simp [free.1 flow state found same])
      rw [closed] at isOpen
      cases isOpen
    rw [apart ne]
    exact tidy.stored flow state found isOpen
  · intro flow beyond
    exact (Function.update_of_ne (Nat.ne_of_gt beyond) _ _).trans
      (tidy.made flow (Nat.le_of_succ_le beyond))
  · intro other flow isStored
    by_cases same : other = key
    · rw [same, atKey, some.injEq] at isStored
      exact ⟨⟨key, now, true, .reading⟩, isStored ▸ Function.update_self .., same.symm⟩
    rw [apart same] at isStored
    obtain ⟨state, found, isKey⟩ := tidy.known other flow isStored
    exact ⟨state, kept found, isKey⟩
  · intro flow state found stopped
    rcases cases found with ⟨-, rfl⟩ | found
    · exact absurd rfl stopped
    · exact tidy.closed flow state found stopped
  · intro flow state found unfinished other isStored
    rcases cases found with ⟨rfl, rfl⟩ | found
    · exact some.inj (isStored.symm.trans atKey)
    · rw [apart fun same => unfinished (free.1 flow state found same)] at isStored
      exact tidy.own flow state found unfinished other isStored
  intro other flow stage visiting
  obtain ⟨⟨state, found, rest⟩, own⟩ := tidy.cleanup other flow stage visiting
  refine ⟨⟨state, kept found, rest⟩, fun another isStored => own another ?_⟩
  rwa [apart fun same => free.2 flow stage (same ▸ visiting)] at isStored

theorem withLoaded (loaded : Loaded) : { table with loaded := loaded }.Orderly :=
  ⟨tidy.stored, tidy.made, tidy.known, tidy.closed, tidy.own, tidy.cleanup⟩

theorem withCleanup {cleanup : Option (UdpKey4 × Nat × CleanupStage)}
    (fits : ∀ key flow stage, cleanup = some (key, flow, stage) →
      (∃ state, table.flows flow = some state ∧ state.key = key ∧
        (stage = .closed → state.isOpen = false)) ∧ table.Owns flow key) :
    { table with cleanup := cleanup }.Orderly :=
  ⟨tidy.stored, tidy.made, tidy.known, tidy.closed, tidy.own, fits⟩

theorem act {a : Action} (settled : table.Settled a) : (table.act a).Orderly := by
  cases a with
  | load =>
    rw [UdpTable.act]
    split
    · exact tidy.withLoaded _
    · exact tidy
  | touch =>
    rw [UdpTable.act]
    split
    · refine withLoaded (tidy.modifyFlow fun state found => ?_) _
      exact ⟨rfl, id, tidy.closed _ state found, id⟩
    · exact tidy
  | store dialled now =>
    rw [UdpTable.act]
    split
    next key missed =>
      cases dialled with
      | false => exact tidy.withLoaded _
      | true => exact (tidy.store now (settled key missed)).withLoaded _
    next => exact tidy
  | read flow received =>
    refine tidy.modifyFlow fun state found => ?_
    split
    next reading =>
      cases received with
      | none => exact ⟨rfl, by simp, fun _ => rfl, fun _ => by simp [reading]⟩
      | some => exact ⟨rfl, id, tidy.closed flow state found, id⟩
    next => exact tidy.follows_self found
  | endLoop flow =>
    rw [UdpTable.act]
    split
    next key _ _ found =>
      have shut := tidy.closed flow _ found (by simp)
      refine (tidy.delete fun other state isStored isOther => ?_).modifyFlow fun state isState => ?_
      · cases tidy.own flow _ found (by simp) other isStored
        rw [found, some.injEq] at isOther
        rw [← isOther]
        exact shut
      · rw [show table.flows flow = some state from isState, some.injEq] at found
        exact ⟨rfl, id, fun _ => by simp [found, shut], fun never => absurd rfl never⟩
    next => exact tidy
  | visit key =>
    rw [UdpTable.act]
    split
    · refine tidy.withCleanup fun other flow stage visiting => ?_
      rw [map_eq_some_iff] at visiting
      obtain ⟨_, isStored, rfl, rfl, rfl⟩ := visiting
      obtain ⟨state, found, isKey⟩ := tidy.known key flow isStored
      exact ⟨⟨state, found, isKey, by simp⟩, fun another isOther =>
        some.inj (isOther.symm.trans isStored)⟩
    · exact tidy
  | age =>
    rw [UdpTable.act]
    split
    next key flow visiting =>
      refine tidy.withCleanup fun other another stage isOld => ?_
      split at isOld
      · cases isOld
        obtain ⟨⟨state, found, isKey, -⟩, own⟩ := tidy.cleanup _ _ _ visiting
        exact ⟨⟨state, found, isKey, by simp⟩, own⟩
      · cases isOld
    next => exact tidy
  | close =>
    rw [UdpTable.act]
    split
    next key flow visiting =>
      obtain ⟨⟨state, found, isKey, -⟩, own⟩ := tidy.cleanup _ _ _ visiting
      have closed : (table.modifyFlow flow fun state => { state with isOpen := false }).Orderly :=
        tidy.modifyFlow fun _ _ => ⟨rfl, by simp, fun _ => rfl, id⟩
      refine closed.withCleanup fun _ _ _ same => ?_
      cases same
      refine ⟨⟨{ state with isOpen := false }, ?_, isKey, fun _ => rfl⟩, own⟩
      rw [flows_modifyFlow, found, map_some, if_pos rfl]
    next => exact tidy
  | cleanupDelete =>
    rw [UdpTable.act]
    split
    next key flow visiting =>
      obtain ⟨⟨state, found, -, shut⟩, own⟩ := tidy.cleanup _ _ _ visiting
      refine withCleanup (tidy.delete fun other isState isStored isOther => ?_) (by simp)
      cases own other isStored
      rw [found, some.injEq] at isOther
      rw [← isOther]
      exact shut rfl
    next => exact tidy

end Orderly

theorem orderly_start : start.Orderly := by
  refine ⟨?_, ?_, ?_, ?_, ?_, ?_⟩ <;> simp [start, Stored]

/-- If flows are stored only under keys that are free then read loops delete their own flows
only, and each open flow is stored under its key all along. -/
theorem flows_stored (actions : List Action) (settled : machine.Obeys Settled start actions) :
    machine.Obeys DeletesOwn start actions ∧ machine.Always Stored start actions := by
  have step : ∀ (table : UdpTable) action, table.Orderly → table.Settled action →
      (machine.act table action).Orderly := fun table action orderly => orderly.act
  constructor
  · refine settled.consequence orderly_start step fun table action orderly _ => ?_
    cases action with
    | endLoop flow =>
      exact fun state found isClosed => orderly.own flow state found (by simp [isClosed])
    | _ => trivial
  · rintro earlier later rfl
    exact (settled.append.1.invariant orderly_start step).stored

def nameQuery : UdpKey4 := ⟨[10, 0, 0, 1], 4000, [10, 0, 0, 2], 53⟩

/-- The first flow of the key has ended when the second one is stored. -/
theorem flows_stored_once :
    let actions := [.load nameQuery, .store true 0, .read 0 none, .endLoop 0, .load nameQuery,
      .store true minute]
    (machine.run start actions).udpConns4 nameQuery = some 1 ∧
      machine.Always Stored start actions := by
  intro actions
  have settled : machine.Obeys Settled start actions := by
    refine ⟨trivial, fun _ _ => ⟨nofun, nofun⟩, trivial, trivial, trivial, ?_, trivial⟩
    rintro key -
    refine ⟨?_, nofun⟩
    rintro (_ | flow) state found -
    · rw [← Option.some.inj found]
    · cases found
  exact ⟨rfl, (flows_stored actions settled).2⟩

def replaced : List Action :=
  [.load nameQuery, .store true 0, .visit nameQuery, .age (2 * minute), .close, .cleanupDelete,
    .load nameQuery, .store true (2 * minute), .read 0 none]

theorem flows_lost :
    ¬machine.Obeys DeletesOwn start (replaced ++ [.endLoop 0]) ∧
      ¬machine.Always Stored start (replaced ++ [.endLoop 0]) := by
  constructor
  · intro own
    have same : 1 = 0 := (Machine.obeys_concat.mp own).2 ⟨nameQuery, 0, false, .closed⟩
      (by decide +kernel) rfl 1 (by decide +kernel)
    cases same
  intro always
  have stored := always _ [] (List.append_nil _).symm 1 ⟨nameQuery, 2 * minute, true, .reading⟩
    (by decide +kernel) rfl
  exact absurd stored (by decide +kernel)

end UdpTable

end Peerscale.Fbvirtun
