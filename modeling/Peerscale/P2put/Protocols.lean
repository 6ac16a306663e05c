import Mathlib.Data.List.AList
import Peerscale.Foundation.Filepath

/-! # Protocols

Handlers are registered under names, by the whole name or for all names that begin with it.
What is registered before there is a host is replayed when the host is created. A name that is
registered for others that begin with it is cut off behind its last slash, and is not found
when it is unregistered.
-/

namespace Peerscale.P2put

open List

open Filepath (slash)

abbrev ProtocolID := GoString

def baseProtocolPath : GoString := ascii "/d2hub/"

def fullProtoID (name : GoString) : ProtocolID :=
  baseProtocolPath ++ (if name.head? = some slash then name.drop 1 else name)

def lastIndex (text : GoString) (byte : UInt8) : Option Nat :=
  (text.reverse.idxOf? byte).map fun fromEnd => text.length - 1 - fromEnd

inductive RegisterError
  | noBasePath (name : GoString)
  | alreadyRegistered (pid : ProtocolID)
  deriving DecidableEq

def registeredID (name : GoString) (wildcard : Bool) : Except RegisterError ProtocolID :=
  if wildcard then
    match lastIndex name slash with
    | some index =>
      if 0 < index then .ok (fullProtoID (name.take (index + 1))) else .error (.noBasePath name)
    | none => .error (.noBasePath name)
  else .ok (fullProtoID name)

example : registeredID (ascii "tunnel/1.0") true = .ok (ascii "/d2hub/tunnel/") := by
  decide +kernel
example : registeredID (ascii "/push") true = .error (.noBasePath (ascii "/push")) := by
  decide +kernel

variable {Handler : Type}

structure Registration (Handler : Type) where
  wildcard : Bool
  handler : Handler
  deriving DecidableEq

def Registration.accepts (registration : Registration Handler) (pid id : ProtocolID) : Bool :=
  if registration.wildcard then pid.isPrefixOf id else pid == id

/-- The handlers of a host. Setting a handler replaces the one of the same ID. -/
abbrev Mux (Handler : Type) := AList fun _ : ProtocolID => Registration Handler

namespace Mux

variable (mux : Mux Handler)

/-- The handler that is registered under `pid`, if it takes streams with this ID. -/
def serves (id pid : ProtocolID) : Option Handler :=
  match mux.lookup pid with
  | some registration => if registration.accepts pid id then some registration.handler else none
  | none => none

def Dispatches (id : ProtocolID) (handler : Handler) : Prop :=
  ∃ pid, mux.serves id pid = some handler ∧ ∀ other, (mux.serves id other).isSome → other = pid

def dispatch (id : ProtocolID) : Option Handler :=
  match mux.entries.filter fun entry => entry.2.accepts entry.1 id with
  | [entry] => some entry.2.handler
  | _ => none

variable {mux}

theorem serves_eq_some {id : ProtocolID} :
    mux.serves id pid = some hd ↔ ∃ rgn, mux.lookup pid = some rgn ∧
      rgn.accepts pid id ∧ rgn.handler = hd := by
  rw [serves]
  split
  · rename_i rgn found
    rw [found]
    simp
  rename_i missing
  rw [missing]
  simp

theorem mem_filter_accepts {id : ProtocolID} :
    ⟨pid, rgn⟩ ∈ mux.entries.filter (fun e => e.2.accepts e.1 id) ↔
      mux.lookup pid = some rgn ∧ rgn.accepts pid id := by
  rw [mem_filter, ← AList.mem_lookup_iff, Option.mem_def]

theorem dispatches_iff_dispatch {id : ProtocolID} :
    mux.Dispatches id hd ↔ mux.dispatch id = some hd := by
  constructor
  · rintro ⟨pid, served, unique⟩
    rcases serves_eq_some.mp served with ⟨rgn, found, accepted, rfl⟩
    have only : mux.entries.filter (fun e => e.2.accepts e.1 id) = [⟨pid, rgn⟩] := by
      rw [← perm_singleton, perm_ext_iff_of_nodup
        (mux.nodupKeys.nodup.filter _) (nodup_singleton _)]
      rintro ⟨other, registered⟩
      rw [mem_filter_accepts, mem_singleton]
      constructor
      · rintro ⟨otherFound, otherAccepted⟩
        have same := unique other (Option.isSome_iff_exists.mpr
          ⟨_, serves_eq_some.mpr ⟨registered, otherFound, otherAccepted, rfl⟩⟩)
        rw [same, found, Option.some.injEq] at otherFound
        rw [same, otherFound]
      intro same
      cases same
      exact ⟨found, accepted⟩
    rw [dispatch, only]
  intro dispatched
  rw [dispatch] at dispatched
  split at dispatched
  · rename_i e only
    rw [Option.some.injEq] at dispatched
    have found := mem_filter_accepts.mp (only ▸ mem_singleton_self e)
    refine ⟨e.1, serves_eq_some.mpr ⟨e.2, found.1, found.2, dispatched⟩, ?_⟩
    intro other also
    rcases Option.isSome_iff_exists.mp also with ⟨otherHandler, served⟩
    rcases serves_eq_some.mp served with ⟨registered, otherFound, accepted, -⟩
    have mem := mem_filter_accepts.mpr ⟨otherFound, accepted⟩
    rw [only, mem_singleton] at mem
    exact congrArg Sigma.fst mem
  · cases dispatched

end Mux

structure Protocols (Handler : Type) where
  registry : AList fun _ : ProtocolID => Handler
  host : Option (Mux Handler)

namespace Protocols

def start : Protocols Handler := ⟨∅, none⟩

variable (prs : Protocols Handler)

def registerProtocol (name : GoString) (handler : Handler) (wildcard : Bool) :
    Except RegisterError (Protocols Handler) := do
  let pid ← registeredID name wildcard
  if pid ∈ prs.registry then throw (.alreadyRegistered pid)
  return {
    registry := prs.registry.insert pid handler
    host := prs.host.map fun mux => mux.insert pid ⟨wildcard, handler⟩ }

def unregisterProtocol (name : GoString) : Protocols Handler where
  registry := prs.registry.erase (fullProtoID name)
  host := prs.host.map fun mux => mux.erase (fullProtoID name)

def replayed (pid : ProtocolID) (handler : Handler) : Registration Handler where
  wildcard := pid.getLast? == some slash
  handler := handler

def replayProtocols : Mux Handler where
  entries := prs.registry.entries.map fun entry => ⟨entry.1, replayed entry.1 entry.2⟩
  nodupKeys := by
    rw [List.NodupKeys, List.keys, List.map_map]
    exact prs.registry.nodupKeys

def createHost : Protocols Handler :=
  { prs with host := some prs.replayProtocols }

inductive Call (Handler : Type)
  | register (name : GoString) (handler : Handler) (wildcard : Bool)
  | unregister (name : GoString)
  deriving DecidableEq

def act : Call Handler → Protocols Handler
  | .register name handler wildcard =>
    (prs.registerProtocol name handler wildcard).toOption.getD prs
  | .unregister name => prs.unregisterProtocol name

def run (calls : List (Call Handler)) : Protocols Handler := calls.foldl act prs

def mux : Mux Handler := prs.host.getD ∅

theorem lastIndex_spec (found : lastIndex text byte = some index) :
    index < text.length ∧ (index + 1 = text.length ↔ text.getLast? = some byte) := by
  obtain ⟨fromEnd, isFromEnd, rfl⟩ := Option.map_eq_some_iff.mp found
  obtain ⟨within, isByte, x⟩ := idxOf?_eq_some_iff.mp isFromEnd
  rw [length_reverse] at within
  refine ⟨by omega, ?_⟩
  rw [getLast?_eq_head?_reverse, head?_eq_getElem?,
    getElem?_eq_getElem (by rw [length_reverse]; omega), Option.some.injEq]
  constructor
  · intro atEnd
    have zero : fromEnd = 0 := by omega
    subst zero
    exact isByte
  intro isLast
  by_contra pre
  exact x 0 (by omega) isLast

/-- The name of a wildcard is cut off behind its last slash, and `UnregisterProtocol` takes the
whole name. -/
theorem registeredID_eq_iff (registered : registeredID name wildcard = .ok pid) :
    pid = fullProtoID name ↔ (wildcard → name.getLast? = some slash) := by
  cases wildcard with
  | false =>
    cases registered
    exact iff_of_true rfl nofun
  | true =>
    rw [registeredID, if_pos rfl] at registered
    split at registered
    · rename_i index found
      split at registered
      · cases registered
        obtain ⟨within, atEnd⟩ := lastIndex_spec found
        have head : (name.take (index + 1)).head? = name.head? := by simp [head?_take]
        rw [← atEnd, fullProtoID, fullProtoID, head, append_cancel_left_eq]
        constructor
        · intro same _
          have lengths := congrArg length same
          split at lengths <;> simp only [length_drop, length_take] at lengths <;> omega
        · intro whole
          rw [whole rfl, take_length]
      · cases registered
    · cases registered

theorem registerProtocol_eq_ok {pre : Protocols Handler} :
    pre.registerProtocol name hd wildcard = .ok post ↔
      ∃ pid, registeredID name wildcard = .ok pid ∧ pid ∉ pre.registry ∧
        ⟨pre.registry.insert pid hd,
          pre.host.map fun mux => mux.insert pid ⟨wildcard, hd⟩⟩ = post := by
  rw [registerProtocol]
  cases registeredID name wildcard with
  | error => exact iff_of_false nofun (by simp)
  | ok pid =>
    by_cases has : pid ∈ pre.registry <;>
      simp [bind, Except.bind, has, throw, throwThe, MonadExceptOf.throw, pure, Except.pure]

theorem erase_insert (pid : ProtocolID) (val : β) (list : AList fun _ : ProtocolID => β) :
    AList.erase pid (list.insert pid val) = list.erase pid :=
  AList.ext (kerase_cons_eq rfl)

/-- A registration is undone: it is neither in the registry nor at the host, everything else is
as before, and the name can be registered again. -/
structure Undone (before after : Protocols Handler) (name : GoString) (handler : Handler)
    (wildcard : Bool) : Prop where
  registry : after.registry = before.registry
  removed : ∀ pid, registeredID name wildcard = .ok pid → after.mux.lookup pid = none
  others : ∀ pid, registeredID name wildcard ≠ .ok pid →
    after.mux.lookup pid = before.mux.lookup pid
  again : ∃ once, after.registerProtocol name handler wildcard = .ok once

/-- `UnregisterProtocol` undoes `RegisterProtocol` unless the name of a wildcard goes on behind
its last slash. -/
theorem undone_iff {before after : Protocols Handler} {name : GoString} {handler : Handler}
    {wildcard : Bool} (registered : before.registerProtocol name handler wildcard = .ok after) :
    Undone before (after.unregisterProtocol name) name handler wildcard ↔
      (wildcard = true → name.getLast? = some slash) := by
  obtain ⟨pid, isKey, absent, rfl⟩ := registerProtocol_eq_ok.mp registered
  rw [← registeredID_eq_iff isKey]
  constructor
  · intro undone
    by_contra other
    have found := congrArg (AList.lookup pid) undone.registry
    rw [unregisterProtocol, AList.lookup_erase_ne other, AList.lookup_insert,
      AList.lookup_eq_none.mpr absent] at found
    cases found
  intro same
  have restored : AList.erase (fullProtoID name) (before.registry.insert pid handler) =
      before.registry := by
    rw [← same, erase_insert]
    exact AList.ext (List.kerase_of_notMem_keys (mt AList.mem_keys.mpr absent))
  have isMux : (unregisterProtocol ⟨before.registry.insert pid handler,
      before.host.map fun mux => mux.insert pid ⟨wildcard, handler⟩⟩ name).mux =
        before.mux.erase pid := by
    rw [unregisterProtocol, mux, mux, ← same]
    cases before.host with
    | none => rfl
    | some mux => exact erase_insert pid _ mux
  refine ⟨restored, ?_, ?_, ?_⟩
  · intro other isOther
    cases isKey.symm.trans isOther
    rw [isMux, AList.lookup_erase]
  · intro other isOther
    have different : other ≠ pid := fun equal => isOther (equal ▸ isKey)
    rw [isMux, AList.lookup_erase_ne different]
  refine ⟨_, registerProtocol_eq_ok.mpr ⟨pid, isKey, ?_, rfl⟩⟩
  rw [unregisterProtocol, restored]
  exact absent

theorem undone_echo :
    ∃ after, start.registerProtocol (ascii "echo/1.0") () false = .ok after ∧
      Undone start (after.unregisterProtocol (ascii "echo/1.0")) (ascii "echo/1.0") () false :=
  ⟨_, rfl, (undone_iff rfl).mpr nofun⟩

theorem tunnel_not_undone :
    ∃ after, start.registerProtocol (ascii "tunnel/1.0") () true = .ok after ∧
      (after.unregisterProtocol (ascii "tunnel/1.0")).registry.lookup (ascii "/d2hub/tunnel/") =
        some () ∧
      ¬Undone start (after.unregisterProtocol (ascii "tunnel/1.0")) (ascii "tunnel/1.0") ()
        true := by
  refine ⟨_, rfl, by decide +kernel, ?_⟩
  intro undone
  have found := congrArg (AList.lookup (ascii "/d2hub/tunnel/")) undone.registry
  revert found
  decide +kernel

end Protocols

end Peerscale.P2put
