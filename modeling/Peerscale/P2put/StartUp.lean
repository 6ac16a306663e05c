import Peerscale.P2put.Protocols

/-! # Start-up order

The registry does not keep whether a name was registered as a wildcard. `replayProtocols`
takes every ID that ends in a slash for one, so that a handler for such a name alone gets more
streams if it was registered before there was a host.
-/

namespace Peerscale.P2put

open List AList Option

open Filepath (slash)

variable {Handler : Type}

theorem accepts_wildcard {id : ProtocolID} :
    (⟨true, hd⟩ : Registration Handler).accepts pid id ↔ pid <+: id :=
  isPrefixOf_iff_prefix

theorem accepts_exact {id : ProtocolID} :
    (⟨false, hd⟩ : Registration Handler).accepts pid id ↔ pid = id :=
  beq_iff_eq

def Mux.Covers (mux : Mux Handler) (pid : ProtocolID) : Prop :=
  ∃ first second, first ≠ second ∧ (∃ hd, mux.lookup first = some ⟨true, hd⟩) ∧ first <+: pid ∧
    (∃ hd, mux.lookup second = some ⟨true, hd⟩) ∧ second <+: pid

theorem Mux.Covers.two_serve {id : ProtocolID} (covered : Covers mux pid) (under : pid <+: id) :
    ∃ x y, x ≠ y ∧ (mux.serves id x).isSome ∧ (mux.serves id y).isSome := by
  rcases covered with ⟨x, y, ne, ⟨firstHandler, firstFound⟩, firstUnder,
    ⟨secondHandler, secondFound⟩, secondUnder⟩
  refine ⟨x, y, ne, isSome_iff_exists.mpr ⟨firstHandler, ?_⟩,
    isSome_iff_exists.mpr ⟨secondHandler, ?_⟩⟩
  · exact Mux.serves_eq_some.mpr ⟨_, firstFound, accepts_wildcard.mpr (firstUnder.trans under), rfl⟩
  · exact Mux.serves_eq_some.mpr
      ⟨_, secondFound, accepts_wildcard.mpr (secondUnder.trans under), rfl⟩

/-- Two hosts that differ in what is registered for a name alone in the first one and as a
wildcard in the second one. -/
structure Widened (widened : ProtocolID → Prop) (narrow wide : Mux Handler) : Prop where
  same : ∀ pid, ¬widened pid → wide.lookup pid = narrow.lookup pid
  differs : ∀ pid, widened pid → ∃ hd, narrow.lookup pid = some ⟨false, hd⟩ ∧
    wide.lookup pid = some ⟨true, hd⟩
  slashed : ∀ pid, widened pid ∨ (∃ hd, narrow.lookup pid = some ⟨true, hd⟩) →
    pid.getLast? = some slash

namespace Widened

variable {widened : ProtocolID → Prop} {narrow wide : Mux Handler}
  (relation : Widened widened narrow wide) {id pid : ProtocolID} {hd : Handler}

include relation

theorem serves_wide (served : narrow.serves id pid = some hd) : wide.serves id pid = some hd := by
  rcases Mux.serves_eq_some.mp served with ⟨rgn, found, accepted, rfl⟩
  rw [Mux.serves_eq_some]
  by_cases isWidened : widened pid
  · rcases relation.differs pid isWidened with ⟨hd, narrowly, widely⟩
    rw [found, some.injEq] at narrowly
    subst narrowly
    have exactly : pid = id := accepts_exact.mp accepted
    subst exactly
    exact ⟨_, widely, accepts_wildcard.mpr prefix_rfl, rfl⟩
  · exact ⟨rgn, (relation.same pid isWidened).trans found, accepted, rfl⟩

theorem serves_narrow (served : wide.serves id pid = some hd) :
    narrow.serves id pid = some hd ∨ widened pid ∧ pid <+: id := by
  rcases Mux.serves_eq_some.mp served with ⟨rgn, found, accepted, rfl⟩
  by_cases isWidened : widened pid
  · rcases relation.differs pid isWidened with ⟨hd, narrowly, widely⟩
    rw [found, some.injEq] at widely
    subst widely
    exact .inr ⟨isWidened, accepts_wildcard.mp accepted⟩
  · rw [relation.same pid isWidened] at found
    exact .inl (Mux.serves_eq_some.mpr ⟨rgn, found, accepted, rfl⟩)

theorem isSome_wide (served : (narrow.serves id pid).isSome) : (wide.serves id pid).isSome := by
  rcases isSome_iff_exists.mp served with ⟨hd, isHandler⟩
  exact isSome_iff_exists.mpr ⟨hd, relation.serves_wide isHandler⟩

theorem dispatches_iff (covered : ∀ pid, widened pid → narrow.Covers pid) :
    wide.Dispatches id hd ↔ narrow.Dispatches id hd := by
  constructor
  · rintro ⟨pid, served, unique⟩
    rcases relation.serves_narrow served with narrowly | ⟨isWidened, under⟩
    · exact ⟨pid, narrowly, fun other also => unique other (relation.isSome_wide also)⟩
    rcases (covered pid isWidened).two_serve under with ⟨x, y, ne, firstServes, secondServes⟩
    exact absurd ((unique x (relation.isSome_wide firstServes)).trans
      (unique y (relation.isSome_wide secondServes)).symm) ne
  rintro ⟨pid, served, unique⟩
  refine ⟨pid, relation.serves_wide served, ?_⟩
  intro other also
  rcases isSome_iff_exists.mp also with ⟨otherHandler, otherServed⟩
  rcases relation.serves_narrow otherServed with narrowly | ⟨isWidened, under⟩
  · exact unique other (isSome_iff_exists.mpr ⟨otherHandler, narrowly⟩)
  rcases (covered other isWidened).two_serve under with ⟨x, y, ne, firstServes, secondServes⟩
  exact absurd ((unique x firstServes).trans (unique y secondServes).symm) ne

end Widened

/-! ## IDs that nothing else is registered for -/

theorem prefix_of_slashed {pid : GoString} (slashed : pid.getLast? = some slash)
    (plain : slash ∉ rest) (under : pid <+: start ++ rest) : pid <+: start := by
  rcases prefix_or_prefix_of_prefix under (prefix_append start rest) with
    within | ⟨more, rfl⟩
  · exact within
  cases more with
  | nil => simp only [append_nil, prefix_rfl]
  | cons =>
    rw [prefix_append_right_inj] at under
    rw [getLast?_append_of_ne_nil _ (cons_ne_nil _ _)] at slashed
    exact absurd (under.subset (mem_of_getLast? slashed)) plain

namespace Widened

variable {widened : ProtocolID → Prop} {narrow wide : Mux Handler}
  (relation : Widened widened narrow wide)

include relation

theorem exists_fresh (start : ProtocolID) :
    ∃ id, start <+: id ∧ (∀ pid, (wide.serves id pid).isSome → pid <+: start) ∧
      ∀ pid, (narrow.serves id pid).isSome →
        pid <+: start ∧ ∃ hd, narrow.lookup pid = some ⟨true, hd⟩ := by
  let rest : GoString := List.replicate (narrow.keys.flatten.length + 1) 97
  have plain : slash ∉ rest := by
    intro mem
    exact absurd (eq_of_mem_replicate mem) (by decide)
  have narrowly : ∀ pid, (narrow.serves (start ++ rest) pid).isSome →
      pid <+: start ∧ ∃ hd, narrow.lookup pid = some ⟨true, hd⟩ := by
    intro pid served
    rcases isSome_iff_exists.mp served with ⟨hd, isHandler⟩
    rcases Mux.serves_eq_some.mp isHandler with ⟨⟨wildcard, registered⟩, found, accepted, -⟩
    cases wildcard with
    | true =>
      exact ⟨prefix_of_slashed (relation.slashed pid (.inr ⟨registered, found⟩)) plain
        (accepts_wildcard.mp accepted), registered, found⟩
    | false =>
      have key : pid ∈ narrow.keys :=
        mem_keys.mpr (lookup_isSome.mp (isSome_iff_exists.mpr ⟨_, found⟩))
      have short := (sublist_flatten_of_mem key).length_le
      rw [accepts_exact.mp accepted, length_append, length_replicate] at short
      omega
  refine ⟨start ++ rest, prefix_append _ _, ?_, narrowly⟩
  intro pid served
  rcases isSome_iff_exists.mp served with ⟨hd, isHandler⟩
  rcases relation.serves_narrow isHandler with alike | ⟨isWidened, under⟩
  · exact (narrowly pid (isSome_iff_exists.mpr ⟨hd, alike⟩)).1
  · exact prefix_of_slashed (relation.slashed pid (.inl isWidened)) plain under

theorem exists_differs (isWidened : widened pid) (uncovered : ¬narrow.Covers pid) :
    ¬∀ id hd, wide.Dispatches id hd ↔ narrow.Dispatches id hd := by
  intro same
  -- The shortest one: no other one is widened above it.
  induction length : pid.length using Nat.strongRecOn generalizing pid with
  | ind size ih =>
    rcases relation.differs pid isWidened with ⟨hd, narrowly, widely⟩
    rcases relation.exists_fresh pid with ⟨id, under, fresh, wildcards⟩
    have own : wide.serves id pid = some hd :=
      Mux.serves_eq_some.mpr ⟨_, widely, accepts_wildcard.mpr under, rfl⟩
    by_cases above : ∃ other, (narrow.serves id other).isSome
    · rcases above with ⟨other, served⟩
      rcases isSome_iff_exists.mp served with ⟨otherHandler, isHandler⟩
      have dispatched : narrow.Dispatches id otherHandler := by
        refine ⟨other, isHandler, ?_⟩
        intro another also
        by_contra ne
        exact uncovered ⟨another, other, ne, (wildcards another also).2,
          (wildcards another also).1, (wildcards other served).2, (wildcards other served).1⟩
      rcases (same id otherHandler).mpr dispatched with ⟨only, -, unique⟩
      have isPid := unique pid (isSome_iff_exists.mpr ⟨hd, own⟩)
      have isOther := unique other (relation.isSome_wide served)
      rcases (wildcards other served).2 with ⟨registered, found⟩
      rw [isOther, ← isPid, narrowly] at found
      cases found
    have dispatched : wide.Dispatches id hd := by
      refine ⟨pid, own, ?_⟩
      intro other also
      by_contra ne
      rcases isSome_iff_exists.mp also with ⟨otherHandler, isHandler⟩
      rcases relation.serves_narrow isHandler with alike | ⟨otherWidened, -⟩
      · exact above ⟨other, isSome_iff_exists.mpr ⟨otherHandler, alike⟩⟩
      have within := fresh other also
      have shorter : other.length < size := by
        rw [← length]
        exact lt_of_le_of_ne within.length_le fun eq => ne (within.eq_of_length eq)
      refine ih other.length shorter otherWidened ?_ rfl
      rintro ⟨x, y, apart, firstFound, firstUnder, secondFound, secondUnder⟩
      exact uncovered ⟨x, y, apart, firstFound, firstUnder.trans within,
        secondFound, secondUnder.trans within⟩
    rcases (same id hd).mp dispatched with ⟨only, served, -⟩
    exact above ⟨only, isSome_iff_exists.mpr ⟨hd, served⟩⟩

theorem insert {rgn : Registration Handler} (kept : ¬widened pid)
    (slashed : rgn.wildcard → pid.getLast? = some slash) :
    Widened widened (insert pid rgn narrow) (insert pid rgn wide) where
  same other alike := by
    by_cases isPid : other = pid
    · rw [isPid, lookup_insert, lookup_insert]
    · rw [lookup_insert_ne isPid, lookup_insert_ne isPid]
      exact relation.same other alike
  differs other isWidened := by
    have isOther : other ≠ pid := fun isPid => kept (isPid ▸ isWidened)
    rw [lookup_insert_ne isOther, lookup_insert_ne isOther]
    exact relation.differs other isWidened
  slashed other := by
    by_cases isPid : other = pid
    · rw [isPid, lookup_insert]
      rintro (isWidened | ⟨hd, found⟩)
      · exact absurd isWidened kept
      · rw [some.injEq] at found
        exact slashed (congrArg Registration.wildcard found)
    · rw [lookup_insert_ne isPid]
      exact relation.slashed other

theorem erase (pid : ProtocolID) :
    Widened (fun other => widened other ∧ pid ≠ other) (erase pid narrow) (erase pid wide) where
  same other alike := by
    by_cases isPid : other = pid
    · rw [isPid, lookup_erase, lookup_erase]
    · rw [lookup_erase_ne isPid, lookup_erase_ne isPid]
      exact relation.same other fun isWidened => alike ⟨isWidened, Ne.symm isPid⟩
  differs other isWidened := by
    rw [lookup_erase_ne isWidened.2.symm, lookup_erase_ne isWidened.2.symm]
    exact relation.differs other isWidened.1
  slashed other := by
    rintro (isWidened | ⟨hd, found⟩)
    · exact relation.slashed other (.inl isWidened.1)
    by_cases isPid : other = pid
    · rw [isPid, lookup_erase] at found
      cases found
    · rw [lookup_erase_ne isPid] at found
      exact relation.slashed other (.inr ⟨hd, found⟩)

end Widened

/-! ## Registering before and after the host is created -/

theorem getLast?_fullProtoID {name : GoString} (long : 1 < name.length)
    (slashed : name.getLast? = some slash) : (fullProtoID name).getLast? = some slash := by
  have dropped : (name.drop 1).getLast? = some slash := by
    rw [getLast?_drop, if_neg (Nat.not_le.mpr long), slashed]
  rw [fullProtoID, getLast?_append]
  split
  · rw [dropped, some_or]
  · rw [slashed, some_or]

theorem getLast?_take_lastIndex (last : lastIndex name byte = some index) :
    index < name.length ∧ (name.take (index + 1)).getLast? = some byte := by
  rw [lastIndex, map_eq_some_iff] at last
  rcases last with ⟨fromEnd, isIndex, rfl⟩
  rcases findIdx?_eq_some_iff_getElem.mp isIndex with ⟨within, isByte, -⟩
  rw [length_reverse] at within
  refine ⟨by omega, ?_⟩
  have inside : name.length - 1 - fromEnd < name.length := by omega
  rw [getLast?_take, if_neg (by omega), Nat.add_sub_cancel, getElem?_eq_getElem inside,
    some_or, ← beq_iff_eq.mp isByte, getElem_reverse]

theorem slashed_of_registeredID (registered : registeredID name true = .ok pid) :
    pid.getLast? = some slash := by
  rw [registeredID, if_pos rfl] at registered
  split at registered
  · rename_i index last
    split at registered
    · rename_i pos
      rw [Except.ok.injEq] at registered
      rcases getLast?_take_lastIndex last with ⟨within, slashed⟩
      rw [← registered]
      apply getLast?_fullProtoID _ slashed
      rw [length_take]
      omega
    · cases registered
  · cases registered

namespace Protocols

def Call.Unregisters (pid : ProtocolID) : Call Handler → Prop
  | .register _ _ _ => False
  | .unregister name => fullProtoID name = pid

instance (pid : ProtocolID) (call : Call Handler) : Decidable (call.Unregisters pid) :=
  match call with
  | .register _ _ _ => inferInstanceAs (Decidable False)
  | .unregister _ => inferInstanceAs (Decidable (_ = _))

def insert (protocols : Protocols Handler) (pid : ProtocolID)
    (registration : Registration Handler) : Protocols Handler where
  registry := protocols.registry.insert pid registration.handler
  host := protocols.host.map fun mux => AList.insert pid registration mux

inductive Change (registry : AList fun _ : ProtocolID => Handler) :
    Call Handler → (Protocols Handler → Protocols Handler) → Prop
  | nothing {call : Call Handler} (noRemoval : ∀ pid, ¬call.Unregisters pid) :
      Change registry call fun protocols => protocols
  | inserts {call : Call Handler} (pid : ProtocolID) (registration : Registration Handler)
      (noRemoval : ∀ pid, ¬call.Unregisters pid) (isNew : registry.lookup pid = none)
      (slashed : registration.wildcard → pid.getLast? = some slash) :
      Change registry call fun protocols => protocols.insert pid registration
  | erases (name : GoString) :
      Change registry (.unregister name) fun protocols => protocols.unregisterProtocol name

theorem exists_change (reg : AList fun _ : ProtocolID => Handler) (call : Call Handler) :
    ∃ change, Change reg call change ∧ ∀ prs : Protocols Handler, prs.registry = reg →
        prs.act call = change prs := by
  cases call with
  | unregister name => exact ⟨_, .erases name, fun _ _ => rfl⟩
  | register name hd wildcard =>
    cases registered : registeredID name wildcard with
    | error =>
      refine ⟨_, .nothing fun _ => id, ?_⟩
      intro prs same
      rw [act, registerProtocol, registered]
      rfl
    | ok pid =>
      by_cases has : pid ∈ reg
      · refine ⟨_, .nothing fun _ => id, ?_⟩
        rintro prs rfl
        rw [act, registerProtocol, registered]
        simp [bind, Except.bind, has, Except.toOption, throw, throwThe, MonadExceptOf.throw]
      refine ⟨_, .inserts pid ⟨wildcard, hd⟩ (fun _ => id) (lookup_eq_none.mpr has) ?_, ?_⟩
      · rintro rfl
        exact slashed_of_registeredID registered
      rintro prs rfl
      rw [act, registerProtocol, registered]
      simp [bind, Except.bind, has, Except.toOption, pure, Except.pure, insert]

structure Agrees (registry : AList fun _ : ProtocolID => Handler) (mux : Mux Handler) :
    Prop where
  handlers : ∀ pid, (mux.lookup pid).map Registration.handler = registry.lookup pid
  slashed : ∀ pid hd, mux.lookup pid = some ⟨true, hd⟩ → pid.getLast? = some slash

namespace Agrees

variable {reg : AList fun _ : ProtocolID => Handler} {mux : Mux Handler} (agrees : Agrees reg mux)

include agrees

theorem insert {pid : ProtocolID} {rgn : Registration Handler}
    (slashed : rgn.wildcard → pid.getLast? = some slash) :
    Agrees (reg.insert pid rgn.handler) (AList.insert pid rgn mux) where
  handlers other := by
    by_cases same : other = pid
    · rw [same, AList.lookup_insert, AList.lookup_insert]
      rfl
    · rw [AList.lookup_insert_ne same, AList.lookup_insert_ne same]
      exact agrees.handlers other
  slashed other registered found := by
    by_cases same : other = pid
    · rw [same, AList.lookup_insert, some.injEq] at found
      rw [same]
      exact slashed (congrArg Registration.wildcard found)
    · rw [AList.lookup_insert_ne same] at found
      exact agrees.slashed other registered found

theorem erase (pid : ProtocolID) : Agrees (reg.erase pid) (erase pid mux) where
  handlers other := by
    by_cases same : other = pid
    · rw [same, lookup_erase, lookup_erase]
      rfl
    · rw [lookup_erase_ne same, lookup_erase_ne same]
      exact agrees.handlers other
  slashed other registered found := by
    by_cases same : other = pid
    · rw [same, lookup_erase] at found
      cases found
    · rw [lookup_erase_ne same] at found
      exact agrees.slashed other registered found

end Agrees

structure Hosted (protocols : Protocols Handler) : Prop where
  host : protocols.host = some protocols.mux
  agrees : Agrees protocols.registry protocols.mux

theorem mux_insert {prs : Protocols Handler} (host : prs.host = some prs.mux)
    (pid : ProtocolID) (rgn : Registration Handler) :
    (prs.insert pid rgn).host = some (AList.insert pid rgn prs.mux) ∧
      (prs.insert pid rgn).mux = AList.insert pid rgn prs.mux := by
  have inserted : (prs.insert pid rgn).host = some (AList.insert pid rgn prs.mux) := by
    rw [insert, host]
    rfl
  exact ⟨inserted, by rw [mux, inserted]; rfl⟩

theorem mux_unregisterProtocol {prs : Protocols Handler}
    (host : prs.host = some prs.mux) (name : GoString) :
    (prs.unregisterProtocol name).host = some (erase (fullProtoID name) prs.mux) ∧
      (prs.unregisterProtocol name).mux = erase (fullProtoID name) prs.mux := by
  have erased : (prs.unregisterProtocol name).host = some (erase (fullProtoID name) prs.mux) := by
    rw [unregisterProtocol, host]
    rfl
  exact ⟨erased, by rw [mux, erased]; rfl⟩

theorem Hosted.change (hosted : Hosted prs) {change : Protocols Handler → Protocols Handler}
    (changes : Change prs.registry call change) : (change prs).Hosted := by
  cases changes with
  | nothing => exact hosted
  | inserts pid rgn noRemoval isNew slashed =>
    rcases mux_insert hosted.host pid rgn with ⟨host, isMux⟩
    refine ⟨by rw [host, isMux], ?_⟩
    rw [isMux]
    exact hosted.agrees.insert slashed
  | erases name =>
    rcases mux_unregisterProtocol hosted.host name with ⟨host, isMux⟩
    refine ⟨by rw [host, isMux], ?_⟩
    rw [isMux]
    exact hosted.agrees.erase _

theorem registry_change {early late : Protocols Handler} (same : late.registry = early.registry)
    (changes : Change early.registry call change) :
    (change late).registry = (change early).registry := by
  cases changes with
  | nothing => exact same
  | inserts pid rgn => exact congrArg (AList.insert pid rgn.handler) same
  | erases => exact congrArg (AList.erase _) same

structure Unreplayed (early late : Protocols Handler) : Prop where
  hosted : early.Hosted
  registry : late.registry = early.registry
  none : late.host = none

theorem Unreplayed.act (relation : Unreplayed early late) (call : Call Handler) :
    Unreplayed (early.act call) (late.act call) := by
  rcases exists_change early.registry call with ⟨change, changes, does⟩
  rw [does early rfl, does late relation.registry]
  refine ⟨relation.hosted.change changes, registry_change relation.registry changes, ?_⟩
  cases changes with
  | nothing => exact relation.none
  | inserts pid rgn => exact congrArg (Option.map fun mux => AList.insert pid rgn mux) relation.none
  | erases name =>
    exact congrArg (Option.map fun mux => AList.erase (fullProtoID name) mux) relation.none

theorem Unreplayed.run (relation : Unreplayed early late) (calls : List (Call Handler)) :
    Unreplayed (early.run calls) (late.run calls) := by
  induction calls generalizing early late with
  | nil => exact relation
  | cons call calls ih => exact ih (relation.act call)

structure Replayed (widened : ProtocolID → Prop) (early late : Protocols Handler) : Prop where
  hosted : early.Hosted
  registry : late.registry = early.registry
  host : late.host = some late.mux
  muxes : Widened widened early.mux late.mux

theorem lookup_replayProtocols (prs : Protocols Handler) (pid : ProtocolID) :
    prs.replayProtocols.lookup pid = (prs.registry.lookup pid).map (replayed pid) := by
  cases found : prs.registry.lookup pid with
  | none =>
    rw [AList.lookup_eq_none] at found
    rw [map_none, AList.lookup_eq_none]
    intro mem
    apply found
    rw [AList.mem_keys, AList.keys, List.keys] at mem ⊢
    simpa [replayProtocols] using mem
  | some =>
    rw [← mem_def, AList.mem_lookup_iff] at found
    rw [map_some, ← mem_def, AList.mem_lookup_iff]
    exact mem_map.mpr ⟨_, found, rfl⟩

def Misread (protocols : Protocols Handler) (pid : ProtocolID) : Prop :=
  (∃ hd, protocols.mux.lookup pid = some ⟨false, hd⟩) ∧ pid.getLast? = some slash

theorem Unreplayed.createHost {early late : Protocols Handler}
    (relation : Unreplayed early late) : Replayed early.Misread early late.createHost where
  hosted := relation.hosted
  registry := relation.registry
  host := rfl
  muxes := by
    have isMux : late.createHost.mux = late.replayProtocols := rfl
    have replays : ∀ pid, late.createHost.mux.lookup pid =
        (early.mux.lookup pid).map fun rgn => replayed pid rgn.handler := by
      intro pid
      rw [isMux, lookup_replayProtocols, relation.registry,
        ← relation.hosted.agrees.handlers, Option.map_map]
      rfl
    refine ⟨?_, ?_, ?_⟩
    · intro pid kept
      rw [replays]
      rcases found : early.mux.lookup pid with _ | ⟨wildcard, hd⟩
      · rfl
      rw [Option.map_some, Option.some.injEq]
      cases wildcard with
      | true => simp [replayed, relation.hosted.agrees.slashed pid _ found]
      | false =>
        have plain : pid.getLast? ≠ some slash := fun slashed => kept ⟨⟨hd, found⟩, slashed⟩
        simp [replayed, plain]
    · rintro pid ⟨⟨hd, found⟩, slashed⟩
      refine ⟨hd, found, ?_⟩
      rw [replays, found]
      simp [replayed, slashed]
    rintro pid (⟨-, slashed⟩ | ⟨hd, found⟩)
    · exact slashed
    · exact relation.hosted.agrees.slashed pid _ found

namespace Replayed

theorem act (relation : Replayed widened early late) (call : Call Handler) :
    Replayed (fun pid => widened pid ∧ ¬call.Unregisters pid) (early.act call) (late.act call) := by
  rcases exists_change early.registry call with ⟨change, changes, does⟩
  rw [does early rfl, does late relation.registry]
  have hosted := relation.hosted.change changes
  have reg := registry_change relation.registry changes
  cases changes with
  | nothing noRemoval =>
    refine ⟨hosted, reg, relation.host, ?_⟩
    simpa only [noRemoval, not_false_eq_true, and_true] using relation.muxes
  | inserts pid rgn noRemoval isNew slashed =>
    have kept : ¬widened pid := by
      intro isWidened
      rcases relation.muxes.differs pid isWidened with ⟨hd, found, -⟩
      have registered := relation.hosted.agrees.handlers pid
      rw [found, isNew] at registered
      cases registered
    rcases mux_insert relation.host pid rgn with ⟨host, isMux⟩
    refine ⟨hosted, reg, by rw [host, isMux], ?_⟩
    rw [isMux, (mux_insert relation.hosted.host pid rgn).2]
    simpa only [noRemoval, not_false_eq_true, and_true] using relation.muxes.insert kept slashed
  | erases name =>
    rcases mux_unregisterProtocol relation.host name with ⟨host, isMux⟩
    refine ⟨hosted, reg, by rw [host, isMux], ?_⟩
    rw [isMux, (mux_unregisterProtocol relation.hosted.host name).2]
    exact relation.muxes.erase _

theorem run (relation : Replayed widened early late) (calls : List (Call Handler)) :
    Replayed (fun pid => widened pid ∧ ∀ call ∈ calls, ¬call.Unregisters pid) (early.run calls)
      (late.run calls) := by
  induction calls generalizing early late widened with
  | nil => simpa [Protocols.run] using relation
  | cons call calls ih =>
    have ran := ih (relation.act call)
    simpa only [forall_mem_cons, and_assoc, Protocols.run, foldl_cons] using ran

end Replayed

def hostFirst (before after : List (Call Handler)) : Protocols Handler :=
  (start.createHost.run before).run after

def hostBetween (before after : List (Call Handler)) : Protocols Handler :=
  (start.run before).createHost.run after

theorem hosted_start : (start : Protocols Handler).createHost.Hosted where
  host := rfl
  agrees := ⟨fun _ => rfl, nofun⟩

/-- The order does not matter if and only if what is misread, and stays, is covered. -/
theorem hostBetween_dispatches_iff (before after : List (Call Handler)) :
    (∀ id handler, (hostBetween before after).mux.Dispatches id handler ↔
        (hostFirst before after).mux.Dispatches id handler) ↔
      ∀ pid, (start.createHost.run before).Misread pid →
        (∀ call ∈ after, ¬call.Unregisters pid) → (hostFirst before after).mux.Covers pid := by
  have unreplayed : Unreplayed (start : Protocols Handler).createHost start :=
    ⟨hosted_start, rfl, rfl⟩
  have relation := ((unreplayed.run before).createHost.run after).muxes
  constructor
  · intro same pid misread stays
    by_contra uncovered
    exact relation.exists_differs ⟨misread, stays⟩ uncovered same
  · intro covered id handler
    exact relation.dispatches_iff fun pid misread => covered pid misread.1 misread.2

/-- A handler for `foo/` alone. If the host comes later, then it also gets `foo/x`. -/
theorem hostBetween_widens :
    (hostBetween [.register (ascii "foo/") 0 false] []).mux.Dispatches (ascii "/d2hub/foo/x") 0 ∧
      ¬(hostFirst [.register (ascii "foo/") 0 false] []).mux.Dispatches
        (ascii "/d2hub/foo/x") 0 := by
  rw [Mux.dispatches_iff_dispatch, Mux.dispatches_iff_dispatch]
  decide +kernel

end Protocols

end Peerscale.P2put
