import Peerscale.RelayPool.Calls
import Peerscale.RelayPool.Manager

/-! # The addresses that a RelayPool hands out

`Add` is given the address of a relay with its peer ID at the end, and keeps one part of it.
`Select` and `SelectN` return what was kept.
-/

namespace Peerscale.RelayPool

open Multiaddr

open List Prod Pool.Each

/-- What a call of `Select` draws: whether it takes any of the relays, the index of that one,
and a fraction of the sum of the scores. -/
structure Draw where
  explores : Bool
  intn : Nat → Nat
  fraction : Rat

def entryAt (mark : Rat) : List (AddrInfo × Rat) → Option AddrInfo
  | [] => none
  | entry :: entries =>
    if mark - entry.2 ≤ 0 then some entry.1 else entryAt (mark - entry.2) entries

namespace Pool

variable (pool : Pool)

/-- The relay whose address `Select` returns. The entries are in the order of an iteration. -/
def selectEntry (clock : PeerID → Time) (shuffle : Shuffle (AddrInfo × Rat)) (draw : Draw) :
    Option AddrInfo :=
  let entries := shuffle.order (pool.scoredEntries clock)
  let drawn := entries[draw.intn entries.length]?.map Prod.fst
  let total := (entries.map Prod.snd).sum
  if draw.explores then drawn
  else if total = 0 then drawn
  else (entryAt (draw.fraction * total) entries).or (entries.getLast?.map Prod.fst)

def setRelayLimits (pid : PeerID) (duration : Duration) (data : Int) : Pool :=
  pool.update pid fun item => { item with limitDuration := duration, limitData := data }

def setWeights (config : WeightConfig) : Pool := { pool with config := config }

def setWeight (factor : Int) (value : Rat) : Pool :=
  let value := min (max value 0) 1
  match factor with
  | 0 => pool.setWeights { pool.config with success := value }
  | 1 => pool.setWeights { pool.config with latency := value }
  | 2 => pool.setWeights { pool.config with dataLimit := value }
  | 3 => pool.setWeights { pool.config with durationLimit := value }
  | 4 => pool.setWeights { pool.config with ttl := value }
  | 5 => pool.setWeights { pool.config with uptime := value }
  | _ => pool

end Pool

def Calls.Action.isAdd : Calls.Action → Bool
  | .add _ _ _ => true
  | _ => false

/-- What is done with a pool. An item gets into it only by an `Add` with an address. -/
inductive Use
  | add (address : Multiaddr) (now : Time)
  | act (action : Calls.Action) (other : action.isAdd = false)
  | setRelayLimits (pid : PeerID) (duration : Duration) (data : Int)
  | setReservationTTL (pid : PeerID) (expires : Time)
  | addManaged (pids : List PeerID)
  | removeManaged (pids : List PeerID)
  | setWeights (config : WeightConfig)
  | setWeight (factor : Int) (value : Rat)

def Use.addStatic (transport : Multiaddr) (text : GoString) (now : Time) : Use :=
  .add (transport ++ [⟨P_P2P, text⟩]) now

namespace Calls

def use (decode : GoString → Option PeerID) (calls : Calls) : Use → Calls
  | .add address now =>
    match addTarget decode address with
    | none => calls
    | some (pid, addr) => calls.act (.add pid addr now)
  | .act action _ => calls.act action
  | .setRelayLimits pid duration data =>
    { calls with pool := calls.pool.setRelayLimits pid duration data }
  | .setReservationTTL pid expires =>
    { calls with pool := calls.pool.setReservationTTL pid expires }
  | .addManaged pids => { calls with pool := calls.pool.addManaged pids }
  | .removeManaged pids => { calls with pool := calls.pool.removeManaged pids }
  | .setWeights config => { calls with pool := calls.pool.setWeights config }
  | .setWeight factor value => { calls with pool := calls.pool.setWeight factor value }

def usage (decode : GoString → Option PeerID) : Machine Calls Use := ⟨use decode⟩

def fresh (config : WeightConfig) : Calls where
  pool := newRelayPool config
  pending := 0
  rounds := []

end Calls

theorem mem_of_entryAt (found : entryAt mark entries = some info) : info ∈ entries.map fst := by
  induction entries generalizing mark with
  | nil => simp [entryAt] at found
  | cons e entries ih =>
    rw [entryAt] at found
    split at found
    · simp_all
    · simp [map_cons, ih found]

namespace Pool

variable {pool : Pool} {clock : PeerID → Time}

theorem mem_scoredEntries :
    info ∈ (pool.scoredEntries clock).map fst ↔
      ∃ item, pool.find info.id = some item ∧ item.circuitOpen = false ∧ item.addr = info.addr := by
  simp only [scoredEntries, map_filterMap, mem_filterMap]
  constructor
  · intro e
    obtain ⟨pid, -, made⟩ := e
    cases found : pool.find pid with
    | none => simp [found] at made
    | some item =>
      cases closed : item.circuitOpen with
      | true => simp [found, closed] at made
      | false =>
        simp only [found, closed, Bool.false_eq_true, if_false, Option.map_some,
          Option.some.injEq] at made
        rw [← made]
        exact ⟨item, found, closed, rfl⟩
  intro e
  obtain ⟨item, found, closed, same⟩ := e
  have mem : info.id ∈ pool.items.keys :=
    AList.mem_keys.mp (AList.lookup_isSome.mp (by rw [← find, found]; rfl))
  exact ⟨info.id, mem, by simp [found, closed, same]⟩

theorem mem_of_selectN (chosen : info ∈ pool.selectN clock sh n) :
    info ∈ (pool.scoredEntries clock).map fst := by
  rw [selectN, map_take] at chosen
  have sorted := (sh.perm_sortSlice (fun x y => x.2 > y.2) (pool.scoredEntries clock)).map fst
  exact sorted.mem_iff.mp (mem_of_mem_take chosen)

theorem mem_of_selectEntry (chosen : pool.selectEntry clock sh draw = some info) :
    info ∈ (pool.scoredEntries clock).map fst := by
  have order := (sh.perm (pool.scoredEntries clock)).map fst
  rw [← order.mem_iff]
  rw [selectEntry] at chosen
  generalize sh.order (pool.scoredEntries clock) = entries at chosen
  have drawn : ∀ {index : Nat}, entries[index]?.map fst = some info → info ∈ entries.map fst := by
    intro index found
    rw [← getElem?_map] at found
    exact mem_of_getElem? found
  split at chosen
  · exact drawn chosen
  split at chosen
  · exact drawn chosen
  rcases Option.or_eq_some_iff.mp chosen with reached | ⟨-, last⟩
  · exact mem_of_entryAt reached
  · rw [getLast?_eq_getElem?] at last
    exact drawn last

theorem mem_selectN_all (found : pool.find pid = some item) (closed : item.circuitOpen = false)
    (sh : Shuffle (AddrInfo × Rat)) :
    ⟨pid, item.addr⟩ ∈ pool.selectN clock sh (pool.scoredEntries clock).length := by
  rw [selectN, take_of_length_le (by simp)]
  have sorted := (sh.perm_sortSlice (fun x y => x.2 > y.2) (pool.scoredEntries clock)).map fst
  rw [sorted.mem_iff, mem_scoredEntries]
  exact ⟨item, found, closed, rfl⟩

structure HandsOut (pool : Pool) (pid : PeerID) (addr : Multiaddr) : Prop where
  byN : ∀ clock shuffle n, ∀ info ∈ pool.selectN clock shuffle n,
    info.id = pid → info.addr = addr
  byOne : ∀ clock shuffle draw info, pool.selectEntry clock shuffle draw = some info →
    info.id = pid → info.addr = addr

theorem handsOut_iff (found : pool.find pid = some item) (addr : Multiaddr) :
    pool.HandsOut pid addr ↔ item.circuitOpen ∨ item.addr = addr := by
  have chosen : ∀ {clock : PeerID → Time} {info : AddrInfo},
      info ∈ (pool.scoredEntries clock).map fst → info.id = pid →
        item.circuitOpen = false ∧ item.addr = info.addr := by
    intro clock info mem same
    obtain ⟨other, isOther, closed, address⟩ := mem_scoredEntries.mp mem
    rw [same, found, Option.some.injEq] at isOther
    rw [isOther]
    exact ⟨closed, address⟩
  constructor
  · intro hands
    cases closed : item.circuitOpen with
    | true => exact .inl rfl
    | false =>
      right
      exact hands.byN (fun _ => 0) (.asIs _) _ _ (mem_selectN_all found closed _) rfl
  intro either
  have same : ∀ {clock : PeerID → Time} {info : AddrInfo},
      info ∈ (pool.scoredEntries clock).map fst → info.id = pid → info.addr = addr := by
    intro clock info mem isPid
    have ⟨closed, address⟩ := chosen mem isPid
    rcases either with isOpen | isAddr
    · rw [closed] at isOpen
      cases isOpen
    · rw [← address, isAddr]
  constructor
  · intro clock sh n info mem
    exact same (mem_of_selectN mem)
  · intro clock sh draw info isChosen
    exact same (mem_of_selectEntry isChosen)

end Pool

variable {decode : GoString → Option PeerID}

theorem addTarget_head (target : addTarget decode address = some (pid, addr)) :
    ∃ component rest, component.protocol = P_P2P ∧ addr = component :: rest := by
  simp only [addTarget, valueForProtocol, splitFunc, Option.bind_eq_bind,
    Option.bind_eq_some_iff, Option.map_eq_some_iff] at target
  obtain ⟨text, ⟨component, found, -⟩, other, -, kept⟩ := target
  simp only [Option.pure_def, Option.some.injEq, mk.injEq] at kept
  rw [← kept.2]
  clear kept
  induction address with
  | nil => simp at found
  | cons x address ih =>
    by_cases isPeer : x.protocol = P_P2P
    · exact ⟨x, address, isPeer, by simp [isPeer]⟩
    · simp only [find?_cons, isPeer, decide_false] at found
      simpa [isPeer] using ih found

theorem addTarget_transport (decoded : decode text = some pid)
    (plain : ∀ component ∈ transport, component.protocol ≠ P_P2P) :
    addTarget decode (transport ++ [⟨P_P2P, text⟩]) = some (pid, [⟨P_P2P, text⟩]) := by
  induction transport with
  | nil => simp [addTarget, valueForProtocol, splitFunc, decoded]
  | cons x transport ih =>
    have isFirst := plain x mem_cons_self
    have rest := ih fun component mem => plain component (mem_cons_of_mem _ mem)
    simpa [addTarget, valueForProtocol, splitFunc, isFirst] using rest

theorem RelayItem.addr_recordResult (item : RelayItem) (now : Time) (res : ErrType) :
    (item.recordResult now res).addr = item.addr := by
  cases res with
  | errOK | errRateLimited | errFailed => rfl

theorem Pool.find_setWeight (pool : Pool) (factor : Int) (val : Rat) (pid : PeerID) :
    (pool.setWeight factor val).find pid = pool.find pid := by
  unfold setWeight
  split
  all_goals rfl

def Pool.EachAddr (pool : Pool) (holds : PeerID → Multiaddr → Prop) : Prop :=
  pool.Each fun pid item => holds pid item.addr

namespace Calls

variable {calls : Calls}

theorem eachAddr_act (each : calls.pool.EachAddr holds)
    (added : ∀ pid addr now, a = .add pid addr now → calls.pool.find pid = none →
      holds pid addr) : (calls.act a).pool.EachAddr holds := by
  have eff := calls.effect_act a
  generalize (calls.act a).pool = pool, (calls.act a).pending = pending at eff
  cases eff with
  | insert pid addr now absent => exact insert each (added pid addr now rfl absent)
  | record _ pid =>
    apply update each
    intro item found
    simpa only [item.addr_recordResult] using each pid item found
  | prune clock ch => exact prune each clock ch
  | remove => exact erase each rfl
  | protect | unprotect | nothing => exact each
  | pinged round pid => exact update each fun item => each pid item

theorem eachAddr_use (each : calls.pool.EachAddr holds) {use : Use}
    (added : ∀ address now pid addr, use = .add address now →
      addTarget decode address = some (pid, addr) → calls.pool.find pid = none →
        holds pid addr) : (calls.use decode use).pool.EachAddr holds := by
  cases use with
  | add address now =>
    rw [Calls.use]
    split
    · exact each
    rename_i pid addr target
    apply eachAddr_act each
    intro other kept time same
    cases same
    exact added address now pid addr rfl target
  | act a other =>
    apply eachAddr_act each
    intro pid addr now same
    subst same
    cases other
  | setRelayLimits pid
  | setReservationTTL pid => exact update each fun item => each pid item
  | addManaged | removeManaged | setWeights => exact each
  | setWeight =>
    intro pid item found
    rw [Calls.use, Pool.find_setWeight] at found
    exact each pid item found

def StartsWithPeer (_ : PeerID) (addr : Multiaddr) : Prop :=
  ∃ component rest, component.protocol = P_P2P ∧ addr = component :: rest

theorem startsWithPeer_run (config : WeightConfig) (uses : List Use) :
    ((usage decode).run (fresh config) uses).pool.EachAddr StartsWithPeer := by
  apply @Machine.invariant Calls Use (usage decode) fun calls => calls.pool.EachAddr StartsWithPeer
  · intro pid item found
    cases found
  intro calls use each
  apply eachAddr_use each
  intro address now pid addr _ target _
  exact addTarget_head target

theorem addr_run {uses : List Use}
    (has : calls.pool.EachAddr fun other kept => other = pid → kept = addr)
    (stays : (usage decode).Always (fun calls => calls.pool.find pid ≠ none) calls uses) :
    ((usage decode).run calls uses).pool.EachAddr fun other kept => other = pid → kept = addr := by
  induction uses generalizing calls with
  | nil => exact has
  | cons use uses ih =>
    apply ih
    · apply eachAddr_use has
      intro address now other kept _ _ absent same
      exact absurd (same ▸ absent) (stays [] _ rfl)
    · intro prev later split
      exact stays (use :: prev) later (by rw [split, cons_append])

/-- As long as a relay that was added with a transport address stays in the pool, this address
is handed out exactly if none is, because the circuit is open. What is kept of the address is
the peer ID. -/
theorem handsOut_transport_iff {transport : Multiaddr} {text : GoString} {pid : PeerID}
    (decoded : decode text = some pid)
    (plain : ∀ component ∈ transport, component.protocol ≠ P_P2P) (config : WeightConfig)
    (earlier later : List Use) (now : Time)
    (stays : (usage decode).Always (fun calls => calls.pool.find pid ≠ none)
      ((usage decode).run (fresh config) (earlier ++ [.addStatic transport text now])) later) :
    ∃ item, ((usage decode).run (fresh config)
        (earlier ++ [.addStatic transport text now] ++ later)).pool.find pid = some item ∧
      (((usage decode).run (fresh config)
          (earlier ++ [.addStatic transport text now] ++ later)).pool.HandsOut pid transport ↔
        item.circuitOpen = true) ∧
      (((usage decode).run (fresh config) earlier).pool.find pid = none →
        item.addr = [⟨P_P2P, text⟩]) := by
  have present := stays later [] (append_nil later).symm
  rw [← Machine.run_append] at present
  obtain ⟨item, found⟩ := Option.ne_none_iff_exists'.mp present
  refine ⟨item, found, ?_, ?_⟩
  · rw [Pool.handsOut_iff found]
    have other : item.addr ≠ transport := by
      intro same
      obtain ⟨component, rest, isPeer, starts⟩ := startsWithPeer_run config _ pid item found
      rw [starts] at same
      exact plain component (same ▸ mem_cons_self) isPeer
    simp [other]
  intro absent
  rw [Machine.run_append] at found
  apply addr_run _ stays pid item found rfl
  rw [Machine.run_concat]
  apply eachAddr_use
  · intro other item isOther same
    rw [same, absent] at isOther
    cases isOther
  intro address time other kept same target _ _
  cases same
  rw [addTarget_transport decoded plain, Option.some.injEq, Prod.mk.injEq] at target
  exact target.2.symm

def somewhere : Multiaddr := [⟨4, ascii "10.0.0.1"⟩, ⟨6, ascii "4001"⟩]

theorem somewhere_added_iff :
    ∃ item, ((usage some).run (fresh defaultWeights)
        ([] ++ [.addStatic somewhere (ascii "relay") now] ++ [])).pool.find (ascii "relay") =
          some item ∧
      (((usage some).run (fresh defaultWeights)
          ([] ++ [.addStatic somewhere (ascii "relay") now] ++ [])).pool.HandsOut
        (ascii "relay") somewhere ↔ item.circuitOpen = true) ∧
      (((usage some).run (fresh defaultWeights) []).pool.find (ascii "relay") = none →
        item.addr = [⟨P_P2P, ascii "relay"⟩]) := by
  apply handsOut_transport_iff rfl (by decide +kernel) defaultWeights [] [] now
  intro earlier later split
  rw [nil_eq, append_eq_nil_iff] at split
  rw [split.1]
  decide +kernel

theorem somewhere_not_handedOut :
    ((usage some).run (fresh defaultWeights)
        [.addStatic somewhere (ascii "relay") now]).pool.selectN (fun _ => now) (.asIs _) 1 =
        [⟨ascii "relay", [⟨P_P2P, ascii "relay"⟩]⟩] ∧
      ((usage some).run (fresh defaultWeights)
        [.addStatic somewhere (ascii "relay") now]).pool.selectEntry (fun _ => now) (.asIs _)
          ⟨true, fun _ => 0, 0⟩ = some ⟨ascii "relay", [⟨P_P2P, ascii "relay"⟩]⟩ ∧
      ¬((usage some).run (fresh defaultWeights)
        [.addStatic somewhere (ascii "relay") now]).pool.HandsOut (ascii "relay") somewhere := by
  have byN : ((usage some).run (fresh defaultWeights)
      [.addStatic somewhere (ascii "relay") now]).pool.selectN (fun _ => now) (.asIs _) 1 =
        [⟨ascii "relay", [⟨P_P2P, ascii "relay"⟩]⟩] := by
    decide +kernel
  refine ⟨byN, by decide +kernel, ?_⟩
  intro hands
  have same := hands.byN (fun _ => now) (.asIs _) 1 _ (by rw [byN]; exact mem_cons_self) rfl
  exact absurd same (by decide +kernel)

end Calls

end Peerscale.RelayPool
