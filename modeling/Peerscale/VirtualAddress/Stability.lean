import Peerscale.Foundation.Machine
import Peerscale.VirtualAddress.Resolver

/-! # Routes of softun over time

The map of softun is filled once more whenever an address is not in it, and what is listed then
replaces what was there.
-/

namespace Peerscale.VirtualAddress

open P2put (PeerID)

/-- A call of `peerIDByVirtAddr`, with the peers that are listed if it has to fill the map. -/
structure Lookup where
  ids : List PeerID
  addr : Softun.Addr

namespace Lookup

def answer (cache : Cache) (lookup : Lookup) : PeerID :=
  (peerIDByVirtAddr cache lookup.ids lookup.addr).1

def machine : Machine Cache Lookup where
  act cache lookup := (peerIDByVirtAddr cache lookup.ids lookup.addr).2

/-- The last listed peer that has the address. -/
def last (lookup : Lookup) (key : GoString) : Option PeerID :=
  lookup.ids.reverse.find? fun id => (softunKeys id).contains key

/-- If the map is filled, then the last listed peer that has the address is the one in the map. -/
def Keeps (key : GoString) (cache : Cache) (lookup : Lookup) : Prop :=
  cache.lookup (addrText lookup.addr) = none →
    ∀ id, lookup.last key = some id → cache.lookup key = some id

end Lookup

def virtAddr6 (host : UInt8) : Softun.Addr := ⟨true, 0xfd :: List.replicate 14 0 ++ [host]⟩

theorem addrText_virtAddr6 (pos : 0 < host) :
    addrText (virtAddr6 host) = ipv6pfx ++ formatInt 16 host.toNat := by
  have all : ∀ val : Fin 256, 0 < val.val →
      addrText (virtAddr6 (UInt8.ofNat val)) = ipv6pfx ++ formatInt 16 val := by
    decide +kernel
  have same := all ⟨host.toNat, host.toNat_lt⟩ (UInt8.lt_iff_toNat_lt.mp pos)
  rwa [show UInt8.ofNat host.toNat = host from UInt8.ofNat_toNat] at same

/-- Both addresses of a host part have the same peer, and a peer with that host part. -/
def Paired (cache : Cache) : Prop :=
  ∀ host, cache.lookup (vlanpfx ++ itoa host) = cache.lookup (ipv6pfx ++ formatInt 16 host) ∧
    ∀ id, cache.lookup (vlanpfx ++ itoa host) = some id → stringToHostPart id = host

theorem Paired.fill (paired : Paired cache) (ids : List PeerID) :
    Paired (fill softunKeys cache ids) := by
  induction ids using List.reverseRecOn with
  | nil => exact paired
  | append_singleton ids last ih =>
    intro host
    rw [fill_concat]
    by_cases same : host = stringToHostPart last
    · rw [lookup_foldl_insert_of_mem (by simp [softunKeys, same]),
        lookup_foldl_insert_of_mem (by simp [softunKeys, same])]
      refine ⟨rfl, fun id found => ?_⟩
      rw [← Option.some.inj found, same]
    have not4 : vlanpfx ++ itoa host ∉ softunKeys last := by
      rw [softunKeys, List.mem_cons, List.mem_singleton, vlan_inj, not_or]
      exact ⟨same, vlan_ne_ipv6 _ _⟩
    have not6 : ipv6pfx ++ formatInt 16 host ∉ softunKeys last := by
      have injective := formatInt_injective (show 1 < 16 by decide) (Nat.le_refl 16)
      simp [softunKeys, (vlan_ne_ipv6 _ _).symm, injective.eq_iff, same]
    rw [lookup_foldl_insert_of_notMem not4, lookup_foldl_insert_of_notMem not6]
    exact ih host

namespace Lookup

variable {cache : Cache} {lookup : Lookup}

theorem act_cases (cache : Cache) (lookup : Lookup) :
    (∃ id, cache.lookup (addrText lookup.addr) = some id ∧ lookup.answer cache = id ∧
        machine.act cache lookup = cache) ∨
      cache.lookup (addrText lookup.addr) = none ∧
        machine.act cache lookup = fill softunKeys cache lookup.ids ∧
        lookup.answer cache =
          ((fill softunKeys cache lookup.ids).lookup (addrText lookup.addr)).getD [] := by
  simp only [machine, answer, peerIDByVirtAddr, resolve]
  cases cache.lookup (addrText lookup.addr) with
  | none => exact .inr ⟨rfl, rfl, rfl⟩
  | some id => exact .inl ⟨id, rfl, rfl, rfl⟩

theorem paired_act (paired : Paired cache) : Paired (machine.act cache lookup) := by
  rcases act_cases cache lookup with ⟨_, _, _, same⟩ | ⟨_, filled, _⟩
  · rwa [same]
  · rw [filled]
    exact paired.fill lookup.ids

theorem lookup_fill_last (cache : Cache) (key : GoString) (ids : List PeerID) :
    (fill softunKeys cache ids).lookup key =
      (ids.reverse.find? fun id => (softunKeys id).contains key).or (cache.lookup key) := by
  induction ids using List.reverseRecOn with
  | nil => rfl
  | append_singleton ids last ih =>
    rw [List.reverse_concat, List.find?_cons]
    by_cases has : key ∈ softunKeys last
    · rw [lookup_fill_concat has, List.contains_iff_mem.mpr has]
      rfl
    · rw [fill_concat, lookup_foldl_insert_of_notMem has,
        Bool.eq_false_iff.mpr fun isIn => has (List.contains_iff_mem.mp isIn)]
      exact ih

theorem lookup_act_iff {id : PeerID} (known : cache.lookup key = some id) :
    (machine.act cache lookup).lookup key = some id ↔ lookup.Keeps key cache := by
  rw [Keeps, known]
  rcases act_cases cache lookup with ⟨other, found, _, same⟩ | ⟨missing, filled, _⟩
  · rw [same, found]
    exact iff_of_true known nofun
  rw [filled, lookup_fill_last, known, missing, last]
  cases lookup.ids.reverse.find? fun id => (softunKeys id).contains key <;> simp [eq_comm]

theorem lookup_act_of_answer (resolved : lookup.answer cache ≠ []) :
    (machine.act cache lookup).lookup (addrText lookup.addr) = some (lookup.answer cache) := by
  rcases act_cases cache lookup with ⟨id, known, isAnswer, same⟩ | ⟨_, filled, isAnswer⟩
  · rw [same, known, isAnswer]
  rw [isAnswer] at resolved ⊢
  rw [filled]
  cases found : (fill softunKeys cache lookup.ids).lookup (addrText lookup.addr) with
  | none =>
    rw [found] at resolved
    exact absurd rfl resolved
  | some => rfl

theorem answer_of_known {id : PeerID} (known : cache.lookup (addrText lookup.addr) = some id) :
    lookup.answer cache = id := by
  rw [answer, peerIDByVirtAddr, resolve, known]

theorem forall_answer_iff {addr : Softun.Addr} {id : PeerID} (nonempty : id ≠ []) :
    (∀ lookup : Lookup, lookup.addr = addr → lookup.answer cache = id) ↔
      cache.lookup (addrText addr) = some id := by
  constructor
  · intro answers
    have unlisted := answers ⟨[], addr⟩ rfl
    rw [answer, peerIDByVirtAddr, resolve] at unlisted
    cases found : cache.lookup (addrText addr) with
    | none =>
      simp only [found] at unlisted
      exact absurd unlisted.symm (by simpa [fill, found] using nonempty)
    | some => simpa only [found, Option.some.injEq] using unlisted
  · rintro known lookup rfl
    exact answer_of_known known

end Lookup

/-- The addresses of a host part always have one peer. What an address has been resolved to is its
answer ever after exactly if, whenever the map is filled, the last listed peer that has the
address is this one. -/
theorem routes_stable (earlier later : List Lookup) (first : Lookup) :
    (∀ host : UInt8, 0 < host → (Lookup.machine.run ∅ earlier).lookup (addrText (virtAddr host)) =
          (Lookup.machine.run ∅ earlier).lookup (addrText (virtAddr6 host)) ∧
        ∀ id, (Lookup.machine.run ∅ earlier).lookup (addrText (virtAddr host)) = some id →
          stringToHostPart id = host.toNat) ∧
    (first.answer (Lookup.machine.run ∅ earlier) ≠ [] → (Lookup.machine.Always
          (fun cache => ∀ last : Lookup, last.addr = first.addr →
            last.answer cache = first.answer (Lookup.machine.run ∅ earlier))
          (Lookup.machine.run ∅ (earlier ++ [first])) later ↔
        Lookup.machine.Obeys (fun cache lookup => lookup.Keeps (addrText first.addr) cache)
          (Lookup.machine.run ∅ (earlier ++ [first])) later)) := by
  constructor
  · intro host positive
    rw [addrText_virtAddr, addrText_virtAddr6 positive]
    have initially : Paired ∅ := fun host => ⟨rfl, nofun⟩
    exact Machine.invariant initially (fun _ _ paired => Lookup.paired_act paired) earlier _
  intro resolved
  simp only [Lookup.forall_answer_iff resolved]
  refine Machine.always_iff_obeys_of_step (fun _ _ known => Lookup.lookup_act_iff known) ?_ later
  rw [Machine.run_concat]
  exact Lookup.lookup_act_of_answer resolved

/-- The map is filled with two peers of one host part, of which the first one comes last. -/
theorem routes_stable_refilled :
    Lookup.answer (Lookup.machine.run ∅ [⟨[firstPeer], virtAddr 160⟩,
      ⟨[secondPeer, firstPeer], virtAddr 7⟩]) ⟨[secondPeer], virtAddr 160⟩ = firstPeer := by
  have stable := (routes_stable [] [⟨[secondPeer, firstPeer], virtAddr 7⟩]
    ⟨[firstPeer], virtAddr 160⟩).2 (by decide +kernel)
  have stays := stable.mpr (by unfold Lookup.Keeps; decide +kernel) _ []
    (List.append_nil _).symm ⟨[secondPeer], virtAddr 160⟩ rfl
  rw [← Machine.run_append] at stays
  exact stays.trans (by decide +kernel)

theorem routes_unstable :
    Lookup.answer ∅ ⟨[firstPeer], virtAddr 160⟩ = firstPeer ∧
      Lookup.answer (Lookup.machine.run ∅ [⟨[firstPeer], virtAddr 160⟩,
        ⟨[firstPeer, secondPeer], virtAddr 7⟩]) ⟨[firstPeer, secondPeer], virtAddr 160⟩ =
          secondPeer ∧
      firstPeer ≠ secondPeer := by
  decide +kernel

end Peerscale.VirtualAddress
