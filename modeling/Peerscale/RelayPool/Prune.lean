import Peerscale.Foundation.Sorting
import Peerscale.RelayPool.Items

/-! # Pruning a RelayPool

A pool that has grown above its high water mark is cut down to its low water mark, half
from probation and half from main as far as the tiers allow it. Of main only those are
evicted that four rounds of protection leave over.
-/

namespace Peerscale.RelayPool

open List AList

structure PruneChoice where
  probation : Shuffle PeerID
  best : Shuffle (PeerID × Rat)
  longest : Shuffle (PeerID × Rat)
  worst : Shuffle (PeerID × Rat)
  spill : Shuffle PeerID

def PruneChoice.asIs : PruneChoice :=
  ⟨.asIs _, .asIs _, .asIs _, .asIs _, .asIs _⟩

def quotas (need probation main : Nat) : Nat × Nat :=
  let evictFromProbation := need / 2
  let evictFromMain := need - evictFromProbation
  let (evictFromProbation, evictFromMain) := if evictFromProbation > probation then
      (probation, evictFromMain + (evictFromProbation - probation))
    else (evictFromProbation, evictFromMain)
  if evictFromMain > main then (evictFromProbation + (evictFromMain - main), main)
  else (evictFromProbation, evictFromMain)

namespace Pool

def select (pool : Pool) (property : RelayItem → Bool) : List PeerID :=
  pool.items.keys.filter fun pid => (pool.find pid).any property

def probationPids (pool : Pool) : List PeerID := pool.select fun item => !item.inMain

def mainPids (pool : Pool) : List PeerID := pool.select RelayItem.inMain

def evictOne (pool : Pool) (pid : PeerID) : Pool :=
  { pool with
    items := pool.items.erase pid
    protectedIDs := pool.protectedIDs.erase pid }

def evict (pool : Pool) (pids : List PeerID) : Pool := pids.foldl evictOne pool

def before (pool : Pool) (first second : PeerID) : Bool :=
  match pool.find first, pool.find second with
  | some firstItem, some secondItem => firstItem.connectedSince < secondItem.connectedSince
  | _, _ => false

def evictOldest (pool : Pool) (shuffle : Shuffle PeerID) (quota : Nat) : Pool :=
  pool.evict ((shuffle.sortSlice pool.before pool.probationPids).take quota)

/-- Round 1: relays of main that are not protected and have had no result for five minutes,
with their scores. -/
def candidates (pool : Pool) (clock : PeerID → Time) (pids : List PeerID) : List (PeerID × Rat) :=
  pids.filterMap fun pid =>
    match pool.find pid with
    | none => none
    | some item =>
      if pid ∈ pool.protectedIDs then none
      else if Time.sub (clock pid) item.lastResult < 5 * minute then none
      else some (pid, calcScore pool.config (clock pid) item)

end Pool

/-- Round 2: the best fifth is protected. The product of a count and 0.2 is exact where it
is a whole number. -/
def withoutBest (shuffle : Shuffle (PeerID × Rat)) (candidates : List (PeerID × Rat)) :
    List (PeerID × Rat) :=
  let topK := (candidates.length + 4) / 5
  if 0 < topK ∧ topK < candidates.length then
    (shuffle.sortSlice (fun first second => first.2 > second.2) candidates).drop topK
  else if topK ≥ candidates.length then []
  else candidates

namespace Pool

def withoutLongest (pool : Pool) (shuffle : Shuffle (PeerID × Rat))
    (candidates : List (PeerID × Rat)) : List (PeerID × Rat) :=
  if candidates.length > 0 then
    let uptimeK := if 10 > candidates.length then candidates.length else 10
    if 0 < uptimeK ∧ uptimeK < candidates.length then
      (shuffle.sortSlice (fun first second => pool.before first.1 second.1) candidates).drop uptimeK
    else if uptimeK ≥ candidates.length then []
    else candidates
  else candidates

def evictable (pool : Pool) (clock : PeerID → Time) (choice : PruneChoice)
    (pids : List PeerID) : List (PeerID × Rat) :=
  pool.withoutLongest choice.longest (withoutBest choice.best (pool.candidates clock pids))

def evictedFromMain (pool : Pool) (clock : PeerID → Time) (choice : PruneChoice)
    (pids : List PeerID) (quota : Nat) : List PeerID :=
  ((choice.worst.sortSlice (fun first second => first.2 < second.2)
    (pool.evictable clock choice pids)).take quota).map Prod.fst

/-- `prune`, where `clock` is what the clock shows when an item of main is looked at. What
main cannot give is taken from probation. -/
def prune (pool : Pool) (clock : PeerID → Time) (choice : PruneChoice) : Pool :=
  if pool.size ≤ pool.highWater then pool
  else
    let need := pool.size - pool.lowWater
    let mainPids := pool.mainPids
    let (evictFromProbation, evictFromMain) := quotas need pool.probationPids.length mainPids.length
    let pool := pool.evictOldest choice.probation evictFromProbation
    if evictFromMain > 0 then
      let evicted := pool.evictedFromMain clock choice mainPids evictFromMain
      (pool.evict evicted).evictOldest choice.spill (evictFromMain - evicted.length)
    else pool

variable (pool : Pool)

theorem mem_select :
    pid ∈ pool.select property ↔ ∃ item, pool.find pid = some item ∧ property item := by
  rw [select, mem_filter]
  constructor
  · intro both
    exact (Option.any_eq_true _ _).mp both.2
  rintro ⟨item, found, holds⟩
  refine ⟨mem_keys.mp (lookup_isSome.mp (by rw [← find, found]; rfl)), ?_⟩
  rw [found]
  exact holds

theorem select_nodup (property : RelayItem → Bool) : (pool.select property).Nodup :=
  pool.items.keys_nodup.filter _

theorem find_evictOne_of_ne (apart : other ≠ pid) :
    (pool.evictOne pid).find other = pool.find other :=
  lookup_erase_ne apart

theorem keys_evictOne (pid : PeerID) :
    (pool.evictOne pid).items.keys = pool.items.keys.filter (· ≠ pid) := by
  have erased := @List.Nodup.erase_eq_filter _ instBEqOfDecidableEq inferInstance _
    pool.items.keys_nodup pid
  rw [evictOne, keys_erase, erased]
  apply filter_congr
  intro other _
  by_cases same : other = pid <;> simp [same]

theorem select_evictOne (property : RelayItem → Bool) (pid : PeerID) :
    (pool.evictOne pid).select property = (pool.select property).filter (· ≠ pid) := by
  rw [select, select, keys_evictOne, filter_filter, filter_filter]
  apply filter_congr
  intro other _
  by_cases same : other = pid
  · simp [same]
  · rw [pool.find_evictOne_of_ne same, Bool.and_comm]

theorem select_evict (property : RelayItem → Bool) (pids : List PeerID) :
    (pool.evict pids).select property = (pool.select property).filter (· ∉ pids) := by
  induction pids generalizing pool with
  | nil => simp [evict]
  | cons pid pids ih =>
    have rest := ih (pool.evictOne pid)
    rw [evict] at rest
    rw [evict, foldl_cons, rest, select_evictOne, filter_filter]
    apply filter_congr
    intro other _
    by_cases same : other = pid <;> simp [same]

theorem evict_cons (pid : PeerID) (pids : List PeerID) :
    pool.evict (pid :: pids) = (pool.evictOne pid).evict pids := rfl

theorem find_evict (stays : pid ∉ pids) : (pool.evict pids).find pid = pool.find pid := by
  induction pids generalizing pool with
  | nil => rfl
  | cons x pids ih =>
    rw [mem_cons, not_or] at stays
    rw [evict_cons, ih _ stays.2, pool.find_evictOne_of_ne stays.1]

theorem mem_protectedIDs_evict (stays : pid ∉ pids) :
    pid ∈ (pool.evict pids).protectedIDs ↔ pid ∈ pool.protectedIDs := by
  induction pids generalizing pool with
  | nil => rfl
  | cons x pids ih =>
    rw [mem_cons, not_or] at stays
    rw [evict_cons, ih _ stays.2, evictOne, Finset.mem_erase, and_iff_right stays.1]

theorem config_evict (pids : List PeerID) : (pool.evict pids).config = pool.config := by
  induction pids generalizing pool with
  | nil => rfl
  | cons x pids ih => exact ih (pool.evictOne x)

theorem managed_evict (pids : List PeerID) : (pool.evict pids).managed = pool.managed := by
  induction pids generalizing pool with
  | nil => rfl
  | cons pid pids ih => exact ih (pool.evictOne pid)

theorem candidates_evict (stay : ∀ pid ∈ pids, pid ∉ evicted) (clock : PeerID → Time) :
    (pool.evict evicted).candidates clock pids = pool.candidates clock pids := by
  apply filterMap_congr
  intro pid mem
  simp only [pool.find_evict (stay pid mem), pool.mem_protectedIDs_evict (stay pid mem),
    config_evict]

theorem not_mem_mainPids (mem : pid ∈ pool.probationPids) : pid ∉ pool.mainPids := by
  rcases pool.mem_select.mp mem with ⟨item, found, onProbation⟩
  intro inMain
  rcases pool.mem_select.mp inMain with ⟨same, foundSame, isMain⟩
  rw [found, Option.some.injEq] at foundSame
  rw [← foundSame] at isMain
  simp [isMain] at onProbation

theorem size_eq : pool.size = pool.probationPids.length + pool.mainPids.length := by
  have inTiers : pool.probationPids =
      pool.items.keys.filter fun pid => !(pool.find pid).any RelayItem.inMain := by
    apply filter_congr
    intro pid mem
    have has : (pool.find pid).isSome := lookup_isSome.mpr (mem_keys.mpr mem)
    rcases Option.isSome_iff_exists.mp has with ⟨item, found⟩
    rw [found]
    rfl
  have parts := length_eq_length_filter_add (l := pool.items.keys) fun pid =>
    (pool.find pid).any RelayItem.inMain
  rw [inTiers, size, parts, Nat.add_comm]
  rfl

theorem select_evict_of_disjoint (disjoint : ∀ pid ∈ pool.select property, pid ∉ pids) :
    (pool.evict pids).select property = pool.select property := by
  rw [select_evict, filter_eq_self]
  intro pid mem
  exact decide_eq_true (disjoint pid mem)

theorem length_select_evict (distinct : List.Nodup pids) (subset : pids ⊆ pool.select property) :
    ((pool.evict pids).select property).length + pids.length = (pool.select property).length := by
  rw [select_evict]
  exact length_filter_notMem (pool.select_nodup property) distinct subset

theorem evictOldest_spec (sh : Shuffle PeerID) (quota : Nat) :
    (pool.evictOldest sh quota).probationPids.length = pool.probationPids.length - quota ∧
      (pool.evictOldest sh quota).mainPids = pool.mainPids ∧
      ∀ clock, (pool.evictOldest sh quota).candidates clock pool.mainPids =
        pool.candidates clock pool.mainPids := by
  have sorted := sh.perm_sortSlice pool.before pool.probationPids
  have taken := take_sublist quota (sh.sortSlice pool.before pool.probationPids)
  have distinct := (sorted.nodup_iff.mpr (pool.select_nodup _)).sublist taken
  have subset : (sh.sortSlice pool.before pool.probationPids).take quota ⊆
      pool.probationPids :=
    fun pid mem => sorted.mem_iff.mp (taken.subset mem)
  have stay : ∀ pid ∈ pool.mainPids,
      pid ∉ (sh.sortSlice pool.before pool.probationPids).take quota :=
    fun pid inMain evicted => pool.not_mem_mainPids (subset evicted) inMain
  refine ⟨?_, pool.select_evict_of_disjoint stay, pool.candidates_evict stay⟩
  have n := pool.length_select_evict distinct subset
  rw [length_take, sorted.length_eq] at n
  change (pool.evictOldest sh quota).probationPids.length + _ = pool.probationPids.length at n
  omega

theorem candidates_sublist (clock : PeerID → Time) (pids : List PeerID) :
    ((pool.candidates clock pids).map Prod.fst).Sublist pids := by
  induction pids with
  | nil => exact List.Sublist.refl _
  | cons pid pids ih =>
    rw [candidates, filterMap_cons]
    split
    · exact ih.cons pid
    rename_i e found
    have named : e.1 = pid := by
      split at found
      · cases found
      split at found
      · cases found
      split at found
      · cases found
      · cases found
        rfl
    rw [map_cons, named]
    exact ih.cons_cons pid

end Pool

theorem withoutBest_subperm (sh : Shuffle (PeerID × Rat)) (candidates : List (PeerID × Rat)) :
    (withoutBest sh candidates).Subperm candidates ∧ (withoutBest sh candidates).length =
        candidates.length - (candidates.length + 4) / 5 := by
  rw [withoutBest]
  split
  · refine ⟨?_, by rw [length_drop, Shuffle.length_sortSlice]⟩
    exact (drop_sublist _ _).subperm.trans (sh.perm_sortSlice _ candidates).subperm
  split
  · rename_i all
    refine ⟨nil_subperm, ?_⟩
    rw [length_nil]
    omega
  · omega

namespace Pool

variable (pool : Pool)

theorem uptimeK_eq (candidates : List (PeerID × Rat)) :
    (if 10 > candidates.length then candidates.length else 10) = min 10 candidates.length := by
  split <;> omega

theorem withoutLongest_subperm (sh : Shuffle (PeerID × Rat)) (candidates : List (PeerID × Rat)) :
    (pool.withoutLongest sh candidates).Subperm candidates ∧
      (pool.withoutLongest sh candidates).length = candidates.length - 10 := by
  rw [withoutLongest, uptimeK_eq]
  dsimp only
  split
  · split
    · refine ⟨(drop_sublist _ _).subperm.trans (sh.perm_sortSlice _ candidates).subperm, ?_⟩
      rw [length_drop, Shuffle.length_sortSlice]
      omega
    split
    · refine ⟨nil_subperm, ?_⟩
      rw [length_nil]
      omega
    · omega
  · refine ⟨List.Subperm.refl _, ?_⟩
    omega

/-- The number of relays of main that the rounds of protection leave over, if there are
`count` candidates. -/
def leftOver (count : Nat) : Nat := count - (count + 4) / 5 - 10

theorem length_evictable (clock : PeerID → Time) (ch : PruneChoice) (pids : List PeerID) :
    (pool.evictable clock ch pids).length = leftOver (pool.candidates clock pids).length := by
  rw [evictable, (pool.withoutLongest_subperm _ _).2, (withoutBest_subperm _ _).2, leftOver]

theorem evictedFromMain_spec (clock : PeerID → Time) (ch : PruneChoice)
    (distinct : List.Nodup pids) (quota : Nat) :
    (pool.evictedFromMain clock ch pids quota).Nodup ∧
      pool.evictedFromMain clock ch pids quota ⊆ pids ∧
      (pool.evictedFromMain clock ch pids quota).length =
        min quota (leftOver (pool.candidates clock pids).length) := by
  have sorted := ch.worst.perm_sortSlice (fun x y => x.2 < y.2) (pool.evictable clock ch pids)
  have protectedRounds : (pool.evictable clock ch pids).Subperm (pool.candidates clock pids) :=
    (pool.withoutLongest_subperm _ _).1.trans (withoutBest_subperm _ _).1
  have within : (pool.evictedFromMain clock ch pids quota).Subperm pids := by
    have taken := ((take_sublist quota _).subperm.trans sorted.subperm).trans protectedRounds
    rcases taken with ⟨arranged, perm, sublist⟩
    have named : (pool.evictedFromMain clock ch pids quota).Subperm
        ((pool.candidates clock pids).map Prod.fst) :=
      ⟨arranged.map Prod.fst, perm.map _, sublist.map _⟩
    exact named.trans (pool.candidates_sublist clock pids).subperm
  refine ⟨?_, within.subset, ?_⟩
  · rcases within with ⟨arranged, perm, sublist⟩
    exact perm.nodup_iff.mp (distinct.sublist sublist)
  · rw [evictedFromMain, length_map, length_take, Shuffle.length_sortSlice, length_evictable]

/-! ## How many items are left -/

def shielded (clock : PeerID → Time) : Nat :=
  pool.mainPids.length - leftOver (pool.candidates clock pool.mainPids).length

theorem quotas_spec {need probation main : Nat} (enough : need ≤ probation + main) :
    (quotas need probation main).1 + (quotas need probation main).2 = need ∧
      (quotas need probation main).1 ≤ probation ∧ (quotas need probation main).2 ≤ main := by
  simp only [quotas]
  split
  · dsimp only
    split
    · dsimp only
      omega
    · dsimp only
      omega
  split
  · dsimp only
    omega
  · dsimp only
    omega

section

variable (clock : PeerID → Time)

theorem size_evictFromMain (ch : PruneChoice) (inMain : pool.mainPids = pids) (quota : Nat) :
    ((pool.evict (pool.evictedFromMain clock ch pids quota)).evictOldest ch.spill
        (quota - (pool.evictedFromMain clock ch pids quota).length)).size =
      pool.probationPids.length -
          (quota - min quota (leftOver (pool.candidates clock pids).length)) +
        (pids.length - min quota (leftOver (pool.candidates clock pids).length)) := by
  have distinct : pids.Nodup := inMain ▸ pool.select_nodup RelayItem.inMain
  rcases pool.evictedFromMain_spec clock ch distinct quota with ⟨once, subset, length⟩
  generalize pool.evictedFromMain clock ch pids quota = evicted at once subset length
  have probation : (pool.evict evicted).probationPids = pool.probationPids := by
    apply pool.select_evict_of_disjoint
    intro pid onProbation mem
    exact pool.not_mem_mainPids onProbation (inMain ▸ subset mem)
  have main : (pool.evict evicted).mainPids.length + evicted.length = pids.length := by
    rw [← inMain] at subset ⊢
    exact pool.length_select_evict once subset
  rcases (pool.evict evicted).evictOldest_spec ch.spill (quota - evicted.length) with
    ⟨rest, same, -⟩
  rw [size_eq, rest, same, probation]
  omega

theorem length_mainPids_ge :
    leftOver (pool.candidates clock pool.mainPids).length ≤ pool.mainPids.length := by
  have fewer := (pool.candidates_sublist clock pool.mainPids).length_le
  rw [length_map] at fewer
  rw [leftOver]
  omega

/-- A pool above its high water mark is cut down to its low water mark, or to the relays
that are shielded if these are more. -/
theorem size_prune (ch : PruneChoice)
    (marks : pool.lowWater ≤ pool.highWater) (above : pool.highWater < pool.size) :
    (pool.prune clock ch).size = max pool.lowWater (pool.shielded clock) := by
  have total := pool.size_eq
  have evictable := pool.length_mainPids_ge clock
  rw [prune, if_neg (Nat.not_le.mpr above), shielded]
  dsimp only
  have split : _ ∧ _ ∧ _ :=
    @quotas_spec (pool.size - pool.lowWater) pool.probationPids.length pool.mainPids.length
      (by omega)
  generalize quotas (pool.size - pool.lowWater) pool.probationPids.length
    pool.mainPids.length = quota at split
  rcases pool.evictOldest_spec ch.probation quota.1 with ⟨probation, main, sameCandidates⟩
  split
  · rw [size_evictFromMain _ clock ch main, probation, sameCandidates]
    omega
  · rw [size_eq, probation, main]
    omega

theorem size_prune_le_iff (ch : PruneChoice) (marks : pool.lowWater ≤ pool.highWater) :
    (pool.prune clock ch).size ≤ pool.highWater ↔
      pool.size ≤ pool.highWater ∨ pool.shielded clock ≤ pool.highWater := by
  by_cases fits : pool.size ≤ pool.highWater
  · rw [prune, if_pos fits]
    exact iff_of_true fits (.inl fits)
  · rw [pool.size_prune clock ch marks (Nat.lt_of_not_le fits)]
    omega

end

/-! ## What holds of every item -/

def Each (pool : Pool) (holds : PeerID → RelayItem → Prop) : Prop :=
  ∀ pid item, pool.find pid = some item → holds pid item

namespace Each

variable {pool : Pool} {holds : PeerID → RelayItem → Prop}

section

variable (each : pool.Each holds)

include each

theorem update (changed : ∀ item, pool.find pid = some item → holds pid (change item)) :
    (pool.update pid change).Each holds := by
  intro other item found
  by_cases same : other = pid
  · subst same
    cases pre : pool.find other with
    | none =>
      rw [pool.update_of_find_none pre, pre] at found
      cases found
    | some prev =>
      rw [pool.find_update_self pre, Option.some.injEq] at found
      rw [← found]
      exact changed prev pre
  · rw [pool.find_update_of_ne same] at found
    exact each other item found

theorem insert (new : holds pid (newItem addr now)) : (pool.insert pid addr now).Each holds := by
  rw [Pool.insert]
  split
  · exact each
  intro other item found
  by_cases same : other = pid
  · subst same
    rw [find, lookup_insert, Option.some.injEq] at found
    rw [← found]
    exact new
  · rw [find, lookup_insert_ne same] at found
    exact each other item found

theorem erase {post : Pool} (items : post.items = pool.items.erase pid) : post.Each holds := by
  intro other item found
  rw [find, items] at found
  by_cases same : other = pid
  · rw [same, lookup_erase] at found
    cases found
  · rw [lookup_erase_ne same] at found
    exact each other item found

theorem evict (pids : List PeerID) : (pool.evict pids).Each holds := by
  induction pids generalizing pool with
  | nil => exact each
  | cons pid pids ih => exact ih (each.erase rfl)

theorem prune (clock : PeerID → Time) (ch : PruneChoice) : (pool.prune clock ch).Each holds := by
  rw [Pool.prune]
  split
  · exact each
  dsimp only
  split
  · exact ((each.evict _).evict _).evict _
  · exact each.evict _

end

end Each

end Pool

end Peerscale.RelayPool
