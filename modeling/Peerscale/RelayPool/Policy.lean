import Peerscale.RelayPool.Prune

/-! # What pruning is for

The documented policy, in terms of the relays before and after: how many are left, which of
probation have to go, and which of main are protected by their activity, their score and the
time that they have been there.
-/

namespace Peerscale.RelayPool

open List

namespace Pool

def since (pool : Pool) (pid : PeerID) : Time :=
  match pool.find pid with
  | some item => item.connectedSince
  | none => 0

def score (pool : Pool) (now : Time) (pid : PeerID) : Rat :=
  match pool.find pid with
  | some item => calcScore pool.config now item
  | none => 0

def scored (pool : Pool) (now : Time) (pid : PeerID) : PeerID × Rat := (pid, pool.score now pid)

/-- Relays of main that are not protected and whose last result is at least five minutes
old. -/
def idleMain (pool : Pool) (now : Time) : List PeerID :=
  pool.mainPids.filter fun pid =>
    pid ∉ pool.protectedIDs ∧ (pool.find pid).any fun item => 5 * minute ≤ now - item.lastResult

/-- The relays of main that can be evicted are what is left when the best fifth and then the
ten that have been there longest are taken away, and those with the lowest scores go first. -/
structure Rounds (pool : Pool) (now : Time) (post : Pool) : Prop where
  parts : ∃ best longest rest : List PeerID,
    (best ++ longest ++ rest).Perm (pool.idleMain now) ∧
    best.length = ((pool.idleMain now).length + 4) / 5 ∧
    longest.length = min 10 ((pool.idleMain now).length - best.length) ∧
    (∀ first ∈ best, ∀ second ∈ longest ++ rest, pool.score now second ≤ pool.score now first) ∧
    (∀ first ∈ longest, ∀ second ∈ rest, pool.since first ≤ pool.since second) ∧
    (∀ pid ∈ pool.mainPids, post.find pid = none → pid ∈ rest) ∧
    ∀ evicted ∈ rest, post.find evicted = none → ∀ kept ∈ rest, post.find kept ≠ none →
      pool.score now evicted ≤ pool.score now kept

structure Pruned (pool : Pool) (now : Time) (post : Pool) : Prop where
  size : post.size = max pool.lowWater
    (pool.size - pool.probationPids.length - leftOver (pool.idleMain now).length)
  unchanged : ∀ pid, post.find pid ≠ none → post.find pid = pool.find pid
  oldest : ∀ evicted ∈ pool.probationPids, post.find evicted = none →
    ∀ kept ∈ pool.probationPids, post.find kept ≠ none → pool.since evicted ≤ pool.since kept
  rounds : pool.Rounds now post

section

variable {pool : Pool}

theorem exists_item_of_mem_select (mem : pid ∈ pool.select property) :
    ∃ item, pool.find pid = some item := by
  rcases pool.mem_select.mp mem with ⟨item, found, -⟩
  exact ⟨item, found⟩

theorem before_iff_since_lt {first y : PeerID} (firstFound : pool.find first ≠ none)
    (secondFound : pool.find y ≠ none) :
    pool.before first y ↔ pool.since first < pool.since y := by
  rcases Option.ne_none_iff_exists'.mp firstFound with ⟨firstItem, isFirst⟩
  rcases Option.ne_none_iff_exists'.mp secondFound with ⟨secondItem, isSecond⟩
  simp only [before, since, isFirst, isSecond, decide_eq_true_iff]

theorem since_congr {other : Pool} (same : other.find pid = pool.find pid) :
    other.since pid = pool.since pid := by
  rw [since, since, same]

theorem sub_lt_iff (now prev : Time) :
    Time.sub now prev < 5 * minute ↔ ¬5 * minute ≤ now - prev := by
  have bounded : (5 * minute : Int) < 2 ^ 63 - 1 := by decide
  have pos : (0 : Int) < 5 * minute := by decide
  rw [Time.sub, not_le, max_lt_iff, min_lt_iff]
  constructor
  · rintro ⟨-, less | impossible⟩
    · exact less
    · exact absurd impossible (not_lt.mpr bounded.le)
  · intro less
    exact ⟨lt_of_lt_of_le (by decide) pos.le, .inl less⟩

theorem candidates_eq (pool : Pool) (now : Time) :
    pool.candidates (fun _ => now) pool.mainPids = (pool.idleMain now).map (pool.scored now) := by
  rw [candidates, idleMain, ← filterMap_eq_map, filterMap_filter]
  apply filterMap_congr
  intro pid mem
  rcases exists_item_of_mem_select mem with ⟨item, found⟩
  have isScore : pool.score now pid = calcScore pool.config now item := by simp only [score, found]
  rw [Function.comp_apply, scored, isScore, found]
  by_cases isProtected : pid ∈ pool.protectedIDs
  · simp [isProtected]
  · by_cases idle : 5 * minute ≤ now - item.lastResult <;> simp [isProtected, idle, sub_lt_iff]

end

end Pool

theorem withoutBest_parts (sh : Shuffle (PeerID × Rat)) (candidates : List (PeerID × Rat)) :
    ∃ best, (best ++ withoutBest sh candidates).Perm candidates ∧
      best.length = (candidates.length + 4) / 5 ∧
      ∀ first ∈ best, ∀ y ∈ withoutBest sh candidates, y.2 ≤ first.2 := by
  have byScore : ∀ first ∈ candidates, ∀ y ∈ candidates,
      (decide (first.2 > y.2) ↔ -first.2 < -y.2) := by
    intro first _ y _
    rw [decide_eq_true_iff, neg_lt_neg_iff]
  rw [withoutBest]
  split
  · refine ⟨(sh.sortSlice (fun first y => first.2 > y.2) candidates).take
      ((candidates.length + 4) / 5), ?_, ?_, ?_⟩
    · rw [take_append_drop]
      exact sh.perm_sortSlice _ candidates
    · rw [length_take, Shuffle.length_sortSlice]
      omega
    intro first isBest y isLeft
    exact neg_le_neg_iff.mp (sh.key_le_of_take (fun e => -e.2) byScore _ isBest isLeft)
  split
  · refine ⟨candidates, by rw [append_nil], by omega, ?_⟩
    intro first _ y impossible
    cases impossible
  · omega

namespace Pool

variable (pool : Pool)

theorem withoutLongest_parts (sh : Shuffle (PeerID × Rat))
    {candidates : List (PeerID × Rat)} (found : ∀ e ∈ candidates, pool.find e.1 ≠ none) :
    ∃ longest, (longest ++ pool.withoutLongest sh candidates).Perm candidates ∧
      longest.length = min 10 candidates.length ∧
      ∀ first ∈ longest, ∀ y ∈ pool.withoutLongest sh candidates,
        pool.since first.1 ≤ pool.since y.1 := by
  have bySince : ∀ first ∈ candidates, ∀ y ∈ candidates,
      (pool.before first.1 y.1 ↔ pool.since first.1 < pool.since y.1) := by
    intro first firstMember y secondMember
    exact before_iff_since_lt (found first firstMember) (found y secondMember)
  rw [withoutLongest, uptimeK_eq]
  dsimp only
  split
  · split
    · refine ⟨(sh.sortSlice (fun first y => pool.before first.1 y.1)
        candidates).take (min 10 candidates.length), ?_, ?_, ?_⟩
      · rw [take_append_drop]
        exact sh.perm_sortSlice _ candidates
      · rw [length_take, Shuffle.length_sortSlice]
        omega
      · intro first isLongest y isLeft
        exact sh.key_le_of_take (fun e => pool.since e.1) bySince _ isLongest isLeft
    split
    · refine ⟨candidates, by rw [append_nil], by omega, ?_⟩
      intro first _ y impossible
      cases impossible
    · omega
  rename_i none
  have empty : candidates = [] := eq_nil_of_length_eq_zero (by omega)
  subst empty
  exact ⟨[], List.Perm.refl _, rfl, fun _ impossible => by cases impossible⟩

theorem evict_append (first y : List PeerID) :
    pool.evict (first ++ y) = (pool.evict first).evict y :=
  foldl_append

theorem find_evict_eq_none (evicted : pid ∈ pids) : (pool.evict pids).find pid = none := by
  by_contra still
  rcases Option.ne_none_iff_exists'.mp still with ⟨item, found⟩
  have selected : pid ∈ (pool.evict pids).select fun _ => true :=
    (pool.evict pids).mem_select.mpr ⟨item, found, rfl⟩
  rw [select_evict, mem_filter] at selected
  exact of_decide_eq_true selected.2 evicted

theorem find_evict_ne_none_iff {pids : List PeerID} {pid : PeerID}
    (found : pool.find pid ≠ none) : (pool.evict pids).find pid ≠ none ↔ pid ∉ pids := by
  constructor
  · intro kept evicted
    exact kept (pool.find_evict_eq_none evicted)
  intro stays
  rw [pool.find_evict stays]
  exact found

def oldestPids (shuffle : Shuffle PeerID) (quota : Nat) : List PeerID :=
  (shuffle.sortSlice pool.before pool.probationPids).take quota

theorem evictOldest_eq (sh : Shuffle PeerID) (quota : Nat) :
    pool.evictOldest sh quota = pool.evict (pool.oldestPids sh quota) := rfl

theorem mem_probationPids_of_oldest (evicted : pid ∈ pool.oldestPids sh quota) :
    pid ∈ pool.probationPids :=
  (sh.perm_sortSlice pool.before pool.probationPids).mem_iff.mp (mem_of_mem_take evicted)

theorem since_le_of_oldest (isEvicted : evicted ∈ pool.oldestPids sh quota)
    (onProbation : kept ∈ pool.probationPids) (isKept : kept ∉ pool.oldestPids sh quota) :
    pool.since evicted ≤ pool.since kept := by
  have bySince : ∀ first ∈ pool.probationPids, ∀ y ∈ pool.probationPids,
      (pool.before first y ↔ pool.since first < pool.since y) := by
    intro first firstMember y secondMember
    rcases exists_item_of_mem_select firstMember with ⟨firstItem, firstFound⟩
    rcases exists_item_of_mem_select secondMember with ⟨secondItem, secondFound⟩
    exact before_iff_since_lt (by rw [firstFound]; exact Option.some_ne_none _)
      (by rw [secondFound]; exact Option.some_ne_none _)
  have sorted := sh.perm_sortSlice pool.before pool.probationPids
  exact sh.key_le_of_take pool.since bySince quota isEvicted
    (mem_drop_of_notMem_take (sorted.mem_iff.mpr onProbation) isKept)

theorem mem_idleMain (mem : pid ∈ pool.idleMain now) : pid ∈ pool.mainPids :=
  mem_of_mem_filter mem

theorem fst_comp_scored (now : Time) : Prod.fst ∘ pool.scored now = id := rfl

theorem exists_map_scored {pids : List PeerID} (within : entries ⊆ pids.map (pool.scored now)) :
    ∃ names : List PeerID, entries = names.map (pool.scored now) := by
  have named : ∀ e ∈ entries, id e = (pool.scored now ∘ Prod.fst) e := by
    intro e mem
    rcases mem_map.mp (within mem) with ⟨pid, -, rfl⟩
    rfl
  refine ⟨entries.map Prod.fst, ?_⟩
  rw [map_map, ← map_congr_left named, map_id]

/-- What the rounds leave of the idle relays of main. `pool` has lost nothing but relays of
probation since it was `original`. -/
theorem evictable_parts {orig : Pool} {now : Time} (ch : PruneChoice)
    (same : ∀ pid ∈ orig.mainPids, pool.find pid = orig.find pid)
    (candidates : pool.candidates (fun _ => now) orig.mainPids =
      (orig.idleMain now).map (orig.scored now)) :
    ∃ best longest rest : List PeerID, (best ++ longest ++ rest).Perm (orig.idleMain now) ∧
      best.length = ((orig.idleMain now).length + 4) / 5 ∧
      longest.length = min 10 ((orig.idleMain now).length - best.length) ∧
      (∀ first ∈ best, ∀ y ∈ longest ++ rest, orig.score now y ≤ orig.score now first) ∧
      (∀ first ∈ longest, ∀ y ∈ rest, orig.since first ≤ orig.since y) ∧
      pool.evictable (fun _ => now) ch orig.mainPids = rest.map (orig.scored now) := by
  rw [evictable, candidates]
  rcases withoutBest_parts ch.best ((orig.idleMain now).map (orig.scored now)) with
    ⟨bestEntries, bestPerm, bestLength, bestFirst⟩
  have within := bestPerm.subset
  rw [append_subset] at within
  rcases orig.exists_map_scored within.1 with ⟨best, rfl⟩
  rcases orig.exists_map_scored within.2 with ⟨others, isOthers⟩
  rw [isOthers] at bestPerm bestFirst ⊢
  rw [← map_append] at bestPerm
  have names := bestPerm.map Prod.fst
  rw [map_map, map_map, fst_comp_scored, map_id, map_id] at names
  have inMain : ∀ pid ∈ others, pid ∈ orig.mainPids := fun pid mem =>
    orig.mem_idleMain (names.mem_iff.mp (mem_append_right _ mem))
  have found : ∀ e ∈ others.map (orig.scored now), pool.find e.1 ≠ none := by
    rw [forall_mem_map]
    intro pid mem
    rcases exists_item_of_mem_select (inMain pid mem) with ⟨item, isItem⟩
    rw [scored, same pid (inMain pid mem), isItem]
    exact Option.some_ne_none _
  rcases pool.withoutLongest_parts ch.longest found with
    ⟨longestEntries, longestPerm, longestLength, longestFirst⟩
  have split := longestPerm.subset
  rw [append_subset] at split
  rcases orig.exists_map_scored split.1 with ⟨longest, rfl⟩
  rcases orig.exists_map_scored split.2 with ⟨rest, isRest⟩
  rw [isRest] at longestPerm longestFirst ⊢
  rw [← map_append] at longestPerm
  have otherNames := longestPerm.map Prod.fst
  rw [map_map, map_map, fst_comp_scored, map_id, map_id] at otherNames
  have total := names.length_eq
  rw [length_append] at total
  rw [length_map, length_map] at bestLength longestLength
  refine ⟨best, longest, rest, ?_, bestLength, by omega, ?_, ?_, rfl⟩
  · rw [append_assoc]
    exact (otherNames.append_left best).trans names
  · intro first isBest y isLeft
    exact bestFirst _ (mem_map_of_mem isBest) _ (mem_map_of_mem (otherNames.mem_iff.mp isLeft))
  intro first isLongest y isLeft
  have compared := longestFirst _ (mem_map_of_mem isLongest) _ (mem_map_of_mem isLeft)
  have firstMain := inMain first (otherNames.mem_iff.mp (mem_append_left _ isLongest))
  have secondMain := inMain y (otherNames.mem_iff.mp (mem_append_right _ isLeft))
  rw [scored, scored, since_congr (same first firstMain),
    since_congr (same y secondMain)] at compared
  exact compared

section

variable {orig : Pool} {now : Time} {ch : PruneChoice} {pids rest : List PeerID}
  (evictable : pool.evictable (fun _ => now) ch pids = rest.map (orig.scored now))

include evictable

theorem mem_of_evictedFromMain
    (evicted : pid ∈ pool.evictedFromMain (fun _ => now) ch pids quota) : pid ∈ rest := by
  rw [evictedFromMain, evictable] at evicted
  rcases mem_map.mp evicted with ⟨e, isTaken, rfl⟩
  have mem := ch.worst.mem_sortSlice.mp (mem_of_mem_take isTaken)
  rcases mem_map.mp mem with ⟨pid, isRest, rfl⟩
  exact isRest

theorem score_le_of_evictedFromMain
    (isEvicted : evicted ∈ pool.evictedFromMain (fun _ => now) ch pids quota)
    (isLeft : kept ∈ rest) (isKept : kept ∉ pool.evictedFromMain (fun _ => now) ch pids quota) :
    orig.score now evicted ≤ orig.score now kept := by
  rw [evictedFromMain, evictable] at isEvicted isKept
  rcases mem_map.mp isEvicted with ⟨e, isTaken, rfl⟩
  have mem := ch.worst.mem_sortSlice.mp (mem_of_mem_take isTaken)
  rcases mem_map.mp mem with ⟨pid, isRest, rfl⟩
  have isSorted : orig.scored now kept ∈ ch.worst.sortSlice
      (fun first y => first.2 < y.2) (rest.map (orig.scored now)) :=
    ch.worst.mem_sortSlice.mpr (mem_map_of_mem isLeft)
  have notTaken : orig.scored now kept ∉ (ch.worst.sortSlice
      (fun first y => first.2 < y.2) (rest.map (orig.scored now))).take quota :=
    fun taken => isKept (mem_map.mpr ⟨_, taken, rfl⟩)
  exact ch.worst.key_le_of_take Prod.snd (fun _ _ _ _ => decide_eq_true_iff) quota
    isTaken (mem_drop_of_notMem_take isSorted notTaken)

end

theorem rounds_of_evicted {orig post : Pool} (ch : PruneChoice) (quota : Nat)
    (same : ∀ pid ∈ orig.mainPids, pool.find pid = orig.find pid)
    (candidates : pool.candidates (fun _ => now) orig.mainPids =
      (orig.idleMain now).map (orig.scored now))
    (evicted : ∀ pid ∈ orig.mainPids, post.find pid = none ↔
      pid ∈ pool.evictedFromMain (fun _ => now) ch orig.mainPids quota) : orig.Rounds now post := by
  rcases pool.evictable_parts ch same candidates with
    ⟨best, longest, rest, perm, bestLength, longestLength, bestFirst, longestFirst, evictable⟩
  have inMain : ∀ pid ∈ rest, pid ∈ orig.mainPids := fun pid mem =>
    orig.mem_idleMain (perm.mem_iff.mp (mem_append_right _ mem))
  refine ⟨best, longest, rest, perm, bestLength, longestLength, bestFirst, longestFirst, ?_, ?_⟩
  · intro pid mem gone
    exact pool.mem_of_evictedFromMain evictable ((evicted pid mem).mp gone)
  intro first isRest gone kept isKept stays
  exact pool.score_le_of_evictedFromMain evictable
    ((evicted first (inMain first isRest)).mp gone) isKept
    fun taken => stays ((evicted kept (inMain kept isKept)).mpr taken)

structure Evictions (pool : Pool) (now : Time) (post : Pool) (first main last : List PeerID) :
    Prop where
  evicted : post = pool.evict (first ++ main ++ last)
  firstOnProbation : first ⊆ pool.probationPids
  inMain : main ⊆ pool.mainPids
  lastOnProbation : last ⊆ pool.probationPids
  firstOldest : ∀ pid ∈ first, ∀ kept ∈ pool.probationPids, kept ∉ first →
    pool.since pid ≤ pool.since kept
  lastOldest : ∀ pid ∈ last, ∀ kept ∈ pool.probationPids, kept ∉ first → kept ∉ last →
    pool.since pid ≤ pool.since kept
  worst : ∃ ch quota,
    main = (pool.evict first).evictedFromMain (fun _ => now) ch pool.mainPids quota

theorem evictions_evictOldest (firstOnProbation : first ⊆ pool.probationPids)
    (firstOldest : ∀ pid ∈ first, ∀ kept ∈ pool.probationPids, kept ∉ first →
      pool.since pid ≤ pool.since kept)
    (isMain : main = (pool.evict first).evictedFromMain (fun _ => now) ch pool.mainPids quota)
    (sh : Shuffle PeerID) (rest : Nat) :
    ∃ last, pool.Evictions now (((pool.evict first).evict main).evictOldest sh rest) first main
      last := by
  have inMain : main ⊆ pool.mainPids := by
    rw [isMain]
    exact ((pool.evict first).evictedFromMain_spec (fun _ => now) ch
      (pool.select_nodup RelayItem.inMain) quota).2.1
  have left : ∀ pid, pid ∈ (pool.evict (first ++ main)).probationPids ↔
      pid ∈ pool.probationPids ∧ pid ∉ first ++ main := by
    intro pid
    rw [probationPids, select_evict, mem_filter, decide_eq_true_iff]
    rfl
  rw [← evict_append, evictOldest_eq]
  refine ⟨_, (pool.evict_append (first ++ main) _).symm, firstOnProbation, inMain, ?_,
    firstOldest, ?_, ch, quota, isMain⟩
  · intro pid mem
    exact ((left pid).mp (Pool.mem_probationPids_of_oldest _ mem)).1
  intro pid mem kept onProbation notFirst notLast
  have stays : kept ∈ (pool.evict (first ++ main)).probationPids := by
    rw [left, mem_append, not_or]
    exact ⟨onProbation, notFirst, fun isMain => pool.not_mem_mainPids onProbation (inMain isMain)⟩
  have older := (pool.evict (first ++ main)).since_le_of_oldest mem stays notLast
  have notEvicted := ((left pid).mp (Pool.mem_probationPids_of_oldest _ mem)).2
  rw [since_congr (pool.find_evict notEvicted),
    since_congr (pool.find_evict ((left kept).mp stays).2)] at older
  exact older

theorem exists_evictions (now : Time) (ch : PruneChoice) (above : pool.highWater < pool.size) :
    ∃ first main last, pool.Evictions now (pool.prune (fun _ => now) ch) first main last := by
  rw [prune, if_neg (Nat.not_le.mpr above)]
  dsimp only
  generalize quotas (pool.size - pool.lowWater) pool.probationPids.length
    pool.mainPids.length = quota
  have subset : pool.oldestPids ch.probation quota.1 ⊆ pool.probationPids :=
    fun pid mem => pool.mem_probationPids_of_oldest mem
  have oldest : ∀ pid ∈ pool.oldestPids ch.probation quota.1, ∀ kept ∈ pool.probationPids,
      kept ∉ pool.oldestPids ch.probation quota.1 → pool.since pid ≤ pool.since kept :=
    fun pid mem kept onProbation stays => pool.since_le_of_oldest mem onProbation stays
  split
  · exact ⟨_, _, pool.evictions_evictOldest subset oldest rfl ch.spill _⟩
  -- Nothing is taken from main, and nothing more from probation.
  have nothing : (pool.evict (pool.oldestPids ch.probation quota.1)).evictedFromMain
      (fun _ => now) ch pool.mainPids 0 = [] := rfl
  exact ⟨_, _, pool.evictions_evictOldest subset oldest nothing.symm ch.spill 0⟩

namespace Evictions

variable {pool} {now : Time} {post : Pool} {first main last : List PeerID}
  (evictions : pool.Evictions now post first main last)

include evictions

theorem find_eq_none_iff (found : pool.find pid ≠ none) :
    post.find pid = none ↔ pid ∈ first ∨ pid ∈ main ∨ pid ∈ last := by
  have kept := @find_evict_ne_none_iff pool (first ++ main ++ last) pid found
  rw [← evictions.evicted, mem_append, mem_append, or_assoc] at kept
  exact not_iff_not.mp kept

theorem unchanged (kept : post.find pid ≠ none) : post.find pid = pool.find pid := by
  rw [evictions.evicted] at kept ⊢
  exact pool.find_evict fun evicted => kept (pool.find_evict_eq_none evicted)

theorem oldest {evicted : PeerID} (evictedFound : evicted ∈ pool.probationPids)
    (gone : post.find evicted = none) (keptFound : kept ∈ pool.probationPids)
    (stays : post.find kept ≠ none) : pool.since evicted ≤ pool.since kept := by
  have found : ∀ pid ∈ pool.probationPids, pool.find pid ≠ none := by
    intro pid mem
    rcases exists_item_of_mem_select mem with ⟨item, isItem⟩
    rw [isItem]
    exact Option.some_ne_none _
  rw [Ne, evictions.find_eq_none_iff (found kept keptFound), not_or, not_or] at stays
  rcases (evictions.find_eq_none_iff (found evicted evictedFound)).mp gone with
    isFirst | isMain | isLast
  · exact evictions.firstOldest evicted isFirst kept keptFound stays.1
  · exact absurd (evictions.inMain isMain) (pool.not_mem_mainPids evictedFound)
  · exact evictions.lastOldest evicted isLast kept keptFound stays.1 stays.2.2

theorem rounds : pool.Rounds now post := by
  rcases evictions.worst with ⟨ch, quota, isMain⟩
  have notFirst : ∀ pid ∈ pool.mainPids, pid ∉ first := fun pid inMain mem =>
    pool.not_mem_mainPids (evictions.firstOnProbation mem) inMain
  apply (pool.evict first).rounds_of_evicted ch quota
  · intro pid inMain
    exact pool.find_evict (notFirst pid inMain)
  · rw [pool.candidates_evict notFirst, candidates_eq]
  intro pid inMain
  rcases exists_item_of_mem_select inMain with ⟨item, isItem⟩
  rw [evictions.find_eq_none_iff (by rw [isItem]; exact Option.some_ne_none _), ← isMain]
  constructor
  · rintro (isFirst | evicted | isLast)
    · exact absurd isFirst (notFirst pid inMain)
    · exact evicted
    · exact absurd inMain (pool.not_mem_mainPids (evictions.lastOnProbation isLast))
  · intro evicted
    exact .inr (.inl evicted)

end Evictions

/-- `prune` follows the policy, whatever the order of maps and of equal elements. -/
theorem pruned_prune (now : Time) (choice : PruneChoice)
    (marks : pool.lowWater ≤ pool.highWater) (above : pool.highWater < pool.size) :
    pool.Pruned now (pool.prune (fun _ => now) choice) := by
  rcases pool.exists_evictions now choice above with ⟨first, main, last, evictions⟩
  refine ⟨?_, fun pid => evictions.unchanged, ?_, evictions.rounds⟩
  · have tiers := pool.size_eq
    have inMain : pool.size - pool.probationPids.length = pool.mainPids.length := by omega
    rw [pool.size_prune (fun _ => now) choice marks above, shielded, candidates_eq,
      length_map, inMain]
  · intro evicted evictedFound gone kept keptFound stays
    exact evictions.oldest evictedFound gone keptFound stays

def idleRelays (now : Time) : Nat → AList fun _ : PeerID => RelayItem
  | 0 => AList.insert [255] (newItem [] now) ∅
  | count + 1 => (idleRelays now count).insert [UInt8.ofNat count]
      ((newItem [] (now - count * minute)).recordResult (now - 10 * minute) .errOK)

def idlePool (now : Time) : Pool :=
  { newRelayPool defaultWeights with items := idleRelays now 14, lowWater := 1, highWater := 2 }

theorem pruned_idlePool :
    (idlePool 0).lowWater ≤ (idlePool 0).highWater ∧ (idlePool 0).size = 15 ∧
      ((idlePool 0).prune (fun _ => 0) .asIs).size = 13 ∧
      (idlePool 0).Pruned 0 ((idlePool 0).prune (fun _ => 0) .asIs) :=
  ⟨by decide, by decide +kernel, by decide +kernel,
    pruned_prune (idlePool 0) 0 .asIs (by decide) (by decide +kernel)⟩

end Pool

end Peerscale.RelayPool
