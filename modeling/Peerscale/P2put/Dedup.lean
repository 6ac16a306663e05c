import Mathlib.Data.List.AList
import Peerscale.Foundation.GoValue
import Peerscale.Foundation.Sorting
import Peerscale.Foundation.Time

/-! # Message IDs that have been seen

`isMsgSeen` keeps the IDs with the times at which they came, and counts them apart from the
table. When the counter has reached `dedupMaxSize`, it starts again while the table is swept.
-/

namespace Peerscale.P2put

def dedupTTL : Duration := 10 * minute
def dedupMaxSize : Int32 := 2000

abbrev SeenID := Sigma fun _ : GoString => Time

structure Dedup where
  seenMsgIDs : AList fun _ : GoString => Time
  dedupCount : Int32

/-- A call of `isMsgSeen`, during which the clock shows `now`, and the order of its `Range`. -/
structure SeenCall where
  msgID : GoString
  now : Time
  range : Shuffle SeenID

namespace Dedup

open List

def expired (now : Time) (entry : SeenID) : Bool := Time.sub now entry.2 > dedupTTL

def visit (now : Time) (dedup : Dedup) (entry : SeenID) : Dedup :=
  if expired now entry then { dedup with seenMsgIDs := dedup.seenMsgIDs.erase entry.1 }
  else { dedup with dedupCount := dedup.dedupCount + 1 }

def sweep (now : Time) (dedup : Dedup) (entries : List SeenID) : Dedup :=
  entries.foldl (visit now) dedup

def store (dedup : Dedup) (call : SeenCall) : Dedup :=
  ⟨dedup.seenMsgIDs.insert call.msgID call.now, dedup.dedupCount + 1⟩

def isMsgSeen (dedup : Dedup) (call : SeenCall) : Bool × Dedup :=
  if (dedup.seenMsgIDs.lookup call.msgID).isSome then (true, dedup)
  else if dedupMaxSize ≤ (dedup.store call).dedupCount then
    (false, sweep call.now { dedup.store call with dedupCount := 0 }
      (call.range.order (dedup.store call).seenMsgIDs.entries))
  else (false, dedup.store call)

def after (calls : List SeenCall) : Dedup :=
  calls.foldl (fun dedup call => (dedup.isMsgSeen call).2) ⟨∅, 0⟩

def size (dedup : Dedup) : Nat := dedup.seenMsgIDs.keys.length

def Counted (dedup : Dedup) : Prop := dedup.dedupCount = Int32.ofNat dedup.size

variable {dedup : Dedup} {call : SeenCall} {now : Time} {entries : List SeenID}

-- The entries that have been visited and kept are counted already.
theorem counted_sweep (distinct : entries.NodupKeys)
    (present : ∀ entry ∈ entries, entry.1 ∈ dedup.seenMsgIDs)
    (counted : dedup.dedupCount = Int32.ofNat kept)
    (total : kept + entries.length = dedup.size) : (sweep now dedup entries).Counted := by
  induction entries generalizing dedup kept with
  | nil => exact counted.trans (congrArg Int32.ofNat total)
  | cons entry entries ih =>
    obtain ⟨apart, distinct⟩ := nodupKeys_cons.mp distinct
    rw [forall_mem_cons] at present
    rw [length_cons] at total
    have here := AList.mem_keys.mp present.1
    rw [sweep, foldl_cons, ← sweep, visit]
    split
    · have shorter : (dedup.seenMsgIDs.erase entry.1).keys.length = dedup.size - 1 := by
        rw [AList.keys_erase]
        exact @List.length_erase_of_mem _ instBEqOfDecidableEq _ _ _ here
      refine ih distinct (fun other mem => AList.mem_erase.mpr ⟨?_, present.2 other mem⟩) counted ?_
      · exact fun same => apart (same ▸ mem_map_of_mem mem)
      · change _ = (dedup.seenMsgIDs.erase entry.1).keys.length
        omega
    · have next : dedup.dedupCount + 1 = Int32.ofNat (kept + 1) := by
        rw [Int32.ofNat_add, ← counted]
        rfl
      refine ih distinct present.2 next ?_
      change _ = dedup.size
      omega

theorem lookup_sweep {id : GoString}
    (found : (sweep now dedup entries).seenMsgIDs.lookup id = some time) :
    dedup.seenMsgIDs.lookup id = some time ∧
      (⟨id, time⟩ ∈ entries → expired now ⟨id, time⟩ = false) := by
  induction entries generalizing dedup with
  | nil => exact ⟨found, nofun⟩
  | cons entry entries ih =>
    rw [sweep, foldl_cons] at found
    obtain ⟨before, kept⟩ := ih found
    rw [visit] at before
    split at before
    case isTrue old =>
      have ne : id ≠ entry.1 := by
        rintro rfl
        rw [AList.lookup_erase] at before
        nomatch before
      rw [AList.lookup_erase_ne ne] at before
      refine ⟨before, fun mem => kept ((mem_cons.mp mem).resolve_left ?_)⟩
      rintro rfl
      exact ne rfl
    case isFalse young =>
      refine ⟨before, fun mem => ?_⟩
      rcases mem_cons.mp mem with rfl | mem
      · exact Bool.eq_false_iff.mpr young
      · exact kept mem

theorem sweep_young (young : ∀ entry ∈ entries, expired now entry = false) :
    (sweep now dedup entries).seenMsgIDs = dedup.seenMsgIDs := by
  induction entries generalizing dedup with
  | nil => rfl
  | cons entry entries ih =>
    rw [forall_mem_cons] at young
    rw [sweep, foldl_cons, visit, young.1]
    exact ih young.2

theorem size_store (new : dedup.seenMsgIDs.lookup call.msgID = none) :
    (dedup.store call).size = dedup.size + 1 := by
  have absent := AList.lookup_eq_none.mp new
  rw [size, store, AList.keys, AList.entries_insert_of_notMem absent]
  rfl

theorem Counted.isMsgSeen (counted : dedup.Counted) (call : SeenCall) :
    (dedup.isMsgSeen call).2.Counted := by
  rw [Dedup.isMsgSeen]
  split
  · exact counted
  case isFalse new =>
    have sized := size_store (Option.not_isSome_iff_eq_none.mp new)
    split
    · have perm := call.range.perm (dedup.store call).seenMsgIDs.entries
      have distinct := (perm_nodupKeys perm).mpr (dedup.store call).seenMsgIDs.nodupKeys
      refine counted_sweep distinct (fun entry mem => ?_) (show (0 : Int32) = .ofNat 0 from rfl) ?_
      · exact mem_map_of_mem (perm.mem_iff.mp mem)
      · rw [Nat.zero_add, perm.length_eq]
        exact (length_map _).symm
    · rw [Counted, sized, Int32.ofNat_add, ← counted]
      rfl

theorem after_concat (calls : List SeenCall) (call : SeenCall) :
    after (calls ++ [call]) = ((after calls).isMsgSeen call).2 := foldl_concat ..

theorem counted_after (calls : List SeenCall) : (after calls).Counted := by
  induction calls using reverseRecOn with
  | nil => rfl
  | append_singleton calls call ih => exact after_concat calls call ▸ ih.isMsgSeen call

/-- The counter wraps around: it is right while there are fewer than 2³¹ IDs. -/
theorem counted_iff (calls : List SeenCall) :
    ((after calls).dedupCount.toInt = (after calls).size ↔ (after calls).size < 2 ^ 31) ∧
      ∀ call, (after calls).seenMsgIDs.lookup call.msgID = none →
        dedupMaxSize ≤ ((after calls).store call).dedupCount → ∀ id time,
        ((after calls).isMsgSeen call).2.seenMsgIDs.lookup id = some time →
          Time.sub call.now time ≤ dedupTTL := by
  constructor
  · rw [counted_after calls, Int32.toInt_ofNat', show Int32.size = 2 ^ 32 from rfl, Int.bmod]
    omega
  · intro call new reached id time found
    rw [isMsgSeen, if_neg (by rw [new]; nofun), if_pos reached] at found
    obtain ⟨stored, kept⟩ := lookup_sweep found
    have young := kept ((call.range.perm _).mem_iff.mpr (AList.mem_lookup_iff.mp stored))
    exact Int.not_lt.mp (of_decide_eq_false young)

theorem sweep_keeps (found : dedup.seenMsgIDs.lookup msgID = some time)
    (young : ∀ entry ∈ entries, entry.1 = msgID → expired now entry = false) :
    (sweep now dedup entries).seenMsgIDs.lookup msgID = some time := by
  induction entries generalizing dedup with
  | nil => exact found
  | cons entry entries ih =>
    rw [forall_mem_cons] at young
    rw [sweep, foldl_cons]
    refine ih ?_ young.2
    rw [visit]
    split
    case isTrue old =>
      have ne : msgID ≠ entry.1 := fun same => Bool.eq_false_iff.mp (young.1 same.symm) old
      exact (AList.lookup_erase_ne ne).trans found
    case isFalse => exact found

theorem stored_keeps (new : dedup.seenMsgIDs.lookup call.msgID = none)
    (found : (dedup.store call).seenMsgIDs.lookup msgID = some time)
    (young : Time.sub call.now time ≤ dedupTTL) :
    (dedup.isMsgSeen call).2.seenMsgIDs.lookup msgID = some time := by
  rw [isMsgSeen, if_neg (by rw [new]; nofun)]
  split
  · refine sweep_keeps found fun entry mem same => decide_eq_false (Int.not_lt.mpr ?_)
    have here := AList.mem_lookup_iff.mpr ((call.range.perm _).mem_iff.mp mem)
    rw [same, found] at here
    rwa [← Option.some.inj here]
  · exact found

theorem isMsgSeen_keeps (found : dedup.seenMsgIDs.lookup msgID = some time)
    (young : Time.sub call.now time ≤ dedupTTL) :
    (dedup.isMsgSeen call).2.seenMsgIDs.lookup msgID = some time := by
  cases new : dedup.seenMsgIDs.lookup call.msgID with
  | some => rwa [isMsgSeen, if_pos (by rw [new]; rfl)]
  | none =>
    have ne : msgID ≠ call.msgID := by
      rintro rfl
      rw [new] at found
      nomatch found
    exact stored_keeps new ((AList.lookup_insert_ne ne).trans found) young

/-- If the clock does not go back, an ID is not taken for new twice within `dedupTTL`. -/
theorem seen_within_ttl (earlier later : List SeenCall) (same : again.msgID = call.msgID)
    (unseen : ((after earlier).isMsgSeen call).1 = false)
    (ordered : ∀ other ∈ later, other.now ≤ again.now)
    (within : Time.sub again.now call.now ≤ dedupTTL) :
    ((after (earlier ++ call :: later)).isMsgSeen again).1 = true := by
  have kept : (after (earlier ++ call :: later)).seenMsgIDs.lookup call.msgID = some call.now := by
    induction later using reverseRecOn with
    | nil =>
      rw [after_concat]
      refine stored_keeps (Option.not_isSome_iff_eq_none.mp fun seen => ?_)
        (AList.lookup_insert _) ?_
      · rw [isMsgSeen, if_pos seen] at unseen
        nomatch unseen
      · rw [Time.sub, Int.sub_self]
        decide
    | append_singleton later other ih =>
      rw [forall_mem_append, forall_mem_singleton] at ordered
      rw [← cons_append, ← append_assoc, after_concat]
      exact isMsgSeen_keeps (ih ordered.1) ((Time.sub_le_sub ordered.2 _).trans within)
  rw [isMsgSeen, if_pos]
  rw [same, kept]
  rfl

theorem seen_after_ttl :
    let call (msgID : GoString) (now : Time) : SeenCall := ⟨msgID, now, Shuffle.asIs _⟩
    ((after [call [1] 0, call [] 1, call [1] 2, call [2] dedupTTL]).isMsgSeen
      (call [] (dedupTTL + 1))).1 = true := by
  intro call
  exact @seen_within_ttl (call [] 1) (call [] (dedupTTL + 1)) [call [1] 0]
    [call [1] 2, call [2] dedupTTL] rfl (by decide +kernel) (by decide +kernel) (by decide +kernel)

theorem isMsgSeen_young (new : dedup.seenMsgIDs.lookup call.msgID = none)
    (young : ∀ entry ∈ (dedup.store call).seenMsgIDs.entries, expired call.now entry = false) :
    (dedup.isMsgSeen call).2.seenMsgIDs = (dedup.store call).seenMsgIDs := by
  rw [isMsgSeen, if_neg (by rw [new]; nofun)]
  split
  · exact sweep_young fun entry mem => young entry ((call.range.perm _).mem_iff.mp mem)
  · rfl

def flood (n : Nat) : List SeenCall :=
  (range n).map fun number => ⟨bigEndian 4 number, 0, Shuffle.asIs _⟩

theorem after_flood (small : n ≤ 2 ^ 31) : (after (flood n)).size = n ∧
    ∀ entry ∈ (after (flood n)).seenMsgIDs.entries,
      ofBigEndian entry.1 < n ∧ expired 0 entry = false := by
  induction n with
  | zero => exact ⟨rfl, nofun⟩
  | succ n ih =>
    obtain ⟨sized, known⟩ := ih (by omega)
    have back : ofBigEndian (bigEndian 4 n) = n := ofBigEndian_bigEndian (by omega)
    have new : (after (flood n)).seenMsgIDs.lookup (bigEndian 4 n) = none := by
      rw [Option.eq_none_iff_forall_ne_some]
      intro time found
      have below : ofBigEndian (bigEndian 4 n) < n := (known _ (AList.mem_lookup_iff.mp found)).1
      omega
    let call : SeenCall := ⟨bigEndian 4 n, 0, Shuffle.asIs _⟩
    have all : ∀ entry ∈ ((after (flood n)).store call).seenMsgIDs.entries,
        ofBigEndian entry.1 < n + 1 ∧ expired 0 entry = false := by
      intro entry mem
      rw [store, AList.entries_insert_of_notMem (AList.lookup_eq_none.mp new)] at mem
      rcases mem_cons.mp mem with rfl | mem
      · exact ⟨back.symm ▸ Nat.lt_succ_self n, show expired 0 ⟨[], 0⟩ = false by decide⟩
      · exact ⟨Nat.lt_succ_of_lt (known entry mem).1, (known entry mem).2⟩
    have table := @isMsgSeen_young _ call new fun entry mem => (all entry mem).2
    rw [flood, range_succ, map_append, map_singleton, after_concat, size]
    change (isMsgSeen (after (flood n)) call).2.seenMsgIDs.keys.length = n + 1 ∧
      ∀ entry ∈ (isMsgSeen (after (flood n)) call).2.seenMsgIDs.entries, _
    rw [table]
    exact ⟨(size_store new).trans (congrArg (· + 1) sized), all⟩

theorem miscounted : (after (flood (2 ^ 31))).size = 2 ^ 31 ∧
    (after (flood (2 ^ 31))).dedupCount.toInt = -2 ^ 31 := by
  have sized := (after_flood (Nat.le_refl (2 ^ 31))).1
  refine ⟨sized, ?_⟩
  rw [counted_after, sized]
  decide

end Dedup

end Peerscale.P2put
