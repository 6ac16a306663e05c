import Mathlib.Algebra.BigOperators.Intervals
import Mathlib.Algebra.Order.BigOperators.Group.Finset
import Mathlib.Data.List.Range
import Mathlib.Tactic.Ring

/-! # Cutting a list into pieces of one width

All pieces but the last have the full width. The number of pieces is the quotient
rounded up, computed as programs do it.
-/

namespace Peerscale

variable {α : Type}

def piece (k : Nat) (list : List α) (index : Nat) : List α :=
  (list.drop (index * k)).take k

def pieceCount (k length : Nat) : Nat :=
  if length % k ≠ 0 then length / k + 1 else length / k

section

variable {k : Nat} (pos : 0 < k)

include pos

theorem lt_pieceCount_iff (length index : Nat) :
    index < pieceCount k length ↔ index * k < length := by
  have division := Nat.div_add_mod length k
  have remainder := Nat.mod_lt length pos
  rw [Nat.mul_comm] at division
  unfold pieceCount
  split
  · rename_i partly
    constructor
    · intro within
      have scaled := Nat.mul_le_mul_right k (Nat.lt_succ_iff.mp within)
      omega
    intro within
    by_contra beyond
    have scaled := Nat.mul_le_mul_right k (Nat.not_lt.mp beyond)
    rw [Nat.add_mul] at scaled
    omega
  constructor
  · intro within
    have scaled := Nat.mul_lt_mul_of_pos_right within pos
    omega
  intro within
  by_contra beyond
  have scaled := Nat.mul_le_mul_right k (Nat.not_lt.mp beyond)
  omega

theorem le_pieceCount_mul (length : Nat) : length ≤ pieceCount k length * k := by
  have excluded := (lt_pieceCount_iff pos length (pieceCount k length)).not
  omega

theorem pieceCount_mono (shorter : short ≤ long) : pieceCount k short ≤ pieceCount k long := by
  by_contra larger
  have within := (lt_pieceCount_iff pos short (pieceCount k long)).mp (by omega)
  have covered := le_pieceCount_mul pos long
  omega

theorem pieceCount_min (within : n ≤ pieceCount k length) :
    pieceCount k (min (n * k) length) = n := by
  have upper : ¬n < pieceCount k (min (n * k) length) := by
    rw [lt_pieceCount_iff pos]
    omega
  have lower : ∀ index, index < n → index < pieceCount k (min (n * k) length) := by
    intro index less
    rw [lt_pieceCount_iff pos, Nat.lt_min]
    exact ⟨Nat.mul_lt_mul_of_pos_right less pos, (lt_pieceCount_iff pos length index).mp (by omega)⟩
  have notBelow := lower (pieceCount k (min (n * k) length))
  omega

theorem piece_ne_nil {list : List α} (within : index < pieceCount k list.length) :
    piece k list index ≠ [] := by
  have start := (lt_pieceCount_iff pos list.length index).mp within
  intro empty
  have lengths := congrArg List.length empty
  rw [piece, List.length_take, List.length_drop, List.length_nil] at lengths
  omega

end

def pieceLength (k length index : Nat) : Nat := min k (length - index * k)

theorem length_piece (k : Nat) (list : List α) (index : Nat) :
    (piece k list index).length = pieceLength k list.length index := by
  rw [piece, pieceLength, List.length_take, List.length_drop]

theorem length_piece_of_le {list : List α} (within : (index + 1) * k ≤ list.length) :
    (piece k list index).length = k := by
  rw [Nat.add_mul] at within
  rw [length_piece, pieceLength]
  omega

theorem length_piece_le (k : Nat) (list : List α) (index : Nat) :
    (piece k list index).length ≤ k := by
  rw [length_piece, pieceLength]
  exact Nat.min_le_left _ _

theorem sum_pieceLength (k length n : Nat) :
    ∑ index ∈ Finset.range n, pieceLength k length index = min (n * k) length := by
  induction n with
  | zero => simp
  | succ n ih =>
    rw [Finset.sum_range_succ, ih, pieceLength, Nat.succ_mul]
    omega

theorem sum_le_of_distinct {k length : Nat} {pieces : List (Nat × Nat)}
    (distinct : (pieces.map Prod.fst).Nodup)
    (within : ∀ piece ∈ pieces, piece.2 ≤ pieceLength k length piece.1) :
    (pieces.map Prod.snd).sum ≤ length := by
  let indices := (pieces.map Prod.fst).toFinset
  calc (pieces.map Prod.snd).sum
      ≤ (pieces.map fun piece => pieceLength k length piece.1).sum := List.sum_le_sum within
    _ = ∑ index ∈ indices, pieceLength k length index := by
        rw [List.sum_toFinset _ distinct, List.map_map]
        rfl
    _ ≤ ∑ index ∈ Finset.range (indices.sup id + 1), pieceLength k length index := by
        apply Finset.sum_le_sum_of_subset
        intro index mem
        exact Finset.mem_range.mpr (Nat.lt_succ_of_le (Finset.le_sup (f := id) mem))
    _ ≤ length := by
        rw [sum_pieceLength]
        exact Nat.min_le_right _ _

theorem flatMap_piece_range' (k : Nat) (list : List α) (start n : Nat) :
    (List.range' start n).flatMap (piece k list) = (list.drop (start * k)).take (n * k) := by
  induction n generalizing start with
  | zero => simp
  | succ n ih =>
    rw [List.range'_succ, List.flatMap_cons, ih (start + 1), piece]
    have next : (start + 1) * k = start * k + k := by ring
    have total : (n + 1) * k = k + n * k := by ring
    rw [next, total, List.take_add, List.drop_drop]

theorem flatMap_piece_range (k : Nat) (list : List α) (n : Nat) :
    (List.range n).flatMap (piece k list) = list.take (n * k) := by
  rw [List.range_eq_range', flatMap_piece_range', Nat.zero_mul, List.drop_zero]

end Peerscale
