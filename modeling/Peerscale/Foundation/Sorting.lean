import Mathlib.Data.List.Sort
import Mathlib.Data.List.Perm.Basic

/-! # Orders that Go leaves open

The iteration order of a map is not specified, and `sort.Slice` may put elements that
compare equal in any order. Both are choices: a list is first put in any order and then
sorted by a sort that keeps equal elements in the order in which they are.
-/

namespace Peerscale

/-- One of the orders in which the elements of a list can be. -/
structure Shuffle (α : Type) where
  order : List α → List α
  perm : ∀ elements, (order elements).Perm elements

def Shuffle.asIs (α : Type) : Shuffle α := ⟨id, fun _ => List.Perm.refl _⟩

def Shuffle.front [DecidableEq α] (element : α) : Shuffle α where
  order elements := if element ∈ elements then element :: elements.erase element else elements
  perm elements := by
    split
    · exact (List.perm_cons_erase ‹_›).symm
    · rfl

variable {α : Type} (sh : Shuffle α)

def Shuffle.sortSlice (less : α → α → Bool) (elements : List α) : List α :=
  (sh.order elements).insertionSort fun first second => !less second first

theorem Shuffle.perm_sortSlice (less : α → α → Bool) (elems : List α) :
    (sh.sortSlice less elems).Perm elems :=
  (List.perm_insertionSort _ _).trans (sh.perm elems)

@[simp] theorem Shuffle.mem_sortSlice : elem ∈ sh.sortSlice less elems ↔ elem ∈ elems :=
  (sh.perm_sortSlice less elems).mem_iff

@[simp] theorem Shuffle.length_sortSlice (less : α → α → Bool) (elems : List α) :
    (sh.sortSlice less elems).length = elems.length :=
  (sh.perm_sortSlice less elems).length_eq

theorem Shuffle.pairwise_sortSlice {β : Type} [LinearOrder β] (key : α → β)
    {less : α → α → Bool} {elems : List α} (byKey : ∀ x ∈ elems, ∀ y ∈ elems,
      (less x y ↔ key x < key y)) :
    (sh.sortSlice less elems).Pairwise fun x y => key x ≤ key y := by
  have agrees : ∀ x ∈ sh.order elems, ∀ y ∈ sh.order elems, (!less y x) ↔ key x ≤ key y := by
    intro x firstMember y secondMember
    have compared := byKey y ((sh.perm elems).mem_iff.mp secondMember) x
      ((sh.perm elems).mem_iff.mp firstMember)
    rw [Bool.not_eq_true_eq_eq_false, ← Bool.not_eq_true, compared, not_lt]
  have same := List.map_insertionSort (fun x y => (!less y x))
    (fun x y => key x ≤ key y) id (sh.order elems) agrees
  rw [List.map_id, List.map_id] at same
  have total : Std.Total fun x y : α => key x ≤ key y := ⟨fun x y => le_total (key x) (key y)⟩
  have transitive : IsTrans α fun x y => key x ≤ key y := ⟨fun _ _ _ => le_trans⟩
  rw [Shuffle.sortSlice, same]
  exact List.pairwise_insertionSort _ _

theorem Shuffle.key_le_of_take {β : Type} [LinearOrder β] (key : α → β)
    {less : α → α → Bool} {elems : List α} (byKey : ∀ x ∈ elems, ∀ y ∈ elems,
      (less x y ↔ key x < key y)) (n : Nat) {taken left : α}
    (isTaken : taken ∈ (sh.sortSlice less elems).take n)
    (isLeft : left ∈ (sh.sortSlice less elems).drop n) : key taken ≤ key left := by
  have sorted := sh.pairwise_sortSlice key byKey
  rw [← List.take_append_drop n (sh.sortSlice less elems), List.pairwise_append] at sorted
  exact sorted.2.2 taken isTaken left isLeft

theorem mem_drop_of_notMem_take {elems : List α} (mem : elem ∈ elems)
    (notTaken : elem ∉ elems.take n) : elem ∈ elems.drop n := by
  rw [← List.take_append_drop n elems, List.mem_append] at mem
  exact mem.resolve_left notTaken

theorem length_filter_notMem {removed : List α} [DecidablePred (· ∈ removed)]
    (distinct : List.Nodup elems) (removedDistinct : removed.Nodup) (subset : removed ⊆ elems) :
    (elems.filter (· ∉ removed)).length + removed.length = elems.length := by
  have taken : (elems.filter (· ∈ removed)).Perm removed := by
    rw [List.perm_ext_iff_of_nodup (distinct.filter _) removedDistinct]
    intro elem
    rw [List.mem_filter, decide_eq_true_iff]
    exact ⟨fun both => both.2, fun mem => ⟨subset mem, mem⟩⟩
  have parts := List.length_eq_length_filter_add (l := elems) fun elem => decide (elem ∈ removed)
  simp only [← decide_not] at parts
  rw [parts, taken.length_eq, Nat.add_comm]

end Peerscale
