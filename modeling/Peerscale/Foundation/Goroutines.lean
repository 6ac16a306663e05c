import Mathlib.Data.List.Basic

/-! # Lists of goroutines

A goroutine is started at the end of the list and steps at its place, so that a step changes one
element with `List.modify`.
-/

namespace Peerscale

open List

variable {α : Type} {values : List α} {index : Nat}

theorem mem_modify (mem : val ∈ values.modify index change) :
    val ∈ values ∨ ∃ pre, values[index]? = some pre ∧ val = change pre := by
  rcases mem_iff_getElem?.mp mem with ⟨pos, found⟩
  rw [getElem?_modify] at found
  rcases Option.map_eq_some_iff.mp found with ⟨pre, isBefore, isValue⟩
  by_cases same : index = pos
  · rw [if_pos same] at isValue
    rw [same]
    exact .inr ⟨pre, isBefore, isValue.symm⟩
  rw [if_neg same] at isValue
  rw [← isValue]
  exact .inl (mem_of_getElem? isBefore)

theorem getElem?_modify_eq_some (found : (values.modify index change)[pos]? = some val) :
    (pos ≠ index ∧ values[pos]? = some val) ∨
      (pos = index ∧ ∃ pre, values[index]? = some pre ∧ val = change pre) := by
  rw [getElem?_modify] at found
  rcases Option.map_eq_some_iff.mp found with ⟨pre, isBefore, isValue⟩
  by_cases same : index = pos
  · rw [if_pos same] at isValue
    rw [← same] at isBefore
    exact .inr ⟨same.symm, pre, isBefore, isValue.symm⟩
  rw [if_neg same] at isValue
  rw [isValue] at isBefore
  exact .inl ⟨fun eq => same eq.symm, isBefore⟩

theorem getElem?_append_eq_some (found : (values ++ [new])[pos]? = some mem) :
    values[pos]? = some mem ∨ (pos = values.length ∧ mem = new) := by
  rcases Nat.lt_or_ge pos values.length with within | beyond
  · rw [getElem?_append_left within] at found
    exact .inl found
  rw [getElem?_append_right beyond] at found
  have isNew := mem_singleton.mp (mem_of_getElem? found)
  have zero : pos - values.length = 0 := by
    by_contra positive
    rw [getElem?_eq_none (Nat.pos_of_ne_zero positive)] at found
    cases found
  exact .inr ⟨by omega, isNew⟩

end Peerscale
