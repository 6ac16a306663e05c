import Peerscale.Foundation.GoValue
import Mathlib.Data.List.DropRight

/-! # Lexical paths

`filepath.Base`, `filepath.Clean` and `filepath.Join` with their Unix meaning.
All three only look at the text of a path, never at the file system.
-/

namespace Peerscale.Filepath

open List

def slash : UInt8 := 47

def dot : GoString := ascii "."

def dotDot : GoString := ascii ".."

/-- The last element of a path: trailing slashes are stripped, the empty path
gives `.` and a path of slashes gives `/`. -/
def base (path : GoString) : GoString :=
  if path = [] then dot
  else
    let element := (path.rdropWhile (· == slash)).rtakeWhile (· != slash)
    if element = [] then [slash] else element

/-- Process one element of a path against the elements kept so far, innermost
first. An inner `..` removes its parent; a leading one is dropped from rooted
paths and kept in relative ones. -/
def cleanStep (rooted : Bool) (stack : List GoString) (element : GoString) : List GoString :=
  if element = [] ∨ element = dot then stack
  else if element = dotDot then
    match stack with
    | [] => if rooted then [] else [dotDot]
    | top :: rest => if top = dotDot then dotDot :: top :: rest else rest
  else element :: stack

def rendered (rooted : Bool) (stack : List GoString) : GoString :=
  let body := [slash].intercalate stack.reverse
  if rooted then slash :: body else if body = [] then dot else body

def clean (path : GoString) : GoString :=
  let rooted := path.head? == some slash
  rendered rooted ((path.splitOn slash).foldl (cleanStep rooted) [])

def join (first second : GoString) : GoString :=
  if first = [] then if second = [] then [] else clean second
  else clean (first ++ slash :: second)

example : join (ascii "/srv/recv") (ascii "..") = ascii "/srv" := by decide

/-- A name that denotes an entry of a directory rather than the directory
itself, its parent or a longer path. -/
structure IsElement (name : GoString) : Prop where
  nonempty : name ≠ []
  noSlash : slash ∉ name
  notDot : name ≠ dot
  notDotDot : name ≠ dotDot

def IsDirectChild (directory path : GoString) : Prop :=
  ∃ element, IsElement element ∧ path = directory ++ slash :: element

structure IsCleanAbsolute (directory : GoString) : Prop where
  rooted : directory.head? = some slash
  cleaned : clean directory = directory
  notRoot : directory ≠ [slash]

theorem IsElement.append {suffix : GoString} (element : IsElement name) (long : 2 < suffix.length)
    (noSlash : slash ∉ suffix) : IsElement (name ++ suffix) where
  nonempty := by simp [element.nonempty]
  noSlash := by
    rw [mem_append]
    rintro (inName | inSuffix)
    · exact element.noSlash inName
    · exact noSlash inSuffix
  notDot eq := by
    have lengths := congrArg List.length eq
    simp only [length_append, show dot.length = 1 from rfl] at lengths
    omega
  notDotDot eq := by
    have lengths := congrArg List.length eq
    simp only [length_append, show dotDot.length = 2 from rfl] at lengths
    omega

theorem not_isDirectChild_of_length_le {directory path : GoString}
    (short : path.length ≤ directory.length) : ¬IsDirectChild directory path := by
  rintro ⟨x, -, eq⟩
  have lengths := congrArg List.length eq
  simp only [length_append, length_cons] at lengths
  omega

theorem base_cases (path : GoString) :
    base path = dot ∨ base path = [slash] ∨ (base path ≠ [] ∧ slash ∉ base path) := by
  unfold base
  by_cases empty : path = []
  · simp [empty]
  rw [if_neg empty]
  by_cases onlySlashes : (path.rdropWhile (· == slash)).rtakeWhile (· != slash) = []
  · simp [onlySlashes]
  right; right
  rw [if_neg onlySlashes]
  refine ⟨onlySlashes, fun mem => ?_⟩
  have differs := mem_rtakeWhile_imp mem
  simp at differs

theorem cleanStep_of_isElement (valid : IsElement x) (rooted : Bool) (stack : List GoString) :
    cleanStep rooted stack x = x :: stack := by
  simp [cleanStep, valid.nonempty, valid.notDot, valid.notDotDot]

theorem dotDot_not_mem_cleanStep (absent : dotDot ∉ stack) (x : GoString) :
    dotDot ∉ cleanStep true stack x := by
  unfold cleanStep
  split
  · exact absent
  split
  · cases stack with
    | nil => simp
    | cons =>
      rw [mem_cons, not_or] at absent
      simpa [Ne.symm absent.1] using absent.2
  · rw [mem_cons, not_or]
    exact ⟨fun eq => by simp_all, absent⟩

theorem dotDot_not_mem_foldl_cleanStep (absent : dotDot ∉ stack) (elems : List GoString) :
    dotDot ∉ elems.foldl (cleanStep true) stack := by
  induction elems generalizing stack with
  | nil => exact absent
  | cons x elems ih => exact ih (dotDot_not_mem_cleanStep absent x)

theorem rendered_cons_cons (x top : GoString) (stack : List GoString) :
    rendered true (x :: top :: stack) = rendered true (top :: stack) ++ slash :: x := by
  simp only [rendered, if_true, reverse_cons, append_assoc, cons_append, nil_append]
  generalize stack.reverse = outer
  induction outer with
  | nil => simp
  | cons first rest ih =>
    rw [cons_append, cons_append, intercalate_cons_of_ne_nil (by simp),
      intercalate_cons_of_ne_nil (by simp)]
    simp only [cons_append, nil_append, append_assoc, List.cons.injEq, true_and] at ih ⊢
    rw [ih]

namespace IsCleanAbsolute

variable {directory : GoString}

def stack (directory : GoString) : List GoString :=
  (directory.splitOn slash).foldl (cleanStep true) []

section

variable (absolute : IsCleanAbsolute directory)

include absolute

theorem rendered_stack : rendered true (stack directory) = directory := by
  have cleaned := absolute.cleaned
  simpa [clean, stack, absolute.rooted] using cleaned

theorem stack_ne_nil : stack directory ≠ [] := by
  intro empty
  have whole := absolute.rendered_stack
  rw [empty] at whole
  exact absolute.notRoot (whole.symm.trans rfl)

theorem join_eq (name : GoString) :
    join directory name =
      rendered true ((name.splitOn slash).foldl (cleanStep true) (stack directory)) := by
  have nonempty : directory ≠ [] := by
    intro empty
    simpa [empty] using absolute.rooted
  have rooted : (directory ++ slash :: name).head? = some slash := by
    rw [head?_append, absolute.rooted]
    rfl
  rw [join, if_neg nonempty, clean, rooted, splitOn_append_cons_self]
  simp [stack]

theorem join_element (element : IsElement name) :
    join directory name = directory ++ slash :: name := by
  rw [absolute.join_eq, splitOn_eq_singleton element.noSlash, foldl_cons,
    foldl_nil, cleanStep_of_isElement element]
  have whole := absolute.rendered_stack
  rcases exists_cons_of_ne_nil absolute.stack_ne_nil with ⟨top, rest, shape⟩
  rw [shape] at whole ⊢
  rw [rendered_cons_cons, whole]

theorem join_dot : join directory dot = directory := by
  rw [absolute.join_eq]
  exact absolute.rendered_stack

theorem join_slash : join directory [slash] = directory := by
  rw [absolute.join_eq]
  exact absolute.rendered_stack

theorem length_join_dotDot : (join directory dotDot).length ≤ directory.length := by
  have whole := absolute.rendered_stack
  have noParent : dotDot ∉ stack directory := dotDot_not_mem_foldl_cleanStep (by simp) _
  rw [absolute.join_eq, show dotDot.splitOn slash = [dotDot] from rfl, foldl_cons, foldl_nil]
  rcases exists_cons_of_ne_nil absolute.stack_ne_nil with ⟨top, rest, shape⟩
  rw [shape] at whole noParent ⊢
  rw [mem_cons, not_or] at noParent
  have popped : cleanStep true (top :: rest) dotDot = rest := by
    simp [cleanStep, Ne.symm noParent.1, show dotDot ≠ [] from by decide,
      show dotDot ≠ dot from by decide]
  rw [popped, ← whole]
  cases rest with
  | nil => simp [rendered]
  | cons =>
    rw [rendered_cons_cons, length_append]
    omega

end

end IsCleanAbsolute

end Peerscale.Filepath
