import Peerscale.RelayFile.Integrity

/-! # Containment of received files

The name in INIT is reduced to its last element and joined to the receive
directory. Both paths derived from it are entries of that directory exactly when
the last element is the name of an entry: `.`, `..` and names without any element
give the directory itself or its parent.
-/

namespace Peerscale.RelayFile

open Filepath List

/-- The name's last element, apart from trailing slashes, names an entry. -/
def NamesEntry (name : GoString) : Prop :=
  ∃ parent element slashes, name = parent ++ element ++ slashes ∧ IsElement element ∧
    (parent = [] ∨ parent.getLast? = some slash) ∧ ∀ byte ∈ slashes, byte = slash

theorem rdropWhile_slash_append (ends : ∀ nonempty : stem ≠ [], stem.getLast nonempty ≠ slash)
    (trailing : ∀ byte ∈ slashes, byte = slash) :
    (stem ++ slashes).rdropWhile (· == slash) = stem := by
  have stripped : (stem ++ slashes).rdropWhile (· == slash) = stem.rdropWhile (· == slash) := by
    unfold rdropWhile
    rw [reverse_append, dropWhile_append_of_pos]
    simpa using trailing
  rw [stripped, rdropWhile_eq_self_iff]
  simpa using ends

theorem rtakeWhile_slash_append (noSlash : slash ∉ x)
    (separated : parent = [] ∨ parent.getLast? = some slash) :
    (parent ++ x).rtakeWhile (· != slash) = x := by
  have inElement : ∀ byte ∈ x.reverse, (byte != slash) := by
    intro byte mem
    rw [bne_iff_ne]
    rintro rfl
    exact noSlash (mem_reverse.mp mem)
  have inParent : parent.rtakeWhile (· != slash) = [] := by
    rw [rtakeWhile_eq_nil_iff]
    intro nonempty
    rcases separated with empty | last
    · exact absurd empty nonempty
    · rw [getLast?_eq_some_getLast nonempty, Option.some.injEq] at last
      simp [last]
  unfold rtakeWhile at inParent ⊢
  rw [reverse_append, takeWhile_append_of_pos inElement,
    reverse_append, inParent, nil_append, reverse_reverse]

theorem base_append (valid : IsElement x) (separated : parent = [] ∨ parent.getLast? = some slash)
    (trailing : ∀ byte ∈ slashes, byte = slash) : base (parent ++ x ++ slashes) = x := by
  have nonempty : parent ++ x ++ slashes ≠ [] := by simp [valid.nonempty]
  have ends : ∀ stem : parent ++ x ≠ [], (parent ++ x).getLast stem ≠ slash := by
    intro stem last
    rw [getLast_append_of_ne_nil _ valid.nonempty] at last
    exact valid.noSlash (last ▸ getLast_mem valid.nonempty)
  rw [base, if_neg nonempty, rdropWhile_slash_append ends trailing,
    rtakeWhile_slash_append valid.noSlash separated]
  exact if_neg valid.nonempty

theorem namesEntry_iff_isElement_base (name : GoString) :
    NamesEntry name ↔ IsElement (base name) := by
  constructor
  · rintro ⟨parent, x, slashes, rfl, valid, separated, trailing⟩
    rw [base_append valid separated trailing]
    exact valid
  intro valid
  have nonempty : name ≠ [] := by
    rintro rfl
    exact valid.notDot rfl
  rw [base, if_neg nonempty] at valid
  dsimp only at valid
  split at valid
  · exact absurd (mem_singleton.mpr rfl) valid.noSlash
  refine ⟨(name.rdropWhile (· == slash)).rdropWhile (· != slash), _,
    name.rtakeWhile (· == slash), ?_, valid, ?_, ?_⟩
  · rw [rdropWhile_append_rtakeWhile, rdropWhile_append_rtakeWhile]
  · by_cases empty : (name.rdropWhile (· == slash)).rdropWhile (· != slash) = []
    · exact .inl empty
    have last := rdropWhile_last_not _ _ empty
    rw [getLast?_eq_some_getLast empty]
    exact .inr (congrArg some (by simpa using last))
  · intro byte mem
    simpa using mem_rtakeWhile_imp mem

section Paths

variable {config : Config}

theorem saveDir_of_absolute (absolute : IsCleanAbsolute config.recvDir) :
    saveDir config = config.recvDir := by
  refine if_neg fun empty => ?_
  have rooted := absolute.rooted
  simp [empty] at rooted

theorem isDirectChild_finalPath_iff (absolute : IsCleanAbsolute config.recvDir) (name : GoString) :
    IsDirectChild config.recvDir (finalPath config name) ↔ IsElement (base name) := by
  rw [finalPath, saveDir_of_absolute absolute]
  constructor
  · intro child
    rcases base_cases name with isDot | isSlash | ⟨nonempty, noSlash⟩
    · rw [isDot, absolute.join_dot] at child
      exact absurd child (not_isDirectChild_of_length_le (Nat.le_refl _))
    · rw [isSlash, absolute.join_slash] at child
      exact absurd child (not_isDirectChild_of_length_le (Nat.le_refl _))
    refine ⟨nonempty, noSlash, fun isDot => ?_, fun isDotDot => ?_⟩
    · rw [isDot, absolute.join_dot] at child
      exact not_isDirectChild_of_length_le (Nat.le_refl _) child
    · rw [isDotDot] at child
      exact not_isDirectChild_of_length_le absolute.length_join_dotDot child
  · intro valid
    exact ⟨base name, valid, absolute.join_element valid⟩

theorem isDirectChild_tmpPath (absolute : IsCleanAbsolute config.recvDir)
    (valid : IsElement (base name)) : IsDirectChild config.recvDir (tmpPath config name) := by
  refine ⟨base name ++ partSuffix, valid.append (by decide) (by decide), ?_⟩
  rw [tmpPath, finalPath, saveDir_of_absolute absolute, absolute.join_element valid,
    append_assoc, cons_append]

/-- Both paths are entries of the receive directory, and no session for the name
changes what is found at any other place. -/
def Contained (config : Config) (name : GoString) : Prop :=
  IsDirectChild config.recvDir (tmpPath config name) ∧
  IsDirectChild config.recvDir (finalPath config name) ∧
  ∀ library init events files callback result final, init.name = name →
    SessionExecutes library config init events files callback result final →
    ∀ path, ¬IsDirectChild config.recvDir path → final.files.read path = files.read path

/-- The names that stay inside the receive directory are those whose last element
is neither missing nor `.` nor `..`. -/
theorem contained_iff_namesEntry (absolute : IsCleanAbsolute config.recvDir)
    (name : GoString) : Contained config name ↔ NamesEntry name := by
  rw [namesEntry_iff_isElement_base]
  constructor
  · rintro ⟨-, child, -⟩
    exact (isDirectChild_finalPath_iff absolute name).mp child
  intro valid
  have tmpChild := isDirectChild_tmpPath absolute valid
  have finalChild := (isDirectChild_finalPath_iff absolute name).mpr valid
  refine ⟨tmpChild, finalChild, ?_⟩
  rintro library init events files callback result final rfl execution path outside
  apply execution.reads
  · rintro rfl
    exact outside tmpChild
  · rintro rfl
    exact outside finalChild

theorem contained_passwd :
    IsCleanAbsolute greetingConfig.recvDir ∧
      Contained greetingConfig (ascii "../../etc/passwd//") := by
  have absolute : IsCleanAbsolute greetingConfig.recvDir := ⟨by decide, by decide, by decide⟩
  have entry : NamesEntry (ascii "../../etc/passwd//") := by
    have slashes : ascii "//" = List.replicate 2 slash := rfl
    refine ⟨ascii "../../etc/", ascii "passwd", ascii "//", by decide, ?_, by decide, ?_⟩
    · exact ⟨by decide, by decide, by decide, by decide⟩
    · intro byte member
      exact eq_of_mem_replicate (slashes ▸ member)
  exact ⟨absolute, (contained_iff_namesEntry absolute _).mpr entry⟩

/-- With `..` as its name the session creates a file beside the receive
directory, and would rename it onto the parent. -/
theorem not_contained_dotDot :
    IsCleanAbsolute greetingConfig.recvDir ∧ finalPath greetingConfig (ascii "..") = ascii "/srv" ∧
      ((session (.ofTransfer greetingInit) greetingConfig
          { greetingInit with name := ascii ".." } []).run handle
        ⟨.empty, Local.fresh false⟩).2.files.read (ascii "/srv.relayfile.part") = some [] ∧
      ¬Contained greetingConfig (ascii "..") := by
  refine ⟨⟨by decide, by decide, by decide⟩, by decide, by decide +kernel, ?_⟩
  rintro ⟨-, child, -⟩
  exact not_isDirectChild_of_length_le (by decide) child

end Paths

end Peerscale.RelayFile
