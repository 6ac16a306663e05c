import Peerscale.Foundation.GoValue
import Mathlib.Logic.Function.Basic

/-! # Plain files, links and descriptors

A store of plain files in the manner of POSIX: a path names an inode, an inode
holds bytes, and an open descriptor is a position in an inode. Renaming and
removing change links only, so a descriptor keeps writing to the inode it was
opened on, wherever that inode is linked by then.
-/

set_option linter.unusedSectionVars false

namespace Peerscale

open List

structure Cursor where
  inode : Nat
  position : Nat
  deriving DecidableEq

/-- Plain files without hard links: no inode is named by two paths. -/
structure FileSystem (Path : Type) where
  link : Path → Option Nat
  content : Nat → Bytes
  descriptor : Nat → Option Cursor
  nextInode : Nat
  nextDescriptor : Nat
  linked_lt : ∀ path inode, link path = some inode → inode < nextInode
  link_injective : ∀ left right inode,
    link left = some inode → link right = some inode → left = right

/-- Overwrite `content` from `position` on. Bytes between the old end and
`position` read as zero; writing nothing changes nothing. -/
def splice (content : Bytes) (position : Nat) (data : Bytes) : Bytes :=
  if data = [] then content
  else (content ++ List.replicate (position - content.length) 0).take position ++
    data ++ content.drop (position + data.length)

@[simp] theorem splice_nil (content : Bytes) (pos : Nat) : splice content pos [] = content := by
  simp [splice]

theorem splice_of_length_le {content : Bytes} (beyond : content.length ≤ pos)
    (nonempty : data ≠ []) :
    splice content pos data = content ++ replicate (pos - content.length) 0 ++ data := by
  have padded : (content ++ replicate (pos - content.length) (0 : UInt8)).length =
      pos := by
    rw [length_append, length_replicate]
    omega
  rw [splice, if_neg nonempty, take_of_length_le (Nat.le_of_eq padded),
    drop_eq_nil_of_le (by omega), append_nil]

theorem splice_length (content data : Bytes) :
    splice content content.length data = content ++ data := by
  by_cases empty : data = []
  · simp [empty]
  · rw [splice_of_length_le (Nat.le_refl _) empty]
    simp

theorem splice_splice {content : Bytes} (x y : Bytes) (beyond : content.length ≤ pos) :
    splice (splice content pos x) (pos + x.length) y = splice content pos (x ++ y) := by
  by_cases firstEmpty : x = []
  · simp [firstEmpty]
  by_cases secondEmpty : y = []
  · simp [secondEmpty]
  rw [splice_of_length_le beyond firstEmpty, splice_of_length_le beyond (by simp [firstEmpty])]
  have endsHere : (content ++ replicate (pos - content.length) (0 : UInt8) ++
      x).length = pos + x.length := by
    simp only [length_append, length_replicate]
    omega
  rw [← endsHere, splice_length, append_assoc _ x y]

namespace FileSystem

variable {Path : Type} [DecidableEq Path]

def empty : FileSystem Path where
  link _ := none
  content _ := []
  descriptor _ := none
  nextInode := 0
  nextDescriptor := 0
  linked_lt := by simp
  link_injective := by simp

def read (files : FileSystem Path) (path : Path) : Option Bytes :=
  (files.link path).map files.content

def setContent (files : FileSystem Path) (inode : Nat) (bytes : Bytes) : FileSystem Path :=
  { files with content := Function.update files.content inode bytes }

def setDescriptor (files : FileSystem Path) (descriptor : Nat) (cursor : Option Cursor) :
    FileSystem Path :=
  { files with descriptor := Function.update files.descriptor descriptor cursor }

def attach (files : FileSystem Path) (inode : Nat) : FileSystem Path :=
  { files with
    descriptor := Function.update files.descriptor files.nextDescriptor (some ⟨inode, 0⟩)
    nextDescriptor := files.nextDescriptor + 1 }

def allocate (files : FileSystem Path) (path : Path) : FileSystem Path :=
  { files with
    link := Function.update files.link path (some files.nextInode)
    content := Function.update files.content files.nextInode []
    nextInode := files.nextInode + 1
    linked_lt := by
      intro other inode linked
      by_cases equal : other = path
      · subst other
        simp only [Function.update_self, Option.some.injEq] at linked
        omega
      rw [Function.update_of_ne equal] at linked
      have bound := files.linked_lt other inode linked
      omega
    link_injective := by
      intro left right inode leftLinked rightLinked
      by_cases leftEqual : left = path <;> by_cases rightEqual : right = path
      · rw [leftEqual, rightEqual]
      · subst left
        rw [Function.update_self, Option.some.injEq] at leftLinked
        rw [Function.update_of_ne rightEqual] at rightLinked
        have bound := files.linked_lt right inode rightLinked
        omega
      · subst right
        rw [Function.update_self, Option.some.injEq] at rightLinked
        rw [Function.update_of_ne leftEqual] at leftLinked
        have bound := files.linked_lt left inode leftLinked
        omega
      rw [Function.update_of_ne leftEqual] at leftLinked
      rw [Function.update_of_ne rightEqual] at rightLinked
      exact files.link_injective left right inode leftLinked rightLinked }

/-! ## System calls -/

/-- `open` of an existing file for reading and writing. -/
def openExisting (files : FileSystem Path) (path : Path) : Option (Nat × FileSystem Path) :=
  (files.link path).map fun inode => (files.nextDescriptor, files.attach inode)

/-- `open` with `O_CREAT` and `O_TRUNC`. -/
def create (files : FileSystem Path) (path : Path) : Nat × FileSystem Path :=
  match files.link path with
  | some inode => (files.nextDescriptor, (files.setContent inode []).attach inode)
  | none => (files.nextDescriptor, (files.allocate path).attach files.nextInode)

def size (files : FileSystem Path) (descriptor : Nat) : Nat :=
  match files.descriptor descriptor with
  | some cursor => (files.content cursor.inode).length
  | none => 0

def seek (files : FileSystem Path) (descriptor position : Nat) : FileSystem Path :=
  match files.descriptor descriptor with
  | some cursor => files.setDescriptor descriptor (some { cursor with position := position })
  | none => files

def write (files : FileSystem Path) (descriptor : Nat) (data : Bytes) : FileSystem Path :=
  match files.descriptor descriptor with
  | some cursor =>
    (files.setContent cursor.inode
      (splice (files.content cursor.inode) cursor.position data)).setDescriptor descriptor
        (some { cursor with position := cursor.position + data.length })
  | none => files

def close (files : FileSystem Path) (descriptor : Nat) : FileSystem Path :=
  files.setDescriptor descriptor none

def remove (files : FileSystem Path) (path : Path) : FileSystem Path :=
  { files with
    link := Function.update files.link path none
    linked_lt := by
      intro other inode linked
      by_cases equal : other = path
      · simp [equal] at linked
      · rw [Function.update_of_ne equal] at linked
        exact files.linked_lt other inode linked
    link_injective := by
      intro left right inode leftLinked rightLinked
      by_cases leftEqual : left = path
      · simp [leftEqual] at leftLinked
      by_cases rightEqual : right = path
      · simp [rightEqual] at rightLinked
      rw [Function.update_of_ne leftEqual] at leftLinked
      rw [Function.update_of_ne rightEqual] at rightLinked
      exact files.link_injective left right inode leftLinked rightLinked }

def relink (files : FileSystem Path) (src target : Path) (inode : Nat)
    (linked : files.link src = some inode) : FileSystem Path :=
  { files with
    link := Function.update (Function.update files.link src none) target (some inode)
    linked_lt := by
      intro other number found
      by_cases equal : other = target
      · rw [equal, Function.update_self, Option.some.injEq] at found
        subst number
        exact files.linked_lt src inode linked
      · rw [Function.update_of_ne equal] at found
        exact (files.remove src).linked_lt other number found
    link_injective := by
      intro left right number leftLinked rightLinked
      have unlinked : ∀ other, (files.remove src).link other ≠ some inode := by
        intro other found
        by_cases equal : other = src
        · simp [remove, equal] at found
        have same : files.link other = some inode := by
          simpa [remove, Function.update_of_ne equal] using found
        exact equal (files.link_injective other src inode same linked)
      by_cases leftEqual : left = target <;> by_cases rightEqual : right = target
      · rw [leftEqual, rightEqual]
      · rw [leftEqual, Function.update_self, Option.some.injEq] at leftLinked
        rw [Function.update_of_ne rightEqual, ← leftLinked] at rightLinked
        exact absurd rightLinked (unlinked right)
      · rw [rightEqual, Function.update_self, Option.some.injEq] at rightLinked
        rw [Function.update_of_ne leftEqual, ← rightLinked] at leftLinked
        exact absurd leftLinked (unlinked left)
      rw [Function.update_of_ne leftEqual] at leftLinked
      rw [Function.update_of_ne rightEqual] at rightLinked
      exact (files.remove src).link_injective left right number leftLinked rightLinked }

/-- Atomic replacement; `none` when there is nothing to rename. -/
def rename (files : FileSystem Path) (src target : Path) : Option (FileSystem Path) :=
  match linked : files.link src with
  | some inode => some (files.relink src target inode linked)
  | none => none

variable {post files : FileSystem Path} {descriptor : Nat} {src target : Path} {cursor : Cursor}

section

variable (files : FileSystem Path) (inode : Nat)

@[simp] theorem link_attach : (files.attach inode).link = files.link := rfl

@[simp] theorem content_attach : (files.attach inode).content = files.content := rfl

@[simp] theorem descriptor_attach :
    (files.attach inode).descriptor files.nextDescriptor = some ⟨inode, 0⟩ := by
  simp [attach]

end

theorem openExisting_eq_some (opened : files.openExisting path = some (descriptor, post)) :
    ∃ inode, files.link path = some inode ∧ descriptor = files.nextDescriptor ∧
      post = files.attach inode := by
  unfold openExisting at opened
  cases linked : files.link path with
  | none => simp [linked] at opened
  | some inode =>
    simp only [linked, Option.map_some, Option.some.injEq, Prod.mk.injEq] at opened
    exact ⟨inode, rfl, opened.1.symm, opened.2.symm⟩

theorem create_of_linked (linked : files.link path = some inode) :
    files.create path = (files.nextDescriptor, (files.setContent inode []).attach inode) := by
  simp [create, linked]

theorem create_of_unlinked (unlinked : files.link path = none) :
    files.create path = (files.nextDescriptor, (files.allocate path).attach files.nextInode) := by
  simp [create, unlinked]

theorem create_spec (files : FileSystem Path) (path : Path) :
    ∃ inode, (files.create path).2.link path = some inode ∧
      (files.create path).2.content inode = [] ∧
      (files.create path).2.descriptor (files.create path).1 = some ⟨inode, 0⟩ := by
  cases linked : files.link path with
  | some inode =>
    refine ⟨inode, ?_, ?_, ?_⟩
    · rw [create_of_linked linked]
      exact linked
    · rw [create_of_linked linked]
      simp [setContent]
    · rw [create_of_linked linked]
      exact descriptor_attach (files.setContent inode []) inode
  | none =>
    refine ⟨files.nextInode, ?_, ?_, ?_⟩
    · rw [create_of_unlinked linked]
      simp [allocate]
    · rw [create_of_unlinked linked]
      simp [allocate]
    · rw [create_of_unlinked linked]
      exact descriptor_attach (files.allocate path) files.nextInode

theorem read_create_of_ne (files : FileSystem Path) (ne : other ≠ path) :
    (files.create path).2.read other = files.read other := by
  cases linked : files.link path with
  | some inode =>
    rw [create_of_linked linked]
    cases found : files.link other with
    | none => simp [read, setContent, found]
    | some num =>
      have distinct : num ≠ inode := fun eq =>
        ne (files.link_injective other path inode (eq ▸ found) linked)
      simp [read, setContent, found, distinct]
  | none =>
    rw [create_of_unlinked linked]
    cases found : files.link other with
    | none => simp [read, allocate, ne, found]
    | some num =>
      have distinct : num ≠ files.nextInode := Nat.ne_of_lt (files.linked_lt other num found)
      simp [read, allocate, ne, found, distinct]

/-! ## Reading and writing through a descriptor -/

section

variable (files : FileSystem Path) (descriptor pos : Nat)

@[simp] theorem link_seek : (files.seek descriptor pos).link = files.link := by
  unfold seek
  split <;> rfl

@[simp] theorem content_seek : (files.seek descriptor pos).content = files.content := by
  unfold seek
  split <;> rfl

theorem read_seek (path : Path) : (files.seek descriptor pos).read path = files.read path := by
  simp [read]

end

theorem descriptor_seek (opened : files.descriptor descriptor = some cursor) (pos : Nat) :
    (files.seek descriptor pos).descriptor descriptor = some { cursor with position := pos } := by
  simp [seek, opened, setDescriptor]

@[simp] theorem link_write (files : FileSystem Path) (descriptor : Nat) (data : Bytes) :
    (files.write descriptor data).link = files.link := by
  unfold write
  split <;> rfl

section

variable (opened : files.descriptor descriptor = some cursor)

include opened

theorem descriptor_write (data : Bytes) :
    (files.write descriptor data).descriptor descriptor =
      some { cursor with position := cursor.position + data.length } := by
  simp [write, opened, setDescriptor]

theorem content_write (data : Bytes) :
    (files.write descriptor data).content = Function.update files.content cursor.inode
        (splice (files.content cursor.inode) cursor.position data) := by
  simp [write, opened, setDescriptor, setContent]

/-- Writing to a linked file changes what is read at its path only. -/
theorem read_write_of_ne (linked : files.link path = some cursor.inode) (ne : other ≠ path)
    (data : Bytes) : (files.write descriptor data).read other = files.read other := by
  unfold read
  rw [link_write, content_write opened]
  cases found : files.link other with
  | none => rfl
  | some num =>
    have distinct : num ≠ cursor.inode := fun eq =>
      ne (files.link_injective other path cursor.inode (eq ▸ found) linked)
    simp [distinct]

end

theorem read_close (files : FileSystem Path) (descriptor : Nat) (path : Path) :
    (files.close descriptor).read path = files.read path := rfl

theorem read_remove_of_ne (files : FileSystem Path) (ne : other ≠ path) :
    (files.remove path).read other = files.read other := by
  simp [read, remove, ne]

section

variable (renamed : files.rename src target = some post)

include renamed

theorem rename_eq_some :
    post.content = files.content ∧ ∃ inode, files.link src = some inode ∧
      post.link = Function.update (Function.update files.link src none) target (some inode) := by
  unfold rename at renamed
  split at renamed
  · rename_i inode linked
    rw [Option.some.injEq] at renamed
    subst post
    exact ⟨rfl, inode, linked, rfl⟩
  · cases renamed

theorem descriptor_rename : post.descriptor = files.descriptor := by
  unfold rename at renamed
  split at renamed
  · cases renamed
    rfl
  · cases renamed

theorem link_rename_source (ne : src ≠ target) : post.link src = none := by
  rcases rename_eq_some renamed with ⟨-, inode, -, links⟩
  rw [links, Function.update_of_ne ne, Function.update_self]

theorem read_rename_target : post.read target = files.read src := by
  rcases rename_eq_some renamed with ⟨contents, inode, linked, links⟩
  simp [read, contents, links, linked]

theorem read_rename_of_ne (notSource : other ≠ src) (notTarget : other ≠ target) :
    post.read other = files.read other := by
  rcases rename_eq_some renamed with ⟨contents, inode, -, links⟩
  simp [read, contents, links, notSource, notTarget]

end

theorem rename_isSome (linked : files.link src = some inode) (target : Path) :
    ∃ post, files.rename src target = some post := by
  unfold rename
  split
  · exact ⟨_, rfl⟩
  rename_i unlinked
  rw [linked] at unlinked
  cases unlinked

end FileSystem

end Peerscale
