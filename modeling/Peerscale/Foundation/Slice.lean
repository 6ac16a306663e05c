import Peerscale.Foundation.GoValue

/-! # Slices of a buffer

Programs that read and write an array through slices. An index is out of range if it is not
below the length of the slice, and the upper bound of a new slice if it is above the capacity;
the program then panics.
-/

namespace Peerscale

open Nat

inductive Panic
  | index (index length : Nat)
  | slice (low high limit : Nat)
  | nilDereference
  deriving DecidableEq

abbrev InBuffer (α : Type) := StateT Bytes (Except Panic) α

structure Slice where
  start : Nat
  length : Nat
  capacity : Nat
  deriving DecidableEq

def overwrite (buf : Bytes) (start : Nat) : Bytes → Bytes
  | [] => buf
  | byte :: bytes => overwrite (buf.set start byte) (start + 1) bytes

def window (buf : Bytes) (start k : Nat) : Bytes := (buf.drop start).take k

namespace Slice

variable (slice : Slice)

def get (index : Nat) : InBuffer UInt8 := fun buf =>
  if index < slice.length then .ok (buf.getD (slice.start + index) 0, buf)
  else .error (.index index slice.length)

def set (index : Nat) (byte : UInt8) : InBuffer Unit := fun buf =>
  if index < slice.length then .ok ((), buf.set (slice.start + index) byte)
  else .error (.index index slice.length)

def setAll (index : Nat) : Bytes → InBuffer Unit
  | [] => pure ()
  | byte :: bytes => do
      slice.set index byte
      setAll (index + 1) bytes

def sub (low high : Nat) : InBuffer Slice :=
  if low ≤ high ∧ high ≤ slice.capacity then
    pure ⟨slice.start + low, high - low, slice.capacity - low⟩
  else throw (.slice low high slice.capacity)

def dropFirst (low : Nat) : InBuffer Slice :=
  if low ≤ slice.length then
    pure ⟨slice.start + low, slice.length - low, slice.capacity - low⟩
  else throw (.slice low slice.length slice.capacity)

def bytes : InBuffer Bytes := fun buf =>
  .ok (window buf slice.start slice.length, buf)

def copy (source : Bytes) : InBuffer Unit := fun buf =>
  .ok ((), overwrite buf slice.start (source.take slice.length))

/-- `binary.BigEndian.Uint16` and `Uint32`. -/
def unsigned (k : Nat) : InBuffer Nat := fun buf =>
  if k ≤ slice.length then .ok (ofBigEndian (window buf slice.start k), buf)
  else .error (.index (k - 1) slice.length)

end Slice

namespace InBuffer

variable {α β : Type} {prog : InBuffer α} {next : α → InBuffer β} {buf after : Bytes} {val : α}

theorem bind_of_ok (ran : prog buf = .ok (val, after)) : (prog >>= next) buf = next val after := by
  rw [bind, Monad.toBind, StateT.instMonad]
  dsimp only [StateT.bind]
  rw [ran]
  rfl

theorem bind_of_error {panic : Panic} (panicked : prog buf = .error panic) :
    (prog >>= next) buf = .error panic := by
  rw [bind, Monad.toBind, StateT.instMonad]
  dsimp only [StateT.bind]
  rw [panicked]
  rfl

theorem bind_eq_ok :
    (prog >>= next) buf = .ok res ↔
      ∃ val after, prog buf = .ok (val, after) ∧ next val after = .ok res := by
  cases ran : prog buf with
  | error =>
    rw [bind_of_error ran]
    constructor
    · intro ret
      cases ret
    · intro ⟨val, after, ret, _⟩
      cases ret
  | ok pair =>
    rw [bind_of_ok ran]
    constructor
    · intro ret
      exact ⟨pair.1, pair.2, rfl, ret⟩
    intro ⟨val, after, ret, ranNext⟩
    cases ret
    exact ranNext

end InBuffer

def Between (low high index : Nat) : Prop := low ≤ index ∧ index < high

structure Touches (places : Nat → Prop) (before after : Bytes) : Prop where
  length : after.length = before.length
  elsewhere : ∀ index, ¬places index → after[index]? = before[index]?

namespace Touches

theorem refl (places : Nat → Prop) (buf : Bytes) : Touches places buf buf :=
  ⟨rfl, fun _ _ => rfl⟩

theorem trans (prev : Touches places x y) (later : Touches places y third) :
    Touches places x third where
  length := later.length.trans prev.length
  elsewhere index outside := (later.elsewhere index outside).trans (prev.elsewhere index outside)

theorem mono {more : Nat → Prop} (touches : Touches places x y)
    (within : ∀ index, places index → more index) : Touches more x y where
  length := touches.length
  elsewhere index outside := touches.elsewhere index fun inside => outside (within index inside)

theorem set (buf : Bytes) (inside : places index) (byte : UInt8) :
    Touches places buf (buf.set index byte) where
  length := List.length_set
  elsewhere other outside := by
    rw [List.getElem?_set_ne]
    rintro rfl
    exact outside inside

theorem overwrite (buf : Bytes) {bytes : Bytes}
    (inside : ∀ index, index < bytes.length → places (start + index)) :
    Touches places buf (overwrite buf start bytes) := by
  induction bytes generalizing buf start with
  | nil => exact refl _ _
  | cons byte bytes ih =>
    have x := set buf (inside 0 (zero_lt_succ _)) byte
    refine x.trans (ih _ ?_)
    intro index within
    have later := inside (index + 1) (succ_lt_succ within)
    rw [add_assoc, add_comm 1]
    exact later

theorem eq_of_nowhere (touches : Touches (fun _ => False) x y) : y = x :=
  List.ext_getElem? fun index => touches.elsewhere index id

theorem window_eq (touches : Touches places x y) (outside : ∀ index < k, ¬places (start + index)) :
    window y start k = window x start k := by
  apply List.ext_getElem?
  intro index
  rw [window, window, List.getElem?_take, List.getElem?_take]
  split
  · rename_i within
    rw [List.getElem?_drop, List.getElem?_drop, touches.elsewhere _ (outside index within)]
  · rfl

end Touches

variable {start k : Nat}

theorem touches_overwrite (buf : Bytes) (start : Nat) (bytes : Bytes) :
    Touches (Between start (start + bytes.length)) buf (overwrite buf start bytes) := by
  apply Touches.overwrite
  intro index within
  exact ⟨by omega, by omega⟩

@[simp] theorem length_overwrite (buf : Bytes) (start : Nat) (bytes : Bytes) :
    (overwrite buf start bytes).length = buf.length :=
  (touches_overwrite buf start bytes).length

theorem length_window {buf : Bytes} (fits : start + k ≤ buf.length) :
    (window buf start k).length = k := by
  rw [window, List.length_take, List.length_drop]
  omega

theorem window_overwrite_apart {buf bytes : Bytes} {pos count : Nat}
    (size : bytes.length = count) (apart : start + k ≤ pos ∨ pos + count ≤ start) :
    window (overwrite buf pos bytes) start k = window buf start k := by
  apply (touches_overwrite buf pos bytes).window_eq
  intro index below between
  have above := between.1
  have before := between.2
  omega

theorem window_add (buf : Bytes) (start x y : Nat) :
    window buf start (x + y) = window buf start x ++ window buf (start + x) y := by
  rw [window, window, window, List.take_add, List.drop_drop]

section

variable {front mid : Bytes} {start count : Nat} (before : front.length = start)
  (size : mid.length = count)

include before size

theorem window_append (back : Bytes) : window (front ++ mid ++ back) start count = mid := by
  rw [window, ← before, ← size, List.append_assoc, List.drop_left, List.take_left]

theorem window_append_last : window (front ++ mid) start count = mid := by
  rw [← List.append_nil (front ++ mid), window_append before size]

end

theorem getD_overwrite_of_lt (before : index < start) :
    (overwrite buf start bytes).getD index 0 = buf.getD index 0 := by
  rw [List.getD_eq_getElem?_getD, List.getD_eq_getElem?_getD,
    (touches_overwrite buf start bytes).elsewhere]
  intro between
  exact absurd between.1 (Nat.not_le.mpr before)

theorem getElem?_overwrite {buf bytes : Bytes} (fits : start + bytes.length ≤ buf.length)
    (within : index < bytes.length) :
    (overwrite buf start bytes)[start + index]? = bytes[index]? := by
  induction bytes generalizing buf start index with
  | nil => cases within
  | cons byte bytes ih =>
    rw [List.length_cons] at fits within
    rw [overwrite]
    cases index with
    | zero =>
      rw [add_zero, (touches_overwrite _ _ _).elsewhere]
      · exact List.getElem?_set_self (by omega)
      intro inside
      have above := inside.1
      omega
    | succ index =>
      rw [add_comm index, ← add_assoc, ih (by rw [List.length_set]; omega)
        (by omega), add_comm 1, List.getElem?_cons_succ]

theorem window_overwrite {buf bytes : Bytes} (fits : start + bytes.length ≤ buf.length) :
    window (overwrite buf start bytes) start bytes.length = bytes := by
  apply List.ext_getElem?
  intro index
  rw [window, List.getElem?_take]
  split
  · rename_i within
    rw [List.getElem?_drop, getElem?_overwrite fits within]
  · rename_i beyond
    exact (List.getElem?_eq_none (Nat.le_of_not_lt beyond)).symm

theorem window_overwrite_same {buf bytes : Bytes} (size : bytes.length = k)
    (fits : start + k ≤ buf.length) : window (overwrite buf start bytes) start k = bytes := by
  subst size
  exact window_overwrite fits

theorem overwrite_eq {buf bytes : Bytes} (fits : start + bytes.length ≤ buf.length) :
    overwrite buf start bytes = buf.take start ++ bytes ++ buf.drop (start + bytes.length) := by
  induction bytes generalizing buf start with
  | nil => rw [overwrite, List.append_nil, List.length_nil, add_zero, List.take_append_drop]
  | cons byte bytes ih =>
    rw [List.length_cons] at fits
    have front : (buf.set start byte).take (start + 1) = buf.take start ++ [byte] := by
      rw [List.set_eq_take_append_cons_drop, if_pos (by omega), List.append_cons,
        List.take_left' (by rw [List.length_append, List.length_take_of_le (by omega)]; rfl)]
    rw [overwrite, ih (by rw [List.length_set]; omega), front,
      List.drop_set_of_lt (by omega), List.length_cons, add_assoc, add_comm 1,
      List.append_assoc _ [byte], List.singleton_append]

theorem overwrite_append {front mid back bytes : Bytes} (same : bytes.length = mid.length) :
    overwrite (front ++ mid ++ back) front.length bytes = front ++ bytes ++ back := by
  rw [overwrite_eq (by rw [List.length_append, List.length_append]; omega), same,
    ← List.length_append, List.drop_left, List.append_assoc front mid, List.take_left]

theorem overwrite_overwrite {buf x y : Bytes}
    (fits : start + x.length ≤ buf.length) (same : y.length = x.length) :
    overwrite (overwrite buf start x) start y = overwrite buf start y := by
  have front : (buf.take start).length = start := List.length_take_of_le (by omega)
  have written := @overwrite_append (buf.take start) x (buf.drop (start + x.length)) y same
  rw [front] at written
  rw [overwrite_eq fits, written, overwrite_eq (by omega), same]

theorem window_overwrite_inside {buf bytes : Bytes} (inside : pos + bytes.length ≤ k)
    (fits : start + k ≤ buf.length) :
    window (overwrite buf (start + pos) bytes) start k =
      overwrite (window buf start k) pos bytes := by
  have size := length_window fits
  apply List.ext_getElem?
  intro index
  by_cases here : pos ≤ index ∧ index < pos + bytes.length
  · obtain ⟨off, rfl⟩ := Nat.exists_eq_add_of_le here.1
    rw [getElem?_overwrite (by omega) (by omega), window, List.getElem?_take, if_pos (by omega),
      List.getElem?_drop, ← Nat.add_assoc, getElem?_overwrite (by omega) (by omega)]
  rw [(touches_overwrite _ _ _).elsewhere index here, window, window, List.getElem?_take,
    List.getElem?_take]
  split
  · rw [List.getElem?_drop, List.getElem?_drop, (touches_overwrite _ _ _).elsewhere]
    intro there
    exact here ⟨by have := there.1; omega, by have := there.2; omega⟩
  · rfl

/-! ## Programs that return, and programs that panic -/

/-- The program returns whatever is in the array, and writes in some places only. -/
def Keeps {α : Type} (places : Nat → Prop) (prog : InBuffer α) : Prop :=
  ∀ buf, ∃ val after, prog buf = .ok (val, after) ∧ Touches places buf after

/-- The program returns as well, and leaves some bytes at a position of the array. -/
def Writes {α : Type} (places : Nat → Prop) (pos : Nat) (bytes : Bytes)
    (prog : InBuffer α) : Prop :=
  ∀ buf, ∃ val after, prog buf = .ok (val, after) ∧ Touches places buf after ∧
    (pos + bytes.length ≤ buf.length → window after pos bytes.length = bytes)

def Fails {α : Type} (prog : InBuffer α) : Prop :=
  ∀ buf, ∃ panic, prog buf = .error panic

section

variable {α β : Type} {places : Nat → Prop} {prog : InBuffer α} {next : α → InBuffer β}
  {val : α} {pos : Nat}

theorem Keeps.pure (val : α) : Keeps places (pure val : InBuffer α) :=
  fun buf => ⟨val, buf, rfl, Touches.refl _ _⟩

theorem Keeps.bind (keeps : Keeps places prog) (rest : ∀ val, Keeps places (next val)) :
    Keeps places (prog >>= next) := by
  intro buf
  rcases keeps buf with ⟨val, after, ran, touches⟩
  rcases rest val after with ⟨res, last, ranNext, touchesNext⟩
  exact ⟨res, last, (InBuffer.bind_of_ok ran).trans ranNext, touches.trans touchesNext⟩

theorem Keeps.mono (keeps : Keeps places prog) (within : ∀ index, places index → more index) :
    Keeps more prog := by
  intro buf
  rcases keeps buf with ⟨val, after, ran, touches⟩
  exact ⟨val, after, ran, touches.mono within⟩

theorem Between.mono (below : low ≤ mid) (inside : Between mid high index) :
    Between low high index :=
  ⟨Nat.le_trans below inside.1, inside.2⟩

theorem Keeps.reads (keeps : Keeps (fun _ => False) prog) (buf : Bytes) :
    ∃ val, prog buf = .ok (val, buf) := by
  rcases keeps buf with ⟨val, after, ran, touches⟩
  rw [touches.eq_of_nowhere] at ran
  exact ⟨val, ran⟩

theorem Keeps.mapM {list : List β} (each : ∀ item, Keeps places (step item)) :
    Keeps places (list.mapM step) := by
  induction list with
  | nil => exact Keeps.pure []
  | cons item list ih =>
    rw [List.mapM_cons]
    exact (each item).bind fun _ => ih.bind fun _ => Keeps.pure _

theorem Keeps.lift {computation : Except Panic α} (ret : computation = .ok val) :
    Keeps places (liftM computation : InBuffer α) := by
  intro buf
  rw [ret]
  exact ⟨val, buf, rfl, Touches.refl _ _⟩

theorem Keeps.writes {bytes : Bytes} (keeps : Keeps places prog)
    (rest : ∀ val, Writes places pos bytes (next val)) :
    Writes places pos bytes (prog >>= next) := by
  intro buf
  rcases keeps buf with ⟨val, after, ran, touches⟩
  rcases rest val after with ⟨res, last, ranNext, touchesNext, written⟩
  refine ⟨res, last, (InBuffer.bind_of_ok ran).trans ranNext, touches.trans touchesNext, ?_⟩
  intro fits
  rw [← touches.length] at fits
  exact written fits

theorem Writes.keeps (writes : Writes places pos bytes prog) : Keeps places prog := by
  intro buf
  rcases writes buf with ⟨val, after, ran, touches, -⟩
  exact ⟨val, after, ran, touches⟩

theorem Keeps.touches (keeps : Keeps places prog) (ran : prog buf = .ok (val, after)) :
    Touches places buf after := by
  rcases keeps buf with ⟨_, _, ranAgain, touches⟩
  rw [ran] at ranAgain
  cases ranAgain
  exact touches

theorem Writes.window_eq (writes : Writes places pos bytes prog)
    (ran : prog buf = .ok (val, after)) (fits : pos + bytes.length ≤ buf.length) :
    window after pos bytes.length = bytes := by
  rcases writes buf with ⟨_, _, ranAgain, -, written⟩
  rw [ran] at ranAgain
  cases ranAgain
  exact written fits

theorem Writes.bind (writes : Writes (Between low high) pos bytes prog)
    (rest : ∀ val, Keeps (Between mid high) (next val))
    (behind : pos + bytes.length ≤ mid) (above : low ≤ mid) :
    Writes (Between low high) pos bytes (prog >>= next) := by
  intro buf
  rcases writes buf with ⟨val, after, ran, touches, written⟩
  rcases rest val after with ⟨res, last, ranNext, touchesNext⟩
  have wider : Touches (Between low high) after last := touchesNext.mono fun _ => Between.mono above
  refine ⟨res, last, (InBuffer.bind_of_ok ran).trans ranNext, touches.trans wider, ?_⟩
  intro fits
  rw [touchesNext.window_eq]
  · exact written fits
  intro index within inside
  have lower := inside.1
  omega

theorem Fails.bind (fails : Fails prog) : Fails (prog >>= next) := by
  intro buf
  rcases fails buf with ⟨panic, panicked⟩
  exact ⟨panic, InBuffer.bind_of_error panicked⟩

theorem Keeps.fails (keeps : Keeps places prog) (rest : ∀ val, Fails (next val)) :
    Fails (prog >>= next) := by
  intro buf
  rcases keeps buf with ⟨val, after, ran, -⟩
  rcases rest val after with ⟨panic, panicked⟩
  exact ⟨panic, (InBuffer.bind_of_ok ran).trans panicked⟩

end

namespace Slice

variable {slice : Slice} {places : Nat → Prop} {index : Nat}

theorem get_eq (within : index < slice.length) (buf : Bytes) :
    slice.get index buf = .ok (buf.getD (slice.start + index) 0, buf) :=
  if_pos within

theorem keeps_get (within : index < slice.length) : Keeps places (slice.get index) :=
  fun buf => ⟨_, buf, get_eq within buf, Touches.refl _ _⟩

theorem fails_get (beyond : slice.length ≤ index) : Fails (slice.get index) :=
  fun _ => ⟨_, if_neg (Nat.not_lt.mpr beyond)⟩

section

variable {bytes : Bytes} (within : index + bytes.length ≤ slice.length)

include within

theorem setAll_eq (buf : Bytes) :
    slice.setAll index bytes buf = .ok ((), overwrite buf (slice.start + index) bytes) := by
  induction bytes generalizing index buf with
  | nil => rfl
  | cons byte bytes ih =>
    rw [List.length_cons] at within
    have x : slice.set index byte buf = .ok ((), buf.set (slice.start + index) byte) :=
      if_pos (by omega)
    rw [setAll, InBuffer.bind_of_ok x, ih (by omega), overwrite, add_assoc]

theorem writes_setAll (above : low ≤ slice.start + index)
    (below : slice.start + index + bytes.length ≤ high) :
    Writes (Between low high) (slice.start + index) bytes (slice.setAll index bytes) := by
  intro buf
  refine ⟨(), _, setAll_eq within buf, Touches.overwrite buf ?_, window_overwrite⟩
  intro pos before
  exact ⟨by omega, by omega⟩

theorem keeps_setAll (above : low ≤ slice.start + index)
    (below : slice.start + index + bytes.length ≤ high) :
    Keeps (Between low high) (slice.setAll index bytes) :=
  (writes_setAll within above below).keeps

end

theorem sub_eq (ordered : low ≤ high) (within : high ≤ slice.capacity) :
    slice.sub low high = pure ⟨slice.start + low, high - low, slice.capacity - low⟩ :=
  if_pos ⟨ordered, within⟩

theorem dropFirst_eq (within : low ≤ slice.length) :
    slice.dropFirst low = pure ⟨slice.start + low, slice.length - low, slice.capacity - low⟩ :=
  if_pos within

theorem fails_dropFirst (beyond : slice.length < low) : Fails (slice.dropFirst low) := by
  intro buf
  rw [dropFirst, if_neg (Nat.not_le.mpr beyond)]
  exact ⟨_, rfl⟩

theorem bytes_eq (slice : Slice) (buf : Bytes) :
    slice.bytes buf = .ok (window buf slice.start slice.length, buf) :=
  rfl

theorem keeps_bytes : Keeps places slice.bytes :=
  fun buf => ⟨_, buf, rfl, Touches.refl _ _⟩

theorem fails_after_bytes (later : ∀ bytes, Fails (next bytes)) : Fails (slice.bytes >>= next) :=
  (@keeps_bytes slice fun _ => True).fails later

theorem copy_eq (slice : Slice) (src buf : Bytes) :
    slice.copy src buf = .ok ((), overwrite buf slice.start (src.take slice.length)) :=
  rfl

theorem keeps_copy (above : low ≤ slice.start) (below : slice.start + slice.length ≤ high)
    (src : Bytes) : Keeps (Between low high) (slice.copy src) := by
  intro buf
  refine ⟨(), _, rfl, Touches.overwrite buf ?_⟩
  intro index within
  rw [List.length_take] at within
  exact ⟨by omega, by omega⟩

theorem keeps_unsigned (long : k ≤ slice.length) : Keeps places (slice.unsigned k) :=
  fun buf => ⟨_, buf, if_pos long, Touches.refl _ _⟩

end Slice

end Peerscale
