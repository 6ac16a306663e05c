import Mathlib.Algebra.Group.Int.Defs
import Mathlib.Algebra.Group.Nat.Defs
import Mathlib.Data.List.Induction
import Mathlib.Data.Int.Order.Basic

/-! # Go strings, byte slices and integers

Go strings are byte sequences, and `int`, `int64` and `uint64` are 64 bits wide.
Integers are kept as mathematical integers; `wrap64` is applied wherever the
source performs an operation that can leave the 64-bit range.
-/

namespace Peerscale

abbrev Bytes := List UInt8

abbrev GoString := List UInt8

def ascii (text : String) : GoString :=
  text.toList.map fun character => character.toNat.toUInt8

inductive GoPanic
  | divideByZero
  | makeSliceLen (length : Int)
  | indexOutOfRange (index : Int)
  deriving DecidableEq

def wrap64 (value : Int) : Int := value.bmod (2 ^ 64)

theorem wrap64_of_mem {val : Int} (lower : -2 ^ 63 ≤ val) (upper : val < 2 ^ 63) :
    wrap64 val = val := by
  apply Int.bmod_eq_of_le <;> omega

/-- The bit pattern of a signed value, `uint64(value)`. -/
def toUint64 (value : Int) : Nat := (value % 2 ^ 64).toNat

theorem toUint64_natCast {val : Nat} (small : val < 2 ^ 64) : toUint64 val = val := by
  unfold toUint64
  omega

/-- `binary.BigEndian.PutUint32` and `PutUint64`, at any width. -/
def bigEndian : (width : Nat) → Nat → Bytes
  | 0, _ => []
  | width + 1, value => bigEndian width (value / 256) ++ [UInt8.ofNat (value % 256)]

/-- `binary.BigEndian.Uint32` and `Uint64`. -/
def ofBigEndian (bytes : Bytes) : Nat :=
  bytes.foldl (fun total byte => total * 256 + byte.toNat) 0

def littleEndian (width value : Nat) : Bytes := (bigEndian width value).reverse

def ofLittleEndian (bytes : Bytes) : Nat := ofBigEndian bytes.reverse

@[simp] theorem length_bigEndian (k val : Nat) : (bigEndian k val).length = k := by
  induction k generalizing val with
  | zero => rfl
  | succ k ih => simp [bigEndian, ih]

@[simp] theorem length_littleEndian (k val : Nat) : (littleEndian k val).length = k := by
  simp [littleEndian]

theorem ofBigEndian_append_singleton (bytes : Bytes) (byte : UInt8) :
    ofBigEndian (bytes ++ [byte]) = ofBigEndian bytes * 256 + byte.toNat := by
  simp [ofBigEndian]

theorem ofBigEndian_bigEndian (fits : val < 256 ^ k) : ofBigEndian (bigEndian k val) = val := by
  induction k generalizing val with
  | zero =>
    have zero : val = 0 := by simpa using fits
    simp [bigEndian, ofBigEndian, zero]
  | succ k ih =>
    have fitsLower : val / 256 < 256 ^ k := by
      rw [Nat.pow_succ] at fits
      exact Nat.div_lt_of_lt_mul (by omega)
    have lastByte : (UInt8.ofNat (val % 256)).toNat = val % 256 := by simp [Nat.mod_mod_of_dvd]
    rw [bigEndian, ofBigEndian_append_singleton, ih fitsLower, lastByte]
    omega

theorem ofBigEndian_two (val : Nat) : ofBigEndian (bigEndian 2 val) = val % 2 ^ 16 := by
  simp [bigEndian, ofBigEndian]
  omega

theorem ofLittleEndian_littleEndian (fits : val < 256 ^ k) :
    ofLittleEndian (littleEndian k val) = val := by
  simp [ofLittleEndian, littleEndian, ofBigEndian_bigEndian fits]

def hexDigit (value : Nat) : UInt8 :=
  if value < 10 then UInt8.ofNat (48 + value) else UInt8.ofNat (87 + value)

def hexEncode (bytes : Bytes) : GoString :=
  bytes.flatMap fun byte => [hexDigit (byte.toNat / 16), hexDigit (byte.toNat % 16)]

end Peerscale
