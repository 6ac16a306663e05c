import Mathlib.Tactic.Ring
import Peerscale.Foundation.GoValue

/-! # Numbers of variable length

LEB128: seven bits in each byte, the lowest first, and the highest bit of a byte says that
another one follows. The reader keeps 64 bits: what is shifted further is lost.
-/

namespace Peerscale

/-- The bytes that `appendLEB128` appends. -/
def leb128 (value : Nat) : Bytes :=
  if value < 128 then [UInt8.ofNat value]
  else UInt8.ofNat (value % 128 + 128) :: leb128 (value / 128)
termination_by value

/-- The loop of `consumeLEB128`: `total` has been read from `index` bytes. -/
def consumeFrom (total index : Nat) : Bytes → Option (Nat × Nat)
  | [] => none
  | byte :: bytes =>
    let total := total ||| byte.toNat % 128 * 2 ^ (7 * index) % 2 ^ 64
    if byte.toNat < 128 then some (total, index + 1) else consumeFrom total (index + 1) bytes

def consumeLEB128 (bytes : Bytes) : Option (Nat × Nat) := consumeFrom 0 0 bytes

example : consumeLEB128 [0xff, 0x7f, 3] = some (16383, 2) := by decide

theorem consumeFrom_bounds (small : total < 2 ^ 64)
    (read : consumeFrom total index bytes = some (val, taken)) :
    val < 2 ^ 64 ∧ index < taken ∧ taken ≤ index + bytes.length := by
  induction bytes generalizing total index with
  | nil => cases read
  | cons byte bytes ih =>
    have next : total ||| byte.toNat % 128 * 2 ^ (7 * index) % 2 ^ 64 < 2 ^ 64 :=
      Nat.or_lt_two_pow small (Nat.mod_lt _ (by decide))
    rw [consumeFrom] at read
    split at read
    · rw [Option.some.injEq, Prod.mk.injEq] at read
      simp only [List.length_cons]
      omega
    have rest := ih next read
    simp only [List.length_cons]
    omega

theorem consumeLEB128_bounds (read : consumeLEB128 bytes = some (val, taken)) :
    val < 2 ^ 64 ∧ 0 < taken ∧ taken ≤ bytes.length := by
  simpa using consumeFrom_bounds (by decide) read

theorem or_digit (small : total < 2 ^ (7 * index)) (fits : digit * 2 ^ (7 * index) < 2 ^ 64) :
    total ||| digit * 2 ^ (7 * index) % 2 ^ 64 = total + digit * 2 ^ (7 * index) := by
  rw [Nat.mod_eq_of_lt fits, Nat.mul_comm, Nat.or_comm, ← Nat.two_pow_add_eq_or_of_lt small]
  omega

theorem two_pow_step (index : Nat) : 2 ^ (7 * (index + 1)) = 128 * 2 ^ (7 * index) := by
  rw [Nat.mul_add, Nat.pow_add]
  ring

theorem consumeFrom_leb128 (val : Nat) {total index : Nat} (rest : Bytes)
    (small : total < 2 ^ (7 * index)) (fits : total + val * 2 ^ (7 * index) < 2 ^ 64) :
    consumeFrom total index (leb128 val ++ rest) =
      some (total + val * 2 ^ (7 * index), index + (leb128 val).length) := by
  induction val using Nat.strongRecOn generalizing total index with
  | ind val ih =>
    rw [leb128]
    split
    · rename_i last
      have byte : (UInt8.ofNat val).toNat = val := by
        simp only [UInt8.toNat_ofNat']
        omega
      rw [List.cons_append, consumeFrom]
      simp only [byte, Nat.mod_eq_of_lt last, last, if_true,
        or_digit small (Nat.lt_of_le_of_lt (Nat.le_add_left _ _) fits), List.length_singleton]
    rename_i more
    have byte : (UInt8.ofNat (val % 128 + 128)).toNat = val % 128 + 128 := by
      simp only [UInt8.toNat_ofNat']
      omega
    have low : (val % 128 + 128) % 128 = val % 128 := by omega
    have notLast : ¬val % 128 + 128 < 128 := by omega
    have parts : val % 128 * 2 ^ (7 * index) + val / 128 * 2 ^ (7 * (index + 1)) =
        val * 2 ^ (7 * index) := by
      rw [two_pow_step, ← Nat.mul_assoc, ← Nat.add_mul]
      congr 1
      omega
    have below : val % 128 * 2 ^ (7 * index) + 2 ^ (7 * index) ≤ 2 ^ (7 * (index + 1)) := by
      rw [two_pow_step, ← Nat.succ_mul]
      exact Nat.mul_le_mul_right _ (by omega)
    rw [List.cons_append, consumeFrom]
    simp only [byte, low, notLast, if_false]
    rw [or_digit small (by omega), ih (val / 128) (by omega) (by omega) (by omega),
      Nat.add_assoc, parts, List.length_cons]
    congr 2
    omega

theorem consumeLEB128_leb128 (fits : val < 2 ^ 64) (rest : Bytes) :
    consumeLEB128 (leb128 val ++ rest) = some (val, (leb128 val).length) := by
  have read := @consumeFrom_leb128 val 0 0 rest (by decide) (by simpa using fits)
  simpa [consumeLEB128] using read

theorem length_leb128_le (fits : val < 2 ^ (7 * (k + 1))) : (leb128 val).length ≤ k + 1 := by
  induction k generalizing val with
  | zero => rw [leb128, if_pos (by simpa using fits), List.length_singleton]
  | succ k ih =>
    rw [two_pow_step] at fits
    rw [leb128]
    split
    · simp
    · exact Nat.succ_le_succ (ih (Nat.div_lt_of_lt_mul fits))

theorem consumeFrom_lt (small : total < 2 ^ (7 * index))
    (read : consumeFrom total index bytes = some (val, taken)) : val < 2 ^ (7 * taken) := by
  induction bytes generalizing total index with
  | nil => cases read
  | cons byte bytes ih =>
    have digit : byte.toNat % 128 * 2 ^ (7 * index) % 2 ^ 64 < 2 ^ (7 * (index + 1)) := by
      rw [two_pow_step]
      exact (Nat.mod_le _ _).trans_lt (Nat.mul_lt_mul_of_pos_right (Nat.mod_lt _ (by decide))
        (Nat.two_pow_pos _))
    have next : total ||| byte.toNat % 128 * 2 ^ (7 * index) % 2 ^ 64 < 2 ^ (7 * (index + 1)) := by
      refine Nat.or_lt_two_pow (small.trans_le ?_) digit
      exact Nat.pow_le_pow_right (by decide) (by omega)
    rw [consumeFrom] at read
    split at read
    · cases read
      exact next
    · exact ih next read

theorem consumeFrom_append (read : consumeFrom total index x = some res) (y : Bytes) :
    consumeFrom total index (x ++ y) = some res := by
  induction x generalizing total index with
  | nil => cases read
  | cons byte x ih =>
    rw [consumeFrom] at read
    rw [List.cons_append, consumeFrom]
    split
    · simpa [*] using read
    · exact ih (by simpa [*] using read)
end Peerscale
