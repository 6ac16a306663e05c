import Peerscale.Foundation.GoValue

/-! # Sums in one's complement

16-bit words are added with an end-around carry. The sum of some words is determined by their
sum as numbers: it is the same modulo 65535, and zero only if that is zero.
-/

namespace Peerscale.OnesComplement

open List

def words : Bytes → List Nat
  | [] => []
  | [last] => [last.toNat * 256]
  | high :: low :: rest => (high.toNat * 256 + low.toNat) :: words rest

def total (bytes : Bytes) : Nat := (words bytes).foldr (· + ·) 0

def add (first second : Nat) : Nat :=
  if first + second < 2 ^ 16 then first + second else first + second - 0xffff

def sum (bytes : Bytes) : Nat := (words bytes).foldl add 0

def Verifies (bytes : Bytes) : Prop := sum bytes = 0xffff
  deriving Decidable

structure Folds (number folded : Nat) : Prop where
  fits : folded < 2 ^ 16
  congruent : folded % 0xffff = number % 0xffff
  zero : folded = 0 ↔ number = 0

theorem Folds.add (folds : Folds num folded) (small : word < 2 ^ 16) :
    Folds (num + word) (add folded word) := by
  have fits := folds.fits
  have congruent := folds.congruent
  have zero := folds.zero
  rw [OnesComplement.add]
  split <;> exact ⟨by omega, by omega, by omega⟩

theorem Folds.foldl {list : List Nat} (folds : Folds num folded)
    (small : ∀ word ∈ list, word < 2 ^ 16) :
    Folds (num + list.foldr (· + ·) 0) (list.foldl OnesComplement.add folded) := by
  induction list generalizing num folded with
  | nil => exact folds
  | cons word list ih =>
    have x := folds.add (small word mem_cons_self)
    have rest := ih x fun other mem => small other (mem_cons_of_mem _ mem)
    rw [foldr_cons, ← Nat.add_assoc]
    exact rest

theorem lt_of_mem_words {bytes : Bytes} {word : Nat} (mem : word ∈ words bytes) :
    word < 2 ^ 16 := by
  induction bytes using words.induct with
  | case1 => cases mem
  | case2 last =>
    rw [mem_singleton.mp mem]
    have bound := last.toNat_lt
    omega
  | case3 high low rest ih =>
    rcases mem_cons.mp mem with rfl | later
    · have highBound := high.toNat_lt
      have lowBound := low.toNat_lt
      omega
    · exact ih later

theorem folds_sum (bytes : Bytes) : Folds (total bytes) (sum bytes) := by
  have zero : Folds 0 0 := ⟨by decide, rfl, Iff.rfl⟩
  have folds := zero.foldl fun word => @lt_of_mem_words bytes word
  rw [Nat.zero_add] at folds
  exact folds

theorem Folds.eq_ones_iff (folds : Folds num folded) :
    folded = 0xffff ↔ 0 < num ∧ num % 0xffff = 0 := by
  have fits := folds.fits
  have congruent := folds.congruent
  have zero := folds.zero
  omega

theorem verifies_iff : Verifies bytes ↔ 0 < total bytes ∧ total bytes % 0xffff = 0 :=
  (folds_sum bytes).eq_ones_iff

@[simp] theorem total_nil : total [] = 0 := rfl

theorem total_singleton (last : UInt8) : total [last] = last.toNat * 256 := by
  rw [total, words, foldr_cons, foldr_nil, Nat.add_zero]

theorem total_cons (high low : UInt8) (rest : Bytes) :
    total (high :: low :: rest) = high.toNat * 256 + low.toNat + total rest := rfl

theorem total_append {x : Bytes} (even : x.length % 2 = 0) :
    total (x ++ y) = total x + total y := by
  induction x using words.induct with
  | case1 => rw [nil_append, total_nil, Nat.zero_add]
  | case2 => cases even
  | case3 high low rest ih =>
    have restEven : rest.length % 2 = 0 := by
      rw [length_cons, length_cons] at even
      omega
    rw [cons_append, cons_append, total_cons, total_cons, ih restEven]
    omega

theorem total_le (bytes : Bytes) : total bytes ≤ (bytes.length + 1) / 2 * 0xffff := by
  induction bytes using words.induct with
  | case1 => exact Nat.le_refl 0
  | case2 last =>
    have bound := last.toNat_lt
    rw [total_singleton, length_singleton]
    omega
  | case3 high low =>
    have highBound := high.toNat_lt
    have lowBound := low.toNat_lt
    rw [total_cons, length_cons, length_cons]
    omega

theorem total_take_le (bytes : Bytes) (count : Nat) : total (bytes.take count) ≤ total bytes := by
  induction bytes using words.induct generalizing count with
  | case1 => exact Nat.le_of_eq (by rw [take_nil])
  | case2 =>
    cases count with
    | zero => exact Nat.zero_le _
    | succ => exact Nat.le_of_eq (by rw [take_succ_cons, take_nil])
  | case3 high low rest ih =>
    match count with
    | 0 => exact Nat.zero_le _
    | 1 =>
      rw [take_succ_cons, take_zero, total_singleton, total_cons]
      omega
    | count + 2 =>
      have later := ih count
      rw [take_succ_cons, take_succ_cons, total_cons, total_cons]
      omega

theorem total_bigEndian (fits : val < 2 ^ 16) : total (bigEndian 2 val) = val := by
  have pair : bigEndian 2 val = [UInt8.ofNat (val / 256 % 256), UInt8.ofNat (val % 256)] := rfl
  rw [pair, total_cons, total_nil, UInt8.toNat_ofNat', UInt8.toNat_ofNat']
  omega

/-- A checksum is put in place of two zero bytes. The message verifies together with a header if
the number that the checksum was started with is congruent to the total of the header. -/
theorem verifies_sealed_iff {header front back : Bytes} {initial folded : Nat}
    (headerEven : header.length % 2 = 0) (frontEven : front.length % 2 = 0)
    (folds : Folds (initial + total (front ++ [0, 0] ++ back)) folded)
    (atMost : initial ≤ total header) :
    Verifies (header ++ (front ++ bigEndian 2 (0xffff - folded) ++ back)) ↔
      (total header - initial) % 0xffff = 0 := by
  have fits := folds.fits
  have congruent := folds.congruent
  have zero := folds.zero
  have cleared : total (front ++ [0, 0] ++ back) = total front + total back := by
    rw [append_assoc, total_append frontEven]
    change total front + (0 * 256 + 0 + total back) = _
    omega
  have sealed : total (header ++ (front ++ bigEndian 2 (0xffff - folded) ++ back)) =
      total header + (total front + (0xffff - folded) + total back) := by
    rw [total_append headerEven, append_assoc, total_append frontEven,
      total_append (by rw [length_bigEndian]), total_bigEndian (by omega)]
    omega
  rw [cleared] at congruent zero
  rw [verifies_iff, sealed]
  omega

end Peerscale.OnesComplement
