import Mathlib.Data.Nat.Digits.Lemmas
import Peerscale.Foundation.GoValue

/-! # Numbers and addresses as text

`strconv.FormatInt`, `netip.Addr.String` and `net.SplitHostPort`.
-/

namespace Peerscale

open List

/-- `strconv.FormatInt` with a number that is not negative. -/
def formatInt (base value : Nat) : GoString :=
  if value = 0 then [hexDigit 0] else (Nat.digits base value).reverse.map hexDigit

def itoa (value : Nat) : GoString := formatInt 10 value

def digitsOf (base value : Nat) : List Nat :=
  if value = 0 then [0] else Nat.digits base value

theorem formatInt_eq (base val : Nat) :
    formatInt base val = (digitsOf base val).reverse.map hexDigit := by
  rw [formatInt, digitsOf]
  split <;> rfl

theorem digitsOf_lt (wide : 1 < base) (mem : digit ∈ digitsOf base val) : digit < base := by
  rw [digitsOf] at mem
  split at mem
  · rw [mem_singleton.mp mem]
    omega
  · exact Nat.digits_lt_base wide mem

theorem ofDigits_digitsOf (base val : Nat) : Nat.ofDigits base (digitsOf base val) = val := by
  rw [digitsOf]
  split
  · rename_i zero
    rw [zero]
    rfl
  · exact Nat.ofDigits_digits base val

def hexValue (byte : UInt8) : Nat := if byte < 58 then byte.toNat - 48 else byte.toNat - 87

theorem hexValue_hexDigit : ∀ digit < 16, hexValue (hexDigit digit) = digit := by
  decide

theorem hexValue_formatInt (wide : 1 < base) (small : base ≤ 16) (val : Nat) :
    ((formatInt base val).map hexValue).reverse = digitsOf base val := by
  have same : ∀ digit ∈ (digitsOf base val).reverse, (hexValue ∘ hexDigit) digit = id digit := by
    intro digit mem
    have bound := digitsOf_lt wide (mem_reverse.mp mem)
    exact hexValue_hexDigit digit (by omega)
  rw [formatInt_eq, map_map, map_congr_left same, map_id, reverse_reverse]

theorem formatInt_injective (wide : 1 < base) (small : base ≤ 16) :
    Function.Injective (formatInt base) := by
  intro x y same
  rw [← ofDigits_digitsOf base x, ← hexValue_formatInt wide small, same,
    hexValue_formatInt wide small, ofDigits_digitsOf]

theorem mem_formatInt (wide : 1 < base) (mem : byte ∈ formatInt base val) :
    ∃ digit < base, byte = hexDigit digit := by
  rw [formatInt_eq, mem_map] at mem
  rcases mem with ⟨digit, digitMember, rfl⟩
  exact ⟨digit, digitsOf_lt wide (mem_reverse.mp digitMember), rfl⟩

def plus : UInt8 := 43
def minus : UInt8 := 45

/-- `strconv.Atoi`, without the texts of its errors. -/
def atoi (text : GoString) : Option Int :=
  let signed := text.head? = some plus ∨ text.head? = some minus
  let digits := if signed then text.drop 1 else text
  if digits = [] ∨ ∃ byte ∈ digits, byte < 48 ∨ 57 < byte then none
  else
    let size : Nat := Nat.ofDigits 10 (digits.map hexValue).reverse
    let value : Int := if text.head? = some minus then -size else size
    if -2 ^ 63 ≤ value ∧ value < 2 ^ 63 then some value else none

theorem atoi_itoa (small : val < 2 ^ 63) : atoi (itoa val) = some (val : Int) := by
  have decimal : ∀ byte ∈ itoa val, 48 ≤ byte ∧ byte ≤ 57 := by
    intro byte mem
    rcases mem_formatInt (by decide) mem with ⟨digit, bound, rfl⟩
    have all : ∀ digit < 10, 48 ≤ hexDigit digit ∧ hexDigit digit ≤ 57 := by decide
    exact all digit bound
  have unsigned : ∀ sign < 48, (itoa val).head? ≠ some sign := by
    intro sign below x
    exact absurd (decimal sign (mem_of_mem_head? x)).1 (UInt8.not_le.mpr below)
  have nonempty : itoa val ≠ [] := by
    rw [itoa, formatInt]
    split <;> simp [Nat.digits_ne_nil_iff_ne_zero, *]
  have valid : ¬∃ byte ∈ itoa val, byte < 48 ∨ 57 < byte := by
    rintro ⟨byte, mem, low | high⟩
    · exact absurd (decimal byte mem).1 (UInt8.not_le.mpr low)
    · exact absurd (decimal byte mem).2 (UInt8.not_le.mpr high)
  have size : Nat.ofDigits 10 ((itoa val).map hexValue).reverse = val := by
    rw [itoa, hexValue_formatInt (by decide) (by decide), ofDigits_digitsOf]
  have notPlus := unsigned plus (by decide)
  have notMinus := unsigned minus (by decide)
  simp only [atoi, notPlus, notMinus, or_self, if_false, nonempty, valid, size]
  exact if_pos (by omega)

def Strings.index (text pattern : GoString) : Option Nat :=
  (List.range (text.length + 1)).find? fun position => pattern.isPrefixOf (text.drop position)

def dot : UInt8 := 46
def colon : UInt8 := 58
def openBracket : UInt8 := 91
def closeBracket : UInt8 := 93

theorem itoa_plain (val : Nat) :
    ∀ byte ∈ itoa val, byte ≠ colon ∧ byte ≠ openBracket ∧ byte ≠ closeBracket := by
  intro byte mem
  rcases mem_formatInt (by decide) mem with ⟨digit, small, rfl⟩
  have all : ∀ digit < 10, hexDigit digit ≠ colon ∧ hexDigit digit ≠ openBracket ∧
      hexDigit digit ≠ closeBracket := by
    decide
  exact all digit small

def ipv4Text (bytes : Bytes) : GoString :=
  List.intercalate [dot] (bytes.map fun byte => itoa byte.toNat)

/-- The longest run of at least two zeros, the first one if there are several: where it
starts, and how long it is. -/
def zeroRun (groups : List Nat) : Nat × Nat :=
  (List.range groups.length).foldl (fun best start =>
      let length := ((groups.drop start).takeWhile (· = 0)).length
      if 2 ≤ length ∧ best.2 < length then (start, length) else best)
    (groups.length, 0)

def groupsText (groups : List Nat) : GoString :=
  List.intercalate [colon] (groups.map (formatInt 16))

def ipv6Text (bytes : Bytes) : GoString :=
  if bytes.take 12 = List.replicate 10 0 ++ [255, 255] then
    ascii "::ffff:" ++ ipv4Text (bytes.drop 12)
  else
    let groups := (List.range 8).map fun index => ofBigEndian ((bytes.drop (2 * index)).take 2)
    let (start, length) := zeroRun groups
    if length = 0 then groupsText groups
    else groupsText (groups.take start) ++ [colon, colon] ++
      groupsText (groups.drop (start + length))

example : ipv6Text ([0xfd] ++ List.replicate 14 0 ++ [160]) = ascii "fd00::a0" := by
  decide +kernel

/-- `net.SplitHostPort`, without the texts of its errors. -/
def splitHostPort (hostport : GoString) : Option (GoString × GoString) :=
  match hostport.reverse.idxOf? colon with
  | none => none
  | some fromEnd =>
    let last := hostport.length - 1 - fromEnd
    let port := hostport.drop (last + 1)
    if hostport.head? = some openBracket then
      match hostport.idxOf? closeBracket with
      | none => none
      | some close =>
        -- The closing bracket stands right before the last colon.
        if close + 1 ≠ last then none
        else if openBracket ∈ hostport.drop 1 ∨ closeBracket ∈ hostport.drop (close + 1) then
          none
        else some ((hostport.take close).drop 1, port)
    else if colon ∈ hostport.take last then none
    else if openBracket ∈ hostport ∨ closeBracket ∈ hostport then none
    else some (hostport.take last, port)

example : splitHostPort (ascii "[fd00::a0]:80") = some (ascii "fd00::a0", ascii "80") := by
  decide +kernel

theorem splitHostPort_append
    (hostPlain : ∀ byte ∈ host, byte ≠ colon ∧ byte ≠ openBracket ∧ byte ≠ closeBracket)
    (portPlain : ∀ byte ∈ port, byte ≠ colon ∧ byte ≠ openBracket ∧ byte ≠ closeBracket) :
    splitHostPort (host ++ colon :: port) = some (host, port) := by
  have pos : (host ++ colon :: port).reverse.idxOf? colon = some port.length := by
    have absent : colon ∉ port.reverse := by
      intro mem
      exact (portPlain colon (mem_reverse.mp mem)).1 rfl
    rw [reverse_append, reverse_cons, append_assoc, idxOf?,
      findIdx?_append, ← idxOf?, idxOf?_eq_none_iff.mpr absent]
    rw [singleton_append, idxOf?_cons, if_pos (by decide), Option.map_some,
      length_reverse, Nat.zero_add, Option.none_or]
  have last : (host ++ colon :: port).length - 1 - port.length = host.length := by
    rw [length_append, length_cons]
    omega
  have plain : ∀ bracket, bracket ≠ colon → (∀ byte ∈ host, byte ≠ bracket) →
      (∀ byte ∈ port, byte ≠ bracket) → bracket ∉ host ++ colon :: port := by
    intro bracket other inHost inPort mem
    rcases mem_append.mp mem with here | there
    · exact inHost bracket here rfl
    rcases mem_cons.mp there with same | there
    · exact other same
    · exact inPort bracket there rfl
  have opening : openBracket ∉ host ++ colon :: port :=
    plain openBracket (by decide) (fun byte mem => (hostPlain byte mem).2.1)
      fun byte mem => (portPlain byte mem).2.1
  have closing : closeBracket ∉ host ++ colon :: port :=
    plain closeBracket (by decide) (fun byte mem => (hostPlain byte mem).2.2)
      fun byte mem => (portPlain byte mem).2.2
  have head : (host ++ colon :: port).head? ≠ some openBracket := by
    intro isHead
    exact opening (mem_of_head? isHead)
  rw [splitHostPort, pos]
  dsimp only
  have inHost : colon ∉ host := fun mem => (hostPlain colon mem).1 rfl
  rw [last, if_neg head, take_left, if_neg inHost,
    if_neg (not_or.mpr ⟨opening, closing⟩), drop_length_add_append]
  rfl

end Peerscale
