import Mathlib.Tactic
import Peerscale.Foundation.GoValue

/-! # JSON and base64

What `encoding/json` writes for strings and byte slices, and how it reads values. A string is
written rune by rune, and what is read from it are the same runes.
-/

namespace Peerscale

open List

/-! ## Runes -/

/-- `utf8.DecodeRune`, without a rune if the bytes do not start with one. -/
def decodeRune (bytes : Bytes) : Option Char := bytes.toByteArray.utf8DecodeChar? 0

def runesAfter : Nat → Bytes → List (Option Char)
  | _, [] => []
  | skip + 1, _ :: bytes => runesAfter skip bytes
  | 0, byte :: bytes =>
    match decodeRune (byte :: bytes) with
    | some rune => some rune :: runesAfter (rune.utf8Size - 1) bytes
    | none => none :: runesAfter 0 bytes

/-- What `range` finds in a string. A byte that is not part of a rune stands for itself. -/
def runes (text : GoString) : List (Option Char) := runesAfter 0 text

def utf8 (chars : List Char) : GoString := chars.flatMap String.utf8EncodeChar

theorem decodeRune_append (rune : Char) (rest : Bytes) :
    decodeRune (String.utf8EncodeChar rune ++ rest) = some rune := by
  rw [decodeRune, toByteArray_append]
  exact ByteArray.utf8DecodeChar?_utf8EncodeChar_append

theorem runesAfter_eq (skip : Nat) (bytes : Bytes) :
    runesAfter skip bytes = runes (bytes.drop skip) := by
  induction bytes generalizing skip with
  | nil => rw [drop_nil, runesAfter, runes, runesAfter]
  | cons byte bytes induction =>
    cases skip with
    | zero => rfl
    | succ => rw [runesAfter, induction, drop_succ_cons]

theorem exists_utf8EncodeChar (rune : Char) :
    ∃ byte bytes, String.utf8EncodeChar rune = byte :: bytes ∧
      bytes.length = rune.utf8Size - 1 := by
  have length := String.length_utf8EncodeChar rune
  cases encoded : String.utf8EncodeChar rune with
  | nil =>
    rw [encoded] at length
    exact absurd length.symm (Char.utf8Size_pos rune).ne'
  | cons byte bytes =>
    rw [encoded, length_cons] at length
    exact ⟨byte, bytes, rfl, by omega⟩

theorem runes_append (rune : Char) (rest : Bytes) :
    runes (String.utf8EncodeChar rune ++ rest) = some rune :: runes rest := by
  have decoded := decodeRune_append rune rest
  rcases exists_utf8EncodeChar rune with ⟨byte, bytes, encoded, length⟩
  rw [encoded, cons_append] at decoded ⊢
  rw [runes, runesAfter, decoded]
  dsimp only
  rw [runesAfter_eq, ← length, drop_left]

theorem runes_utf8 (chars : List Char) : runes (utf8 chars) = chars.map some := by
  induction chars with
  | nil => rfl
  | cons rune chars induction => rw [utf8, flatMap_cons, runes_append, ← utf8, induction, map_cons]

/-! ## base64 -/

def base64Digit (value : Nat) : UInt8 :=
  (ascii "ABCDEFGHIJKLMNOPQRSTUVWXYZabcdefghijklmnopqrstuvwxyz0123456789+/").getD value 0

def base64Encode : Bytes → GoString
  | [] => []
  | [a] => [base64Digit (a.toNat / 4), base64Digit (a.toNat % 4 * 16), 61, 61]
  | [a, b] =>
    [base64Digit (a.toNat / 4), base64Digit (a.toNat % 4 * 16 + b.toNat / 16),
      base64Digit (b.toNat % 16 * 4), 61]
  | a :: b :: c :: rest =>
    [base64Digit (a.toNat / 4), base64Digit (a.toNat % 4 * 16 + b.toNat / 16),
      base64Digit (b.toNat % 16 * 4 + c.toNat / 64), base64Digit (c.toNat % 64)] ++
      base64Encode rest

namespace Json

/-! ## Strings -/

def quote : UInt8 := 34
def backslash : UInt8 := 92

def shortEscape : Nat → Option UInt8
  | 8 => some 98
  | 9 => some 116
  | 10 => some 110
  | 12 => some 102
  | 13 => some 114
  | 34 => some 34
  | 92 => some 92
  | _ => none

def hexDigits (code : Nat) : Bytes :=
  [hexDigit (code / 4096), hexDigit (code / 256 % 16), hexDigit (code / 16 % 16),
    hexDigit (code % 16)]

def unicodeEscape (code : Nat) : Bytes := backslash :: 117 :: hexDigits code

/-- Control characters, those that matter in HTML, and the line separators of JavaScript. -/
def isEscaped (code : Nat) : Bool :=
  code < 32 || code = 38 || code = 60 || code = 62 || code = 0x2028 || code = 0x2029

def escapeRune : Option Char → Bytes
  | none => unicodeEscape 0xFFFD
  | some rune =>
    match shortEscape rune.toNat with
    | some letter => [backslash, letter]
    | none => if isEscaped rune.toNat then unicodeEscape rune.toNat else String.utf8EncodeChar rune

def marshalString (text : GoString) : Bytes :=
  [quote] ++ ((runes text).flatMap escapeRune ++ [quote])

def marshalBytes (bytes : Bytes) : Bytes := [quote] ++ (base64Encode bytes ++ [quote])

def hexNibble (byte : UInt8) : Option Nat :=
  if 48 ≤ byte ∧ byte ≤ 57 then some (byte.toNat - 48)
  else if 97 ≤ byte ∧ byte ≤ 102 then some (byte.toNat - 87)
  else if 65 ≤ byte ∧ byte ≤ 70 then some (byte.toNat - 55)
  else none

def hex4 : Bytes → Option (Nat × Bytes)
  | a :: b :: c :: d :: rest => do
      let a ← hexNibble a
      let b ← hexNibble b
      let c ← hexNibble c
      let d ← hexNibble d
      return (a * 4096 + b * 256 + c * 16 + d, rest)
  | _ => none

def lowSurrogate (rest : Bytes) : Option (Nat × Bytes) :=
  if rest.take 2 = [backslash, 117] then
    match hex4 (rest.drop 2) with
    | some (code, rest) => if 0xDC00 ≤ code ∧ code < 0xE000 then some (code, rest) else none
    | none => none
  else none

def longEscape (rest : Bytes) : Option (GoString × Bytes) :=
  match hex4 rest with
  | none => none
  | some (code, rest) =>
    if 0xD800 ≤ code ∧ code < 0xE000 then
      match if code < 0xDC00 then lowSurrogate rest else none with
      | some (low, rest) =>
        some (String.utf8EncodeChar
          (Char.ofNat ((code - 0xD800) * 1024 + (low - 0xDC00) + 0x10000)), rest)
      | none => some (String.utf8EncodeChar (Char.ofNat 0xFFFD), rest)
    else some (String.utf8EncodeChar (Char.ofNat code), rest)

def letterEscape (letter : UInt8) : Option UInt8 :=
  match letter.toNat with
  | 34 => some 34
  | 47 => some 47
  | 92 => some 92
  | 98 => some 8
  | 102 => some 12
  | 110 => some 10
  | 114 => some 13
  | 116 => some 9
  | _ => none

def readEscape : Bytes → Option (GoString × Bytes)
  | [] => none
  | letter :: rest =>
    if letter = 117 then longEscape rest else (letterEscape letter).map ([·], rest)

def readString : Nat → Bytes → Option (GoString × Bytes)
  | 0, _ => none
  | _, [] => none
  | fuel + 1, byte :: rest =>
    if byte = quote then some ([], rest)
    else
      let piece : Option (GoString × Bytes) := if byte = backslash then readEscape rest
        else if byte < 32 then none
        else
          match decodeRune (byte :: rest) with
          | some rune => some (String.utf8EncodeChar rune, (byte :: rest).drop rune.utf8Size)
          | none => some (String.utf8EncodeChar (Char.ofNat 0xFFFD), rest)
      match piece with
      | none => none
      | some (text, rest) => (readString fuel rest).map fun (more, rest) => (text ++ more, rest)

/-! ### Strings are read as they are written -/

def prepend (text : GoString) (read : GoString × Bytes) : GoString × Bytes :=
  (text ++ read.1, read.2)

theorem readString_escape (escape : readEscape bytes = some (text, rest)) :
    readString (fuel + 1) (backslash :: bytes) = (readString fuel rest).map (prepend text) := by
  have other : backslash ≠ quote := by decide
  rw [readString, if_neg other, if_pos rfl, escape]
  rfl

theorem shortEscape_spec (short : shortEscape code = some letter) :
    ∀ rest, readEscape (letter :: rest) = some (String.utf8EncodeChar (Char.ofNat code), rest) := by
  intro rest
  rw [shortEscape.eq_def] at short
  split at short
  all_goals cases short
  all_goals rfl

theorem hexNibble_hexDigit : ∀ digit < 16, hexNibble (hexDigit digit) = some digit := by
  decide

theorem hex4_digits (small : code < 65536) (rest : Bytes) :
    hex4 (hexDigits code ++ rest) = some (code, rest) := by
  have whole : code / 4096 * 4096 + code / 256 % 16 * 256 + code / 16 % 16 * 16 + code % 16 =
      code := by omega
  rw [hexDigits, cons_append, cons_append, cons_append, cons_append, hex4,
    hexNibble_hexDigit _ (by omega), hexNibble_hexDigit _ (by omega),
    hexNibble_hexDigit _ (by omega), hexNibble_hexDigit _ (by omega)]
  exact congrArg (fun val => some (val, rest)) whole

theorem readEscape_unicode (small : code < 0xD800) (rest : Bytes) :
    readEscape (117 :: (hexDigits code ++ rest)) =
      some (String.utf8EncodeChar (Char.ofNat code), rest) := by
  rw [readEscape, if_pos rfl, longEscape, hex4_digits (small.trans (by decide))]
  dsimp only
  rw [if_neg (by omega)]

theorem isEscaped_lt (escaped : isEscaped code) : code < 0xD800 := by
  simp only [isEscaped, Bool.or_eq_true, decide_eq_true_eq] at escaped
  omega

theorem utf8EncodeChar_head (encoded : String.utf8EncodeChar rune = byte :: bytes) :
    byte.toNat = rune.toNat ∨ 192 ≤ byte.toNat := by
  rw [String.utf8EncodeChar] at encoded
  change (if rune.toNat ≤ 127 then _ else _) = _ at encoded
  split at encoded
  · cases encoded
    left
    exact UInt8.toNat_ofNat_of_lt' (by change rune.toNat < 256; omega)
  right
  split at encoded
  · cases encoded
    rw [UInt8.toNat_ofNat_of_lt' (by change _ < 256; omega)]
    omega
  split at encoded
  · cases encoded
    rw [UInt8.toNat_ofNat_of_lt' (by change _ < 256; omega)]
    omega
  cases encoded
  rw [UInt8.toNat_ofNat_of_lt' (by change _ < 256; omega)]
  omega

theorem readString_plain {rune : Char} (notShort : shortEscape rune.toNat = none)
    (notEscaped : isEscaped rune.toNat = false) (rest : Bytes) :
    readString (fuel + 1) (String.utf8EncodeChar rune ++ rest) =
      (readString fuel rest).map (prepend (String.utf8EncodeChar rune)) := by
  have decoded := decodeRune_append rune rest
  have dropped : (String.utf8EncodeChar rune ++ rest).drop rune.utf8Size = rest := by
    rw [← String.length_utf8EncodeChar, drop_left]
  rcases exists_utf8EncodeChar rune with ⟨byte, bytes, encoded, -⟩
  have head := utf8EncodeChar_head encoded
  have notQuote : byte ≠ quote := by
    rintro rfl
    rcases head with same | large
    · rw [← same] at notShort
      cases notShort
    · revert large
      decide
  have notBackslash : byte ≠ backslash := by
    rintro rfl
    rcases head with same | large
    · rw [← same] at notShort
      cases notShort
    · revert large
      decide
  have notControl : ¬byte < 32 := by
    intro control
    have small : byte.toNat < 32 := control
    rcases head with same | large
    · simp only [isEscaped, Bool.or_eq_false_iff, decide_eq_false_iff_not] at notEscaped
      omega
    · omega
  rw [encoded] at decoded dropped ⊢
  rw [cons_append] at decoded dropped ⊢
  rw [readString, if_neg notQuote, if_neg notBackslash, if_neg notControl, decoded]
  dsimp only
  rw [dropped, encoded]
  rfl

theorem readString_rune (fuel : Nat) (rune : Char) (rest : Bytes) :
    readString (fuel + 1) (escapeRune (some rune) ++ rest) =
      (readString fuel rest).map (prepend (String.utf8EncodeChar rune)) := by
  rw [escapeRune]
  split
  · rename_i letter short
    rw [cons_append, singleton_append,
      readString_escape (shortEscape_spec short rest), Char.ofNat_toNat]
  rename_i notShort
  split
  · rename_i escaped
    rw [unicodeEscape, cons_append, cons_append,
      readString_escape (readEscape_unicode (isEscaped_lt escaped) rest), Char.ofNat_toNat]
  · rename_i notEscaped
    exact readString_plain notShort (Bool.eq_false_iff.mpr notEscaped) rest

theorem readString_runes {chars : List Char} (enough : chars.length < fuel) (rest : Bytes) :
    readString fuel ((chars.map some).flatMap escapeRune ++ quote :: rest) =
      some (utf8 chars, rest) := by
  induction chars generalizing fuel with
  | nil =>
    cases fuel with
    | zero => cases enough
    | succ =>
      rw [map_nil, flatMap_nil, nil_append, readString, if_pos rfl]
      rfl
  | cons rune chars induction =>
    cases fuel with
    | zero => cases enough
    | succ =>
      rw [map_cons, flatMap_cons, append_assoc, readString_rune,
        induction (Nat.lt_of_succ_lt_succ enough)]
      rfl

/-! ## Values -/

end Json

inductive Json
  | null
  | bool (value : Bool)
  | number (text : GoString)
  | string (text : GoString)
  | array (elements : List Json)
  | object (members : List (GoString × Json))

namespace Json

def skipSpace (text : Bytes) : Bytes :=
  text.dropWhile fun byte => byte = 32 || byte = 9 || byte = 10 || byte = 13

def isDigit (byte : UInt8) : Bool := 48 ≤ byte && byte ≤ 57

def skipDigits (text : Bytes) : Option Bytes :=
  if text.head?.any isDigit then some (text.dropWhile isDigit) else none

def skipInteger (text : Bytes) : Option Bytes :=
  let text := if text.head? = some 45 then text.tail else text
  if text.head? = some 48 then some text.tail else skipDigits text

def skipFraction (text : Bytes) : Option Bytes :=
  if text.head? = some 46 then skipDigits text.tail else some text

def skipExponent (text : Bytes) : Option Bytes :=
  if text.head? = some 101 ∨ text.head? = some 69 then
    let text := text.tail
    skipDigits (if text.head? = some 43 ∨ text.head? = some 45 then text.tail else text)
  else some text

def readNumber (text : Bytes) : Option (Json × Bytes) := do
  let rest ← skipInteger text
  let rest ← skipFraction rest
  let rest ← skipExponent rest
  return (.number (text.take (text.length - rest.length)), rest)

def readLiteral (text : Bytes) : Option (Json × Bytes) :=
  if text.take 4 = ascii "null" then some (.null, text.drop 4)
  else if text.take 4 = ascii "true" then some (.bool true, text.drop 4)
  else if text.take 5 = ascii "false" then some (.bool false, text.drop 5)
  else readNumber text

def maxNestingDepth : Nat := 10000

def readName : Bytes → Option (GoString × Bytes)
  | [] => none
  | byte :: rest =>
    if byte = quote then
      match readString (rest.length + 1) rest with
      | none => none
      | some (name, rest) =>
        if (skipSpace rest).head? = some 58 then some (name, (skipSpace rest).tail) else none
    else none

mutual

/-- A value, and what follows it. No byte takes more than two calls, so that twice the length
of the text is fuel enough. -/
def readValue : Nat → Nat → Bytes → Option (Json × Bytes)
  | 0, _, _ => none
  | fuel + 1, depth, text =>
    match skipSpace text with
    | [] => none
    | byte :: rest =>
      if byte = quote then
        (readString (rest.length + 1) rest).map fun (text, rest) => (.string text, rest)
      else if byte = 91 then
        if depth = maxNestingDepth then none
        else if (skipSpace rest).head? = some 93 then some (.array [], (skipSpace rest).tail)
        else (readElements fuel (depth + 1) rest).map fun (elements, rest) =>
          (.array elements, rest)
      else if byte = 123 then
        if depth = maxNestingDepth then none
        else if (skipSpace rest).head? = some 125 then some (.object [], (skipSpace rest).tail)
        else (readMembers fuel (depth + 1) rest).map fun (members, rest) => (.object members, rest)
      else readLiteral (byte :: rest)

def readElements : Nat → Nat → Bytes → Option (List Json × Bytes)
  | 0, _, _ => none
  | fuel + 1, depth, text =>
    match readValue fuel depth text with
    | none => none
    | some (element, rest) =>
      match skipSpace rest with
      | [] => none
      | byte :: rest =>
        if byte = 93 then some ([element], rest)
        else if byte = 44 then
          (readElements fuel depth rest).map fun (elements, rest) => (element :: elements, rest)
        else none

def readMembers : Nat → Nat → Bytes → Option (List (GoString × Json) × Bytes)
  | 0, _, _ => none
  | fuel + 1, depth, text =>
    match readName (skipSpace text) with
    | none => none
    | some (name, rest) =>
      match readValue fuel depth rest with
      | none => none
      | some (value, rest) =>
        match skipSpace rest with
        | [] => none
        | byte :: rest =>
          if byte = 125 then some ([(name, value)], rest)
          else if byte = 44 then
            (readMembers fuel depth rest).map fun (members, rest) =>
              ((name, value) :: members, rest)
          else none

end

def parse (text : Bytes) : Option Json :=
  match readValue (2 * text.length + 1) 0 text with
  | none => none
  | some (value, rest) => if skipSpace rest = [] then some value else none

/-- What names have in common that differ from one in ASCII in nothing but their case. The long
s and the sign for kelvin are variants of ASCII letters. -/
def foldName : GoString → GoString
  | 0xC5 :: 0xBF :: rest => 83 :: foldName rest
  | 0xE2 :: 0x84 :: 0xAA :: rest => 75 :: foldName rest
  | byte :: rest => (if 97 ≤ byte ∧ byte ≤ 122 then byte - 32 else byte) :: foldName rest
  | [] => []

/-- What a field that is a string holds after `json.Unmarshal`: the last string of that name. -/
def stringField (name : GoString) : Json → GoString
  | .object members =>
    members.foldl (fun value member =>
      if foldName member.1 = foldName name then
        match member.2 with
        | .string text => text
        | _ => value
      else value) []
  | _ => []

/-- `json.Unmarshal` into a struct with one field that is a string. A text that is not JSON
changes nothing. -/
def unmarshalString (name : GoString) (text : Bytes) : GoString :=
  match parse text with
  | some value => value.stringField name
  | none => []

/-! ### What is read of a struct with one string -/

def marshalField (name text : GoString) : Bytes :=
  123 :: (marshalString name ++ 58 :: (marshalString text ++ [125]))

theorem escapeRune_ne_nil (rune : Option Char) : escapeRune rune ≠ [] := by
  rw [escapeRune.eq_def]
  split
  · exact cons_ne_nil _ _
  split
  · exact cons_ne_nil _ _
  split
  · exact cons_ne_nil _ _
  rename_i rune _ _ _
  rcases exists_utf8EncodeChar rune with ⟨byte, bytes, encoded, -⟩
  rw [encoded]
  exact cons_ne_nil _ _

theorem length_le_escaped (runes : List (Option Char)) :
    runes.length ≤ (runes.flatMap escapeRune).length := by
  induction runes with
  | nil => exact le_rfl
  | cons rune =>
    have pos := length_pos_iff.mpr (escapeRune_ne_nil rune)
    rw [flatMap_cons, length_cons, length_append]
    omega

theorem marshalString_append (chars : List Char) (rest : Bytes) :
    marshalString (utf8 chars) ++ rest =
      quote :: ((chars.map some).flatMap escapeRune ++ quote :: rest) := by
  rw [marshalString, runes_utf8, singleton_append, cons_append, append_assoc, singleton_append]

theorem readString_marshal (chars : List Char) (rest : Bytes) :
    readString (((chars.map some).flatMap escapeRune ++ quote :: rest).length + 1)
        ((chars.map some).flatMap escapeRune ++ quote :: rest) =
      some (utf8 chars, rest) := by
  apply readString_runes
  have length := length_le_escaped (chars.map some)
  rw [length_map] at length
  rw [length_append]
  omega

theorem readValue_string (fuel depth : Nat) (chars : List Char) (rest : Bytes) :
    readValue (fuel + 1) depth (marshalString (utf8 chars) ++ rest) =
      some (.string (utf8 chars), rest) := by
  have noSpace : ∀ rest, skipSpace (quote :: rest) = quote :: rest := fun _ => rfl
  rw [marshalString_append, readValue, noSpace]
  dsimp only
  rw [if_pos rfl, readString_marshal]
  rfl

theorem parse_marshalString (chars : List Char) :
    parse (marshalString (utf8 chars)) = some (.string (utf8 chars)) := by
  have read := readValue_string (2 * (marshalString (utf8 chars)).length) 0 chars []
  rw [append_nil] at read
  rw [parse, read]
  rfl

/-! ### What is read of a byte slice -/

def isPlain (code : Nat) : Bool := !isEscaped code && (shortEscape code).isNone && code < 128

theorem plain_spec : ∀ code < 128, isPlain code →
    String.utf8EncodeChar (Char.ofNat code) = [UInt8.ofNat code] ∧
      escapeRune (some (Char.ofNat code)) = [UInt8.ofNat code] := by
  decide +kernel

theorem exists_plain_chars (plain : ∀ byte ∈ text, isPlain byte.toNat) :
    ∃ chars, text = utf8 chars ∧ (chars.map some).flatMap escapeRune = text := by
  induction text with
  | nil => exact ⟨[], rfl, rfl⟩
  | cons byte text induction =>
    rcases induction fun other mem => plain other (mem_cons_of_mem _ mem) with
      ⟨chars, same, escaped⟩
    have here := plain byte mem_cons_self
    have small : byte.toNat < 128 := by
      rw [isPlain, Bool.and_eq_true, decide_eq_true_eq] at here
      exact here.2
    have spec := plain_spec byte.toNat small here
    rw [UInt8.ofNat_toNat] at spec
    refine ⟨Char.ofNat byte.toNat :: chars, ?_, ?_⟩
    · rw [utf8, flatMap_cons, spec.1, ← utf8, ← same]
      rfl
    · rw [map_cons, flatMap_cons, spec.2, escaped]
      rfl

theorem base64Digit_plain : ∀ val < 64, isPlain (base64Digit val).toNat := by
  decide +kernel

theorem base64Encode_plain (bytes : Bytes) : ∀ digit ∈ base64Encode bytes, isPlain digit.toNat := by
  have byteBound : ∀ byte : UInt8, byte.toNat < 256 := UInt8.toNat_lt
  have padding : isPlain (61 : UInt8).toNat := by decide
  fun_induction base64Encode bytes with
  | case1 => simp
  | case2 a =>
    have := byteBound a
    simp only [forall_mem_cons]
    exact ⟨base64Digit_plain _ (by omega), base64Digit_plain _ (by omega), padding, padding,
      by simp⟩
  | case3 a b =>
    have := byteBound a
    have := byteBound b
    simp only [forall_mem_cons]
    exact ⟨base64Digit_plain _ (by omega), base64Digit_plain _ (by omega),
      base64Digit_plain _ (by omega), padding, by simp⟩
  | case4 a b c rest induction =>
    have := byteBound a
    have := byteBound b
    have := byteBound c
    simp only [cons_append, nil_append, forall_mem_cons]
    exact ⟨base64Digit_plain _ (by omega), base64Digit_plain _ (by omega),
      base64Digit_plain _ (by omega), base64Digit_plain _ (by omega), induction⟩

theorem parse_marshalBytes (bytes : Bytes) :
    parse (marshalBytes bytes) = some (.string (base64Encode bytes)) := by
  rcases exists_plain_chars (base64Encode_plain bytes) with ⟨chars, same, escaped⟩
  have asString : marshalBytes bytes = marshalString (utf8 chars) := by
    rw [marshalBytes, marshalString, runes_utf8, escaped]
  rw [asString, parse_marshalString, same]

end Json

end Peerscale
