import Peerscale.Foundation.NetText

/-! # Reading IPv4 addresses

`netip.ParseAddr` for addresses with dots. What is accepted is exactly what `ipv4Text` writes:
four numbers below 256, without leading zeros.
-/

namespace Peerscale

def isDigit (byte : UInt8) : Bool := 48 ≤ byte && byte ≤ 57

/-- The loop of `parseIPv4Fields`: the numbers that have been read, the value of the current
one, and how many digits it has. -/
def parseFields (fields : List Nat) (val digLen : Nat) : GoString → Option (List Nat)
  | [] => if fields.length < 3 then none else some (fields ++ [val])
  | byte :: rest =>
    if isDigit byte then
      if digLen = 1 ∧ val = 0 then none
      else
        let val := val * 10 + (byte.toNat - 48)
        if val > 255 then none else parseFields fields val (digLen + 1) rest
    else if byte = dot then
      -- A dot is neither the first nor the last byte, and does not follow another one.
      if digLen = 0 ∨ rest = [] then none
      else if fields.length = 3 then none
      else parseFields (fields ++ [val]) 0 0 rest
    else none

def parseIPv4 (text : GoString) : Option Bytes :=
  (parseFields [] 0 0 text).map fun fields => fields.map UInt8.ofNat

example : parseIPv4 (ascii "10.0.0.255") = some [10, 0, 0, 255] := by decide +kernel

variable {value : Nat}

theorem itoa_of_lt (small : digit < 10) : itoa digit = [hexDigit digit] := by
  by_cases zero : digit = 0
  · rw [zero]
    rfl
  · simp [itoa, formatInt, zero, Nat.digits_of_lt 10 digit zero small]

theorem itoa_append (pos : value ≠ 0) (small : digit < 10) :
    itoa (value * 10 + digit) = itoa value ++ [hexDigit digit] := by
  have digits : Nat.digits 10 (digit + 10 * value) = digit :: Nat.digits 10 value :=
    Nat.digits_add 10 (by decide) digit value small (.inr pos)
  have same : value * 10 + digit = digit + 10 * value := by omega
  simp [itoa, formatInt, same, digits, pos]

theorem itoa_ne_nil (value : Nat) : itoa value ≠ [] := by
  rw [itoa, formatInt]
  split
  · exact List.cons_ne_nil _ _
  · rename_i pos
    simpa [Nat.digits_eq_nil_iff_eq_zero] using pos

theorem isDigit_hexDigit : ∀ digit < 10, isDigit (hexDigit digit) ∧
    (hexDigit digit).toNat - 48 = digit := by
  decide

theorem eq_hexDigit (digit : isDigit byte) :
    byte.toNat - 48 < 10 ∧ byte = hexDigit (byte.toNat - 48) := by
  have all : ∀ value : Fin 256, isDigit (UInt8.ofNat value) → (UInt8.ofNat value).toNat - 48 < 10 ∧
        UInt8.ofNat value = hexDigit ((UInt8.ofNat value).toNat - 48) := by
    decide +kernel
  have this := all ⟨byte.toNat, byte.toNat_lt⟩
  rw [UInt8.ofNat_toNat] at this
  exact this digit

theorem isDigit_of_mem_itoa (mem : byte ∈ itoa value) : isDigit byte := by
  obtain ⟨digit, small, rfl⟩ := mem_formatInt (by decide) mem
  exact (isDigit_hexDigit digit small).1

theorem count_dot_itoa (value : Nat) : (itoa value).count dot = 0 := by
  rw [List.count_eq_zero]
  intro mem
  exact absurd (isDigit_of_mem_itoa mem) (by decide)

def fieldsText (fields : List Nat) : GoString := List.intercalate [dot] (fields.map itoa)

variable {fields : List Nat}

theorem ipv4Text_eq (bytes : Bytes) : ipv4Text bytes = fieldsText (bytes.map UInt8.toNat) := by
  rw [ipv4Text, fieldsText, List.map_map]
  rfl

theorem fieldsText_singleton (value : Nat) : fieldsText [value] = itoa value := by
  rw [fieldsText, List.map_singleton, List.intercalate_singleton]

theorem fieldsText_cons (some : more ≠ []) (value : Nat) :
    fieldsText (value :: more) = itoa value ++ dot :: fieldsText more := by
  obtain ⟨next, more, rfl⟩ := List.exists_cons_of_ne_nil some
  rw [fieldsText, fieldsText, List.map_cons, List.map_cons, List.intercalate_cons_cons,
    List.append_assoc, List.singleton_append]

theorem fieldsText_ne_nil (some : fields ≠ []) : fieldsText fields ≠ [] := by
  obtain ⟨value, more, rfl⟩ := List.exists_cons_of_ne_nil some
  by_cases last : more = []
  · rw [last, fieldsText_singleton]
    exact itoa_ne_nil value
  · rw [fieldsText_cons last]
    simp

theorem mem_fieldsText (mem : byte ∈ fieldsText fields) : byte = dot ∨ isDigit byte := by
  induction fields with
  | nil => cases mem
  | cons value more induction =>
    by_cases last : more = []
    · rw [last, fieldsText_singleton] at mem
      exact .inr (isDigit_of_mem_itoa mem)
    rw [fieldsText_cons last, List.mem_append, List.mem_cons] at mem
    rcases mem with digit | isDot | later
    · exact .inr (isDigit_of_mem_itoa digit)
    · exact .inl isDot
    · exact induction later

theorem count_dot_fieldsText (length : fields.length = dots + 1) :
    (fieldsText fields).count dot = dots := by
  induction fields generalizing dots with
  | nil => cases length
  | cons value more induction =>
    cases dots with
    | zero =>
      have last : more = [] := List.length_eq_zero_iff.mp (Nat.succ.inj length)
      rw [last, fieldsText_singleton, count_dot_itoa]
    | succ =>
      have rest := Nat.succ.inj length
      rw [fieldsText_cons (List.ne_nil_of_length_eq_add_one rest), List.count_append,
        count_dot_itoa, List.count_cons_self, induction rest, Nat.zero_add]

theorem mem_ipv4Text (mem : byte ∈ ipv4Text bytes) : byte = dot ∨ isDigit byte := by
  rw [ipv4Text_eq] at mem
  exact mem_fieldsText mem

theorem count_dot_ipv4Text (length : bytes.length = dots + 1) :
    (ipv4Text bytes).count dot = dots := by
  rw [ipv4Text_eq]
  exact count_dot_fieldsText (by rw [List.length_map, length])

theorem parseFields_itoa (fields : List Nat) (small : value < 256) (rest : GoString) :
    parseFields fields 0 0 (itoa value ++ rest) =
      parseFields fields value (itoa value).length rest := by
  induction value using Nat.strongRecOn generalizing rest with
  | ind value induction =>
    by_cases short : value < 10
    · have digit := isDigit_hexDigit value short
      have notLarge : ¬value > 255 := by omega
      simp [itoa_of_lt short, parseFields, digit, notLarge]
    have digit := isDigit_hexDigit (value % 10) (by omega)
    have parts : value / 10 * 10 + value % 10 = value := by omega
    have text : itoa value = itoa (value / 10) ++ [hexDigit (value % 10)] := by
      rw [← itoa_append (by omega) (by omega), parts]
    have notZero : value / 10 ≠ 0 := by omega
    have notLarge : ¬value > 255 := by omega
    rw [text, List.append_assoc, induction (value / 10) (by omega) (by omega),
      List.singleton_append, parseFields]
    simp only [digit, if_true, notZero, and_false, if_false, parts, notLarge,
      List.length_append, List.length_singleton]

theorem parseFields_fieldsText {more : List Nat} (four : fields.length + more.length = 4)
    (some : more ≠ []) (small : ∀ value ∈ more, value < 256) :
    parseFields fields 0 0 (fieldsText more) = Option.some (fields ++ more) := by
  induction more generalizing fields with
  | nil => exact absurd rfl some
  | cons value more induction =>
    have isSmall := small value List.mem_cons_self
    rw [List.length_cons] at four
    by_cases last : more = []
    · have three : ¬fields.length < 3 := by
        rw [last, List.length_nil] at four
        omega
      have read := parseFields_itoa fields isSmall []
      rw [List.append_nil] at read
      rw [last, fieldsText_singleton, read, parseFields, if_neg three]
    have length := List.length_pos_of_ne_nil last
    have rest := @induction (fields ++ [value])
      (by rw [List.length_append, List.length_singleton]; omega) last
      fun other mem => small other (List.mem_cons_of_mem _ mem)
    have notThree : fields.length ≠ 3 := by omega
    have digits : (itoa value).length ≠ 0 := by simpa using itoa_ne_nil value
    have notDigit : isDigit dot = false := by decide
    rw [fieldsText_cons last, parseFields_itoa fields isSmall, parseFields]
    simp only [notDigit, Bool.false_eq_true, if_false, if_true, digits,
      fieldsText_ne_nil last, or_self, notThree, rest, List.append_assoc,
      List.singleton_append]

inductive Reading : Nat → Nat → GoString → Prop
  | start : Reading 0 0 []
  | digits {val digLen : Nat} (some : digLen ≠ 0) (single : val = 0 → digLen = 1) :
      Reading val digLen (itoa val)

theorem Reading.digit {digit : Nat} (reading : Reading val digLen cur)
    (notZero : ¬(digLen = 1 ∧ val = 0)) (small : digit < 10) :
    Reading (val * 10 + digit) (digLen + 1) (cur ++ [hexDigit digit]) := by
  cases reading with
  | start =>
    rw [Nat.zero_mul, Nat.zero_add, List.nil_append, ← itoa_of_lt small]
    exact .digits (by omega) fun _ => rfl
  | digits some single =>
    have pos : val ≠ 0 := fun zero => notZero ⟨single zero, zero⟩
    rw [← itoa_append pos small]
    exact .digits (by omega) fun zero => by omega

theorem Reading.eq_itoa (reading : Reading val digLen cur) (some : digLen ≠ 0) :
    cur = itoa val := by
  cases reading with
  | start => exact absurd rfl some
  | digits => rfl

def Completes (fields all : List Nat) (text : GoString) : Prop :=
  ∃ more, all = fields ++ more ∧ fields.length + more.length = 4 ∧
    (∀ value ∈ more, value < 256) ∧ text = fieldsText more

theorem completes_singleton (three : fields.length = 3) (small : val < 256) :
    Completes fields (fields ++ [val]) (itoa val) := by
  refine ⟨[val], rfl, ?_, ?_, (fieldsText_singleton val).symm⟩
  · rw [three, List.length_singleton]
  intro value mem
  rw [List.mem_singleton.mp mem]
  exact small

theorem Completes.cons (completes : Completes (fields ++ [val]) all text) (small : val < 256)
    (few : fields.length < 3) : Completes fields all (itoa val ++ dot :: text) := by
  obtain ⟨more, isAll, four, smaller, rfl⟩ := completes
  rw [List.length_append, List.length_singleton] at four
  refine ⟨val :: more, ?_, ?_, ?_, ?_⟩
  · rw [isAll, List.append_assoc, List.singleton_append]
  · rw [List.length_cons]
    omega
  · simpa using ⟨small, smaller⟩
  · exact (fieldsText_cons (List.ne_nil_of_length_pos (by omega)) val).symm

/-- What the loop accepts: `current` are the digits that it has already passed. -/
theorem parseFields_sound (reading : Reading val digLen cur) (small : val < 256)
    (few : fields.length ≤ 3) (begun : digLen = 0 → text = [] → fields = [])
    (accepted : parseFields fields val digLen text = some all) :
    Completes fields all (cur ++ text) := by
  induction text generalizing fields val digLen cur with
  | nil =>
    rw [parseFields] at accepted
    split at accepted
    · cases accepted
    rename_i enough
    have some : digLen ≠ 0 := by
      intro zero
      simp [begun zero rfl] at enough
    rw [List.append_nil, reading.eq_itoa some, ← Option.some.inj accepted]
    exact completes_singleton (by omega) small
  | cons byte rest induction =>
    rw [parseFields] at accepted
    split at accepted
    · rename_i isDigit
      obtain ⟨digitSmall, isByte⟩ := eq_hexDigit isDigit
      split at accepted
      · cases accepted
      rename_i notZero
      dsimp only at accepted
      split at accepted
      · cases accepted
      have completes := induction (reading.digit notZero digitSmall) (by omega) few nofun accepted
      rw [← isByte, List.append_assoc, List.singleton_append] at completes
      exact completes
    split at accepted
    · rename_i isDot
      split at accepted
      · cases accepted
      rename_i between
      rw [not_or] at between
      split at accepted
      · cases accepted
      have completes := induction .start (by decide) (by simp; omega)
        (fun _ empty => absurd empty between.2) accepted
      rw [reading.eq_itoa between.1, isDot]
      exact completes.cons small (by omega)
    · cases accepted

/-- The texts that are accepted are those of four bytes. -/
theorem parseIPv4_eq_some_iff :
    parseIPv4 text = some bytes ↔ bytes.length = 4 ∧ text = ipv4Text bytes := by
  rw [parseIPv4, Option.map_eq_some_iff, ipv4Text_eq]
  constructor
  · rintro ⟨all, accepted, rfl⟩
    obtain ⟨more, isAll, four, small, isText⟩ :=
      parseFields_sound .start (by decide) (by decide) (fun _ _ => rfl) accepted
    rw [List.nil_append] at isAll isText
    subst isAll
    have same : (all.map UInt8.ofNat).map UInt8.toNat = all := by
      rw [List.map_map]
      refine (List.map_congr_left ?_).trans (List.map_id all)
      intro value mem
      exact UInt8.toNat_ofNat_of_lt' (small value mem)
    exact ⟨by simpa using four, by rw [same, isText]⟩
  rintro ⟨four, rfl⟩
  refine ⟨bytes.map UInt8.toNat, ?_, ?_⟩
  · apply @parseFields_fieldsText []
    · simpa using four
    · simpa using List.ne_nil_of_length_eq_add_one four
    · simpa using fun byte _ => byte.toNat_lt
  · rw [List.map_map]
    exact List.map_id'' (fun byte => UInt8.ofNat_toNat) bytes

end Peerscale
