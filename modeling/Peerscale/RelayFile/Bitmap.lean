import Peerscale.Foundation.GoValue
import Mathlib.Data.List.GetD

/-! # The receiver's chunk bitmap

Sixty-four chunk indices to a word. The functions take the index as the signed
value that came off the wire, so they panic where the source does.
-/

namespace Peerscale.RelayFile

open List

abbrev Bitmap := List (BitVec 64)

/-- The mask `1 << uint(seq%64)`. The remainder of a negative index converts to
a huge shift count, which leaves no bit set. -/
def bitmapMask (seq : Int) : BitVec 64 := 1#64 <<< toUint64 (seq.tmod 64)

def bitmapHas (bitmap : Bitmap) (seq : Int) : Except GoPanic Bool :=
  let index := seq.tdiv 64
  if (bitmap.length : Int) ≤ index then .ok false
  else if index < 0 then .error (.indexOutOfRange index)
  else .ok (bitmap.getD index.toNat 0 &&& bitmapMask seq != 0)

def bitmapSet (bitmap : Bitmap) (seq : Int) : Except GoPanic Bitmap :=
  let index := seq.tdiv 64
  if (bitmap.length : Int) ≤ index then .ok bitmap
  else if index < 0 then .error (.indexOutOfRange index)
  else .ok (bitmap.modify index.toNat fun word => word ||| bitmapMask seq)

def bitmapMaxContinuousFrom (bitmap : Bitmap) : (remaining : Nat) → (seq : Int) → Except GoPanic Int
  | 0, seq => .ok seq
  | remaining + 1, seq => do
      if ← bitmapHas bitmap seq then bitmapMaxContinuousFrom bitmap remaining (seq + 1)
      else return seq

def bitmapMaxContinuous (bitmap : Bitmap) (limit : Int) : Except GoPanic Int :=
  if limit ≤ 0 then .ok limit else bitmapMaxContinuousFrom bitmap limit.toNat 0

def bitmapSetBelow (bitmap : Bitmap) : (count : Nat) → Except GoPanic Bitmap
  | 0 => .ok bitmap
  | count + 1 => do bitmapSet (← bitmapSetBelow bitmap count) count

/-- `runtime.maxAlloc` on 64-bit Linux. -/
def maxAlloc : Int := 2 ^ 48

def makeBitmap (length : Int) : Except GoPanic Bitmap :=
  if length < 0 ∨ maxAlloc < 8 * length then .error (.makeSliceLen length)
  else .ok (List.replicate length.toNat 0)

/-- The bitmap of a transfer of `totalChunks` chunks; the zero value is the nil
slice. -/
def newBitmap (totalChunks : Int) : Except GoPanic Bitmap :=
  if 0 < totalChunks then makeBitmap ((wrap64 (totalChunks + 63)).tdiv 64) else .ok []

def Bitmap.mem (bitmap : Bitmap) (seq : Nat) : Bool :=
  (bitmap.getD (seq / 64) 0).getLsbD (seq % 64)

theorem bitmapMask_natCast (seq : Nat) : bitmapMask seq = 1#64 <<< (seq % 64) := by
  have remainder : (seq : Int).tmod 64 = ((seq % 64 : Nat) : Int) := by
    rw [Int.tmod_eq_emod_of_nonneg (by omega)]
    omega
  rw [bitmapMask, remainder, toUint64_natCast (by omega)]

theorem and_bitmapMask_ne_zero (word : BitVec 64) (seq : Nat) :
    (word &&& bitmapMask seq != 0) = word.getLsbD (seq % 64) := by
  have bound : seq % 64 < 64 := Nat.mod_lt _ (by decide)
  rw [bitmapMask_natCast]
  cases bit : word.getLsbD (seq % 64) with
  | true =>
    simp only [bne_iff_ne, ne_eq]
    intro zero
    have bits := congrArg (fun val : BitVec 64 => val.getLsbD (seq % 64)) zero
    rw [BitVec.getLsbD_and, bit] at bits
    simp [bound] at bits
  | false =>
    simp only [bne_eq_false_iff_eq]
    apply BitVec.eq_of_getLsbD_eq
    intro index indexBound
    by_cases equal : index = seq % 64
    · simp [equal, bit]
    by_cases below : index < seq % 64
    · simp [below]
    · have pos : index - seq % 64 ≠ 0 := by omega
      simp [below, pos]

theorem tdiv_natCast (seq : Nat) : (seq : Int).tdiv 64 = ((seq / 64 : Nat) : Int) := by
  rw [Int.tdiv_eq_ediv_of_nonneg (by omega)]
  omega

theorem tdiv_nonneg_iff (seq : Int) : 0 ≤ seq.tdiv 64 ↔ -64 < seq := by
  by_cases nonnegative : 0 ≤ seq
  · rw [Int.tdiv_eq_ediv_of_nonneg nonnegative]
    omega
  · rw [show seq = -(-seq) by omega, Int.neg_tdiv, Int.tdiv_eq_ediv_of_nonneg (by omega)]
    omega

theorem bitmapHas_eq_ok_iff (bitmap : Bitmap) (seq : Int) :
    (∃ marked, bitmapHas bitmap seq = .ok marked) ↔ -64 < seq := by
  have word := tdiv_nonneg_iff seq
  unfold bitmapHas
  dsimp only
  split
  · simp
    omega
  split
  · simp
    omega
  · simp
    omega

theorem bitmapSet_eq_ok {bitmap : Bitmap} {seq : Int} (inRange : -64 < seq) :
    ∃ updated, bitmapSet bitmap seq = .ok updated := by
  have word := (tdiv_nonneg_iff seq).mpr inRange
  unfold bitmapSet
  dsimp only
  split
  · exact ⟨_, rfl⟩
  · rw [if_neg (by omega)]
    exact ⟨_, rfl⟩

theorem bitmapHas_natCast (bitmap : Bitmap) (seq : Nat) :
    bitmapHas bitmap seq = .ok (bitmap.mem seq) := by
  unfold bitmapHas Bitmap.mem
  rw [tdiv_natCast]
  by_cases beyond : bitmap.length ≤ seq / 64
  · rw [if_pos (by omega), getD_eq_default _ _ beyond]
    simp
  · rw [if_neg (by omega), if_neg (by omega), Int.toNat_natCast, and_bitmapMask_ne_zero]

theorem bitmapSet_natCast (bitmap : Bitmap) (seq : Nat) :
    bitmapSet bitmap seq =
      .ok (bitmap.modify (seq / 64) fun word => word ||| 1#64 <<< (seq % 64)) := by
  unfold bitmapSet
  rw [tdiv_natCast]
  by_cases beyond : bitmap.length ≤ seq / 64
  · rw [if_pos (by omega), modify_eq_self beyond]
  · rw [if_neg (by omega), if_neg (by omega), Int.toNat_natCast, bitmapMask_natCast]

theorem mem_modify {bitmap : Bitmap} (room : seq / 64 < bitmap.length) (other : Nat) :
    Bitmap.mem (bitmap.modify (seq / 64) fun word => word ||| 1#64 <<< (seq % 64)) other =
      (decide (other = seq) || bitmap.mem other) := by
  have otherBound : other % 64 < 64 := Nat.mod_lt _ (by decide)
  unfold Bitmap.mem
  by_cases sameWord : seq / 64 = other / 64
  · rw [← sameWord, getD_eq_getElem _ _ (by simpa using room),
      getD_eq_getElem _ _ room, getElem_modify_eq, BitVec.getLsbD_or,
      BitVec.getLsbD_shiftLeft]
    by_cases equal : other = seq
    · have seqBound : seq % 64 < 64 := Nat.mod_lt _ (by decide)
      simp [equal, seqBound]
    have differs : other % 64 ≠ seq % 64 := by omega
    by_cases below : other % 64 < seq % 64
    · simp [equal, below]
    · have pos : other % 64 - seq % 64 ≠ 0 := by omega
      simp [equal, pos]
  have differs : other ≠ seq := fun equal => sameWord (by rw [equal])
  rw [getD_eq_getElem?_getD, getD_eq_getElem?_getD, getElem?_modify_ne _ _ sameWord]
  simp [differs]

theorem mem_replicate_zero (words seq : Nat) : Bitmap.mem (replicate words 0) seq = false := by
  unfold Bitmap.mem
  by_cases within : seq / 64 < words
  · rw [getD_replicate _ within]
    simp
  · rw [getD_eq_default _ _ (by simpa using within)]
    simp

/-- `run` is the length of the unbroken run of marked indices below `limit`. -/
structure Bitmap.IsContinuous (bitmap : Bitmap) (limit run : Nat) : Prop where
  within : run ≤ limit
  marked : ∀ seq, seq < run → bitmap.mem seq
  stopped : run < limit → bitmap.mem run = false

theorem bitmapMaxContinuousFrom_natCast (bitmap : Bitmap) (remaining seq : Nat) :
    ∃ run : Nat, bitmapMaxContinuousFrom bitmap remaining seq = .ok (run : Int) ∧
      seq ≤ run ∧ run ≤ seq + remaining ∧
      (∀ index, seq ≤ index → index < run → bitmap.mem index) ∧
      (run < seq + remaining → bitmap.mem run = false) := by
  induction remaining generalizing seq with
  | zero => exact ⟨seq, rfl, by omega, by omega, by omega, by omega⟩
  | succ remaining ih =>
    rw [bitmapMaxContinuousFrom, bitmapHas_natCast]
    cases marked : bitmap.mem seq with
    | false => exact ⟨seq, rfl, by omega, by omega, by omega, fun _ => marked⟩
    | true =>
      rcases ih (seq + 1) with ⟨run, ran, lower, upper, below, stopped⟩
      refine ⟨run, by exact_mod_cast ran, by omega, by omega, ?_, ?_⟩
      · intro index fromSeq beforeRun
        by_cases equal : index = seq
        · rw [equal, marked]
        · exact below index (by omega) beforeRun
      · intro short
        exact stopped (by omega)

theorem exists_isContinuous (bitmap : Bitmap) (limit : Nat) :
    ∃ run, bitmap.IsContinuous limit run ∧ bitmapMaxContinuous bitmap limit = .ok (run : Int) := by
  by_cases zero : limit = 0
  · exact ⟨0, ⟨by omega, by omega, by omega⟩, by simp [bitmapMaxContinuous, zero]⟩
  rcases bitmapMaxContinuousFrom_natCast bitmap limit 0 with ⟨run, ran, -, upper, below, stopped⟩
  refine ⟨run, ⟨by omega, fun seq => below seq (by omega), fun short => stopped (by omega)⟩, ?_⟩
  rw [bitmapMaxContinuous, if_neg (by omega), Int.toNat_natCast]
  exact ran

theorem Bitmap.IsContinuous.unique (leftRun : IsContinuous bitmap limit left)
    (rightRun : bitmap.IsContinuous limit right) : left = right := by
  rcases Nat.lt_trichotomy left right with less | equal | greater
  · have stopped := leftRun.stopped (Nat.lt_of_lt_of_le less rightRun.within)
    rw [rightRun.marked left less] at stopped
    cases stopped
  · exact equal
  have stopped := rightRun.stopped (Nat.lt_of_lt_of_le greater leftRun.within)
  rw [leftRun.marked right greater] at stopped
  cases stopped

theorem Bitmap.IsContinuous.eq (continuous : IsContinuous bitmap limit run) :
    bitmapMaxContinuous bitmap limit = .ok (run : Int) := by
  rcases exists_isContinuous bitmap limit with ⟨found, foundContinuous, comp⟩
  rw [comp, foundContinuous.unique continuous]

theorem bitmapMaxContinuous_total (bitmap : Bitmap) (limit : Int) :
    ∃ run, bitmapMaxContinuous bitmap limit = .ok run := by
  by_cases nonnegative : 0 ≤ limit
  · rcases exists_isContinuous bitmap limit.toNat with ⟨run, -, comp⟩
    rw [Int.toNat_of_nonneg nonnegative] at comp
    exact ⟨run, comp⟩
  · exact ⟨limit, by simp [bitmapMaxContinuous, show limit ≤ 0 by omega]⟩

theorem bitmapSetBelow_spec (bitmap : Bitmap) (n : Nat) :
    ∃ marked : Bitmap, bitmapSetBelow bitmap n = .ok marked ∧ marked.length = bitmap.length ∧
      (n ≤ 64 * bitmap.length → ∀ seq, marked.mem seq = (decide (seq < n) || bitmap.mem seq)) := by
  induction n with
  | zero => exact ⟨bitmap, rfl, rfl, by simp⟩
  | succ n ih =>
    rcases ih with ⟨marked, comp, length, contents⟩
    refine ⟨_, by rw [bitmapSetBelow, comp]; exact bitmapSet_natCast marked n,
      by simpa using length, ?_⟩
    intro room seq
    rw [mem_modify (by omega), contents (by omega)]
    by_cases equal : seq = n
    · simp [equal]
    have same : (seq < n + 1) = (seq < n) := by
      apply propext
      omega
    simp [equal, same]

theorem newBitmap_eq_ok_iff (representable : totalChunks < 2 ^ 63) :
    (∃ bitmap, newBitmap totalChunks = .ok bitmap) ↔ totalChunks ≤ 2 ^ 51 := by
  unfold newBitmap
  by_cases pos : 0 < totalChunks
  · rw [if_pos pos, makeBitmap]
    by_cases overflows : 2 ^ 63 ≤ totalChunks + 63
    · have wrapped : wrap64 (totalChunks + 63) = totalChunks + 63 - 2 ^ 64 := by
        unfold wrap64 Int.bmod
        rw [if_neg (by omega)]
        omega
      have negative : (totalChunks + 63 - 2 ^ 64).tdiv 64 < 0 := by
        rw [show totalChunks + 63 - 2 ^ 64 = -(2 ^ 64 - 63 - totalChunks) by omega,
          Int.neg_tdiv, Int.tdiv_eq_ediv_of_nonneg (by omega)]
        omega
      rw [wrapped, if_pos (.inl negative)]
      simp
      omega
    rw [wrap64_of_mem (by omega) (by omega), Int.tdiv_eq_ediv_of_nonneg (by omega)]
    by_cases large : 2 ^ 51 < totalChunks
    · rw [if_pos (.inr (by unfold maxAlloc; omega))]
      simp
      omega
    rw [if_neg (by unfold maxAlloc; omega)]
    simp
    omega
  rw [if_neg pos]
  simp
  omega

theorem newBitmap_natCast {totalChunks : Nat} (small : totalChunks ≤ 2 ^ 51) :
    newBitmap totalChunks = .ok (replicate ((totalChunks + 63) / 64) 0) := by
  unfold newBitmap
  by_cases pos : 0 < totalChunks
  · have words : (totalChunks + 63 : Int) / 64 = ((totalChunks + 63) / 64 : Nat) := by omega
    rw [if_pos (by omega), wrap64_of_mem (by omega) (by omega),
      Int.tdiv_eq_ediv_of_nonneg (by omega), words, makeBitmap,
      if_neg (by unfold maxAlloc; omega), Int.toNat_natCast]
  · have zero : totalChunks = 0 := by omega
    simp [zero]

end Peerscale.RelayFile
