import Mathlib.Tactic
import Peerscale.Foundation.GoValue

/-! # Streams of bytes

A reader hands out its bytes in pieces of any length, and reports an error when there are none
left. A writer takes bytes until it fails.
-/

namespace Peerscale

open List

inductive StreamError
  | eof
  | unexpectedEOF
  | failed (text : GoString)
  deriving DecidableEq

/-- One piece is what a call of `Read` gets whose buffer is large enough. -/
structure Reader where
  pieces : List Bytes
  ending : StreamError

namespace Reader

variable {rd : Reader}

def rest (rd : Reader) : Bytes := rd.pieces.flatten

/-- The loop of `io.ReadAtLeast` with `buf` read so far, and the pieces that it leaves. -/
def fill (ending : StreamError) (want : Nat) :
    Bytes → List Bytes → Except StreamError Bytes × List Bytes
  | buf, [] =>
    if want ≤ buf.length then (.ok buf, [])
    else if buf ≠ [] ∧ ending = .eof then (.error .unexpectedEOF, [])
    else (.error ending, [])
  | buf, piece :: pieces =>
    if want ≤ buf.length then (.ok buf, piece :: pieces)
    else if piece.length ≤ want - buf.length then fill ending want (buf ++ piece) pieces
    else
      -- The buffer is full before the piece is used up.
      (.ok (buf ++ piece.take (want - buf.length)), piece.drop (want - buf.length) :: pieces)

/-- `io.ReadFull` into a buffer of `want` bytes. -/
def readFull (rd : Reader) (want : Nat) : Except StreamError Bytes × Reader :=
  let (result, pieces) := fill rd.ending want [] rd.pieces
  (result, { rd with pieces := pieces })

theorem fill_of_le (ending : StreamError) (buf : Bytes) {pieces : List Bytes}
    (room : buf.length ≤ want) (enough : want ≤ buf.length + pieces.flatten.length) :
    ∃ left, fill ending want buf pieces =
        (.ok (buf ++ pieces.flatten.take (want - buf.length)), left) ∧
      left.flatten = pieces.flatten.drop (want - buf.length) := by
  induction pieces generalizing buf with
  | nil =>
    have full : want ≤ buf.length := enough
    exact ⟨[], by simp [fill, full], by simp⟩
  | cons piece pieces ih =>
    rw [flatten_cons, length_append] at enough
    rw [fill]
    split
    · rename_i full
      have none : want - buf.length = 0 := by omega
      exact ⟨piece :: pieces, by rw [none, take_zero, append_nil], by rw [none, drop_zero]⟩
    split
    · rename_i short
      have all := ih (buf ++ piece) (by rw [length_append]; omega) (by rw [length_append]; omega)
      rcases all with ⟨left, filled, rest⟩
      have split : want - buf.length = piece.length + (want - (buf ++ piece).length) := by
        rw [length_append]
        omega
      refine ⟨left, ?_, ?_⟩
      · rw [filled, flatten_cons, split, take_length_add_append, append_assoc]
      · rw [rest, flatten_cons, split, drop_length_add_append]
    rename_i long
    refine ⟨piece.drop (want - buf.length) :: pieces, ?_, ?_⟩
    · rw [flatten_cons, take_append_of_le_length (by omega)]
    · rw [flatten_cons, flatten_cons, drop_append_of_le_length (by omega)]

theorem fill_of_lt (ending : StreamError) (buf : Bytes) {pieces : List Bytes}
    (short : buf.length + pieces.flatten.length < want) :
    ∃ err, fill ending want buf pieces = (.error err, []) := by
  induction pieces generalizing buf with
  | nil =>
    have missing : ¬want ≤ buf.length := Nat.not_le.mpr short
    rw [fill, if_neg missing]
    split <;> exact ⟨_, rfl⟩
  | cons piece pieces ih =>
    rw [flatten_cons, length_append] at short
    rw [fill, if_neg (by omega), if_pos (by omega)]
    exact ih (buf ++ piece) (by rw [length_append]; omega)

/-- However the bytes are split, `io.ReadFull` gets as many as it wants, and leaves the others. -/
theorem readFull_of_le (enough : want ≤ rd.rest.length) :
    ∃ left, rd.readFull want = (.ok (rd.rest.take want), left) ∧
      left.rest = rd.rest.drop want ∧ left.ending = rd.ending := by
  rcases fill_of_le rd.ending [] (Nat.zero_le want)
    (enough.trans_eq (Nat.zero_add _).symm) with ⟨left, filled, rest⟩
  exact ⟨⟨left, rd.ending⟩, by rw [readFull, filled]; rfl, rest, rfl⟩

theorem readFull_of_lt (short : rd.rest.length < want) :
    ∃ err, rd.readFull want = (.error err, ⟨[], rd.ending⟩) := by
  rcases fill_of_lt rd.ending [] ((Nat.zero_add _).trans_lt short) with ⟨err, filled⟩
  exact ⟨err, by rw [readFull, filled]⟩

theorem readFull_append (rest : rd.rest = x ++ y) :
    ∃ left, rd.readFull x.length = (.ok x, left) ∧ left.rest = y ∧ left.ending = rd.ending := by
  have enough : x.length ≤ rd.rest.length := by
    rw [rest, length_append]
    exact Nat.le_add_right _ _
  rcases readFull_of_le enough with ⟨left, read, post, ending⟩
  rw [rest, take_left] at read
  rw [rest, drop_left] at post
  exact ⟨left, read, post, ending⟩

end Reader

/-- `room` is how many bytes are taken before a `Write` fails. -/
structure Writer where
  written : Bytes
  room : Nat

namespace Writer

def write (writer : Writer) (data : Bytes) : Bool × Writer :=
  (data.length ≤ writer.room, ⟨writer.written ++ data.take writer.room, writer.room - data.length⟩)

def writeAll (writer : Writer) : List (α × Bytes) → Option α × Writer
  | [] => (none, writer)
  | (name, data) :: writes =>
    match writer.write data with
    | (false, writer) => (some name, writer)
    | (true, writer) => writer.writeAll writes

def payload (writes : List (α × Bytes)) : Bytes := writes.flatMap Prod.snd

theorem written_writeAll (wr : Writer) (writes : List (α × Bytes)) :
    (wr.writeAll writes).2.written = wr.written ++ (payload writes).take wr.room := by
  induction writes generalizing wr with
  | nil => rw [writeAll, payload, flatMap_nil, take_nil, append_nil]
  | cons write writes ih =>
    rcases write with ⟨name, data⟩
    rw [payload, flatMap_cons, ← payload, writeAll, Writer.write]
    by_cases fits : data.length ≤ wr.room
    · rw [decide_eq_true fits, ih, take_append, append_assoc]
    · have none : wr.room - data.length = 0 := by omega
      rw [decide_eq_false fits, take_append, none, take_zero, append_nil]

theorem writeAll_eq_none_iff (wr : Writer) (writes : List (α × Bytes)) :
    (wr.writeAll writes).1 = none ↔ (payload writes).length ≤ wr.room := by
  induction writes generalizing wr with
  | nil => exact iff_of_true rfl (Nat.zero_le _)
  | cons write writes ih =>
    rcases write with ⟨name, data⟩
    rw [payload, flatMap_cons, ← payload, writeAll, Writer.write, length_append]
    by_cases fits : data.length ≤ wr.room
    · rw [decide_eq_true fits, ih]
      dsimp only
      omega
    rw [decide_eq_false fits]
    dsimp only
    exact iff_of_false (Option.some_ne_none _) (by omega)

end Writer

end Peerscale
