import Peerscale.Foundation.ByteStream
import Peerscale.Pbtunnel.Datagrams

/-! # Frames of datagrams

`p2pUdpConn` and `handleUDPTunnel` write datagrams to a stream after their lengths, which are
taken modulo 65536, and read them again. The handler does not write empty ones. `Read` looks
at the capacity of the buffer, and not at its length.
-/

namespace Peerscale.Pbtunnel

def readFrame (reader : Reader) : Except StreamError Bytes × Reader :=
  match reader.readFull 2 with
  | (.error err, left) => (.error err, left)
  | (.ok header, left) => left.readFull (ofBigEndian header)

def Next (bytes data rest : Bytes) : Prop :=
  ∃ header : Bytes, header.length = 2 ∧ ofBigEndian header = data.length ∧
    bytes = header ++ (data ++ rest)

theorem readFrame_of_next {rd : Reader} (next : Next rd.rest data rest) :
    ∃ left, readFrame rd = (.ok data, left) ∧ left.rest = rest := by
  rcases next with ⟨header, two, length, bytes⟩
  rcases Reader.readFull_append bytes with ⟨mid, x, post, -⟩
  rcases Reader.readFull_append post with ⟨left, y, last, -⟩
  refine ⟨left, ?_, last⟩
  rw [readFrame, ← two, x]
  dsimp only
  rw [length, y]

theorem next_of_readFrame {rd : Reader} (read : readFrame rd = (.ok data, left)) :
    Next rd.rest data left.rest := by
  by_cases long : 2 ≤ rd.rest.length
  · rcases Reader.readFull_of_le long with ⟨mid, x, post, -⟩
    rw [readFrame, x] at read
    dsimp only at read
    by_cases enough : ofBigEndian (rd.rest.take 2) ≤ mid.rest.length
    · rcases Reader.readFull_of_le enough with ⟨last, y, rest, -⟩
      rw [y] at read
      cases read
      refine ⟨rd.rest.take 2, List.length_take_of_le long, ?_, ?_⟩
      · rw [List.length_take_of_le enough]
      · rw [rest, List.take_append_drop, post, List.take_append_drop]
    rcases Reader.readFull_of_lt (Nat.lt_of_not_le enough) with ⟨err, y⟩
    rw [y] at read
    cases read
  rcases Reader.readFull_of_lt (Nat.lt_of_not_le long) with ⟨err, x⟩
  rw [readFrame, x] at read
  cases read

theorem Next.small (next : Next bytes data rest) : data.length ≤ 65535 := by
  rcases next with ⟨header, two, length, -⟩
  rcases List.length_eq_two.mp two with ⟨high, low, rfl⟩
  have val : ofBigEndian [high, low] = high.toNat * 256 + low.toNat := by simp [ofBigEndian]
  have highBound := high.toNat_lt
  have lowBound := low.toNat_lt
  omega

theorem ofBigEndian_length {data : Bytes} (small : data.length ≤ 65535) :
    ofBigEndian (bigEndian 2 data.length) = data.length :=
  ofBigEndian_bigEndian (Nat.lt_succ_of_le small)

theorem next_frame {data : Bytes} (small : data.length ≤ 65535) (rest : Bytes) :
    Next (frame data ++ rest) data rest :=
  ⟨bigEndian 2 data.length, length_bigEndian 2 _, ofBigEndian_length small, by
    rw [frame, List.append_assoc]⟩

theorem exists_next_iff {bytes : Bytes} :
    (∃ data rest, Next bytes data rest) ↔ 2 + ofBigEndian (bytes.take 2) ≤ bytes.length := by
  constructor
  · rintro ⟨data, rest, header, two, length, rfl⟩
    rw [List.take_left' two, length]
    simp only [List.length_append, two]
    omega
  intro enough
  refine ⟨(bytes.drop 2).take (ofBigEndian (bytes.take 2)),
    (bytes.drop 2).drop (ofBigEndian (bytes.take 2)), bytes.take 2,
    List.length_take_of_le (by omega), ?_, ?_⟩
  · rw [List.length_take_of_le (by rw [List.length_drop]; omega)]
  · rw [List.take_append_drop, List.take_append_drop]

theorem not_next_nil (data rest : Bytes) : ¬Next [] data rest := by
  intro found
  have enough := exists_next_iff.mp ⟨data, rest, found⟩
  rw [List.length_nil] at enough
  omega

/-- What is taken of a frame is read as one exactly if the length that it announces is there. -/
theorem exists_next_take_iff (buf : Bytes) (taken : Nat) :
    (∃ data rest, Next ((frame buf).take taken) data rest) ↔ 2 + buf.length % 65536 ≤ taken := by
  have below := Nat.mod_le buf.length 65536
  have header : (bigEndian 2 buf.length).length = 2 := length_bigEndian 2 _
  rw [exists_next_iff, List.length_take, frame, List.length_append, header, List.take_take]
  by_cases two : 2 ≤ taken
  · rw [Nat.min_eq_left two, List.take_left' header, ofBigEndian_two]
    omega
  · omega

def collect (read : Reader → Except ε Bytes × Reader) : Nat → Reader → List Bytes
  | 0, _ => []
  | count + 1, reader =>
    match read reader with
    | (.ok data, left) => data :: collect read count left
    | (.error _, _) => []

structure Reads (bound : Nat) (read : Reader → Except ε Bytes × Reader) : Prop where
  next : ∀ {reader : Reader} {data rest}, Next reader.rest data rest → data.length ≤ bound →
    ∃ left, read reader = (.ok data, left) ∧ left.rest = rest
  stops : ∀ {reader : Reader}, (∀ data rest, ¬Next reader.rest data rest) →
    ∃ err left, read reader = (.error err, left)

section

variable {read : Reader → Except ε Bytes × Reader} {reader : Reader} {data : List Bytes}

theorem Reads.collect_append (reads : Reads bound read)
    (small : ∀ buf ∈ data, buf.length ≤ bound ∧ buf.length ≤ 65535)
    (rest : reader.rest = data.flatMap frame ++ tail) :
    ∃ left, left.rest = tail ∧
      ∀ count, collect read (data.length + count) reader = data ++ collect read count left := by
  induction data generalizing reader with
  | nil => exact ⟨reader, rest, fun count => by rw [List.length_nil, Nat.zero_add]; rfl⟩
  | cons buf data induction =>
    rcases small buf (List.mem_cons_self ..) with ⟨fits, short⟩
    rw [List.flatMap_cons, List.append_assoc] at rest
    rcases reads.next (rest ▸ next_frame short _) fits with ⟨middle, first, after⟩
    rcases induction (fun other member => small other (List.mem_cons_of_mem _ member)) after with
      ⟨left, remains, later⟩
    refine ⟨left, remains, fun count => ?_⟩
    rw [List.length_cons, Nat.succ_add, collect, first]
    exact congrArg (buf :: ·) (later count)

theorem Reads.collect_stops (reads : Reads bound read)
    (none : ∀ data rest, ¬Next reader.rest data rest) (count : Nat) :
    collect read count reader = [] := by
  cases count with
  | zero => rfl
  | succ count =>
    rcases reads.stops none with ⟨err, left, failed⟩
    rw [collect, failed]

theorem Reads.collect_eq (reads : Reads bound read)
    (small : ∀ buf ∈ data, buf.length ≤ bound ∧ buf.length ≤ 65535)
    (rest : reader.rest = data.flatMap frame ++ tail) (none : ∀ data rest, ¬Next tail data rest)
    (enough : data.length < count) : collect read count reader = data := by
  rcases reads.collect_append small rest with ⟨left, remains, later⟩
  rw [← remains] at none
  rw [← Nat.add_sub_cancel' enough.le, later, reads.collect_stops none, List.append_nil]

end

theorem reads_readFrame : Reads 65535 readFrame where
  next next _ := readFrame_of_next next
  stops := by
    intro rd none
    cases read : readFrame rd with
    | mk res left =>
      cases res with
      | error err => exact ⟨err, left, rfl⟩
      | ok data => exact absurd (next_of_readFrame read) (none _ _)

/-- A call of `Write`: the stream takes the whole frame, or fails after `taken` bytes of it, and
`reset` says whether the error contains "stream reset". -/
inductive WriteCall
  | whole (buf : Bytes)
  | cut (buf : Bytes) (taken : Nat) (short : taken < (frame buf).length) (reset : Bool)

/-- What the stream of a `p2pUdpConn` has taken, and the buffers for which `Write` has returned no
error. -/
structure UdpWriter where
  written : Bytes
  sent : List Bytes
  closed : Bool

namespace UdpWriter

def write (conn : UdpWriter) (call : WriteCall) : UdpWriter :=
  if conn.closed then conn
  else
    match call with
    | .whole buf => { conn with written := conn.written ++ frame buf, sent := conn.sent ++ [buf] }
    | .cut buf taken _ reset =>
      -- After a reset the retry finds the connection closed; other errors leave the stream.
      { conn with written := conn.written ++ (frame buf).take taken, closed := reset }

def machine : Machine UdpWriter WriteCall := ⟨write⟩

def start : UdpWriter := ⟨[], [], false⟩

/-- The handler reads the buffers that have been sent, and those that may be sent later. -/
def Synchronised (conn : UdpWriter) : Prop :=
  ∀ later, (conn.closed → later = []) → (∀ buf ∈ later, buf.length ≤ 65535) →
    ∀ count (reader : Reader), (conn.sent ++ later).length < count →
      reader.rest = conn.written ++ later.flatMap frame →
      collect readFrame count reader = conn.sent ++ later

/-- A whole frame has a length of 16 bits. A frame that is cut has not been begun, or the
connection is closed and the length that the frame announces has not been written. -/
def Harmless (conn : UdpWriter) : WriteCall → Prop
  | .whole buf => conn.closed = false → buf.length ≤ 65535
  | .cut buf taken _ reset => conn.closed = false →
      taken = 0 ∨ reset ∧ taken < 2 + buf.length % 65536

structure Framed (conn : UdpWriter) (tail : Bytes) : Prop where
  small : ∀ buf ∈ conn.sent, buf.length ≤ 65535
  written : conn.written = conn.sent.flatMap frame ++ tail
  ended : ∀ data rest, ¬Next tail data rest
  whole : conn.closed = false → tail = []

variable {conn : UdpWriter} {tail : Bytes}

theorem Framed.synchronised (framed : conn.Framed tail) : conn.Synchronised := by
  intro later none small count reader enough rest
  have fits : ∀ buf ∈ conn.sent ++ later, buf.length ≤ 65535 :=
    List.forall_mem_append.mpr ⟨framed.small, small⟩
  have bytes : reader.rest = (conn.sent ++ later).flatMap frame ++ tail := by
    rw [rest, framed.written, List.flatMap_append]
    cases closed : conn.closed with
    | true => simp [none closed]
    | false => simp [framed.whole closed]
  exact reads_readFrame.collect_eq (fun buf member => ⟨fits buf member, fits buf member⟩) bytes
    framed.ended enough

theorem Framed.write (framed : conn.Framed tail) (harmless : conn.Harmless call) :
    ∃ tail, (conn.write call).Framed tail := by
  rw [UdpWriter.write.eq_def]
  split
  · exact ⟨tail, framed⟩
  rename_i opened
  rw [Bool.not_eq_true] at opened
  have written := framed.written
  rw [framed.whole opened, List.append_nil] at written
  cases call with
  | whole buf =>
    refine ⟨[], List.forall_mem_append.mpr ⟨framed.small, ?_⟩, ?_, not_next_nil, fun _ => rfl⟩
    · simpa using harmless opened
    · simp [written]
  | cut buf taken short reset =>
    refine ⟨(frame buf).take taken, framed.small, congrArg (· ++ _) written, ?_, ?_⟩
    · intro data rest found
      have enough := (exists_next_take_iff buf taken).mp ⟨data, rest, found⟩
      rcases harmless opened with none | within <;> omega
    · rintro (rfl : reset = false)
      rcases harmless opened with none | ⟨isReset, -⟩
      · rw [none, List.take_zero]
      · cases isReset

/-- What the handler reads behind the frames that are whole. -/
theorem Synchronised.behind (synchronised : conn.Synchronised)
    (sent : ∀ buf ∈ conn.sent, buf.length ≤ 65535)
    (written : conn.written = conn.sent.flatMap frame ++ tail) (later : List Bytes)
    (none : conn.closed → later = []) (small : ∀ buf ∈ later, buf.length ≤ 65535) :
    ∃ left : Reader, left.rest = tail ++ later.flatMap frame ∧
      collect readFrame (later.length + 1) left = later := by
  let reader : Reader := ⟨[conn.written ++ later.flatMap frame], .eof⟩
  have rest : reader.rest = conn.sent.flatMap frame ++ (tail ++ later.flatMap frame) := by
    simp [reader, Reader.rest, written]
  rcases reads_readFrame.collect_append (fun buf member => ⟨sent buf member, sent buf member⟩) rest
    with ⟨left, remains, split⟩
  have all := synchronised later none small (conn.sent.length + (later.length + 1)) reader
    (by simp) (List.append_nil _)
  rw [split] at all
  exact ⟨left, remains, List.append_cancel_left all⟩

end UdpWriter

structure Buffer where
  bytes : Bytes
  capacity : Nat
  fits : bytes.length ≤ capacity

inductive Fault
  | stream (err : StreamError)
  | closed
  | bufTooSmall
  deriving DecidableEq

/-- The number that is returned, and what is in the buffer then. -/
def implRead (buf : Buffer) (reader : Reader) : Except Fault (Nat × Bytes) × Reader :=
  match readFrame reader with
  | (.error err, left) => (.error (.stream err), left)
  | (.ok data, left) =>
    if buf.capacity < data.length then (.error .bufTooSmall, left)
    else (.ok (data.length, data.take buf.bytes.length ++ buf.bytes.drop data.length), left)

/-- After a reset the connection is closed, and is found so when `implRead` is called again. -/
def Fault.retried : Fault → Fault
  | .stream (.failed text) =>
    if ascii "stream reset" <:+: text then .closed else .stream (.failed text)
  | fault => fault

def read (buf : Buffer) (reader : Reader) : Except Fault (Nat × Bytes) × Reader :=
  let (result, left) := implRead buf reader
  (result.mapError Fault.retried, left)

def datagram (buf : Buffer) (reader : Reader) : Except Fault Bytes × Reader :=
  let (result, left) := read buf reader
  (result.map fun (n, after) => after.take n, left)

/-- A result of `Read` when `bytes` can be read, as `net.Conn` demands it. -/
def Honours (buf : Buffer) (bytes : Bytes) : Except Fault (Nat × Bytes) → Prop
  | .error fault => fault ≠ .bufTooSmall
  | .ok (n, after) => n ≤ buf.bytes.length ∧ ∃ data rest, Next bytes data rest ∧
      after.take n <+: data ∧ (data.length ≤ buf.bytes.length → after.take n = data)

theorem read_of_not_next {rd : Reader} (buf : Buffer)
    (none : ∀ data rest, ¬Next rd.rest data rest) :
    ∃ fault left, fault ≠ .bufTooSmall ∧ read buf rd = (.error fault, left) := by
  rcases reads_readFrame.stops none with ⟨err, left, framed⟩
  refine ⟨(Fault.stream err).retried, left, ?_, by rw [read, implRead, framed]; rfl⟩
  cases err with
  | eof | unexpectedEOF => nofun
  | failed text =>
    rw [Fault.retried]
    split <;> nofun

theorem read_of_next {rd : Reader} {buf : Buffer} (next : Next rd.rest data rest)
    (fits : data.length ≤ buf.bytes.length) :
    ∃ left, read buf rd = (.ok (data.length, data ++ buf.bytes.drop data.length), left) ∧
      left.rest = rest := by
  rcases readFrame_of_next next with ⟨left, framed, post⟩
  have room : ¬buf.capacity < data.length := Nat.not_lt.mpr (fits.trans buf.fits)
  refine ⟨left, ?_, post⟩
  rw [read, implRead, framed]
  dsimp only
  rw [if_neg room, List.take_of_length_le fits]
  rfl

/-- `Read` keeps to the contract exactly if the next datagram fits into the buffer. -/
theorem honours_iff (buf : Buffer) (reader : Reader) :
    Honours buf reader.rest (read buf reader).1 ↔
      ∀ data rest, Next reader.rest data rest → data.length ≤ buf.bytes.length := by
  constructor
  · intro honours data rest next
    rcases readFrame_of_next next with ⟨left, framed, -⟩
    rw [read, implRead, framed] at honours
    dsimp only at honours
    split at honours
    · exact absurd rfl honours
    · exact honours.1
  intro fits
  by_cases some : ∃ data rest, Next reader.rest data rest
  · rcases some with ⟨data, rest, next⟩
    rcases read_of_next next (fits data rest next) with ⟨left, result, -⟩
    rw [result]
    refine ⟨fits data rest next, data, rest, next, ?_⟩
    rw [List.take_left]
    exact ⟨List.prefix_rfl, fun _ => rfl⟩
  rw [not_exists] at some
  rcases read_of_not_next buf fun data rest next => some data ⟨rest, next⟩ with
    ⟨fault, left, other, result⟩
  rw [result]
  exact other

/-- A datagram of three bytes, which is reported for a buffer of one byte, and makes `Read`
panic if there is no more capacity. -/
theorem read_dishonours :
    let reader : Reader := ⟨[[0], [3, 97], [98, 99]], .eof⟩
    (read ⟨[0], 4, by decide⟩ reader).1 = .ok (3, [97]) ∧
      (read ⟨[0, 0], 2, by decide⟩ reader).1 = .error .bufTooSmall := by
  decide +kernel

def forwarded (data : Bytes) : Bytes := if 0 < data.length then frame data else []

end Peerscale.Pbtunnel
