import Peerscale.Foundation.Program
import Peerscale.IrohRelay.Pool

/-! # IrohRelay network

One endpoint writes to a stream, relays carry its frames to the other endpoint, and there
the stream is accepted and read. Each relay passes on what it is given in order and
without loss; between relays nothing is promised. The relays of the writer and the
stream's identity do not change in a run.
-/

namespace Peerscale.IrohRelay

inductive WriteOp
  | sendTo (remote : PublicKey) (frame : Bytes)

abbrev WriteResponse (_ : WriteOp) : Type := Option GoString

abbrev WriteProg := Program WriteOp WriteResponse Empty

/-- The loop of `Write` with `b` still to be sent. Each turn sends at least one byte, so
that as many turns as there are bytes are enough. -/
def writeLoop (id : UInt64) (remote : PublicKey) (total : Nat) :
    Nat → Bytes → WriteProg (Nat × Option GoString)
  | 0, _ => pure (total, none)
  | turns + 1, b =>
    if b = [] then pure (total, none)
    else do
      let chunk := b.take maxDatagramPayload
      match ← Program.ask (.sendTo remote (streamFrame id flagDATA chunk)) with
      | some err => pure (total - b.length, some err)
      | none => writeLoop id remote total turns (b.drop chunk.length)

def Stream.write (stream : Stream) (b : Bytes) : WriteProg (Nat × Option GoString) :=
  writeLoop stream.id stream.remote b.length b.length b

def Stream.writeAll (stream : Stream) : List Bytes → WriteProg Unit
  | [] => pure ()
  | b :: rest => do
      let _ ← stream.write b
      stream.writeAll rest

theorem writeLoop_nil (id : UInt64) (r : PublicKey) (total turns : Nat) :
    writeLoop id r total turns [] = .done (total, none) := by
  cases turns with
  | zero | succ => rfl

theorem Stream.writeAll_of_short (stream : Stream) (some : b ≠ [])
    (short : b.length ≤ maxDatagramPayload) (calls : List Bytes) :
    ∃ next, stream.writeAll (b :: calls) =
        .perform (.sendTo stream.remote (streamFrame stream.id flagDATA b)) next ∧
      next none = stream.writeAll calls := by
  rcases Nat.exists_eq_succ_of_ne_zero (List.length_pos_iff.mpr some).ne' with ⟨turns, length⟩
  rw [Stream.writeAll, Stream.write, length, writeLoop, if_neg some,
    List.take_of_length_le short, Program.ask_bind, Program.perform_bind]
  refine ⟨_, rfl, ?_⟩
  rw [List.drop_length, writeLoop_nil, Program.done_bind]

def anyAnswer : Program.Environment WriteOp WriteResponse Unit where
  rely := fun _ _ => True
  outcome := fun _ _ _ _ => True

def SendsData (remote : PublicKey) (sid : UInt64) (op : WriteOp) : Prop :=
  ∃ data, data ≠ [] ∧ op = .sendTo remote (streamFrame sid flagDATA data)

def Writes (remote : PublicKey) (sid : UInt64) (program : WriteProg α) : Prop :=
  program.Ensures anyAnswer (fun op _ => SendsData remote sid op) (fun _ _ => True)
    (fun _ _ => True) ()

theorem writes_perform :
    Writes r sid (.perform op next) ↔
      SendsData r sid op ∧ ∀ answer, Writes r sid (next answer) := by
  constructor
  · intro writes
    exact ⟨(writes () trivial).1, fun answer => (writes () trivial).2 answer () trivial⟩
  · rintro ⟨sends, continues⟩ cur -
    exact ⟨sends, fun answer _ _ => continues answer⟩

theorem writes_writeLoop (id : UInt64) (r : PublicKey) (total turns : Nat) (b : Bytes) :
    Writes r id (writeLoop id r total turns b) := by
  induction turns generalizing b with
  | zero => trivial
  | succ turns ih =>
    rw [writeLoop]
    split
    · trivial
    rename_i some
    refine writes_perform.mpr ⟨⟨b.take maxDatagramPayload, ?_, rfl⟩, ?_⟩
    · simp [some, maxDatagramPayload]
    intro answer
    cases answer with
    | none => exact ih _
    | some => trivial

theorem writes_writeAll (stream : Stream) (calls : List Bytes) :
    Writes stream.remote stream.id (stream.writeAll calls) := by
  induction calls with
  | nil => trivial
  | cons b calls ih =>
    rw [Stream.writeAll, Writes, Program.ensures_bind]
    exact (writes_writeLoop stream.id stream.remote b.length b.length b).mono fun _ _ _ => ih

def upcoming : WriteProg α → Bytes
  | .done _ => []
  | .halt _ => []
  | .perform (.sendTo _ frame) next => frame.drop 9 ++ upcoming (next none)

theorem upcoming_bind (prog : WriteProg α) (rest : WriteProg β) :
    upcoming (prog >>= fun _ => rest) = upcoming prog ++ upcoming rest := by
  induction prog with
  | done => rfl
  | halt fault => exact fault.elim
  | perform op next ih =>
    rcases op with ⟨r, fr⟩
    rw [Program.perform_bind, upcoming, upcoming, ih none, List.append_assoc]

theorem upcoming_writeLoop (id : UInt64) (r : PublicKey) (total : Nat) {b : Bytes}
    (enough : b.length ≤ turns) : upcoming (writeLoop id r total turns b) = b := by
  induction turns generalizing b with
  | zero => exact (List.eq_nil_of_length_eq_zero (Nat.le_zero.mp enough)).symm
  | succ turns ih =>
    rw [writeLoop]
    split
    · rename_i empty
      exact empty.symm
    rename_i some
    have pos : 0 < b.length := List.length_pos_iff.mpr some
    have shorter : (b.drop (b.take maxDatagramPayload).length).length ≤ turns := by
      rw [List.length_drop, List.length_take]
      have : 0 < maxDatagramPayload := by decide
      omega
    rw [Program.ask_bind, upcoming, drop_streamFrame]
    refine (congrArg _ (ih shorter)).trans ?_
    rw [List.length_take]
    rcases Nat.le_total maxDatagramPayload b.length with long | short
    · rw [Nat.min_eq_left long, List.take_append_drop]
    · rw [Nat.min_eq_right short, List.drop_length, List.append_nil, List.take_of_length_le short]

theorem upcoming_writeAll (stream : Stream) (calls : List Bytes) :
    upcoming (stream.writeAll calls) = calls.flatten := by
  induction calls with
  | nil => rfl
  | cons b calls ih =>
    rw [Stream.writeAll, upcoming_bind, ih, List.flatten_cons, Stream.write,
      upcoming_writeLoop _ _ _ (Nat.le_refl _)]

/-- The frames that `sendTo` takes, where the calls are answered one after the other. -/
def exchange (answer : Nat → Option GoString) : Nat → WriteProg α → List Bytes × α
  | _, .done result => ([], result)
  | _, .halt fault => fault.elim
  | n, .perform (.sendTo _ frame) next =>
    let (frames, result) := exchange answer (n + 1) (next (answer n))
    (if answer n = none then frame :: frames else frames, result)

structure Chunks (b : Bytes) (n : Nat) (payloads : List Bytes) : Prop where
  whole : payloads.flatten = b.take n
  bounds : ∀ payload ∈ payloads, 1 ≤ payload.length ∧ payload.length ≤ maxDatagramPayload
  full : ∀ payload ∈ payloads.dropLast, payload.length = maxDatagramPayload

theorem chunks_nil (b : Bytes) : Chunks b 0 [] := ⟨rfl, nofun, nofun⟩

theorem Chunks.cons {b : Bytes} (nonempty : b ≠ [])
    (chunks : Chunks (b.drop maxDatagramPayload) n payloads) :
    Chunks b ((b.take maxDatagramPayload).length + n) (b.take maxDatagramPayload :: payloads) := by
  have pos := List.length_pos_iff.mpr nonempty
  have cap : 0 < maxDatagramPayload := by decide
  refine ⟨?_, ?_, ?_⟩
  · rw [List.flatten_cons, chunks.whole, List.length_take]
    rcases Nat.le_total maxDatagramPayload b.length with long | short
    · rw [Nat.min_eq_left long, List.take_add]
    · rw [Nat.min_eq_right short, List.drop_of_length_le short, List.take_nil, List.append_nil,
        List.take_of_length_le short, List.take_of_length_le (Nat.le_add_right _ _)]
  · intro payload mem
    rcases List.mem_cons.mp mem with rfl | later
    · rw [List.length_take]
      omega
    · exact chunks.bounds payload later
  cases payloads with
  | nil => exact nofun
  | cons x payloads =>
    intro payload mem
    rcases List.mem_cons.mp mem with rfl | later
    · have lengths := congrArg List.length chunks.whole
      have some := chunks.bounds x List.mem_cons_self
      rw [List.flatten_cons, List.length_append, List.length_take, List.length_drop] at lengths
      rw [List.length_take]
      omega
    · exact chunks.full payload later

/-- From the call `k` on, `count` frames are taken, and the error is that of the next call. -/
structure Answered (answer : Nat → Option GoString) (k count : Nat) (err : Option GoString) :
    Prop where
  taken : ∀ i < count, answer (k + i) = none
  first : err ≠ none → err = answer (k + count)

theorem Answered.succ {answer : Nat → Option GoString} (takes : answer k = none)
    (answered : Answered answer (k + 1) count err) : Answered answer k (count + 1) err := by
  constructor
  · rintro (_ | i) less
    · exact takes
    · rw [← Nat.succ_add_eq_add_succ]
      exact answered.taken i (Nat.lt_of_succ_lt_succ less)
  · rw [← Nat.succ_add_eq_add_succ]
    exact answered.first

theorem exchange_writeLoop (answer : Nat → Option GoString) (id : UInt64) (r : PublicKey)
    (done k : Nat) {b : Bytes} (enough : b.length ≤ turns) :
    ∃ payloads n err, exchange answer k (writeLoop id r (done + b.length) turns b) =
        (payloads.map (streamFrame id flagDATA), done + n, err) ∧ Chunks b n payloads ∧
      n ≤ b.length ∧ (err = none ↔ n = b.length) ∧ Answered answer k payloads.length err := by
  induction turns generalizing b done k with
  | zero =>
    cases List.eq_nil_of_length_eq_zero (Nat.le_zero.mp enough)
    exact ⟨[], 0, none, rfl, chunks_nil _, le_rfl, iff_of_true rfl rfl, nofun, absurd rfl⟩
  | succ turns ih =>
    rw [writeLoop]
    split
    · rename_i empty
      rw [empty]
      exact ⟨[], 0, none, rfl, chunks_nil _, le_rfl, iff_of_true rfl rfl, nofun, absurd rfl⟩
    rename_i nonempty
    have pos := List.length_pos_iff.mpr nonempty
    rw [Program.ask_bind, exchange]
    cases answered : answer k with
    | some err =>
      refine ⟨[], 0, some err, ?_, chunks_nil b, Nat.zero_le _, iff_of_false nofun pos.ne, nofun,
        fun _ => answered.symm⟩
      simp [exchange, pure]
    | none =>
      have cap : 0 < maxDatagramPayload := by decide
      have sent := List.length_take (i := maxDatagramPayload) (l := b)
      have rest : b.drop (b.take maxDatagramPayload).length = b.drop maxDatagramPayload := by
        rw [sent, List.drop_eq_drop_iff]
        omega
      have left := List.length_drop (i := maxDatagramPayload) (l := b)
      rcases ih (done + (b.take maxDatagramPayload).length) (k + 1) (b := b.drop maxDatagramPayload)
        (by omega) with ⟨payloads, n, err, run, chunks, le, complete, later⟩
      refine ⟨_, _, err, ?_, chunks.cons nonempty, by omega, complete.trans (by omega),
        later.succ answered⟩
      have total : done + b.length = done + (b.take maxDatagramPayload).length +
          (b.drop maxDatagramPayload).length := by omega
      simp only [rest, total, run, if_true, List.map_cons]
      rw [Nat.add_assoc]

/-- The chunks are sent until `sendTo` fails, and the error is the first that it returns. -/
theorem chunked (stream : Stream) (b : Bytes) (answer : Nat → Option GoString) (src : PublicKey) :
    ∃ (payloads : List Bytes) (n : Nat) (err : Option GoString),
      exchange answer 0 (stream.write b) = (payloads.map (streamFrame stream.id flagDATA), n, err) ∧
        payloads.flatten = b.take n ∧ n ≤ b.length ∧ (err = none ↔ n = b.length) ∧
        (∀ i < payloads.length, answer i = none) ∧ (err ≠ none → err = answer payloads.length) ∧
        (∀ payload ∈ payloads, 1 ≤ payload.length ∧ payload.length ≤ 64000 ∧
          parseDatagram ((forward src (datagramMessage stream.remote
            (streamFrame stream.id flagDATA payload))).drop 1) =
              some ⟨src, stream.id, flagDATA, payload⟩) ∧
        ∀ payload ∈ payloads.dropLast, payload.length = 64000 := by
  have run := exchange_writeLoop answer stream.id stream.remote 0 0 (Nat.le_refl b.length)
  rw [Nat.zero_add] at run
  rcases run with ⟨payloads, n, err, run, chunks, le, complete, taken, first⟩
  rw [Nat.zero_add] at run first
  refine ⟨payloads, n, err, run, chunks.whole, le, complete, fun i less => ?_, first,
    fun payload mem => ?_, chunks.full⟩
  · rw [← taken i less, Nat.zero_add]
  have bounds := chunks.bounds payload mem
  exact ⟨bounds.1, bounds.2, parseDatagram_forward src stream.remote stream.id flagDATA payload⟩

/-- The stream of a run, by the writer's key and the identifier, the key it is written
to, and the relays the writer is connected to. -/
structure Link where
  sender : PublicKey
  receiver : PublicKey
  sid : UInt64
  relays : List RelayConn

/-- `written` collects the data handed to relays so far, `transit` is what each relay
still carries, `held` are the streams the reading application has got and `taken` what it
has read from each. -/
structure Network where
  writer : WriteProg Unit
  written : Bytes
  transit : GoString → List Bytes
  pool : Pool
  held : List Nat
  taken : Nat → Bytes

namespace Network

def send (network : Network) (sender : PublicKey) (url : GoString) (frame message : Bytes)
    (writer : WriteProg Unit) : Network :=
  { network with
    writer := writer
    written := network.written ++ frame.drop 9
    transit := Function.update network.transit url
      (network.transit url ++ [forward sender message]) }

def deliver (network : Network) (url : GoString) (message : Bytes) (rest : List Bytes) :
    Network :=
  { network with
    transit := Function.update network.transit url rest
    pool := network.pool.receive message }

def read (network : Network) (place : Nat) (bytes : Bytes) (pool : Pool) : Network :=
  { network with
    pool := pool
    taken := Function.update network.taken place (network.taken place ++ bytes) }

theorem transit_send (net : Network) (sender : PublicKey) (url : GoString)
    (fr msg : Bytes) (wr : WriteProg Unit) :
    (net.send sender url fr msg wr).transit =
      Function.update net.transit url (net.transit url ++ [forward sender msg]) := rfl

theorem transit_deliver (net : Network) (url : GoString) (msg : Bytes) (rest : List Bytes) :
    (net.deliver url msg rest).transit = Function.update net.transit url rest := rfl

end Network

/-- A run may take the loop over the map of relays in any order each time, deliver from
any relay, let messages about other streams arrive, and accept and read at any time. -/
inductive Step (link : Link) : Network → Network → Prop
  | send {network : Network} {remote : PublicKey} {frame message : Bytes}
      {next : Option GoString → WriteProg Unit} {order : List RelayConn} {url : GoString}
      (writer : network.writer = .perform (.sendTo remote frame) next)
      (permuted : order.Perm link.relays)
      (sent : sendTo remote frame order = .ok (url, message)) :
      Step link network (network.send link.sender url frame message (next none))
  | refuse {network : Network} {remote : PublicKey} {frame : Bytes}
      {next : Option GoString → WriteProg Unit} {order : List RelayConn} {err : GoString}
      (writer : network.writer = .perform (.sendTo remote frame) next)
      (permuted : order.Perm link.relays)
      (refused : sendTo remote frame order = .error err) :
      Step link network { network with writer := next (some err) }
  | deliver {network : Network} {url : GoString} {message : Bytes} {rest : List Bytes}
      (carried : network.transit url = message :: rest) :
      Step link network (network.deliver url message rest)
  | other {network : Network} {message : Bytes}
      (foreign : Foreign link.sender link.sid message) :
      Step link network { network with pool := network.pool.receive message }
  | accept {network : Network} {place : Nat} {pool : Pool}
      (accepted : network.pool.acceptStream = some (place, pool)) :
      Step link network { network with pool := pool, held := network.held ++ [place] }
  | read {network : Network} {place count : Nat} {bytes : Bytes} {pool : Pool}
      (held : place ∈ network.held)
      (ran : network.pool.read place count = some (.data bytes, pool)) :
      Step link network (network.read place bytes pool)

theorem step_write_of_short {link : Link} {net : Network} {stream : Stream}
    (wr : net.writer = stream.writeAll (b :: calls)) (some : b ≠ [])
    (short : b.length ≤ maxDatagramPayload) (permuted : List.Perm order link.relays)
    (sent : sendTo stream.remote (streamFrame stream.id flagDATA b) order = .ok (url, msg)) :
    Step link net (net.send link.sender url (streamFrame stream.id flagDATA b) msg
      (stream.writeAll calls)) := by
  rcases stream.writeAll_of_short some short calls with ⟨next, performs, continues⟩
  have step := Step.send (wr.trans performs) permuted sent
  rwa [continues] at step

end Peerscale.IrohRelay
