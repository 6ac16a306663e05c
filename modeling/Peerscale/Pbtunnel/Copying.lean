import Peerscale.Foundation.GoValue

/-! # Copying between connections

`handleTunnel`, `handleP2x` and `serveConnect` each have two loops that read into a buffer and
write what they have read with `writen`. Timeouts end those of `handleP2x` only, like any error.
-/

namespace Peerscale.Pbtunnel.Copying

open List

inductive Relay
  | handleTunnel
  | handleP2x
  | serveConnect

inductive ReadError
  | timeout
  | other

structure ReadResult where
  data : Bytes
  error : Option ReadError

/-- How many of some bytes each `Write` takes, and whether it returns an error. -/
structure Writer where
  write : (call length : Nat) → Nat × Bool
  bounded : ∀ call length, (write call length).1 ≤ length
  progress : ∀ call length, 0 < length → (write call length).2 = false →
    0 < (write call length).1

structure Sink where
  written : Bytes
  writes : Nat
  failed : Bool

structure Loop where
  sink : Sink
  buf : Bytes
  reads : Nat
  counter : Nat

def Relay.continues (relay : Relay) : Option ReadError → Bool
  | none => true
  | some .other => false
  | some .timeout =>
    match relay with
    | .handleTunnel | .serveConnect => true
    | .handleP2x => false

/-- The loop of `writen`, with the number and the error that it returns. -/
def writen (dst : Writer) (buf : Bytes) (n wn : Nat) (sink : Sink) : (Nat × Bool) × Sink :=
  if wn < n then
    let w := dst.write sink.writes (n - wn)
    let next : Sink := ⟨sink.written ++ (buf.drop wn).take w.1, sink.writes + 1, sink.failed || w.2⟩
    if w.2 then ((wn + w.1, true), next) else writen dst buf n (wn + w.1) next
  else ((wn, false), sink)
termination_by n - wn
decreasing_by
  have advances := dst.progress sink.writes (n - wn) (Nat.sub_pos_of_lt ‹_›)
    (Bool.eq_false_iff.mpr ‹_›)
  omega

def Loop.turn (dst : Writer) (loop : Loop) (data : Bytes) : Nat × Loop :=
  let n := data.length
  let buf := data ++ loop.buf.drop n
  let sent := if n > 0 then writen dst buf n 0 loop.sink else ((0, false), loop.sink)
  (sent.1.1, ⟨sent.2, buf, loop.reads + 1, loop.counter + sent.1.1⟩)

variable {dst : Writer} {buf source data : Bytes} {n wn : Nat} {sink : Sink} {loop : Loop}

structure Copied (start : Loop) (source : Bytes) (loop : Loop) : Prop where
  begins : loop.sink.written <+: source
  whole : loop.sink.failed = false → loop.sink.written = source
  counted : loop.counter + start.sink.written.length = start.counter + loop.sink.written.length

/-- The results up to the first error that ends the loop. -/
def Relay.results (relay : Relay) : List ReadResult → List ReadResult
  | [] => []
  | result :: results =>
    result :: if relay.continues result.error then relay.results results else []

end Peerscale.Pbtunnel.Copying
