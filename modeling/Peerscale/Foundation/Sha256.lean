import Peerscale.Foundation.GoValue
import Mathlib.Logic.Function.Iterate

/-! # SHA-256

The hash of `crypto/sha256`, executable so that concrete transfers can be
checked down to their checksums. No proof below depends on its internals.
-/

namespace Peerscale

namespace Sha256

abbrev Word := BitVec 32

def roundConstants : List Word :=
  [0x428a2f98, 0x71374491, 0xb5c0fbcf, 0xe9b5dba5, 0x3956c25b, 0x59f111f1,
   0x923f82a4, 0xab1c5ed5, 0xd807aa98, 0x12835b01, 0x243185be, 0x550c7dc3,
   0x72be5d74, 0x80deb1fe, 0x9bdc06a7, 0xc19bf174, 0xe49b69c1, 0xefbe4786,
   0x0fc19dc6, 0x240ca1cc, 0x2de92c6f, 0x4a7484aa, 0x5cb0a9dc, 0x76f988da,
   0x983e5152, 0xa831c66d, 0xb00327c8, 0xbf597fc7, 0xc6e00bf3, 0xd5a79147,
   0x06ca6351, 0x14292967, 0x27b70a85, 0x2e1b2138, 0x4d2c6dfc, 0x53380d13,
   0x650a7354, 0x766a0abb, 0x81c2c92e, 0x92722c85, 0xa2bfe8a1, 0xa81a664b,
   0xc24b8b70, 0xc76c51a3, 0xd192e819, 0xd6990624, 0xf40e3585, 0x106aa070,
   0x19a4c116, 0x1e376c08, 0x2748774c, 0x34b0bcb5, 0x391c0cb3, 0x4ed8aa4a,
   0x5b9cca4f, 0x682e6ff3, 0x748f82ee, 0x78a5636f, 0x84c87814, 0x8cc70208,
   0x90befffa, 0xa4506ceb, 0xbef9a3f7, 0xc67178f2]

structure State where
  a : Word
  b : Word
  c : Word
  d : Word
  e : Word
  f : Word
  g : Word
  h : Word

def initialState : State where
  a := 0x6a09e667
  b := 0xbb67ae85
  c := 0x3c6ef372
  d := 0xa54ff53a
  e := 0x510e527f
  f := 0x9b05688c
  g := 0x1f83d9ab
  h := 0x5be0cd19

def expand (words : List Word) : List Word :=
  let previous := fun (back : Nat) => words.getD (words.length - back) 0
  let low := previous 15
  let high := previous 2
  let mixedLow := low.rotateRight 7 ^^^ low.rotateRight 18 ^^^ (low >>> 3)
  let mixedHigh := high.rotateRight 17 ^^^ high.rotateRight 19 ^^^ (high >>> 10)
  words ++ [previous 16 + mixedLow + previous 7 + mixedHigh]

def schedule (block : Bytes) : List Word :=
  let words := (List.range 16).map fun index =>
    BitVec.ofNat 32 (ofBigEndian ((block.drop (4 * index)).take 4))
  expand^[48] words

def round (state : State) (constant word : Word) : State :=
  let mixedE := state.e.rotateRight 6 ^^^ state.e.rotateRight 11 ^^^ state.e.rotateRight 25
  let choice := (state.e &&& state.f) ^^^ (~~~state.e &&& state.g)
  let first := state.h + mixedE + choice + constant + word
  let mixedA := state.a.rotateRight 2 ^^^ state.a.rotateRight 13 ^^^ state.a.rotateRight 22
  let majority := (state.a &&& state.b) ^^^ (state.a &&& state.c) ^^^ (state.b &&& state.c)
  { a := first + (mixedA + majority), b := state.a, c := state.b, d := state.c
    e := state.d + first, f := state.e, g := state.f, h := state.g }

def compress (state : State) (block : Bytes) : State :=
  let worked := (List.zip roundConstants (schedule block)).foldl
    (fun current pair => round current pair.1 pair.2) state
  { a := state.a + worked.a, b := state.b + worked.b, c := state.c + worked.c
    d := state.d + worked.d, e := state.e + worked.e, f := state.f + worked.f
    g := state.g + worked.g, h := state.h + worked.h }

def padded (message : Bytes) : Bytes :=
  message ++ 0x80 :: List.replicate ((119 - message.length % 64) % 64) 0 ++
    bigEndian 8 (8 * message.length)

def State.digest (state : State) : Bytes :=
  [state.a, state.b, state.c, state.d, state.e, state.f, state.g, state.h].flatMap
    fun word => bigEndian 4 word.toNat

end Sha256

def sha256 (message : Bytes) : Bytes :=
  let bytes := Sha256.padded message
  let blocks := (List.range (bytes.length / 64)).map fun index => (bytes.drop (64 * index)).take 64
  (blocks.foldl Sha256.compress Sha256.initialState).digest

example : hexEncode (sha256 (ascii "abc")) =
    ascii "ba7816bf8f01cfea414140de5dae2223b00361a396177a9cb410ff61f20015ad" := by
  decide +kernel

end Peerscale
