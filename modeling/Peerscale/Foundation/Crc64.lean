import Peerscale.Foundation.GoValue

/-! # CRC-64

`crc64.Checksum` with the ECMA polynomial, a byte at a time. An entry of the table is
computed when it is needed.
-/

namespace Peerscale.Crc64

/-- `crc64.ECMA`. -/
def ecma : UInt64 := 0xC96C5795D7870F42

def shift (crc : UInt64) : UInt64 :=
  if crc &&& 1 = 1 then (crc >>> 1) ^^^ ecma else crc >>> 1

/-- An entry of the table that `crc64.MakeTable` makes. -/
def tableEntry (index : UInt64) : UInt64 :=
  (List.range 8).foldl (fun crc _ => shift crc) index

def update (crc : UInt64) (byte : UInt8) : UInt64 :=
  tableEntry ((crc ^^^ byte.toUInt64) &&& 0xFF) ^^^ (crc >>> 8)

def checksum (data : Bytes) : UInt64 :=
  ~~~(data.foldl update (~~~0))

example : checksum (ascii "123456789") = 0x995DC9BBDF1939FA := by decide +kernel

end Peerscale.Crc64
