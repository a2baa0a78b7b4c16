import Symbolication.Deflate.Block

/-!
# Symbolication.Deflate.Stream

Streams of packed data: two bytes in front that say how the data are packed, the
blocks, and a checksum of what is unpacked.
-/

namespace Symbolication.Deflate

open Unpacker

/-- A checksum: two sums modulo a prime, of the bytes, and of the sums on the way. -/
def checksum (bytes : List UInt8) : Nat :=
  let modulus := 65521
  let (a, b) := bytes.foldl
    (fun (a, b) byte =>
      let a := (a + byte.toNat) % modulus
      (a, (b + a) % modulus))
    (1, 0)
  0x10000 * b + a

/-- Takes the bytes in front of the blocks. -/
def takeHeader : Unpacker Unit := do
  let method ← number 8
  let flags ← number 8
  if (256 * method + flags) % 31 != 0 then
    fail .badHeader
  if method % 16 != 8 then
    fail .unknownMethod
  if 7 < method / 16 then
    fail .badWindow
  if flags / 32 % 2 == 1 then
    let _dictionary ← number 32
    fail .dictionaryMissing

/-- Takes a number of four bytes, the most significant first. -/
def takeChecksum : Unpacker Nat := do
  let a ← number 8
  let b ← number 8
  let c ← number 8
  let d ← number 8
  return ((a * 256 + b) * 256 + c) * 256 + d

/-- Unpacks a stream. -/
def unpackStream : Unpacker Unit := do
  takeHeader
  unpackBlocks (← get).bits.length
  align
  let expected ← takeChecksum
  if expected != checksum (← get).output.toList then
    fail .badChecksum

/-- What the stream at the beginning of bytes holds, up to a limit and as far as it goes. -/
def unpack (limit : Option Nat) (bytes : List UInt8) : Except Flaw (List UInt8) :=
  let (ended, p) := unpackStream.run.run { bits := bytes.flatMap bitsOf, limit }
  match ended with
  | .error (.flawed flaw) => .error flaw
  | _ => .ok p.output.toList

end Symbolication.Deflate
