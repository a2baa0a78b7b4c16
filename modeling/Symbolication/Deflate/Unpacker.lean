/-!
# Symbolication.Deflate.Unpacker

Unpacking takes bits from its input and adds bytes to its output. It stops when
the input is over, when the output has reached a limit, and at a flaw; what has
been unpacked before it stops is kept.
-/

namespace Symbolication.Deflate

/-- What is wrong with compressed data. -/
inductive Flaw where
  | badHeader
  | unknownMethod
  | badWindow
  | dictionaryMissing
  | badBlock
  | badStoredLength
  | tooManySymbols
  | badLengthCode
  | badRepeat
  /-- A block cannot end. -/
  | endless
  | badLiteralCode
  | badDistanceCode
  | badLiteral
  | badDistance
  | distanceTooFar
  | badChecksum
deriving DecidableEq, Repr

/-- What a flaw is called; nothing for one that has no name. -/
def Flaw.name : Flaw → Option String
  | badHeader => some "incorrect header check"
  | unknownMethod => some "unknown compression method"
  | badWindow => some "invalid window size"
  | dictionaryMissing => none
  | badBlock => some "invalid block type"
  | badStoredLength => some "invalid stored block lengths"
  | tooManySymbols => some "too many length or distance symbols"
  | badLengthCode => some "invalid code lengths set"
  | badRepeat => some "invalid bit length repeat"
  | endless => some "invalid code -- missing end-of-block"
  | badLiteralCode => some "invalid literal/lengths set"
  | badDistanceCode => some "invalid distances set"
  | badLiteral => some "invalid literal/length code"
  | badDistance => some "invalid distance code"
  | distanceTooFar => some "invalid distance too far back"
  | badChecksum => some "incorrect data check"

/-- The wording of a flaw. -/
def Flaw.text (flaw : Flaw) : String :=
  match flaw.name with
  | some name => "Error -3 while decompressing data: " ++ name
  | none => "Error 2 while decompressing data"

/-- Why unpacking stops before its end. -/
inductive Halt where
  /-- The input is over, or the output has reached its limit. -/
  | cutShort
  | flawed (flaw : Flaw)
deriving DecidableEq, Repr

/-- What is left to be unpacked, and what has been. -/
structure Progress where
  bits : List Bool
  output : Array UInt8 := #[]
  limit : Option Nat := none
deriving DecidableEq, Repr

namespace Progress

/-- Whether the output has reached its limit. -/
def isFull (p : Progress) : Bool :=
  p.limit == some p.output.size

/-- With a further byte. -/
def add (p : Progress) (byte : UInt8) : Progress :=
  { p with output := p.output.push byte }

end Progress

/-- A step of unpacking. -/
abbrev Unpacker := ExceptT Halt (StateM Progress)

namespace Unpacker

/-- Stops at a flaw. -/
def fail {α : Type} (flaw : Flaw) : Unpacker α :=
  throw (.flawed flaw)

/-- Takes a bit. -/
def bit : Unpacker Bool := do
  match (← get).bits with
  | [] => throw .cutShort
  | b :: rest =>
    modify fun p => { p with bits := rest }
    return b

/-- Takes a number of some bits, the least significant first. -/
def number : Nat → Unpacker Nat
  | 0 => return 0
  | width + 1 => do
    let b ← bit
    return b.toNat + 2 * (← number width)

/-- Drops bits up to the next whole byte. -/
def align : Unpacker Unit :=
  modify fun p => { p with bits := p.bits.drop (p.bits.length % 8) }

/-- Stops if there is no room for more output. -/
def needRoom : Unpacker Unit := do
  if (← get).isFull then
    throw .cutShort

/-- Adds a byte to the output. -/
def emit (byte : UInt8) : Unpacker Unit := do
  needRoom
  modify (·.add byte)

end Unpacker

/-- The bits of a byte, the least significant first. -/
def bitsOf (byte : UInt8) : List Bool :=
  (List.range 8).map byte.toNat.testBit

end Symbolication.Deflate
