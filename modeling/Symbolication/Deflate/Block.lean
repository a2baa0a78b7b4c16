import Symbolication.Deflate.PrefixCode

/-!
# Symbolication.Deflate.Block

The blocks of packed data. A block holds bytes as they are, or symbols: bytes, and
copies of what was unpacked some distance before. The codes of its symbols are
fixed, or stand in front of them.
-/

namespace Symbolication.Deflate

open Unpacker

/-! ## Symbols -/

/-- The lengths of copies: the least one of each symbol, and how many bits are added to it. -/
def lengthRanges : List (Nat × Nat) :=
  [(3, 0), (4, 0), (5, 0), (6, 0), (7, 0), (8, 0), (9, 0), (10, 0), (11, 1), (13, 1), (15, 1),
   (17, 1), (19, 2), (23, 2), (27, 2), (31, 2), (35, 3), (43, 3), (51, 3), (59, 3), (67, 4),
   (83, 4), (99, 4), (115, 4), (131, 5), (163, 5), (195, 5), (227, 5), (258, 0)]

/-- The distances of copies: the least one of each symbol, and how many bits are added to it. -/
def distanceRanges : List (Nat × Nat) :=
  [(1, 0), (2, 0), (3, 0), (4, 0), (5, 1), (7, 1), (9, 2), (13, 2), (17, 3), (25, 3), (33, 4),
   (49, 4), (65, 5), (97, 5), (129, 6), (193, 6), (257, 7), (385, 7), (513, 8), (769, 8),
   (1025, 9), (1537, 9), (2049, 10), (3073, 10), (4097, 11), (6145, 11), (8193, 12), (12289, 12),
   (16385, 13), (24577, 13)]

/-- The symbol that ends a block. -/
def endOfBlock : Nat := 256

/-- Takes the number that a range and its added bits make up. -/
def inRange (range : Nat × Nat) : Unpacker Nat := do
  return range.1 + (← number range.2)

/-- Adds bytes that were unpacked some distance before. -/
def repeatOutput (distance : Nat) : Nat → Unpacker Unit
  | 0 => return ()
  | count + 1 => do
    let output := (← get).output
    emit (output.getD (output.size - distance) 0)
    repeatOutput distance count

/-- Takes the distance of a copy, and copies. -/
def copy (distances : PrefixCode) (length : Nat) : Unpacker Unit := do
  match (← distances.symbol?).bind (distanceRanges[·]?) with
  | none => fail .badDistance
  | some range =>
    let distance ← inRange range
    needRoom
    if (← get).output.size < distance then
      fail .distanceTooFar
    repeatOutput distance length

/-- Takes symbols up to the end of the block. A symbol has at least one bit, so the number of bits
is enough of `fuel`. -/
def unpackSymbols (literals distances : PrefixCode) : Nat → Unpacker Unit
  | 0 => throw .cutShort
  | fuel + 1 => do
    match ← literals.symbol? with
    | none => fail .badLiteral
    | some symbol =>
      if symbol < endOfBlock then
        emit (UInt8.ofNat symbol)
        unpackSymbols literals distances fuel
      else if symbol != endOfBlock then
        match lengthRanges[symbol - endOfBlock - 1]? with
        | none => fail .badLiteral
        | some range =>
          copy distances (← inRange range)
          unpackSymbols literals distances fuel

/-! ## Codes -/

/-- The lengths of words in the fixed code for literals. -/
def fixedLengths : List Nat :=
  List.replicate 144 8 ++ List.replicate 112 9 ++ List.replicate 24 7 ++ List.replicate 8 8

/-- The order in which the lengths of the code for code lengths are given. -/
def lengthOrder : List Nat :=
  [16, 17, 18, 0, 8, 7, 9, 6, 10, 5, 11, 4, 12, 3, 13, 2, 14, 1, 15]

/-- The code with lengths that have been read. -/
def codeOf (single : Bool) (lengths : List Nat) (flaw : Flaw) : Unpacker PrefixCode :=
  match PrefixCode.ofLengths? single lengths with
  | some code => return code
  | none => fail flaw

/-- Takes numbers of three bits. -/
def takeThrees : Nat → Unpacker (List Nat)
  | 0 => return []
  | count + 1 => do
    let n ← number 3
    return n :: (← takeThrees count)

/-- Takes what a symbol for code lengths adds to the lengths before it. -/
def moreLengths (before : List Nat) (symbol : Nat) : Unpacker (List Nat) := do
  match symbol with
  | 16 => do
    let count ← inRange (3, 2)
    match before.getLast? with
    | some length => return List.replicate count length
    | none => fail .badRepeat
  | 17 => return List.replicate (← inRange (3, 3)) 0
  | 18 => return List.replicate (← inRange (11, 7)) 0
  | length => return [length]

/-- Takes code lengths until there are `count` of them. Each symbol gives at least one, so `count`
is enough of `fuel`. -/
def takeLengths (code : PrefixCode) (count : Nat) (before : List Nat) : Nat → Unpacker (List Nat)
  | 0 => return before
  | fuel + 1 => do
    if count ≤ before.length then
      return before
    let lengths := before ++ (← moreLengths before ((← code.symbol?).getD 0))
    if count < lengths.length then
      fail .badRepeat
    takeLengths code count lengths fuel

/-- Takes the two codes of a block, for literals and for distances. -/
def takeCodes : Unpacker (PrefixCode × PrefixCode) := do
  let literalCount := 257 + (← number 5)
  let distanceCount := 1 + (← number 5)
  let lengthCount := 4 + (← number 4)
  if 286 < literalCount || 30 < distanceCount then
    fail .tooManySymbols
  let given := lengthOrder.zip (← takeThrees lengthCount)
  let code ← codeOf false ((List.range 19).map fun n => (given.lookup n).getD 0) .badLengthCode
  let count := literalCount + distanceCount
  let lengths ← takeLengths code count [] count
  if lengths.getD endOfBlock 0 == 0 then
    fail .endless
  let literals ← codeOf true (lengths.take literalCount) .badLiteralCode
  let distances ← codeOf true (lengths.drop literalCount) .badDistanceCode
  return (literals, distances)

/-! ## Blocks -/

/-- Adds bytes of the input as they are. -/
def copyInput : Nat → Unpacker Unit
  | 0 => return ()
  | count + 1 => do
    emit (UInt8.ofNat (← number 8))
    copyInput count

/-- Unpacks a block that holds bytes as they are. -/
def unpackStored : Unpacker Unit := do
  align
  let length ← number 16
  let complement ← number 16
  if length + complement != 0xFFFF then
    fail .badStoredLength
  copyInput length

/-- Unpacks a block of symbols. -/
def unpackCoded (codes : PrefixCode × PrefixCode) : Unpacker Unit := do
  unpackSymbols codes.1 codes.2 (← get).bits.length

/-- Unpacks a block. Gives whether it was the last one. -/
def unpackBlock : Unpacker Bool := do
  let isLast ← bit
  match ← number 2 with
  | 0 => unpackStored
  | 1 =>
    let literals ← codeOf true fixedLengths .badLiteralCode
    let distances ← codeOf true (List.replicate 32 5) .badDistanceCode
    unpackCoded (literals, distances)
  | 2 => unpackCoded (← takeCodes)
  | _ => fail .badBlock
  return isLast

/-- Unpacks blocks up to the last one. A block has at least three bits, so the number of bits is
enough of `fuel`. -/
def unpackBlocks : Nat → Unpacker Unit
  | 0 => throw .cutShort
  | fuel + 1 => do
    if !(← unpackBlock) then
      unpackBlocks fuel

end Symbolication.Deflate
