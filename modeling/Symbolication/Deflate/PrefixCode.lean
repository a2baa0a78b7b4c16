import Symbolication.Deflate.Unpacker

/-!
# Symbolication.Deflate.PrefixCode

Prefix codes that are given by the lengths of their code words. Among words of
one length the order is that of the symbols, and shorter words come before longer
ones, so that a word is found by its place among those of its length.
-/

namespace Symbolication.Deflate

/-- A prefix code: the symbols whose words have one bit, two bits, and so on. -/
structure PrefixCode where
  /-- The symbols by the lengths of their words. -/
  levels : List (List Nat)
deriving DecidableEq, Repr

namespace PrefixCode

/-- The symbols with a length, where lengths are given by symbol. -/
def withLength (lengths : List Nat) (n : Nat) : List Nat :=
  lengths.zipIdx.filterMap fun (length, symbol) => if length == n then some symbol else none

/-- The number of words not taken after some levels; none if there are fewer words than symbols. -/
def unused (words : Nat) : List (List Nat) → Option Nat
  | [] => some words
  | symbols :: deeper =>
    if 2 * words < symbols.length then none else unused (2 * words - symbols.length) deeper

/-- The code in which symbols have words of the lengths given, none for those of length zero. All
words have to be taken, unless there is no symbol at all, or one alone where that may be. -/
def ofLengths? (single : Bool) (lengths : List Nat) : Option PrefixCode :=
  let depth := lengths.foldl max 0
  let levels := (List.range depth).map fun n => withLength lengths (n + 1)
  if depth == 0 then some ⟨[[]]⟩
  else
    match unused 1 levels with
    | none => none
    | some rest => if rest == 0 || (single && depth == 1) then some ⟨levels⟩ else none

/-- Decodes a word at the beginning of bits. The word is given by its offset among those of its
length. Gives no symbol if the word stands for none, and nothing if the bits end in it. -/
def decodeFrom (offset : Nat) : List (List Nat) → List Bool → Option (Option Nat × List Bool)
  | [], bits => some (none, bits)
  | _ :: _, [] => none
  | symbols :: deeper, b :: bits =>
    let offset := 2 * offset + b.toNat
    match symbols[offset]? with
    | some symbol => some (some symbol, bits)
    | none => decodeFrom (offset - symbols.length) deeper bits

/-- Decodes a word at the beginning of bits. -/
def decode (code : PrefixCode) (bits : List Bool) : Option (Option Nat × List Bool) :=
  decodeFrom 0 code.levels bits

/-- Takes a word of the code: its symbol, none if the word stands for none. -/
def symbol? (code : PrefixCode) : Unpacker (Option Nat) := do
  match code.decode (← get).bits with
  | none => throw .cutShort
  | some (symbol, bits) =>
    modify fun p => { p with bits }
    return symbol

end PrefixCode

end Symbolication.Deflate
