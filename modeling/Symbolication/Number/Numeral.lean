import Symbolication.Number.Hexadecimal
import Symbolication.Text.Blank
import Symbolication.Text.DecimalDigit

/-!
# Symbolication.Number.Numeral

Integers written as numerals, in the notation of program texts: an optional
sign, then decimal digits, or digits after `0x`, `0o` or `0b`. A single
underscore may stand between two digits and after the `0x`; a decimal numeral
other than zero has no leading zeros. White space around the numeral is ignored,
and the decimal digits of every script count as digits.

Decimal numerals are limited to `digitLimit` digits, both when they are read and
when they are written: converting longer ones is a way to stall a program.
-/

namespace Symbolication.Number

open Symbolication.Text

/-- The greatest number of digits of a decimal numeral. -/
def digitLimit : Nat := 4300

/-- The number that decimal digits, the most significant first, denote. -/
def ofDigits (base : Nat) (digits : List Nat) : Nat :=
  digits.foldl (fun n d => base * n + d) 0

/-- A character of a numeral with the digits of other scripts read as `0` to `9` and white space
beyond ASCII as a space. -/
def plainNumeralChar (c : Char) : Char :=
  if c.toNat < 0x80 then c
  else match decimalDigit? c with
    | some d => Char.ofNat (48 + d)
    | none => if isBlank c then ' ' else c

/-- The white space that may surround a numeral. -/
def isNumeralSpace (c : Char) : Bool :=
  c == ' ' || (0x09 ≤ c.toNat && c.toNat ≤ 0x0D)

/-- A numeral without the white space around it, in plain characters. -/
def plainNumeral (s : List Char) : List Char :=
  let s := (s.map plainNumeralChar).dropWhile isNumeralSpace
  (s.reverse.dropWhile isNumeralSpace).reverse

/-- The value of a digit in the given base, at most sixteen. -/
def digitIn? (base : Nat) (c : Char) : Option Nat :=
  (hexDigit? c).filter (· < base)

/-- The values of digits with single underscores between them. -/
def digitRun? (base : Nat) : List Char → Option (List Nat)
  | [] => none
  | [c] => (digitIn? base c).map ([·])
  | c :: '_' :: rest => do
    let d ← digitIn? base c
    let ds ← digitRun? base rest
    return d :: ds
  | c :: rest => do
    let d ← digitIn? base c
    let ds ← digitRun? base rest
    return d :: ds

/-- The value of the digits after a base mark, where one underscore may come first. -/
def markedNumeral? (base : Nat) : List Char → Option Nat
  | '_' :: rest => (digitRun? base rest).map (ofDigits base)
  | rest => (digitRun? base rest).map (ofDigits base)

/-- The value of an unsigned decimal numeral. -/
def decimalNumeral? (s : List Char) : Option Nat := do
  let digits ← digitRun? 10 s
  if digitLimit < digits.length then
    none
  else if digits.head? == some 0 && digits.any (· != 0) then
    none
  else
    some (ofDigits 10 digits)

/-- The value of an unsigned numeral. -/
def unsignedNumeral? : List Char → Option Nat
  | '0' :: 'x' :: rest => markedNumeral? 16 rest
  | '0' :: 'X' :: rest => markedNumeral? 16 rest
  | '0' :: 'o' :: rest => markedNumeral? 8 rest
  | '0' :: 'O' :: rest => markedNumeral? 8 rest
  | '0' :: 'b' :: rest => markedNumeral? 2 rest
  | '0' :: 'B' :: rest => markedNumeral? 2 rest
  | rest => decimalNumeral? rest

/-- The integer that a text denotes, if it is a numeral. -/
def numeral? (s : List Char) : Option Int :=
  match plainNumeral s with
  | '-' :: rest => (unsignedNumeral? rest).map fun n => -Int.ofNat n
  | '+' :: rest => (unsignedNumeral? rest).map Int.ofNat
  | rest => (unsignedNumeral? rest).map Int.ofNat

/-- The number that decimal digits of any script denote, or the number of digits if there are too
many. Other characters count as zero. -/
def readDecimal (digits : List Char) : Except Nat Nat :=
  if digitLimit < digits.length then
    .error digits.length
  else
    .ok (ofDigits 10 (digits.map fun c => (decimalDigit? c).getD 0))

/-- Whether the decimal numeral of an integer is within the limit. -/
def isWritable (n : Int) : Bool :=
  n.natAbs < Nat.pow 10 digitLimit

end Symbolication.Number
