import Symbolication.Number.Binary64
import Symbolication.Number.Numeral

/-!
# Symbolication.Number.RealNumeral

Numbers with a fraction or an exponent, as they are written on a command line:
digits with an optional point and an optional exponent, or the names of infinity
and of what is no number. The rules on white space, on the digits of other
scripts and on underscores are those for integers.
-/

namespace Symbolication.Number

/-- The text without its underscores, each of which has to stand between two digits. -/
def withoutUnderscores? (afterDigit : Bool) : List Char → Option (List Char)
  | [] => some []
  | c :: rest =>
    if c == '_' then
      if afterDigit && rest.head?.any Char.isDigit then withoutUnderscores? false rest else none
    else
      (withoutUnderscores? c.isDigit rest).map (c :: ·)

/-- The exponent that a text consists of; an empty text stands for zero. -/
def exponentPart? : List Char → Option Int
  | [] => some 0
  | e :: rest =>
    let (negative, digits) :=
      match rest with
      | '-' :: digits => (true, digits)
      | '+' :: digits => (false, digits)
      | digits => (false, digits)
    if (e == 'e' || e == 'E') && !digits.isEmpty && digits.all Char.isDigit then
      let n : Int := ofDigits 10 (digits.map fun c => c.toNat - 48)
      some (if negative then -n else n)
    else
      none

/-- The number that an unsigned numeral in plain characters denotes. -/
def unsignedReal? (negative : Bool) (s : List Char) : Option Binary64 :=
  let name := String.ofList (s.map Char.toLower)
  if name == "inf" || name == "infinity" then some (.infinite negative)
  else if name == "nan" then some .nan
  else do
    let whole := s.takeWhile Char.isDigit
    let rest := s.dropWhile Char.isDigit
    let (fraction, rest) :=
      match rest with
      | '.' :: rest => (rest.takeWhile Char.isDigit, rest.dropWhile Char.isDigit)
      | rest => ([], rest)
    let digits := whole ++ fraction
    if digits.isEmpty then
      none
    else
      let exponent ← exponentPart? rest
      let value := ofDigits 10 (digits.map fun c => c.toNat - 48)
      return .ofDecimal negative value (exponent - fraction.length)

/-- The number that a text denotes, if it is a numeral. -/
def real? (s : List Char) : Option Binary64 := do
  match ← withoutUnderscores? false (plainNumeral s) with
  | '-' :: rest => unsignedReal? true rest
  | '+' :: rest => unsignedReal? false rest
  | rest => unsignedReal? false rest

end Symbolication.Number
