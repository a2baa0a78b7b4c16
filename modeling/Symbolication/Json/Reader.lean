import Symbolication.Json.Value
import Symbolication.Number.Numeral

/-!
# Symbolication.Json.Reader

Reading documents. Beyond the standard's grammar the numbers `NaN`, `Infinity`
and `-Infinity` are accepted, and of equal names in an object the last value
counts. Strings may not hold control characters. Nesting is limited, and so are
the digits of an integer.

A flaw is located by what remains of the text where it was found; line, column
and position are worked out from that. An escape that denotes half a surrogate
pair stands for no character and is read as U+FFFD.
-/

namespace Symbolication

open Number Text

namespace Json

/-- What is wrong at a place of a text. -/
inductive Complaint where
  | expectingValue
  | expectingName
  | expectingColon
  | expectingComma
  | extraData
  | controlCharacter
  | unterminatedString
  | unknownEscape
  | incompleteEscape
  | byteOrderMark
deriving DecidableEq, Repr

/-- The wording of a complaint. -/
def Complaint.text : Complaint → String
  | .expectingValue => "Expecting value"
  | .expectingName => "Expecting property name enclosed in double quotes"
  | .expectingColon => "Expecting ':' delimiter"
  | .expectingComma => "Expecting ',' delimiter"
  | .extraData => "Extra data"
  | .controlCharacter => "Invalid control character at"
  | .unterminatedString => "Unterminated string starting at"
  | .unknownEscape => "Invalid \\escape"
  | .incompleteEscape => "Invalid \\uXXXX escape"
  | .byteOrderMark => "Unexpected UTF-8 BOM (decode using utf-8-sig)"

/-- Why reading stopped, and what remained of the text there. -/
inductive Flaw where
  | malformed (complaint : Complaint) (rest : List Char)
  | integerTooLong (digits : Nat)
  /-- Arrays and objects are nested beyond the limit; the innermost is of this kind. -/
  | nestedTooDeep (kind : Kind)
deriving DecidableEq, Repr

/-- The deepest nesting of arrays and objects. -/
def nestingLimit : Nat := 985

/-- White space between the parts of a document. -/
def isSpace (c : Char) : Bool :=
  c == ' ' || c == '\t' || c == '\n' || c == '\r'

/-- The text without the white space it begins with. -/
def skipSpace (s : List Char) : List Char :=
  s.dropWhile isSpace

/-! ## Strings -/

/-- The character that a letter after a backslash stands for. -/
def escapeLetter? : Char → Option Char
  | '"' => some '"'
  | '\\' => some '\\'
  | '/' => some '/'
  | 'b' => some '\x08'
  | 'f' => some '\x0C'
  | 'n' => some '\n'
  | 'r' => some '\r'
  | 't' => some '\t'
  | _ => none

/-- The number that four hexadecimal digits denote. -/
def unit? (a b c d : Char) : Option Nat :=
  if [a, b, c, d].all isHexDigit then some (readHex [a, b, c, d]) else none

/-- Whether the 16-bit unit is the first of a pair. -/
def isHighUnit (unit : Nat) : Bool :=
  0xD800 ≤ unit && unit < 0xDC00

/-- Whether the 16-bit unit is the second of a pair. -/
def isLowUnit (unit : Nat) : Bool :=
  0xDC00 ≤ unit && unit < 0xE000

/-- The character of a single unit; half a pair is no character. -/
def charOfUnit (unit : Nat) : Char :=
  if isHighUnit unit || isLowUnit unit then '\uFFFD' else Char.ofNat unit

/-- The character of a pair of units. -/
def charOfPair (high low : Nat) : Char :=
  Char.ofNat (0x10000 + (high - 0xD800) * 0x400 + (low - 0xDC00))

/-- The 16-bit unit that four digits at the front of a text denote. A string does not end with it,
so a further character has to follow. -/
def unitAt? : List Char → Option Nat
  | a :: b :: c :: d :: _ :: _ => unit? a b c d
  | _ => none

/-- The second unit of a pair, if the text goes on with an escape by number. Such an escape has to
be complete. -/
def secondUnit? : List Char → Except Flaw (Option Nat)
  | '\\' :: 'u' :: a :: b :: c :: d :: e :: rest =>
    match unit? a b c d with
    | some unit => .ok (some unit)
    | none => .error (.malformed .incompleteEscape ('u' :: a :: b :: c :: d :: e :: rest))
  | _ => .ok none

/-- The character that an escape stands for, and the number of characters it takes after its
backslash. `opening` is the text from the string's opening quote on, `rest` what follows the
backslash. -/
def readEscape (opening rest : List Char) : Except Flaw (Char × Nat) :=
  match rest with
  | [] => .error (.malformed .unterminatedString opening)
  | letter :: more =>
    if letter == 'u' then
      match unitAt? more with
      | none => .error (.malformed .incompleteEscape rest)
      | some first =>
        if isHighUnit first then do
          match ← secondUnit? (more.drop 4) with
          | some second =>
            return if isLowUnit second then (charOfPair first second, 11) else (charOfUnit first, 5)
          | none => return (charOfUnit first, 5)
        else
          .ok (charOfUnit first, 5)
    else
      match escapeLetter? letter with
      | some c => .ok (c, 1)
      | none => .error (.malformed .unknownEscape ('\\' :: rest))

/-- The characters of a string up to its closing quote, and what follows it; `opening` is the text
from its opening quote on, and the next `skip` characters belong to an escape already read. -/
def readString (opening : List Char) (skip : Nat) :
    List Char → Except Flaw (List Char × List Char)
  | [] => .error (.malformed .unterminatedString opening)
  | c :: rest =>
    match skip with
    | skip + 1 => readString opening skip rest
    | 0 =>
      if c == '"' then
        .ok ([], rest)
      else if c == '\\' then
        match readEscape opening rest with
        | .error flaw => .error flaw
        | .ok (c, width) => (readString opening width rest).map fun (s, rest) => (c :: s, rest)
      else if c.toNat < 0x20 then
        .error (.malformed .controlCharacter (c :: rest))
      else
        (readString opening 0 rest).map fun (s, rest) => (c :: s, rest)

/-! ## Numbers -/

/-- The digits at the front of a text. -/
def digitsAt (s : List Char) : List Char × List Char :=
  (s.takeWhile Char.isDigit, s.dropWhile Char.isDigit)

/-- The digits of a whole part: a zero, or digits that begin with another one. -/
def readWhole? : List Char → Option (List Char × List Char)
  | '0' :: rest => some (['0'], rest)
  | c :: rest => if c.isDigit then some (digitsAt (c :: rest)) else none
  | [] => none

/-- The digits of a fraction, none if there is no fraction. -/
def readFraction : List Char → List Char × List Char
  | '.' :: c :: rest => if c.isDigit then digitsAt (c :: rest) else ([], '.' :: c :: rest)
  | s => ([], s)

/-- The value of an exponent, none if there is no exponent. -/
def readExponent (s : List Char) : Option Int × List Char :=
  let (negative, digits, rest) :=
    match s with
    | e :: rest =>
      if e == 'e' || e == 'E' then
        match rest with
        | '-' :: rest => (true, digitsAt rest)
        | '+' :: rest => (false, digitsAt rest)
        | rest => (false, digitsAt rest)
      else (false, [], s)
    | [] => (false, [], s)
  if digits.isEmpty then (none, s)
  else
    let n : Int := ofDigits 10 (digits.map fun c => c.toNat - 48)
    (some (if negative then -n else n), rest)

/-- The number at the front of a text. -/
def readNumber (s : List Char) : Except Flaw (Json × List Char) :=
  let (negative, unsigned) := match s with
    | '-' :: rest => (true, rest)
    | rest => (false, rest)
  match readWhole? unsigned with
  | none => .error (.malformed .expectingValue s)
  | some (whole, rest) =>
    let (fraction, rest) := readFraction rest
    let (exponent, rest) := readExponent rest
    let value := ofDigits 10 ((whole ++ fraction).map fun c => c.toNat - 48)
    if fraction.isEmpty && exponent.isNone then
      if digitLimit < whole.length then
        .error (.integerTooLong whole.length)
      else
        .ok (.int (if negative then -(value : Int) else value), rest)
    else
      .ok (.real (.ofDecimal negative value (exponent.getD 0 - fraction.length)), rest)

/-! ## Values -/

mutual

/-- The value at the front of a text; `room` is how many more levels of nesting there may be, and
`fuel` bounds the number of steps by the length of the text. -/
def readValue (room : Nat) : Nat → List Char → Except Flaw (Json × List Char)
  | 0, s => .error (.malformed .expectingValue s)
  | fuel + 1, s =>
    match s with
    | '"' :: rest => (readString s 0 rest).map fun (t, rest) => (.text (String.ofList t), rest)
    | '{' :: rest =>
      match room with
      | 0 => .error (.nestedTooDeep .object)
      | room + 1 =>
        match skipSpace rest with
        | '}' :: rest => .ok (.object [], rest)
        | rest =>
          (readMembers room fuel rest).map fun (ms, rest) => (.object (settleMembers ms), rest)
    | '[' :: rest =>
      match room with
      | 0 => .error (.nestedTooDeep .list)
      | room + 1 =>
        match skipSpace rest with
        | ']' :: rest => .ok (.list [], rest)
        | rest => (readItems room fuel rest).map fun (vs, rest) => (.list vs, rest)
    | 'n' :: 'u' :: 'l' :: 'l' :: rest => .ok (.null, rest)
    | 't' :: 'r' :: 'u' :: 'e' :: rest => .ok (.bool true, rest)
    | 'f' :: 'a' :: 'l' :: 's' :: 'e' :: rest => .ok (.bool false, rest)
    | 'N' :: 'a' :: 'N' :: rest => .ok (.real .nan, rest)
    | 'I' :: 'n' :: 'f' :: 'i' :: 'n' :: 'i' :: 't' :: 'y' :: rest =>
      .ok (.real (.infinite false), rest)
    | '-' :: 'I' :: 'n' :: 'f' :: 'i' :: 'n' :: 'i' :: 't' :: 'y' :: rest =>
      .ok (.real (.infinite true), rest)
    | s => readNumber s

/-- The items of an array up to its closing bracket. -/
def readItems (room : Nat) : Nat → List Char → Except Flaw (List Json × List Char)
  | 0, s => .error (.malformed .expectingValue s)
  | fuel + 1, s => do
    let (v, rest) ← readValue room fuel s
    match skipSpace rest with
    | ']' :: rest => return ([v], rest)
    | ',' :: rest =>
      let (vs, rest) ← readItems room fuel (skipSpace rest)
      return (v :: vs, rest)
    | rest => .error (.malformed .expectingComma rest)

/-- The members of an object up to its closing brace, in the order in which they are written. -/
def readMembers (room : Nat) : Nat → List Char → Except Flaw (List (String × Json) × List Char)
  | 0, s => .error (.malformed .expectingName s)
  | fuel + 1, s =>
    match s with
    | '"' :: rest => do
      let (name, rest) ← readString s 0 rest
      match skipSpace rest with
      | ':' :: rest =>
        let (v, rest) ← readValue room fuel (skipSpace rest)
        match skipSpace rest with
        | '}' :: rest => return ([(String.ofList name, v)], rest)
        | ',' :: rest =>
          let (ms, rest) ← readMembers room fuel (skipSpace rest)
          return ((String.ofList name, v) :: ms, rest)
        | rest => .error (.malformed .expectingComma rest)
      | rest => .error (.malformed .expectingColon rest)
    | s => .error (.malformed .expectingName s)

end

/-- The document that a text holds. -/
def readDocument (s : List Char) : Except Flaw Json := do
  if s.head? == some '\uFEFF' then
    .error (.malformed .byteOrderMark s)
  let (v, rest) ← readValue nestingLimit (2 * s.length + 2) (skipSpace s)
  match skipSpace rest with
  | [] => return v
  | rest => .error (.malformed .extraData rest)

/-! ## Locating a flaw -/

/-- A place in a text: line and column count from one, the position from zero. -/
structure Place where
  line : Nat
  column : Nat
  position : Nat
deriving DecidableEq, Repr

/-- The place of a text at which `rest` remains. -/
def placeOf (s rest : List Char) : Place :=
  let before := s.take (s.length - rest.length)
  { line := before.count '\n' + 1
    column := (before.reverse.takeWhile (· != '\n')).length + 1
    position := before.length }

/-- A place as messages give it. -/
def Place.text (p : Place) : String :=
  s!"line {p.line} column {p.column} (char {p.position})"

end Json

end Symbolication
