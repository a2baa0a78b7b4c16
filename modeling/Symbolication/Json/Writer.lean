import Symbolication.Json.Value
import Symbolication.Number.Numeral

/-!
# Symbolication.Json.Writer

Documents as text: two spaces of indentation for each level, one item or member
a line, `[]` and `{}` for what is empty, and strings in ASCII, where other
characters are given by their 16-bit units.

The text is put together from pieces, because an integer beyond the digit limit
cannot be written: then `Json.written` holds what comes before it.
-/

namespace Symbolication

open Number Text

namespace Json

/-- The 16-bit units of a character. -/
def units (c : Char) : List Nat :=
  if c.toNat < 0x10000 then [c.toNat]
  else
    let offset := c.toNat - 0x10000
    [0xD800 + offset / 0x400, 0xDC00 + offset % 0x400]

/-- A 16-bit unit in a string. -/
def escapedUnit (unit : Nat) : List Char :=
  '\\' :: 'u' :: paddedHex 4 unit

/-- A character in a string. -/
def escapedChar (c : Char) : List Char :=
  if c == '"' then ['\\', '"']
  else if c == '\\' then ['\\', '\\']
  else if c == '\n' then ['\\', 'n']
  else if c == '\r' then ['\\', 'r']
  else if c == '\t' then ['\\', 't']
  else if c == '\x0C' then ['\\', 'f']
  else if c == '\x08' then ['\\', 'b']
  else if 0x20 ≤ c.toNat && c.toNat < 0x7F then [c]
  else (units c).flatMap escapedUnit

/-- A string in its quotes. -/
def stringText (s : String) : String :=
  String.ofList ('"' :: s.toList.flatMap escapedChar ++ ['"'])

/-- A piece of a document's text. -/
inductive Piece where
  | chars (s : String)
  | integer (n : Int)
deriving DecidableEq, Repr

/-- The text of a piece. -/
def Piece.text : Piece → String
  | chars s => s
  | integer n => toString n

/-- Whether the piece can be written. -/
def Piece.isWritable : Piece → Bool
  | chars _ => true
  | integer n => Number.isWritable n

/-- A line break and the indentation of a level. -/
def newline (level : Nat) : String :=
  String.ofList ('\n' :: List.replicate (2 * level) ' ')

mutual

/-- The pieces of a value at the given level of nesting. -/
def pieces (level : Nat) : Json → List Piece
  | null => [.chars "null"]
  | bool b => [.chars (if b then "true" else "false")]
  | int n => [.integer n]
  | real x => [.chars (x.textWith "NaN" "Infinity")]
  | text s => [.chars (stringText s)]
  | list [] => [.chars "[]"]
  | list (v :: rest) =>
    .chars ("[" ++ newline (level + 1)) :: pieces (level + 1) v ++ piecesOfItems (level + 1) rest ++
      [.chars (newline level ++ "]")]
  | object [] => [.chars "\x7b\x7d"]
  | object ((name, v) :: rest) =>
    .chars ("\x7b" ++ newline (level + 1) ++ stringText name ++ ": ") ::
      pieces (level + 1) v ++ piecesOfMembers (level + 1) rest ++ [.chars (newline level ++ "\x7d")]

/-- The pieces of further items of an array, each after a comma. -/
def piecesOfItems (level : Nat) : List Json → List Piece
  | [] => []
  | v :: rest => .chars ("," ++ newline level) :: pieces level v ++ piecesOfItems level rest

/-- The pieces of further members of an object, each after a comma. -/
def piecesOfMembers (level : Nat) : List (String × Json) → List Piece
  | [] => []
  | (name, v) :: rest =>
    .chars ("," ++ newline level ++ stringText name ++ ": ") ::
      pieces level v ++ piecesOfMembers level rest

end

/-- The pieces of a document: a value and a line feed. -/
def document (v : Json) : List Piece :=
  pieces 0 v ++ [.chars "\n"]

/-- The text of pieces. -/
def textOf (ps : List Piece) : String :=
  String.join (ps.map Piece.text)

/-- The text of a document up to the first piece that cannot be written. -/
def written (v : Json) : String :=
  textOf (v.document.takeWhile Piece.isWritable)

/-- Whether the whole document can be written. -/
def isWritable (v : Json) : Bool :=
  v.document.all Piece.isWritable

end Json

end Symbolication
