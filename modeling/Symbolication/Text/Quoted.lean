import Symbolication.Text.Printable

/-!
# Symbolication.Text.Quoted

Texts quoted for a message. Single quotes are the rule; double quotes are used
for a text that holds a single quote and no double one. A backslash, the quote
in use and the common control characters are escaped by a letter, other
characters that cannot be shown by their number in hexadecimal.
-/

namespace Symbolication.Text

/-- The number in lower-case hexadecimal, padded with zeros to `width` digits. -/
def paddedHex (width n : Nat) : List Char :=
  let digits := Nat.toDigits 16 n
  List.replicate (width - digits.length) '0' ++ digits

/-- A character that cannot be shown, by the shortest of the three numbered escapes. -/
def numberedEscape (c : Char) : List Char :=
  if c.toNat < 0x100 then
    '\\' :: 'x' :: paddedHex 2 c.toNat
  else if c.toNat < 0x10000 then
    '\\' :: 'u' :: paddedHex 4 c.toNat
  else
    '\\' :: 'U' :: paddedHex 8 c.toNat

/-- A character inside a text quoted by `quote`. -/
def quotedChar (quote : Char) (c : Char) : List Char :=
  if c == quote || c == '\\' then ['\\', c]
  else if c == '\t' then ['\\', 't']
  else if c == '\n' then ['\\', 'n']
  else if c == '\r' then ['\\', 'r']
  else if isPrintable c then [c]
  else numberedEscape c

/-- The quote for a text: double only where that spares escaping a single one. -/
def quoteFor (s : List Char) : Char :=
  if s.contains '\'' && !s.contains '"' then '"' else '\''

/-- The text in quotes. -/
def quoted (s : List Char) : List Char :=
  let quote := quoteFor s
  quote :: s.flatMap (quotedChar quote) ++ [quote]

/-- The string in quotes. -/
def quotedString (s : String) : String :=
  String.ofList (quoted s.toList)

end Symbolication.Text
