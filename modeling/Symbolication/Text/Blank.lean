import Symbolication.Text.CodeRanges

/-!
# Symbolication.Text.Blank

White space in the wide sense: the Unicode property together with the four
information separators U+001C to U+001F. `strip` removes it from both ends.
-/

namespace Symbolication.Text

/-- The code points of white space. -/
def blankRanges : CodeRanges :=
  [(0x09, 0x0D), (0x1C, 0x20), (0x85, 0x85), (0xA0, 0xA0), (0x1680, 0x1680), (0x2000, 0x200A),
   (0x2028, 0x2029), (0x202F, 0x202F), (0x205F, 0x205F), (0x3000, 0x3000)]

/-- Whether the character is white space. -/
def isBlank (c : Char) : Bool :=
  blankRanges.covers c.toNat

/-- The text without the white space it ends in. -/
def stripEnd (s : List Char) : List Char :=
  (s.reverse.dropWhile isBlank).reverse

/-- The text without the white space around it. -/
def strip (s : List Char) : List Char :=
  stripEnd (s.dropWhile isBlank)

end Symbolication.Text
