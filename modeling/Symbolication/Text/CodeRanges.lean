/-!
# Symbolication.Text.CodeRanges

Sets of characters given as closed ranges of code points, the form in which the
character properties of the Unicode standard are tabulated. All tables of this
library follow version 14.0 of the standard.
-/

namespace Symbolication.Text

/-- Closed ranges of code points, ascending and apart. -/
abbrev CodeRanges := List (Nat × Nat)

/-- Whether a code point lies in one of the ranges. -/
def CodeRanges.covers (ranges : CodeRanges) (code : Nat) : Bool :=
  ranges.any fun r => r.1 ≤ code && code ≤ r.2

end Symbolication.Text
