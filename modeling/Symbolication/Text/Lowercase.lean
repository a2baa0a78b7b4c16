import Symbolication.Text.Lowercase.Table

/-!
# Symbolication.Text.Lowercase

Full lower-casing of a text. One character, a capital I with a dot, becomes two;
a capital sigma takes its final form after a letter with a case and not before
one, where case-ignorable characters in between are passed over.
-/

namespace Symbolication.Text

/-- Whether the first character that is not case-ignorable is a letter with a case. -/
def meetsCased (s : List Char) : Bool :=
  match s.dropWhile fun c => caseIgnorableRanges.covers c.toNat with
  | [] => false
  | c :: _ => casedRanges.covers c.toNat

/-- The lower-case form of a character other than a capital sigma. -/
def lowerChar (c : Char) : List Char :=
  if c.toNat < 0x80 then
    [c.toLower]
  else if c.toNat == 0x130 then
    ['i', Char.ofNat 0x307]
  else
    match lowercaseRuns.findSome? (·.lower? c.toNat) with
    | some code => [Char.ofNat code]
    | none => [c]

/-- The lower-case form of a text; `before` holds the characters in front of it, the nearest
first. -/
def lowercaseAfter (before : List Char) : List Char → List Char
  | [] => []
  | c :: rest =>
    let image :=
      if c == 'Σ' then
        [if meetsCased before && !meetsCased rest then 'ς' else 'σ']
      else
        lowerChar c
    image ++ lowercaseAfter (c :: before) rest

/-- The lower-case form of a text. -/
def lowercase (s : List Char) : List Char :=
  lowercaseAfter [] s

end Symbolication.Text
