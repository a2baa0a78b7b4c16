import Symbolication.Directive
import Symbolication.Name.Brackets
import Symbolication.Text.Blank
import Symbolication.Text.Search

/-!
# Symbolication.Name.Simplify

Making names of C++ functions shorter: parameter lists, template arguments and
the marks of cloned functions are left out. A name that no tool has decoded is
shortened only if it looks like a decoded one.
-/

namespace Symbolication.Name

open Text

/-- Whether the name looks like a decoded C++ name: it has angle or square brackets or a double
colon, and is no constructor of a Java class. -/
def looksDecoded (name : List Char) : Bool :=
  !occursIn ['.', '<'] name &&
    (name.any (fun c => c == '<' || c == '>' || c == '[' || c == ']') || occursIn [':', ':'] name)

/-- The length of the clone mark that a text begins with, the white space in front of it included.
-/
def cloneMark? (s : List Char) : Option Nat :=
  let blanks := s.takeWhile isBlank
  let label := "[clone ".toList
  let rest := s.drop blanks.length
  if label.isPrefixOf rest then
    let body := (rest.drop label.length).takeWhile (· != ']')
    let width := blanks.length + label.length + body.length
    if width < s.length then some (width + 1) else none
  else
    none

/-- The text without clone marks, where the next `skip` characters belong to one. -/
def withoutCloneMarks (skip : Nat) : List Char → List Char
  | [] => []
  | c :: rest =>
    match skip with
    | skip + 1 => withoutCloneMarks skip rest
    | 0 =>
      match cloneMark? (c :: rest) with
      | some width => withoutCloneMarks (width - 1) rest
      | none => c :: withoutCloneMarks 0 rest

/-- The name without the marks of cloned functions. -/
def removeCloneMarks (name : List Char) : List Char :=
  withoutCloneMarks 0 name

/-- The name without parameter lists. -/
def removeParameters (name : List Char) : List Char :=
  removeGroups '(' ')' name

/-- The name without template arguments. -/
def removeTemplates (name : List Char) : List Char :=
  removeGroups '<' '>' name

/-- A name that could not be decoded, as the style shows it. -/
def simplify (style : NameStyle) (name : List Char) : List Char :=
  if looksDecoded name then
    match style with
    | .simple => removeTemplates (removeParameters name)
    | .templates => removeParameters name
    | .full | .system => name
  else
    name

end Symbolication.Name
