import Symbolication.Text.Search

/-!
# Symbolication.PathName

Names of files: their plain form, without empty components and single points,
their last component, and the names under which a system maps pages of its own.

* `components_eq`: the plain form drops only empty components and single points.
-/

namespace Symbolication.PathName

open Text

/-- The components that count: those that are neither empty nor a single point. -/
def components (path : List Char) : List (List Char) :=
  (splitOn '/' path).filter fun part => !part.isEmpty && part != ['.']

/-- The plain form drops only empty components and single points. -/
theorem components_eq (path part : List Char) :
    part ∈ components path ↔ part ∈ splitOn '/' path ∧ part ≠ [] ∧ part ≠ ['.'] := by
  simp [components]

/-- The root of a path: none, one slash, or, if it begins with exactly two, both. -/
def root (path : List Char) : List Char :=
  match (path.takeWhile (· == '/')).length with
  | 0 => []
  | 2 => ['/', '/']
  | _ => ['/']

/-- The plain form of a path. The path of the current directory is a point. -/
def plain (path : List Char) : List Char :=
  match root path ++ List.intercalate ['/'] (components path) with
  | [] => ['.']
  | s => s

/-- The plain form of a path. -/
def plainString (path : String) : String :=
  String.ofList (plain path.toList)

/-- What follows the last slash of a path. -/
def baseName (path : List Char) : List Char :=
  (path.reverse.takeWhile (· != '/')).reverse

/-- What follows the last slash of a path. -/
def baseNameString (path : String) : String :=
  String.ofList (baseName path.toList)

/-- Whether the path names pages that the system maps into every process. There is no file behind
them. -/
def isSystemPages (path : String) : Bool :=
  let name := baseName path.toList
  name == "[vdso]".toList || "linux-vdso".toList.isPrefixOf name

end Symbolication.PathName
