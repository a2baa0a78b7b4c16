import Symbolication.Number.Hexadecimal
import Symbolication.Number.Numeral
import Symbolication.Profile.Basic
import Symbolication.Profile.Label

/-!
# Symbolication.Report

The report on a profile: for each location a line with its address and the
innermost call, and a line for each call that was inlined. A location without
calls shows where in which file its address lies.

* `length_linesOf`: a location has as many lines as calls, and at least one.
-/

namespace Symbolication

open Number

namespace Report

variable {τ : Type} [Label τ]

/-- The name of a function in a report, two question marks if it has none. -/
def functionName (fn : FunctionOf τ) : String :=
  Label.shownOr (Label.shownOr "??" fn.systemName) fn.name

/-- A place in the source of a function. -/
def place (fn : FunctionOf τ) (line : Int) : String :=
  Label.shownOr "??" fn.filename ++ ":" ++ (if line == 0 then "?" else toString line)

/-- The function of a line; one without names if there is no such function. -/
def functionOf (p : ProfileOf τ) (line : Line) : FunctionOf τ :=
  p.functions[line.function]?.getD
    ⟨0, Label.ofText "", Label.ofText "", Label.ofText ""⟩

/-- A call: the function and the place. -/
def call (p : ProfileOf τ) (line : Line) : String :=
  let fn := functionOf p line
  functionName fn ++ " " ++ place fn line.line

/-- Where in which file the address of a location lies; nothing if the file is not known. -/
def hint (p : ProfileOf τ) (l : Location) : String :=
  match p.mappingOf? l with
  | none => ""
  | some m =>
    if Label.isEmpty m.file then ""
    else
      let buildId :=
        if Label.isEmpty m.buildId then "" else " (BuildId: " ++ Label.shown m.buildId ++ ")"
      " (" ++ Label.shown m.file ++ "+" ++ hex (l.address - m.start + m.offset) ++ ")" ++ buildId

/-- The beginning of a location's first line. -/
def heading (l : Location) : String :=
  "#" ++ toString l.id ++ " " ++ hex l.address ++ " in "

/-- The lines of a location. -/
def linesOf (p : ProfileOf τ) (l : Location) : List String :=
  match l.lines with
  | [] => [heading l ++ "??" ++ hint p l]
  | inner :: outer =>
    (heading l ++ call p inner) :: outer.map fun line => "    inlined: " ++ call p line

/-- A location has as many lines as calls, and at least one. -/
theorem length_linesOf (p : ProfileOf τ) (l : Location) :
    (linesOf p l).length = max 1 l.lines.length := by
  unfold linesOf
  split <;> simp_all

/-- Whether the numbers in the lines of a location can be written. -/
def isWritable (l : Location) : Bool :=
  Number.isWritable l.id && l.lines.all fun line => Number.isWritable line.line

/-- The lines of a report; none at all if a number in it cannot be written. -/
def ofProfile? (p : ProfileOf τ) : Option (List String) :=
  if p.locations.all isWritable then some (p.locations.flatMap (linesOf p)) else none

/-- A report as it is printed: lines between line feeds, and a line feed. -/
def printed (lines : List String) : String :=
  "\n".intercalate lines ++ "\n"

/-- A report as it is kept in a file: each line ends with a line feed. -/
def kept (lines : List String) : String :=
  String.join (lines.map (· ++ "\n"))

end Report

end Symbolication
