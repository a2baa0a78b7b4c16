import Symbolication.Fault
import Symbolication.Json.Writer
import Symbolication.Profile.Basic
import Symbolication.Text.Lines

/-!
# Symbolication.Profile.Document

Profiles as JSON documents. Records refer to each other by their ids; integers
may be written as numbers or as numerals in a string. Whatever is missing has its
default, labels that count as false are empty, and flags are read for their truth.

A label may be any value of a document, so that what is read can be written again
as it was.

* `integer?_numeral`: a string is read as the numeral that it holds.
-/

namespace Symbolication

open Number Text

/-- A profile as its document has it. -/
abbrev RawProfile := ProfileOf Json

namespace Document

/-! ## Values of a document -/

/-- The members of a value. -/
def membersOf : Json → Except Fault (List (String × Json))
  | .object members => .ok members
  | v => .error (.noMembers v.kind)

/-- The values met when walking through a value. -/
def elementsOf (v : Json) : Except Fault (List Json) :=
  match v.elements? with
  | some elements => .ok elements
  | none => .error (.notIterable v.kind)

/-- The elements of the list that a member is; a missing one is empty. -/
def listOf (name : String) (members : List (String × Json)) : Except Fault (List Json) :=
  elementsOf ((Json.member? name members).getD (.list []))

/-- The value of a member; a missing one is null. -/
def valueOf (name : String) (members : List (String × Json)) : Json :=
  (Json.member? name members).getD .null

/-- The integer that a value stands for: null and the empty string stand for zero, other strings
for the numerals that they hold. -/
def integer? : Json → Option Int
  | .null => some 0
  | .int n => some n
  | .text s => if s.isEmpty then some 0 else numeral? s.toList
  | _ => none

/-- A string is read as the numeral that it holds. -/
theorem integer?_numeral (s : String) (h : s.isEmpty = false) :
    integer? (.text s) = numeral? s.toList := by
  simp [integer?, h]

/-- Reads the integer that a value stands for. -/
def readInteger (field : IntegerField) (v : Json) : Except Fault Int :=
  match integer? v with
  | some n => .ok n
  | none => .error (.document (.notInteger field v))

/-- Reads the id of a record. Where there is none the records count from one. -/
def readId (field : IntegerField) (position : Nat) (members : List (String × Json)) :
    Except Fault Int :=
  readInteger field ((Json.member? "id" members).getD (.int (position + 1)))

/-- A label: what counts as false is an empty one. -/
def labelOf (name : String) (members : List (String × Json)) : Json :=
  let v := valueOf name members
  if v.isTruthy then v else .text ""

/-- A flag: whether the value counts as true. -/
def flagOf (name : String) (members : List (String × Json)) : Bool :=
  (valueOf name members).isTruthy

/-- A complaint about an id, if the id can be written. -/
def faultAbout (id : Int) (cause : DocumentFault) : Fault :=
  if isWritable id then .document cause else .integerTooLong

/-! ## Records -/

/-- Reads the mapping at a position. -/
def readMapping (position : Nat) (v : Json) : Except Fault (MappingOf Json) := do
  let members ← membersOf v
  let id ← readId .mappingId position members
  let start ← readInteger .mappingStart (valueOf "start" members)
  let limit ← readInteger .mappingLimit (valueOf "limit" members)
  let offset ← readInteger .mappingOffset (valueOf "offset" members)
  return {
    id, start, limit, offset
    file := labelOf "file" members
    buildId := labelOf "build_id" members
    hasFunctions := flagOf "has_functions" members
    hasFilenames := flagOf "has_filenames" members
    hasLineNumbers := flagOf "has_line_numbers" members
    hasInlineFrames := flagOf "has_inline_frames" members
  }

/-- Reads the function at a position. -/
def readFunction (position : Nat) (v : Json) : Except Fault (FunctionOf Json) := do
  let members ← membersOf v
  let id ← readId .functionId position members
  return {
    id
    name := labelOf "name" members
    systemName := labelOf "system_name" members
    filename := labelOf "filename" members
  }

variable {α : Type}

/-- Reads records of one kind, after those already read. No two of them may have the same id. -/
def readRecords (readAt : Nat → Json → Except Fault α) (idOf : α → Int)
    (duplicate : Int → DocumentFault) (before : List α) : List Json → Except Fault (List α)
  | [] => .ok before
  | v :: rest => do
    let record ← readAt before.length v
    let id := idOf record
    if before.any (idOf · == id) then
      throw (faultAbout id (duplicate id))
    readRecords readAt idOf duplicate (before ++ [record]) rest

/-- The position of the mapping that a location refers to; none if the location refers to none. -/
def readMappingReference (mappings : List (MappingOf Json)) (v : Json) :
    Except Fault (Option Nat) :=
  match v with
  | .null => .ok none
  | v => do
    let id ← readInteger .locationMapping v
    match mappings.findIdx? (·.id == id) with
    | some i => return some i
    | none => throw (faultAbout id (.unknownMapping id))

/-- Reads a line. -/
def readLine (functions : List (FunctionOf Json)) (v : Json) : Except Fault Line := do
  let members ← membersOf v
  let id ← readInteger .lineFunction (valueOf "function_id" members)
  match functions.findIdx? (·.id == id) with
  | some function =>
    let line ← readInteger .lineNumber (valueOf "line" members)
    return { function, line }
  | none => throw (faultAbout id (.unknownFunction id))

/-- Reads the location at a position. -/
def readLocation (mappings : List (MappingOf Json)) (functions : List (FunctionOf Json))
    (position : Nat) (v : Json) : Except Fault Location := do
  let members ← membersOf v
  let mapping ← readMappingReference mappings (valueOf "mapping_id" members)
  let lines ← (← listOf "lines" members).mapM (readLine functions)
  let id ← readId .locationId position members
  let address ← readInteger .locationAddress (valueOf "address" members)
  return { id, address, mapping, lines }

/-- The profile that a document holds. -/
def read (v : Json) : Except Fault RawProfile :=
  match v with
  | .object members => do
    let mappings ← readRecords readMapping (·.id) .duplicateMapping [] (← listOf "mappings" members)
    let functions ←
      readRecords readFunction (·.id) .duplicateFunction [] (← listOf "functions" members)
    let locations ← (← listOf "locations" members).zipIdx.mapM fun (v, position) =>
      readLocation mappings functions position v
    return { mappings, functions, locations }
  | _ => .error (.document .notObject)

/-! ## Writing -/

variable {τ : Type}

/-- A mapping in a document. -/
def ofMapping (label : τ → Json) (m : MappingOf τ) : Json :=
  .object [
    ("id", .int m.id), ("start", .int m.start), ("limit", .int m.limit), ("offset", .int m.offset),
    ("file", label m.file), ("build_id", label m.buildId),
    ("has_functions", .bool m.hasFunctions), ("has_filenames", .bool m.hasFilenames),
    ("has_line_numbers", .bool m.hasLineNumbers), ("has_inline_frames", .bool m.hasInlineFrames)]

/-- A function in a document. -/
def ofFunction (label : τ → Json) (fn : FunctionOf τ) : Json :=
  .object [
    ("id", .int fn.id), ("name", label fn.name), ("system_name", label fn.systemName),
    ("filename", label fn.filename)]

/-- A reference to the record at a position, by its id. -/
def reference (ids : List Int) (position : Option Nat) : Json :=
  match position.bind (ids[·]?) with
  | some id => .int id
  | none => .null

/-- A line in a document. -/
def ofLine (functionIds : List Int) (line : Line) : Json :=
  .object [("function_id", reference functionIds line.function), ("line", .int line.line)]

/-- A location in a document. -/
def ofLocation (mappingIds functionIds : List Int) (l : Location) : Json :=
  .object [
    ("id", .int l.id), ("mapping_id", reference mappingIds l.mapping), ("address", .int l.address),
    ("lines", .list (l.lines.map (ofLine functionIds)))]

/-- The document of a profile. -/
def ofProfile (label : τ → Json) (p : ProfileOf τ) : Json :=
  .object [
    ("mappings", .list (p.mappings.map (ofMapping label))),
    ("functions", .list (p.functions.map (ofFunction label))),
    ("locations",
      .list (p.locations.map (ofLocation (p.mappings.map (·.id)) (p.functions.map (·.id)))))]

/-! ## The text of a document -/

/-- The fault of a flaw in a text. -/
def faultOfFlaw (path : String) (s : List Char) : Json.Flaw → Fault
  | .malformed complaint rest => .document (.notJson path complaint (Json.placeOf s rest))
  | .integerTooLong digits => .numeralTooLong digits
  | .nestedTooDeep kind => .nestedTooDeep kind

/-- The document that the bytes of a file hold. -/
def parse (path : String) (bytes : List UInt8) : Except Fault Json := do
  let s ← (Utf8.decode bytes).mapError Fault.undecodable
  let s := unifyNewlines s
  (Json.readDocument s).mapError (faultOfFlaw path s)

end Document

end Symbolication
