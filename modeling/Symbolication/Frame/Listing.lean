import Symbolication.Action
import Symbolication.Frame.Basic
import Symbolication.Number.Hexadecimal
import Symbolication.Number.Numeral
import Symbolication.Text.Blank
import Symbolication.Text.Lines

/-!
# Symbolication.Frame.Listing

The listings in which a tool answers for many addresses. A line with an address
opens a block; in it lines come in pairs, a function and a place in a source
file. What comes before the first address is ignored, blocks of one address count
as one, and a line without its partner is dropped.
-/

namespace Symbolication

open Number Text

namespace Listing

/-- What is not known, in a listing. -/
def unknown : List Char := ['?', '?']

/-- A name from a listing; empty if it is not known. -/
def knownName (s : List Char) : String :=
  if s == unknown then "" else String.ofList s

/-! ## Places -/

/-- Whether the text is at its end, apart from a line feed. -/
def atEnd (s : List Char) : Bool :=
  s.isEmpty || s == ['\n']

/-- Whether the text is a discriminator, which tells several parts of a line apart, in parentheses
and after white space, and then at its end. -/
def isDiscriminator (s : List Char) : Bool :=
  let label := "(discriminator ".toList
  let rest := s.dropWhile isBlank
  let number := rest.drop label.length
  rest.length < s.length && label.isPrefixOf rest &&
    match number.takeWhile isDecimalDigit, number.dropWhile isDecimalDigit with
    | _ :: _, ')' :: rest => atEnd rest
    | _, _ => false

/-- The digits of the line number that a text consists of; none for a question mark. A
discriminator may follow. -/
def lineDigits? (s : List Char) : Option (List Char) :=
  let (digits, rest) :=
    match s with
    | '?' :: rest => ([], rest)
    | s => (s.takeWhile isDecimalDigit, s.dropWhile isDecimalDigit)
  if (digits.isEmpty && s.head? != some '?') then none
  else if atEnd rest || isDiscriminator rest then some digits
  else none

/-- The file and the digits of the line number of a place. They stand around the last colon that a
line number follows, in the first line of the text. -/
def splitPlace? : List Char → Option (List Char × List Char)
  | [] => none
  | c :: rest =>
    match if c == '\n' then none else splitPlace? rest with
    | some (file, digits) => some (c :: file, digits)
    | none => if c == ':' then (lineDigits? rest).map fun digits => ([], digits) else none

/-! ## Frames -/

/-- The frame of a function and a place. -/
def readFrame (func place : List Char) : Except Fault Frame :=
  match splitPlace? place with
  | none => .ok { func := knownName func }
  | some (file, digits) => do
    let line ← (readDecimal digits).mapError Fault.numeralTooLong
    return { func := knownName func, file := knownName file, line }

/-- The frames of lines that come in pairs. -/
def readPairs : List (List Char) → Except Fault (List Frame)
  | func :: place :: rest => do
    let frame ← readFrame func place
    return frame :: (← readPairs rest)
  | _ => .ok []

/-- The frames of a block; none if nothing is known of any of them. -/
def readFrames (lines : List (List Char)) : Except Fault (List Frame) :=
  dropBlankStack <$> readPairs lines

/-! ## Blocks -/

/-- The address that a line consists of. -/
def headerAddress? : List Char → Option Nat
  | '0' :: 'x' :: digits =>
    if !digits.isEmpty && digits.all isHexDigit then some (readHex digits) else none
  | _ => none

/-- The lines before the first address, and the addresses with the lines up to the next one. -/
def sections : List (List Char) → List (List Char) × List (Nat × List (List Char))
  | [] => ([], [])
  | line :: rest =>
    let (lead, found) := sections rest
    match headerAddress? line with
    | some address => ([], (address, lead) :: found)
    | none => (line :: lead, found)

/-- The blocks with further lines for an address. -/
def addLines (address : Nat) (lines : List (List Char)) :
    List (Nat × List (List Char)) → List (Nat × List (List Char))
  | [] => [(address, lines)]
  | block :: rest =>
    if block.1 == address then (address, block.2 ++ lines) :: rest
    else block :: addLines address lines rest

/-- The blocks of sections: one for each address, in the order in which addresses first appear. -/
def blocks (found : List (Nat × List (List Char))) : List (Nat × List (List Char)) :=
  found.foldl (fun blocks s => addLines s.1 s.2 blocks) []

/-- The lines of a listing, without the white space around them. -/
def linesOf (output : List Char) : List (List Char) :=
  (splitLines output).map strip

end Listing

/-- The frames that a tool found for addresses, in the order in which it listed them. -/
abbrev Answers := List (Int × List Frame)

namespace Answers

/-- The frames of an address; none if the tool said nothing about it. -/
def frames (answers : Answers) (address : Int) : List Frame :=
  (answers.lookup address).getD []

/-- The answers in a listing. -/
def ofListing (output : List Char) : Except Fault Answers :=
  (Listing.blocks (Listing.sections (Listing.linesOf output)).2).mapM fun (address, lines) => do
    return ((address : Int), ← Listing.readFrames lines)

variable {ω : Type}

/-- The command that lists frames for addresses of an object. -/
def command (tool : Option String) (path : String) (addresses : List Int) : Command :=
  { executable := tool
    arguments := ["-a", "-f", "-i", "-e", path] ++ addresses.map hex }

/-- The answers in what became of the command. -/
def ofOutcome (tool path : String) : ToolOutcome → Except Fault Answers
  | .notStarted (.notFound _) => .error (.lookup (.toolMissing tool))
  | .notStarted cause => .error (.lookup (.toolNotStarted tool cause))
  | .zeroInArgument => .error .embeddedZero
  | .undecodable cause => .error (.undecodable cause)
  | .ended status output complaints =>
    if status != 0 then
      .error (.lookup (.toolFailed tool path status (String.ofList (strip complaints.toList))))
    else
      ofListing output.toList

/-- Asks the tool about addresses of an object. A tool that was left out cannot be asked. -/
def ask (tools : ToolRunner ω) (tool : Option String) (path : String) (addresses : List Int) :
    Act ω Answers := do
  let outcome ← runTool tools (command tool path addresses)
  match tool with
  | some tool => ExceptT.mk (pure (ofOutcome tool path outcome))
  | none => throw (.leftOut .tool)

end Answers

end Symbolication
