import Symbolication.Action
import Symbolication.Name.Simplify

/-!
# Symbolication.Name.Decoder

Decoding mangled C++ names with a tool. The tool is run once for each name and
set of options and its answers are kept; if it does not exist it is not tried
again. The tool can leave out parameters; template arguments and clone marks are
removed from its answers afterwards.
-/

namespace Symbolication

open Name Text

/-- What may be left out of a decoded name. -/
inductive NameOption where
  | noParams
  | noTemplateParams
  | noClones
deriving DecidableEq, Repr

/-- A set of options. -/
structure OptionSet where
  noParams : Bool
  noTemplateParams : Bool
  noClones : Bool
deriving DecidableEq, Repr

/-- The set of the options in a list. -/
def OptionSet.ofList (options : List NameOption) : OptionSet :=
  ⟨options.contains .noParams, options.contains .noTemplateParams, options.contains .noClones⟩

/-- How a world decodes names: a name and the options are given, and a name comes back, the same
one if it cannot be decoded. -/
abbrev Demangler (ω : Type) := String → List NameOption → Act ω String

/-- The names that have been decoded, and whether the tool is known not to exist. -/
structure DecodedNames where
  answers : List ((String × OptionSet) × String) := []
  toolMissing : Bool := false
deriving DecidableEq, Repr

variable {ω : Type}

namespace DecodedNames

/-- Whether the name is a mangled one. -/
def isMangled (name : String) : Bool :=
  "_Z".toList.isPrefixOf name.toList

/-- The command that decodes a name. -/
def command (tool name : String) (options : OptionSet) : Command :=
  { executable := some tool
    arguments := if options.noParams then ["-p", name] else [name] }

/-- What the options leave of a decoded name. -/
def trim (options : OptionSet) (name : String) : String :=
  let name := if options.noTemplateParams then withoutGroups "<" ">" name else name
  if options.noClones then String.ofList (removeCloneMarks name.toList) else name

/-- The answer of the tool, or the name itself if the tool fails or says nothing. None if the tool
does not exist. -/
def readOutcome (tool name : String) : ToolOutcome → Act ω (Option String)
  | .notStarted (.notFound _) => do
    Act.note (.decoderMissing tool)
    return none
  | .notStarted cause => throw (.system cause)
  | .zeroInArgument => throw .embeddedZero
  | .undecodable cause => throw (.undecodable cause)
  | .ended status output complaints =>
    if status != 0 then do
      Act.note (.decoderFailed tool name (String.ofList (strip complaints.toList)))
      return some name
    else
      let answer := String.ofList (strip output.toList)
      return some (if answer.isEmpty then name else answer)

/-- Decodes a name that has not been decoded before. -/
def decodeNew (tools : ToolRunner ω) (tool : String) (known : DecodedNames) (name : String)
    (options : OptionSet) : Act ω (DecodedNames × String) := do
  match ← readOutcome tool name (← runTool tools (command tool name options)) with
  | none =>
    return ({ answers := ((name, options), name) :: known.answers, toolMissing := true }, name)
  | some answer =>
    let decoded := if answer == name then name else trim options answer
    return ({ known with answers := ((name, options), decoded) :: known.answers }, decoded)

/-- Decodes a name, from what is known if possible. Names that are not mangled are left alone. -/
def decode (tools : ToolRunner ω) (tool : String) (known : DecodedNames) (name : String)
    (options : List NameOption) : Act ω (DecodedNames × String) :=
  let options := OptionSet.ofList options
  if !isMangled name || known.toolMissing then
    return (known, name)
  else
    match known.answers.lookup (name, options) with
    | some answer => return (known, answer)
    | none => decodeNew tools tool known name options

end DecodedNames

end Symbolication
