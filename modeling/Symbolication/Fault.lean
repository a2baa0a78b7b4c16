import Symbolication.Elf.LoadBase
import Symbolication.Json.Reader
import Symbolication.Text.Utf8
import Symbolication.Url.Basic

/-!
# Symbolication.Fault

Why an action fails. Each cause is a constructor, and `Fault.message` is the one
place for their wording.

* `Fault.isSystem`, `Fault.isRemote`, `Fault.endsPass`: the families by which
  faults are caught.
-/

namespace Symbolication

open Number Text

/-- A fault of the system: files, processes and the network. -/
inductive SystemFault where
  | notFound (path : String)
  | denied (path : String)
  | notDirectory (path : String)
  | isDirectory (path : String)
  | nameTooLong (path : String)
  | unreachable (detail : String)
  | timedOut (detail : String)
  | connectionReset (detail : String)
  | other (detail : String)
deriving DecidableEq, Repr

namespace SystemFault

/-- What is wrong with a file, as the system puts it: the number of the fault, its text, and the
file. -/
def fileFault? : SystemFault → Option (Nat × String × String)
  | notFound path => some (2, "No such file or directory", path)
  | denied path => some (13, "Permission denied", path)
  | notDirectory path => some (20, "Not a directory", path)
  | isDirectory path => some (21, "Is a directory", path)
  | nameTooLong path => some (36, "File name too long", path)
  | _ => none

/-- The wording of a fault. -/
def message (f : SystemFault) : String :=
  match f.fileFault?, f with
  | some (number, text, path), _ => s!"[Errno {number}] {text}: {quotedString path}"
  | none, unreachable detail => "<urlopen error " ++ detail ++ ">"
  | none, timedOut detail => detail
  | none, connectionReset detail => detail
  | none, other detail => detail
  | none, _ => ""

/-- What is wrong, without the number and the file. -/
def reason (f : SystemFault) : String :=
  match f.fileFault? with
  | some (_, text, _) => text
  | none => f.message

end SystemFault

/-- Why the binary of a mapping cannot be opened. -/
inductive OpenFault where
  | unreadable (path : String) (cause : SystemFault)
  | malformed (path : String) (flaw : Elf.Flaw)
  | unsupportedType (type : Elf.ObjectType)
  | other (detail : String)
deriving DecidableEq, Repr

/-- The wording of a cause. -/
def OpenFault.message : OpenFault → String
  | unreadable path cause => path ++ ": " ++ cause.reason
  | malformed path flaw => path ++ ": " ++ flaw.text
  | unsupportedType type => "unsupported ELF type " ++ type.name
  | other detail => detail

/-- Why the frames of an address cannot be found. -/
inductive LookupFault where
  | closed (path : String)
  | toolMissing (tool : String)
  | toolNotStarted (tool : String) (cause : SystemFault)
  | toolFailed (tool path : String) (status : Int) (complaint : String)
  | other (detail : String)
deriving DecidableEq, Repr

/-- The wording of a cause. -/
def LookupFault.message : LookupFault → String
  | closed path => path ++ ": segment is closed"
  | toolMissing tool => tool ++ " not found"
  | toolNotStarted tool cause => "failed to run " ++ tool ++ ": " ++ cause.message
  | toolFailed tool path status complaint =>
    s!"{tool} exited with code {status} for {path}: {complaint}"
  | other detail => detail

/-- The fields of a profile document that hold integers. -/
inductive IntegerField where
  | mappingId
  | mappingStart
  | mappingLimit
  | mappingOffset
  | functionId
  | locationMapping
  | lineFunction
  | lineNumber
  | locationId
  | locationAddress
deriving DecidableEq, Repr

/-- The field as messages name it. -/
def IntegerField.name : IntegerField → String
  | mappingId => "mapping id"
  | mappingStart => "mapping start"
  | mappingLimit => "mapping limit"
  | mappingOffset => "mapping offset"
  | functionId => "function id"
  | locationMapping => "location mapping_id"
  | lineFunction => "line function_id"
  | lineNumber => "line number"
  | locationId => "location id"
  | locationAddress => "location address"

/-- Why a document is no profile. -/
inductive DocumentFault where
  | notJson (path : String) (complaint : Json.Complaint) (place : Json.Place)
  | notObject
  | notInteger (field : IntegerField) (found : Json)
  | duplicateMapping (id : Int)
  | duplicateFunction (id : Int)
  | unknownMapping (id : Int)
  | unknownFunction (id : Int)
deriving Repr

/-- The wording of a cause. -/
def DocumentFault.message : DocumentFault → String
  | notJson path complaint place =>
    path ++ ": invalid JSON: " ++ complaint.text ++ ": " ++ place.text
  | notObject => "profile document must be a JSON object"
  | notInteger field found => field.name ++ ": expected integer, got " ++ found.quoted
  | duplicateMapping id => s!"duplicate mapping id {id}"
  | duplicateFunction id => s!"duplicate function id {id}"
  | unknownMapping id => s!"location references unknown mapping {id}"
  | unknownFunction id => s!"line references unknown function {id}"

/-- What can be left out where it is to be given. -/
inductive Omission where
  | directive
  | source
  | tool
deriving DecidableEq, Repr

/-- The wording for what was left out. -/
def Omission.message : Omission → String
  | directive => "'list' object has no attribute 'lower'"
  | source | tool => "unhashable type: 'list'"

/-- Why an action fails. -/
inductive Fault where
  | objectOpen (cause : OpenFault)
  | lookup (cause : LookupFault)
  | pass (detail : String)
  | serverRefused (status : Int) (reason : String)
  | serverUnreachable (server : String) (cause : SystemFault)
  /-- No symbol server answered; the last one failed so. -/
  | serversFailed (last : Fault)
  | noServers
  | remote (detail : String)
  | system (cause : SystemFault)
  | document (cause : DocumentFault)
  /-- A value of a document has no members. -/
  | noMembers (kind : Json.Kind)
  /-- A value of a document cannot be walked through. -/
  | notIterable (kind : Json.Kind)
  /-- The name of a file is no text. -/
  | notText (kind : Json.Kind)
  /-- The name of a function is no text. -/
  | notName (kind : Json.Kind)
  /-- Nothing can be kept under a label. -/
  | notKey (kind : Json.Kind)
  | leftOut (what : Omission)
  | nestedTooDeep (kind : Json.Kind)
  /-- A file, or what a tool has written, is no UTF-8. -/
  | undecodable (cause : Utf8.Fault)
  /-- A decimal numeral has too many digits to be read. -/
  | numeralTooLong (digits : Nat)
  /-- An integer has too many digits to be written. -/
  | integerTooLong
  /-- A path, or an argument of a command, holds a zero character. -/
  | embeddedZero
  | url (flaw : Url.Flaw)
  /-- An object file turns out malformed while its symbols are read. -/
  | object (cause : Elf.Fault)
  | value (detail : String)
  | crash (detail : String)
deriving Repr

namespace Fault

/-- The wording of a fault. -/
def message : Fault → String
  | objectOpen cause => cause.message
  | lookup cause => cause.message
  | pass detail => detail
  | serverRefused status reason => s!"server response: {status} {reason}"
  | serverUnreachable server cause => "http post " ++ server ++ ": " ++ cause.message
  | serversFailed last => "remote symbolization failed: " ++ last.message
  | noServers => "no symbolization sources available"
  | remote detail => detail
  | system cause => cause.message
  | document cause => cause.message
  | noMembers kind => "'" ++ kind.name ++ "' object has no attribute 'get'"
  | notIterable kind => "'" ++ kind.name ++ "' object is not iterable"
  | notText kind => "expected str, bytes or os.PathLike object, not " ++ kind.name
  | notName kind => "'" ++ kind.name ++ "' object has no attribute 'startswith'"
  | notKey kind => "unhashable type: '" ++ kind.name ++ "'"
  | leftOut what => what.message
  | nestedTooDeep kind =>
    "maximum recursion depth exceeded while decoding a JSON " ++
      (if kind == .object then "object" else "array") ++ " from a unicode string"
  | undecodable cause => cause.text
  | numeralTooLong digits =>
    s!"Exceeds the limit ({digitLimit} digits) for integer string conversion: " ++
      s!"value has {digits} digits; use sys.set_int_max_str_digits() to increase the limit"
  | integerTooLong =>
    s!"Exceeds the limit ({digitLimit} digits) for integer string conversion; " ++
      "use sys.set_int_max_str_digits() to increase the limit"
  | embeddedZero => "embedded null byte"
  | url flaw => flaw.text
  | object cause => cause.text
  | value detail => detail
  | crash detail => detail

/-- Whether the system is at fault. -/
def isSystem : Fault → Bool
  | system _ => true
  | _ => false

/-- Whether remote symbolization is at fault. -/
def isRemote : Fault → Bool
  | serverRefused .. | serverUnreachable .. | serversFailed _ | noServers | remote _ => true
  | _ => false

/-- Whether the fault is one by which a pass, local or remote, ends in an orderly way. -/
def endsPass : Fault → Bool
  | pass _ => true
  | f => f.isRemote

end Fault

end Symbolication
