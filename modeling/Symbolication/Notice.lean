import Symbolication.Directive
import Symbolication.Fault

/-!
# Symbolication.Notice

What a run reports while it works: each notice has a level, a topic and a text.
-/

namespace Symbolication

open Number

/-- How important a notice is. -/
inductive Level where
  | debug
  | info
  | warning
  | error
deriving DecidableEq, Repr

/-- The level as it is written. -/
def Level.name : Level → String
  | debug => "DEBUG"
  | info => "INFO"
  | warning => "WARNING"
  | error => "ERROR"

/-- What a notice is about. -/
inductive Topic where
  | directive
  | document
  | mappings
  | objects
  | frames
  | servers
  | names
  | command
deriving DecidableEq, Repr

/-- A notice. -/
inductive Notice where
  | unknownWord (text : String)
  | directiveUsage
  | loading (path : String)
  | loaded (mappings locations functions : Nat) (path : String)
  | writing (path : String)
  | closeFailed (file : String) (cause : Fault)
  | alreadySymbolized (id : Int)
  | mainBinaryUnnamed
  | openFailed (name : String) (cause : Fault)
  | buildIdMismatch (name : String)
  | binariesUnnamed
  | opened (count referenced : Nat)
  | noteUnreadable (cause : Elf.Flaw)
  | objectOpened (path : String) (base : Int) (buildId : String) (fast : Bool)
  | symbolsLoaded (count : Nat) (path : String)
  | prefetched (count : Nat) (path : String)
  | batchFailed (file : String) (cause : Fault)
  | lookupFailed (address : Int) (file : String) (cause : Fault)
  | framesFound (resolved total added : Nat)
  | localFailed (cause : Fault)
  | serverFailed (url : String) (cause : Fault)
  | serverAnswered (updated : Nat) (file url : String)
  | decoderMissing (tool : String)
  | decoderFailed (tool name complaint : String)
  | namesDecoded (changed total : Nat) (style : NameStyle)
  | profileMissing (path : String)
  | loadFailed (path : String) (cause : Fault)
  | binaryIgnored
  | runFailed (cause : Fault)
  | writingReport (path : String)
deriving Repr

namespace Notice

/-- How important a notice is. -/
def level : Notice → Level
  | unknownWord _ | directiveUsage | closeFailed .. | mainBinaryUnnamed | openFailed ..
  | buildIdMismatch _ | binariesUnnamed | noteUnreadable _ | batchFailed .. | localFailed _
  | serverFailed .. | decoderMissing _ | binaryIgnored => .warning
  | alreadySymbolized _ | objectOpened .. | symbolsLoaded .. | prefetched .. | lookupFailed ..
  | decoderFailed .. => .debug
  | loading _ | loaded .. | writing _ | opened .. | framesFound .. | serverAnswered ..
  | namesDecoded .. | writingReport _ => .info
  | profileMissing _ | loadFailed .. | runFailed _ => .error

/-- What a notice is about. -/
def topic : Notice → Topic
  | unknownWord _ | directiveUsage => .directive
  | loading _ | loaded .. | writing _ => .document
  | closeFailed .. | alreadySymbolized _ | mainBinaryUnnamed | openFailed .. | buildIdMismatch _
  | binariesUnnamed | opened .. => .mappings
  | noteUnreadable _ | objectOpened .. | symbolsLoaded .. | prefetched .. => .objects
  | batchFailed .. | lookupFailed .. | framesFound .. | localFailed _ => .frames
  | serverFailed .. | serverAnswered .. => .servers
  | decoderMissing _ | decoderFailed .. | namesDecoded .. => .names
  | profileMissing _ | loadFailed .. | binaryIgnored | runFailed _ | writingReport _ => .command

/-- The text of a notice. -/
def text : Notice → String
  | unknownWord text => "ignoring unrecognized symbolization option: " ++ text
  | directiveUsage => "expecting -symbolize=" ++ Directive.usage
  | loading path => "Loading profile: " ++ path
  | loaded mappings locations functions path =>
    s!"Loaded {mappings} mappings, {locations} locations, {functions} functions from {path}"
  | writing path => "Writing profile: " ++ path
  | closeFailed file cause => "Failed to close segment for " ++ file ++ ": " ++ cause.message
  | alreadySymbolized id => s!"Mapping {id} already symbolized, skipping"
  | mainBinaryUnnamed =>
    "Main binary filename not available.\n" ++
      "Try passing the path to the main binary with --binary."
  | openFailed name cause => "Local symbolization failed for " ++ name ++ ": " ++ cause.message
  | buildIdMismatch name => "Local symbolization failed for " ++ name ++ ": build ID mismatch"
  | binariesUnnamed => "Some binary filenames not available. Symbolization may be incomplete."
  | opened count referenced => s!"Opened {count} of {referenced} referenced mappings"
  | noteUnreadable cause => "Failed to read .note.gnu.build-id: " ++ cause.text
  | objectOpened path base buildId fast =>
    let buildId := if buildId.isEmpty then "None" else buildId
    let fast := if fast then "True" else "False"
    s!"Opened {path} (base={hex base}, build-id={buildId}, fast={fast})"
  | symbolsLoaded count path => s!"Loaded {count} function symbols from {path}"
  | prefetched count path => s!"Prefetched {count} addresses from {path}"
  | batchFailed file cause =>
    "Batch lookup failed for " ++ file ++ ", falling back to single lookups: " ++ cause.message
  | lookupFailed address file cause =>
    "No frames for " ++ hex address ++ " in " ++ file ++ ": " ++ cause.message
  | framesFound resolved total added =>
    s!"Locally symbolized {resolved} of {total} locations ({added} new functions)"
  | localFailed cause => "Local symbolization failed: " ++ cause.message
  | serverFailed url cause =>
    "Remote symbolization via " ++ url ++ " failed: " ++ cause.message
  | serverAnswered updated file url =>
    let file := if file.isEmpty then "<main>" else file
    s!"Symbolized {updated} locations of {file} via {url}"
  | decoderMissing tool => tool ++ " not found; names will not be demangled"
  | decoderFailed tool name complaint => tool ++ " failed for " ++ name ++ ": " ++ complaint
  | namesDecoded changed total style =>
    s!"Demangled {changed} of {total} function names (mode={style.name})"
  | profileMissing path => "Profile does not exist: " ++ path
  | loadFailed path cause => "Failed to load profile " ++ path ++ ": " ++ cause.message
  | binaryIgnored => "Profile has no mappings; ignoring --binary."
  | runFailed cause => cause.message
  | writingReport path => "Writing report to: " ++ path

end Notice

end Symbolication
