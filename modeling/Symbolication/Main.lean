import Symbolication.CommandLine.Run

/-!
# Symbolication.Main

The program. What the command may need to read is read in advance, the command is
run on that, and then what it wrote is put into files. No tools are started and
no servers are asked: to the command both seem to be missing, so that frames come
from symbol tables alone.
-/

namespace Symbolication.Main

/-- What has been read in advance, and what is to be written. -/
structure Snapshot where
  found : List (String × Except SystemFault (List UInt8)) := []
  written : List (String × String) := []

namespace Snapshot

/-- Reads a file from what was read in advance. -/
def read (path : String) (s : Snapshot) : Except SystemFault (List UInt8) × Snapshot :=
  ((s.found.lookup path).getD (.error (.notFound path)), s)

/-- Puts down what is to be written. -/
def write (path text : String) (s : Snapshot) : Except SystemFault Unit × Snapshot :=
  (.ok (), { s with written := s.written ++ [(path, text)] })

/-- Whether a path names a file: one that can be read, or one to which access is denied. -/
def isFile (path : String) (s : Snapshot) : Except SystemFault Bool :=
  match s.found.lookup path with
  | some (.ok _) | some (.error (.denied _)) => .ok true
  | some (.error (.isDirectory _)) | none => .ok false
  | some (.error fault) => .error fault

/-- The services of a snapshot. -/
def services : Services Snapshot where
  files := { isFile, read, write }
  tools c s := (.notStarted (.notFound (c.executable.getD "")), s)
  transport _ s := (.failed (.system (.unreachable "no network")), s)

end Snapshot

/-- The files that a profile refers to. -/
def binariesOf (profile : List UInt8) : List String :=
  match Document.parse "" profile >>= Document.read with
  | .ok p => p.mappings.filterMap fun m => (Label.text m.file).toOption
  | .error _ => []

/-- The fault of the system behind an error. -/
def faultOf (path : String) : IO.Error → SystemFault
  | .noFileOrDirectory .. => .notFound path
  | .permissionDenied .. => .denied path
  | .inappropriateType .. => .isDirectory path
  | e => .other (toString e)

/-- Reads a file. -/
def fetch (path : String) : IO (Except SystemFault (List UInt8)) := do
  try
    return .ok (← IO.FS.readBinFile path).toList
  catch e =>
    return .error (faultOf path e)

/-- Reads everything that the command may need. -/
def snapshot (texts : List String) : IO Snapshot := do
  match CommandLine.readArguments texts with
  | .error _ => return {}
  | .ok a =>
    let path := PathName.plainString a.profile
    let profile ← fetch path
    let binaries := a.binary :: binariesOf (profile.toOption.getD [])
    let found ← binaries.mapM fun file => return (file, ← fetch file)
    return { found := (path, profile) :: found }

/-- Runs the command, and puts into effect what it did. -/
def run (texts : List String) : IO UInt32 := do
  let (outcome, after) := CommandLine.command Snapshot.services texts (← snapshot texts)
  IO.eprint outcome.reported
  for (path, text) in after.written do
    IO.FS.writeFile path text
  IO.print outcome.printed
  match outcome.status with
  | .ok status => return UInt32.ofNat status.code
  | .error fault =>
    IO.eprintln fault.message
    return 1

end Symbolication.Main

/-- The command line program. -/
def main (texts : List String) : IO UInt32 :=
  Symbolication.Main.run texts
