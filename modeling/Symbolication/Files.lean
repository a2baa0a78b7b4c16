import Symbolication.Action
import Symbolication.PathName
import Symbolication.Profile.Document

/-!
# Symbolication.Files

Access to files, and profiles kept in files. A document that cannot be written in
full leaves its beginning in the file.
-/

namespace Symbolication

/-- How a world gives access to its files. -/
structure Files (ω : Type) where
  isFile : String → ω → Except SystemFault Bool
  read : String → ω → Except SystemFault (List UInt8) × ω
  write : String → String → ω → Except SystemFault Unit × ω

namespace Files

variable {ω α : Type}

/-- Checks that a path can be handed to the system at all. -/
def checkPath (path : String) : Except Fault Unit :=
  if path.contains '\x00' then .error .embeddedZero else .ok ()

/-- Uses the file of a path. -/
def access (path : String) (use : String → ω → Except SystemFault α × ω) : Act ω α := do
  ExceptT.mk (pure (checkPath path))
  inWorldTry fun world =>
    let (answer, world) := use path world
    (answer.mapError Fault.system, world)

/-- Whether a path names a file. No path with a zero character does, and none that leads nowhere;
other faults on the way to the file remain faults. -/
def hasFile (files : Files ω) (path : String) : Act ω Bool :=
  ExceptT.mk fun env =>
    let answer : Except Fault Bool :=
      if path.contains '\x00' then .ok false
      else
        match files.isFile path env.world with
        | .error (.notFound _) | .error (.notDirectory _) => .ok false
        | answer => answer.mapError Fault.system
    (answer, env)

/-- Loads the profile document in a file. -/
def loadRaw (files : Files ω) (path : String) : Act ω RawProfile := do
  let path := PathName.plainString path
  Act.note (.loading path)
  let bytes ← access path files.read
  let v ← ExceptT.mk (pure (Document.parse path bytes))
  let p ← ExceptT.mk (pure (Document.read v))
  Act.note (.loaded p.mappings.length p.locations.length p.functions.length path)
  return p

/-- Saves a document in a file. -/
def saveDocument (files : Files ω) (path : String) (v : Json) : Act ω Unit := do
  let path := PathName.plainString path
  Act.note (.writing path)
  access path fun path => files.write path v.written
  if !v.isWritable then
    throw .integerTooLong

end Files

end Symbolication
