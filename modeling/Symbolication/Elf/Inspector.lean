import Symbolication.Elf.BuildId
import Symbolication.Elf.LoadBase
import Symbolication.Files
import Symbolication.Inspector
import Symbolication.Workshop

/-!
# Symbolication.Elf.Inspector

The inspector of ELF objects. Addresses of a profile are taken to addresses of
the object by subtracting the load base. Frames come from a tool that reads line
tables, and are remembered; a segment that was opened in the faster way takes
names of functions from the symbol tables instead.
-/

namespace Symbolication.Elf

variable {ω : Type}

/-- A segment. Its number tells its state in the workshop from those of others. -/
structure Segment where
  number : Nat
  path : String
  /-- The difference between addresses of the profile and of the object. -/
  base : Int
  buildId : String
  /-- Whether only symbol tables are looked at. -/
  fast : Bool
  image : Image
  sections : List Section

namespace Segment

/-- The address in the object of an address of the profile. -/
def objectAddress (s : Segment) (address : Int) : Int :=
  address - s.base

/-- The frames that a symbol table gives for an address of the object. -/
def symbolFrames (symbols : List Symbol) (address : Int) : List Frame :=
  match symbolAt? symbols address with
  | some symbol => [{ func := symbol.name }]
  | none => []

/-- The state of the segment, which has to be open. -/
def state (s : Segment) : Act (Workshop ω) OpenObject := do
  match (← Workshop.look).segment? s.number with
  | some object => return object
  | none => throw (.lookup (.closed s.path))

/-- The functions of the object, which are read when they are first asked for. -/
def symbols (s : Segment) (object : OpenObject) : Act (Workshop ω) (List Symbol) := do
  match object.symbols with
  | some symbols => return symbols
  | none =>
    let symbols ← ExceptT.mk (pure ((s.image.functions s.sections).mapError Fault.object))
    Act.note (.symbolsLoaded symbols.length s.path)
    Workshop.change (·.putSegment s.number { object with symbols := some symbols })
    return symbols

/-- Remembers the frames of object addresses. -/
def remember (s : Segment) (memo : FrameMemo) : Act (Workshop ω) Unit :=
  Workshop.change fun w =>
    w.putSegment s.number { (w.segment? s.number).getD {} with memo }

/-- The frames of an address. -/
def lookup (tools : ToolRunner ω) (tool : Option String) (s : Segment) (address : Int) :
    Act (Workshop ω) (List Frame) := do
  let object ← s.state
  let ask (address : Int) : Act (Workshop ω) (List Frame) :=
    if s.fast then
      return symbolFrames (← s.symbols object) address
    else
      return (← Workshop.outsideAct (Answers.ask tools tool s.path [address])).frames address
  let (memo, frames) ← object.memo.lookup ask (s.objectAddress address)
  s.remember memo
  return frames

/-- Looks up addresses in advance. There is no need to in the faster way. -/
def prefetch (tools : ToolRunner ω) (tool : Option String) (s : Segment) (addresses : List Int) :
    Act (Workshop ω) Unit := do
  let object ← s.state
  if !s.fast then
    let ask (batch : List Int) := Workshop.outsideAct (Answers.ask tools tool s.path batch)
    let (memo, ended) ← object.memo.prefetch ask (addresses.map s.objectAddress)
    s.remember memo
    let count ← ExceptT.mk (pure ended)
    Act.note (.prefetched count s.path)

/-- Closes the segment. -/
def close (s : Segment) : Act (Workshop ω) Unit :=
  Workshop.change (·.dropSegment s.number)

end Segment

/-! ## Opening -/

/-- A fault met while an object is opened. -/
def openFault (path : String) : Fault → Symbolication.Fault
  | .malformed flaw => .objectOpen (.malformed path flaw)
  | fault => .object fault

/-- What is read from an object, where a flaw of it means that it cannot be opened. -/
def reading {α : Type} (path : String) (result : Except Fault α) : Act ω α :=
  ExceptT.mk (pure (result.mapError (openFault path)))

/-- The bytes of an object file. -/
def readObject (files : Files ω) (path : String) : Act ω (List UInt8) :=
  tryCatch (Files.access path files.read) fun
    | .system cause => throw (.objectOpen (.unreadable path cause))
    | fault => throw fault

/-- The build id of an object, empty if its section cannot be read for a flaw. -/
def buildIdOf (path : String) (littleEndian : Bool) (data : Option (Except Fault (List UInt8))) :
    Act ω String := do
  match buildIdOfData littleEndian data with
  | .ok buildId => return buildId
  | .error (.malformed flaw) =>
    Act.note (.noteUnreadable flaw)
    return ""
  | .error fault => throw (openFault path fault)

/-- Opens the object of a region. -/
def openSegment (files : Files ω) (number : Nat) (fast : Bool) (region : Region) :
    Act ω Segment := do
  let path := region.path
  let bytes ← readObject files path
  let image ← reading path (Image.read bytes.toArray)
  let headers ← reading path (image.programHeaders region.start region.limit region.offset)
  let base ←
    match loadBase image.header.type headers region.start region.limit region.offset with
    | .ok base => pure base
    | .error type => throw (.objectOpen (.unsupportedType type))
  let sections ← reading path image.sections
  let note := (findSection? sections buildIdSection).map image.noteData
  let buildId ← buildIdOf path image.littleEndian note
  Act.note (.objectOpened path base buildId fast)
  return { number, path, base, buildId, fast, image, sections }

/-- Opens the object of a region, under the next number. -/
def openNext (files : Files ω) (region : Region) : Act (Workshop ω) Segment := do
  let w ← Workshop.look
  Workshop.change fun w => { w with asked := w.asked + 1 }
  let s ← Workshop.outsideAct (openSegment files w.asked w.fast region)
  Workshop.change (·.putSegment s.number {})
  return s

/-- The inspector of ELF objects; `tool` is the tool that reads line tables, none if it was left
out. -/
def inspector (files : Files ω) (tools : ToolRunner ω) (tool : Option String) :
    Inspector (Workshop ω) Segment where
  openRegion := openNext files
  buildId := (·.buildId)
  lookup := Segment.lookup tools tool
  prefetch? s := some (s.prefetch tools tool)
  close := Segment.close
  fastSwitch? := some {
    isOn := (·.fast)
    set := fun fast => modify fun env => { env with world := { env.world with fast } }
  }

end Symbolication.Elf
