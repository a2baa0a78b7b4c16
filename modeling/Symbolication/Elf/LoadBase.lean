import Symbolication.Elf.SectionTable

/-!
# Symbolication.Elf.LoadBase

The difference between the addresses of a running process and those in the
object file. Executable files are loaded where they were linked. For shared
objects the difference follows from the segment that the mapping shows: the
first one to be loaded whose part of the file holds the mapping's offset, else
the first executable one.

* `searchSegment_eq`: what one pass over the segments finds, whatever has been kept before.
-/

namespace Symbolication.Elf

/-- The header of a segment. Places and sizes are integers, since they are reckoned with addresses
of profiles, which may be negative. -/
structure ProgramHeader where
  type : Nat
  offset : Int
  /-- Its link-time address. -/
  address : Int
  fileSize : Int
  flags : Int
deriving DecidableEq, Repr

namespace ProgramHeader

/-- The type of segments to be loaded. -/
def load : Nat := 1

/-- The type of segments with what dynamic linking needs. -/
def dynamic : Nat := 2

/-- The size of a program header in a file. -/
def width (wide : Bool) : Nat :=
  if wide then 56 else 32

/-- Whether the segment is to be loaded. -/
def isLoad (h : ProgramHeader) : Bool :=
  h.type == load

/-- Whether the segment may be executed. -/
def isExecutable (h : ProgramHeader) : Bool :=
  h.flags % 2 == 1

/-- Whether the segment is to be loaded and its part of the file, taken to have at least one byte,
holds an offset. -/
def holds (h : ProgramHeader) (offset : Int) : Bool :=
  h.isLoad && h.offset ≤ offset && offset < h.offset + max h.fileSize 1

end ProgramHeader

/-- The search for the segment that a mapping at a file offset shows, with what has been kept of the
segments before. One that holds the offset ends the search, whatever was kept; as long as nothing is
kept, one that is loaded for execution is. -/
def searchSegment (offset : Int) (kept : Option ProgramHeader) :
    List ProgramHeader → Option ProgramHeader
  | [] => kept
  | h :: rest =>
    if !h.isLoad then searchSegment offset kept rest
    else if h.holds offset then some h
    else if kept.isNone && h.isExecutable then searchSegment offset (some h) rest
    else searchSegment offset kept rest

/-- The segment that a mapping at a file offset shows. -/
def chooseSegment (offset : Int) (headers : List ProgramHeader) : Option ProgramHeader :=
  searchSegment offset none headers

/-- A segment that is not loaded holds no offset. -/
theorem ProgramHeader.holds_eq_false {h : ProgramHeader} (hload : h.isLoad = false)
    (offset : Int) : h.holds offset = false := by
  simp [holds, hload]

/-- What a search finds: the first segment that holds the offset, else what was kept, else the first
that is loaded for execution. -/
theorem searchSegment_eq (offset : Int) (kept : Option ProgramHeader)
    (headers : List ProgramHeader) :
    searchSegment offset kept headers =
      (headers.find? (·.holds offset)).or
        (kept.or (headers.find? fun h => h.isLoad && h.isExecutable)) := by
  induction headers generalizing kept with
  | nil => simp [searchSegment]
  | cons h rest ih =>
    rw [searchSegment, List.find?_cons, List.find?_cons]
    cases hload : h.isLoad with
    | false => simp [ProgramHeader.holds_eq_false hload, ih]
    | true =>
      cases hholds : h.holds offset with
      | true => simp
      | false =>
        -- What is kept from here on is in front of whatever the rest has for execution.
        cases kept <;> cases hexec : h.isExecutable <;> simp [ih]

/-- The segment chosen is the first that holds the offset, wherever it stands, else the first that
is loaded for execution. -/
theorem chooseSegment_eq (offset : Int) (headers : List ProgramHeader) :
    chooseSegment offset headers =
      (headers.find? (·.holds offset)).or
        (headers.find? fun h => h.isLoad && h.isExecutable) := by
  rw [chooseSegment, searchSegment_eq, Option.none_or]

/-- The difference between addresses of the process and of the object, for a mapping from `start`
that shows the file from `offset` on. -/
def baseOf (start offset : Int) : Option ProgramHeader → Int
  | none => start - offset
  | some h => start - offset + h.offset - h.address

/-- The load base of an object of a given type, or that type if none can be computed. A mapping
without addresses leaves object addresses as they are. -/
def loadBase (type : ObjectType) (headers : List ProgramHeader) (start limit offset : Int) :
    Except ObjectType Int :=
  match type with
  | .executable => .ok 0
  | .shared =>
    if start == 0 && limit == 0 then .ok 0
    else .ok (baseOf start offset (chooseSegment offset headers))
  | type => .error type

/-- Reads the header of a segment. -/
def Source.readProgramHeader (src : Source) : FieldReader ProgramHeader := do
  let type ← src.word
  if src.wide then
    let flags ← src.word
    let offset ← src.long
    let address ← src.long
    let _physical ← src.long
    let fileSize ← src.long
    let _memorySize ← src.long
    let _alignment ← src.long
    return { type, offset, address, fileSize, flags }
  else
    let offset ← src.long
    let address ← src.long
    let _physical ← src.long
    let fileSize ← src.word
    let _memorySize ← src.word
    let flags ← src.word
    let _alignment ← src.word
    return { type, offset, address, fileSize, flags }

namespace Image

/-- The number of segments. -/
def programCount (image : Image) : Except Fault Nat := do
  if image.header.programCount < 0xFFFF then
    return image.header.programCount
  else
    return (← image.readSection 0).header.info

/-- Reads the header of a segment. -/
def programHeader (image : Image) (index : Nat) : Except Fault ProgramHeader :=
  let h := image.header
  if 0 < h.programOffset && h.programEntrySize < ProgramHeader.width image.wide then
    .error (.malformed (.smallProgramEntries h.programEntrySize))
  else
    Source.readAt (h.programOffset + index * h.programEntrySize) image.readProgramHeader

/-- Reads the header of a segment, and for a segment with what dynamic linking needs also the
sections up to the one that shows it. -/
def segment (image : Image) (index : Nat) : Except Fault ProgramHeader := do
  let h ← image.programHeader index
  if h.type == ProgramHeader.dynamic then
    let _section ← image.findDynamic h.offset
  return h

/-- Reads `count` program headers from `index` on, up to the first that holds the offset. -/
def programHeadersFrom (image : Image) (offset : Int) (index : Nat) :
    Nat → Except Fault (List ProgramHeader)
  | 0 => .ok []
  | count + 1 => do
    let h ← image.segment index
    if h.holds offset then
      return [h]
    else
      return h :: (← image.programHeadersFrom offset (index + 1) count)

/-- Reads the program headers that decide on the load base of a mapping; none where the type of the
object or a mapping without addresses decides. -/
def programHeaders (image : Image) (start limit offset : Int) :
    Except Fault (List ProgramHeader) := do
  if image.header.type == .shared && !(start == 0 && limit == 0) then
    image.programHeadersFrom offset 0 (← image.programCount)
  else
    return []

end Image

end Symbolication.Elf
