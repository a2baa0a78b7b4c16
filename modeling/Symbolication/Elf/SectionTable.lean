import Symbolication.Elf.Section
import Symbolication.Text.Utf8

/-!
# Symbolication.Elf.SectionTable

The table of sections. A section is found by its name, and looking for one reads
all of them, so that a flaw in any section is a flaw of the file. Sections are
checked when they are read: a symbol table has a string table and is a whole
number of entries, and others have the entries and the links that their types
ask for.
-/

namespace Symbolication.Elf

open Text

namespace Image

/-! ## Headers -/

/-- The offset of a section header. -/
def sectionPlace (image : Image) (index : Nat) : Except Fault Nat :=
  let h := image.header
  if 0 < h.sectionOffset && h.sectionEntrySize < SectionHeader.width image.wide then
    .error (.malformed (.smallSectionEntries h.sectionEntrySize))
  else
    .ok (h.sectionOffset + index * h.sectionEntrySize)

/-- The header of a section, which may not begin beyond the end of the file. -/
def sectionHeader (image : Image) (index : Nat) : Except Fault SectionHeader := do
  let place ← image.sectionPlace index
  if image.bytes.size < place then
    throw (.malformed (.sectionBeyondEnd index place image.bytes.size))
  else
    Source.readAt place image.readSectionHeader

/-- The number of sections. It stands in the header of section zero if it is too large for the
file's header. -/
def sectionCount (image : Image) : Except Fault Nat := do
  if image.header.sectionOffset == 0 then
    return 0
  else if image.header.sectionCount == 0 then
    return (← image.sectionHeader 0).size
  else
    return image.header.sectionCount

/-- The index of the section with the section names. It stands in the header of section zero if it
is too large for the file's header. -/
def namesIndex (image : Image) : Except Fault Nat := do
  if image.header.namesIndex == 0xFFFF then
    return (← image.sectionHeader 0).link
  else
    return image.header.namesIndex

/-- The header of the section with the section names, none if it cannot be read. -/
def namesHeader? (image : Image) : Option SectionHeader :=
  (image.namesIndex >>= image.sectionHeader).toOption

/-! ## Names -/

/-- A string of a string table; empty if it is not ended by a zero byte. -/
def stringAt (image : Image) (table : SectionHeader) (offset : Nat) : Except Fault String := do
  return String.ofList (Utf8.decodeLossy (← image.cString (table.offset + offset)))

/-- How a section's data are compressed, if they are. -/
def compression (image : Image) (h : SectionHeader) : Except Fault (Option Compression) :=
  if h.isCompressed then
    some <$> Source.readAt h.offset image.readCompression
  else
    .ok none

/-- The name of a section. -/
def sectionName (image : Image) (h : SectionHeader) : Except Fault String := do
  match image.namesHeader? with
  | some table =>
    let _compression ← image.compression table
    image.stringAt table h.nameOffset
  | none => throw (.malformed .noSectionNames)

/-! ## Checks -/

/-- The name of the section's type. -/
def typeName (image : Image) (h : SectionHeader) : String :=
  SectionType.name image.header.machine h.type

/-- The string table that a section is linked with. -/
def linkedStrings (image : Image) (h : SectionHeader) : Except Fault SectionHeader := do
  let linked ← image.sectionHeader h.link
  if linked.type != SectionType.strings then
    throw (.malformed (.notStrings h.link (image.typeName linked)))
  let _name ← image.sectionName linked
  let _compression ← image.compression linked
  return linked

/-- Reads a symbol table. -/
def readSymbolTable (image : Image) (name : String) (header : SectionHeader) :
    Except Fault Section := do
  let strings ← image.linkedStrings header
  let compression ← image.compression header
  if header.entrySize == 0 then
    throw (.malformed (.noEntrySize name))
  if header.size % header.entrySize != 0 then
    throw (.malformed (.brokenEntries name))
  return { name, header, compression, strings := some strings }

/-- Checks the symbol table that a section is linked with. -/
def checkLinkedSymbols (image : Image) (h : SectionHeader) : Except Fault Unit := do
  let linked ← image.sectionHeader h.link
  if linked.type != SectionType.symbols && linked.type != SectionType.dynamicSymbols then
    throw (.malformed (.notSymbols h.link (image.typeName linked)))
  let _table ← image.readSymbolTable (← image.sectionName linked) linked

/-- Checks the section that a dynamic section is linked with. -/
def checkLinkedDynamic (image : Image) (h : SectionHeader) : Except Fault Unit := do
  let linked ← image.sectionHeader h.link
  if linked.type != SectionType.strings && linked.type != SectionType.noBits &&
      linked.type != SectionType.null then
    throw (.malformed (.notForDynamic (image.typeName linked)))
  let _name ← image.sectionName linked
  let _compression ← image.compression linked

/-- The size of a relocation. -/
def relocationWidth (wide addend : Bool) : Nat :=
  (if addend then 3 else 2) * (if wide then 8 else 4)

/-- Checks the size of a section's entries, where its type asks for one. -/
def checkEntries (image : Image) (h : SectionHeader) : Except Fault Unit :=
  let address := if image.wide then 8 else 4
  let isRelocation :=
    h.type == SectionType.relocations || h.type == SectionType.relocationsWithAddends
  let width := relocationWidth image.wide (h.type == SectionType.relocationsWithAddends)
  if isRelocation && h.entrySize != width then
    .error (.malformed (.relocationEntrySize (image.typeName h) width))
  else if h.type == SectionType.relativeRelocations && h.entrySize != address then
    .error (.malformed (.relativeEntrySize address h.entrySize))
  else
    .ok ()

/-- Checks the version of the attributes of an object, which is a letter in front of them. -/
def checkAttributes (image : Image) (h : SectionHeader) : Except Fault Unit := do
  let version ← Source.readAt h.offset image.byte
  if version != 'A'.toNat then
    throw (.malformed (.attributesVersion version))

/-! ## Hash tables -/

/-- Skips `count` fields of a table of `total` fields. -/
def skipFields (src : Source) (total width : Nat) : Nat → FieldReader Unit
  | 0 => return ()
  | count + 1 => fun offset =>
    match src.field width offset with
    | .ok (_, offset) => skipFields src total width count offset
    | .error (.malformed (.cutOff width left)) =>
      .error (.malformed (.tableCutOff total (total - (count + 1)) width left))
    | .error fault => .error fault

/-- Skips a hash table of symbols. -/
def skipHashTable (src : Source) : FieldReader Unit := do
  let buckets ← src.word
  let chains ← src.word
  skipFields src buckets 4 buckets
  skipFields src chains 4 chains

/-- Skips a hash table of symbols with a filter in front. -/
def skipFilteredHashTable (src : Source) : FieldReader Unit := do
  let buckets ← src.word
  let _first ← src.word
  let filter ← src.word
  let _shift ← src.word
  skipFields src filter (if src.wide then 8 else 4) filter
  skipFields src buckets 4 buckets

/-! ## Sections -/

/-- Reads a section that is no symbol table. -/
def readOther (image : Image) (name : String) (header : SectionHeader) :
    Except Fault Section := do
  let type := header.type
  if type == SectionType.versionsDefined || type == SectionType.versionsNeeded then
    let _strings ← image.linkedStrings header
  if [SectionType.symbolVersions, SectionType.symbolInformation, SectionType.hashTable,
      SectionType.filteredHashTable].contains type then
    image.checkLinkedSymbols header
  let compression ← image.compression header
  image.checkEntries header
  if type == SectionType.dynamic then
    image.checkLinkedDynamic header
  if SectionType.isVersioned image.header.machine type then
    image.checkAttributes header
  if type == SectionType.hashTable && header.size != 0 then
    Source.readAt header.offset (skipHashTable image.toSource)
  if type == SectionType.filteredHashTable then
    Source.readAt header.offset (skipFilteredHashTable image.toSource)
  return { name, header, compression }

/-- Reads a section. -/
def readSection (image : Image) (index : Nat) : Except Fault Section := do
  let header ← image.sectionHeader index
  let name ← image.sectionName header
  if header.isSymbolTable then
    image.readSymbolTable name header
  else
    image.readOther name header

/-- Reads `count` sections from `index` on. -/
def sectionsFrom (image : Image) (index : Nat) : Nat → Except Fault (List Section)
  | 0 => .ok []
  | count + 1 => do
    let s ← image.readSection index
    return s :: (← image.sectionsFrom (index + 1) count)

/-- Looks for the dynamic section whose data begin at an offset, among `count` sections from `index`
on. The sections up to it are read. -/
def findDynamicFrom (image : Image) (offset : Int) (index : Nat) :
    Nat → Except Fault (Option Section)
  | 0 => .ok none
  | count + 1 => do
    let s ← image.readSection index
    if s.header.type == SectionType.dynamic && s.header.offset == offset then
      return some s
    else
      image.findDynamicFrom offset (index + 1) count

/-- Looks for the dynamic section whose data begin at an offset. -/
def findDynamic (image : Image) (offset : Int) : Except Fault (Option Section) := do
  image.findDynamicFrom offset 0 (← image.sectionCount)

/-- Reads all sections. -/
def sections (image : Image) : Except Fault (List Section) := do
  image.sectionsFrom 0 (← image.sectionCount)

end Image

end Symbolication.Elf
