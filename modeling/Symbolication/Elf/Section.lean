import Symbolication.Elf.Image

/-!
# Symbolication.Elf.Section

The sections of an ELF file: their headers, and what their types are called. Some
types belong to one processor family and mean nothing in the files of others.
-/

namespace Symbolication.Elf

/-- The header of a section. -/
structure SectionHeader where
  nameOffset : Nat
  type : Nat
  flags : Nat
  offset : Nat
  size : Nat
  link : Nat
  /-- A number whose meaning depends on the type. -/
  info : Nat
  entrySize : Nat
deriving DecidableEq, Repr

/-! ## Types -/

namespace SectionType

/-- The type of sections that are not there. -/
def null : Nat := 0

/-- The type of symbol tables. -/
def symbols : Nat := 2

/-- The type of string tables. -/
def strings : Nat := 3

/-- The type of relocations with addends. -/
def relocationsWithAddends : Nat := 4

/-- The type of hash tables of symbols. -/
def hashTable : Nat := 5

/-- The type of what dynamic linking needs. -/
def dynamic : Nat := 6

/-- The type of sections whose data are all zero and take no room in the file. -/
def noBits : Nat := 8

/-- The type of relocations. -/
def relocations : Nat := 9

/-- The type of symbol tables for dynamic linking. -/
def dynamicSymbols : Nat := 11

/-- The type of relative relocations. -/
def relativeRelocations : Nat := 19

/-- The type of symbol tables that complete those for dynamic linking. -/
def localDynamicSymbols : Nat := 0x6FFFFFF3

/-- The type of hash tables of symbols with a filter in front. -/
def filteredHashTable : Nat := 0x6FFFFFF6

/-- The type of further information on symbols. -/
def symbolInformation : Nat := 0x6FFFFFFC

/-- The type of versions that are defined. -/
def versionsDefined : Nat := 0x6FFFFFFD

/-- The type of versions that are needed. -/
def versionsNeeded : Nat := 0x6FFFFFFE

/-- The type of the versions of symbols. -/
def symbolVersions : Nat := 0x6FFFFFFF

/-- The type of the attributes of an object, for the processor families that have them. -/
def attributes : Nat := 0x70000003

/-- The types of sections that all processors have, as messages name them. -/
def names : List (Nat × String) :=
  [(0, "SHT_NULL"), (1, "SHT_PROGBITS"), (2, "SHT_SYMTAB"), (3, "SHT_STRTAB"), (4, "SHT_RELA"),
   (5, "SHT_HASH"), (6, "SHT_DYNAMIC"), (7, "SHT_NOTE"), (8, "SHT_NOBITS"), (9, "SHT_REL"),
   (10, "SHT_SHLIB"), (11, "SHT_DYNSYM"), (14, "SHT_INIT_ARRAY"), (15, "SHT_FINI_ARRAY"),
   (16, "SHT_PREINIT_ARRAY"), (17, "SHT_GROUP"), (18, "SHT_SYMTAB_SHNDX"), (19, "SHT_RELR"),
   (20, "SHT_NUM"), (0x60000000, "SHT_LOOS"), (0x6FFFFFF3, "SHT_SUNW_LDYNSYM"),
   (0x6FFFFFF5, "SHT_GNU_ATTRIBUTES"), (0x6FFFFFF6, "SHT_GNU_HASH"),
   (0x6FFFFFF7, "SHT_GNU_LIBLIST"), (0x6FFFFFFC, "SHT_SUNW_syminfo"),
   (0x6FFFFFFD, "SHT_GNU_verdef"), (0x6FFFFFFE, "SHT_GNU_verneed"),
   (0x6FFFFFFF, "SHT_GNU_versym"), (0x80000000, "SHT_LOUSER"), (0xFFFFFFFF, "SHT_HIUSER")]

/-- The types of sections that belong to a processor family, as messages name them. -/
def ownNames : Machine → List (Nat × String)
  | .mips =>
    [(0x70000000, "SHT_MIPS_LIBLIST"), (0x70000005, "SHT_MIPS_DEBUG"),
     (0x70000006, "SHT_MIPS_REGINFO"), (0x70000007, "SHT_MIPS_PACKAGE"),
     (0x70000008, "SHT_MIPS_PACKSYM"), (0x70000009, "SHT_MIPS_RELD"),
     (0x7000000B, "SHT_MIPS_IFACE"), (0x7000000C, "SHT_MIPS_CONTENT"),
     (0x7000000D, "SHT_MIPS_OPTIONS"), (0x70000010, "SHT_MIPS_SHDR"),
     (0x70000011, "SHT_MIPS_FDESC"), (0x70000012, "SHT_MIPS_EXTSYM"),
     (0x70000013, "SHT_MIPS_DENSE"), (0x70000014, "SHT_MIPS_PDESC"),
     (0x70000015, "SHT_MIPS_LOCSYM"), (0x70000016, "SHT_MIPS_AUXSYM"),
     (0x70000017, "SHT_MIPS_OPTSYM"), (0x70000018, "SHT_MIPS_LOCSTR"),
     (0x70000019, "SHT_MIPS_LINE"), (0x7000001A, "SHT_MIPS_RFDESC"),
     (0x7000001B, "SHT_MIPS_DELTASYM"), (0x7000001C, "SHT_MIPS_DELTAINST"),
     (0x7000001D, "SHT_MIPS_DELTACLASS"), (0x7000001E, "SHT_MIPS_DWARF"),
     (0x7000001F, "SHT_MIPS_DELTADECL"), (0x70000020, "SHT_MIPS_SYMBOL_LIB"),
     (0x70000021, "SHT_MIPS_EVENTS"), (0x70000022, "SHT_MIPS_TRANSLATE"),
     (0x70000023, "SHT_MIPS_PIXIE"), (0x70000024, "SHT_MIPS_XLATE"),
     (0x70000025, "SHT_MIPS_XLATE_DEBUG"), (0x70000026, "SHT_MIPS_WHIRL"),
     (0x70000027, "SHT_MIPS_EH_REGION"), (0x70000028, "SHT_MIPS_XLATE_OLD"),
     (0x70000029, "SHT_MIPS_PDR_EXCEPTION"), (0x7000002A, "SHT_MIPS_ABIFLAGS")]
  | .arm =>
    [(0x70000001, "SHT_ARM_EXIDX"), (0x70000002, "SHT_ARM_PREEMPTMAP"),
     (attributes, "SHT_ARM_ATTRIBUTES"), (0x70000004, "SHT_ARM_DEBUGOVERLAY")]
  | .amd64 => [(0x70000001, "SHT_AMD64_UNWIND")]
  | .aarch64 => [(attributes, "SHT_AARCH64_ATTRIBUTES")]
  | .riscv => [(attributes, "SHT_RISCV_ATTRIBUTES")]
  | .other => []

/-- The name of a type in the files of a processor family; its code if it has no name. -/
def name (machine : Machine) (type : Nat) : String :=
  match (names ++ ownNames machine).lookup type with
  | some name => name
  | none => toString type

/-- Whether sections of a type hold attributes of which the version is known. -/
def isVersioned (machine : Machine) (type : Nat) : Bool :=
  (machine == .arm || machine == .riscv) && type == attributes

end SectionType

namespace SectionHeader

/-- Whether the section is a symbol table. -/
def isSymbolTable (h : SectionHeader) : Bool :=
  h.type == SectionType.symbols || h.type == SectionType.dynamicSymbols ||
    h.type == SectionType.localDynamicSymbols

/-- Whether the data of the section are compressed. -/
def isCompressed (h : SectionHeader) : Bool :=
  h.flags / 0x800 % 2 == 1

/-- The size of a section header in a file. -/
def width (wide : Bool) : Nat :=
  if wide then 64 else 40

end SectionHeader

/-! ## Fields -/

/-- Reads the header of a section. -/
def Source.readSectionHeader (src : Source) : FieldReader SectionHeader := do
  let nameOffset ← src.word
  let type ← src.word
  let flags ← src.long
  let _address ← src.long
  let offset ← src.long
  let size ← src.long
  let link ← src.word
  let info ← src.word
  let _alignment ← src.long
  let entrySize ← src.long
  return { nameOffset, type, flags, offset, size, link, info, entrySize }

/-- What stands in front of compressed data. -/
structure Compression where
  method : Nat
  size : Nat
deriving DecidableEq, Repr

namespace Compression

/-- The method that is understood. -/
def deflate : Nat := 1

/-- The room that it takes in a file. -/
def width (wide : Bool) : Nat :=
  if wide then 24 else 12

end Compression

/-- Reads what stands in front of compressed data. -/
def Source.readCompression (src : Source) : FieldReader Compression := do
  let method ← src.word
  if src.wide then
    let _reserved ← src.word
  let size ← src.long
  let _alignment ← src.long
  return { method, size }

/-- A section with its name. A symbol table also has the header of the section with its names. -/
structure Section where
  name : String
  header : SectionHeader
  compression : Option Compression := none
  /-- The string table of a symbol table. -/
  strings : Option SectionHeader := none
deriving DecidableEq, Repr

/-- The section of a name; the last one of several. -/
def findSection? (sections : List Section) (name : String) : Option Section :=
  sections.reverse.find? (·.name == name)

end Symbolication.Elf
