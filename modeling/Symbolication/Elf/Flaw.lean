import Symbolication.Deflate.Unpacker
import Symbolication.Number.Hexadecimal
import Symbolication.Text.Quoted

/-!
# Symbolication.Elf.Flaw

What can be wrong with an ELF file, and the wording of each flaw. What cannot be
read for another reason, such as a size that no memory holds, is a fault but no
flaw.
-/

namespace Symbolication.Elf

open Number Text

/-- A way in which a file is not the ELF file it should be. -/
inductive Flaw where
  | badMagic
  /-- The word size is neither of the two; no byte if the file ends before it. -/
  | badClass (byte : Option UInt8)
  /-- The byte order is neither of the two; no byte if the file ends before it. -/
  | badByteOrder (byte : Option UInt8)
  | cutOff (expected found : Nat)
  | smallSectionEntries (size : Nat)
  | smallProgramEntries (size : Nat)
  | sectionBeyondEnd (index offset size : Nat)
  | noSectionNames
  | notStrings (index : Nat) (found : String)
  | notSymbols (index : Nat) (found : String)
  | notForDynamic (found : String)
  | relocationEntrySize (kind : String) (expected : Nat)
  | relativeEntrySize (expected found : Nat)
  | attributesVersion (version : Nat)
  | tableCutOff (expected found : Nat) (width left : Nat)
  | noEntrySize (name : String)
  | brokenEntries (name : String)
  | unknownCompression (method : Nat)
  | unpackedSize (found expected : Nat)
  | other (text : String)
deriving DecidableEq, Repr

/-- A byte, or the lack of one, as messages show it. -/
def byteText : Option UInt8 → String
  | none => "b''"
  | some b =>
    if b == 0x27 then "b\"'\""
    else
      let c := Char.ofNat b.toNat
      let shown := if b < 0x7F then quotedChar '\'' c else numberedEscape c
      "b'" ++ String.ofList shown ++ "'"

/-- The ways to compress data that have names but are not understood: the ends of the ranges left to
systems and processors. -/
def namedCompressions : List (Nat × String) :=
  [(0x60000000, "ELFCOMPRESS_LOOS"), (0x6FFFFFFF, "ELFCOMPRESS_HIOS"),
   (0x70000000, "ELFCOMPRESS_LOPROC"), (0x7FFFFFFF, "ELFCOMPRESS_HIPROC")]

/-- A way to compress data as messages show it: its name, else its code. -/
def compressionText (method : Nat) : String :=
  match namedCompressions.lookup method with
  | some name => quotedString name
  | none => hex method

/-- The wording of a flaw. -/
def Flaw.text : Flaw → String
  | .badMagic => "Magic number does not match"
  | .badClass byte => "Invalid EI_CLASS " ++ byteText byte
  | .badByteOrder byte => "Invalid EI_DATA " ++ byteText byte
  | .cutOff expected found => s!"expected {expected}, found {found}"
  | .smallSectionEntries size => s!"Too small e_shentsize: {size}"
  | .smallProgramEntries size => s!"Too small e_phentsize: {size}"
  | .sectionBeyondEnd index offset size =>
    s!"Reading section {index} at offset {offset} past EOF {size}"
  | .noSectionNames => "String Table not found"
  | .notStrings index found =>
    s!"SHT_SYMTAB section points at section {index} of type {found}, expected SHT_STRTAB"
  | .notSymbols index found =>
    s!"Section points at section {index} of type {found}, expected SHT_SYMTAB/SHT_DYNSYM"
  | .notForDynamic found =>
    s!"Unexpected section type {found}, expected " ++
      "('SHT_STRTAB', 'SHT_NOBITS', 'SHT_NULL')"
  | .relocationEntrySize kind expected =>
    s!"Expected sh_entsize of {kind} section to be {expected}"
  | .relativeEntrySize expected found =>
    s!"Expected RELR entry size to be {expected}, got {found}"
  | .tableCutOff expected found width left =>
    s!"('expected {expected}, found {found}', " ++
      s!"FieldError(FieldError('expected {width}, found {left}')))"
  | .noEntrySize name =>
    "Expected entry size of section " ++ quotedString name ++ " to be > 0"
  | .brokenEntries name =>
    "Expected section size to be a multiple of entry size in section " ++ quotedString name
  | .attributesVersion version =>
    "Unknown attributes version " ++ String.singleton (Char.ofNat version) ++ ", expecting 'A'."
  | .unknownCompression method => "Unknown compression type: " ++ compressionText method
  | .unpackedSize found expected =>
    s!"Decompressed data is {found} bytes long, should be {expected} bytes long"
  | .other text => text

/-- Why reading an ELF file fails. -/
inductive Fault where
  | malformed (flaw : Flaw)
  /-- An offset is beyond what the system can take. -/
  | offsetTooLarge
  /-- An offset is beyond what any file can have. -/
  | offsetRefused
  /-- A size is beyond what any data can have. -/
  | sizeTooLarge
  /-- A size is just beyond what any data can have. -/
  | sizeAtLimit
  /-- A size when unpacked is beyond what any data can have. -/
  | unpackedTooLarge
  /-- The data are smaller than the header in front of them. -/
  | sizeNegative
  | outOfMemory
  | packed (flaw : Deflate.Flaw)
deriving DecidableEq, Repr

/-- The wording of a fault. -/
def Fault.text : Fault → String
  | .malformed flaw => flaw.text
  | .offsetTooLarge => "cannot fit 'int' into an offset-sized integer"
  | .offsetRefused => "[Errno 22] Invalid argument"
  | .sizeTooLarge => "cannot fit 'int' into an index-sized integer"
  | .sizeAtLimit => "byte string is too large"
  | .unpackedTooLarge => "Python int too large to convert to C ssize_t"
  | .sizeNegative => "read length must be non-negative or -1"
  | .outOfMemory => ""
  | .packed flaw => flaw.text

end Symbolication.Elf
