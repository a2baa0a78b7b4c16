import Symbolication.Elf.Flaw

/-!
# Symbolication.Elf.Image

The bytes of an ELF file and its header. Fields are read one by one at a moving
offset, in the byte order and word size that the first bytes announce; a field
that goes beyond the end of the file is a flaw.

* `numberOf_little`: the two byte orders read a sequence in opposite directions.
-/

namespace Symbolication.Elf

/-- The number that bytes denote in one of the two byte orders. -/
def numberOf (littleEndian : Bool) (bytes : List UInt8) : Nat :=
  let bigEndian := if littleEndian then bytes.reverse else bytes
  bigEndian.foldl (fun n b => 256 * n + b.toNat) 0

/-- The two byte orders read a sequence in opposite directions. -/
theorem numberOf_little (bytes : List UInt8) : numberOf true bytes = numberOf false bytes.reverse :=
  rfl

/-- The bytes of a file with the way to read numbers from them. -/
structure Source where
  bytes : Array UInt8
  /-- Addresses and offsets have eight bytes and not four. -/
  wide : Bool
  /-- Numbers begin with their least significant byte. -/
  littleEndian : Bool

/-- Reads fields at a moving offset. -/
abbrev FieldReader := StateT Nat (Except Fault)

namespace Source

/-- The bytes from `offset` on, at most `count` of them. -/
def slice (src : Source) (offset count : Nat) : List UInt8 :=
  (src.bytes.extract offset (min (offset + count) src.bytes.size)).toList

/-- The greatest offset that a file can have: sixteen tebibytes, a page left out. -/
def lastOffset : Nat := 0xFFFFFFFF000

/-- Moves to an offset. -/
def seek (offset : Nat) : Except Fault Nat :=
  if 0x8000000000000000 ≤ offset then .error .offsetTooLarge
  else if lastOffset < offset then .error .offsetRefused
  else .ok offset

/-- Finds memory for data of a size. -/
def reserve (size : Nat) : Except Fault Unit :=
  if 0x8000000000000000 ≤ size then .error .sizeTooLarge
  else if 0x10000000000 ≤ size then .error .outOfMemory
  else .ok ()

/-- Reads at most `count` bytes from `offset` on. -/
def readBytes (src : Source) (offset count : Nat) : Except Fault (List UInt8) := do
  let start ← seek offset
  if 0x7FFFFFFFFFFFFFDE < count && count < 0x8000000000000000 then
    throw .sizeAtLimit
  reserve count
  return src.slice start count

/-- Reads a field of `width` bytes. -/
def field (src : Source) (width : Nat) : FieldReader Nat := fun offset =>
  let bytes := src.slice offset width
  if bytes.length < width then
    .error (.malformed (.cutOff width bytes.length))
  else
    .ok (numberOf src.littleEndian bytes, offset + width)

/-- Reads a field of one byte. -/
def byte (src : Source) : FieldReader Nat := src.field 1

/-- Reads a field of two bytes. -/
def half (src : Source) : FieldReader Nat := src.field 2

/-- Reads a field of four bytes. -/
def word (src : Source) : FieldReader Nat := src.field 4

/-- Reads a field of the size of an address. -/
def long (src : Source) : FieldReader Nat := src.field (if src.wide then 8 else 4)

/-- Reads fields at an offset. -/
def readAt {α : Type} (offset : Nat) (reader : FieldReader α) : Except Fault α := do
  let (a, _) ← reader.run (← seek offset)
  return a

/-- The text at an offset up to the next zero byte; empty if there is none. -/
def cString (src : Source) (offset : Nat) : Except Fault (List UInt8) := do
  let start ← seek offset
  let rest := src.slice start (src.bytes.size - start)
  return if rest.contains 0 then rest.takeWhile (· != 0) else []

end Source

/-- What an ELF file is for. -/
inductive ObjectType where
  | none
  | relocatable
  | executable
  | shared
  | core
  | firstOfProcessor
  | lastOfProcessor
  | other (name : String)
deriving DecidableEq, Repr

/-- The type with a given code. -/
def ObjectType.ofCode : Nat → ObjectType
  | 0 => .none
  | 1 => .relocatable
  | 2 => .executable
  | 3 => .shared
  | 4 => .core
  | 0xFF00 => .firstOfProcessor
  | 0xFFFF => .lastOfProcessor
  | code => .other (toString code)

/-- The type as messages name it. -/
def ObjectType.name : ObjectType → String
  | .none => "ET_NONE"
  | .relocatable => "ET_REL"
  | .executable => "ET_EXEC"
  | .shared => "ET_DYN"
  | .core => "ET_CORE"
  | .firstOfProcessor => "ET_LOPROC"
  | .lastOfProcessor => "ET_HIPROC"
  | .other name => name

/-- The processor families whose files have section types of their own. -/
inductive Machine where
  | mips
  | arm
  | amd64
  | aarch64
  | riscv
  | other
deriving DecidableEq, Repr

/-- The processor family with a given code. -/
def Machine.ofCode : Nat → Machine
  | 8 => .mips
  | 40 => .arm
  | 62 => .amd64
  | 183 => .aarch64
  | 243 => .riscv
  | _ => .other

/-- The parts of the header of an ELF file that say where its tables are. -/
structure Header where
  type : ObjectType
  machine : Machine
  programOffset : Nat
  /-- The offset of the section table, zero if there is none. -/
  sectionOffset : Nat
  programEntrySize : Nat
  programCount : Nat
  sectionEntrySize : Nat
  /-- The number of sections, zero if section zero knows it. -/
  sectionCount : Nat
  namesIndex : Nat
deriving DecidableEq, Repr

/-- An ELF file that can be read. -/
structure Image extends Source where
  header : Header

/-- Whether the byte that announces the word size stands for eight bytes. -/
def wordSizeOf : Option UInt8 → Except Fault Bool
  | some 1 => .ok false
  | some 2 => .ok true
  | byte => .error (.malformed (.badClass byte))

/-- Whether the byte that announces the byte order stands for the least significant byte first. -/
def byteOrderOf : Option UInt8 → Except Fault Bool
  | some 1 => .ok true
  | some 2 => .ok false
  | byte => .error (.malformed (.badByteOrder byte))

/-- The byte order and word size that the first bytes of a file announce. -/
def Source.identify (bytes : Array UInt8) : Except Fault Source := do
  if bytes.extract 0 4 != #[0x7F, 0x45, 0x4C, 0x46] then
    throw (.malformed .badMagic)
  let wide ← wordSizeOf bytes[4]?
  let littleEndian ← byteOrderOf bytes[5]?
  return { bytes, wide, littleEndian }

/-- Reads the header of a file. -/
def Source.readHeader (src : Source) : FieldReader Header := do
  for _ in [(), (), (), (), (), (), (), (), ()] do
    let _ ← src.byte
  let _padding ← src.field 7
  let type ← src.half
  let machine ← src.half
  let _version ← src.word
  let _entry ← src.long
  let programOffset ← src.long
  let sectionOffset ← src.long
  let _flags ← src.word
  let _headerSize ← src.half
  let programEntrySize ← src.half
  let programCount ← src.half
  let sectionEntrySize ← src.half
  let sectionCount ← src.half
  let namesIndex ← src.half
  return {
    type := .ofCode type
    machine := .ofCode machine
    programOffset, sectionOffset, programEntrySize, programCount
    sectionEntrySize, sectionCount, namesIndex
  }

/-- Reads the first bytes and the header of a file. -/
def Image.read (bytes : Array UInt8) : Except Fault Image := do
  let src ← Source.identify bytes
  return { src with header := ← Source.readAt 0 src.readHeader }

end Symbolication.Elf
