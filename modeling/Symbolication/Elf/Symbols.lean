import Symbolication.Elf.SectionTable

/-!
# Symbolication.Elf.Symbols

The functions in the symbol tables of an object, and which of them an address
belongs to: the last one, in ascending order, that begins at or below the
address, unless the address lies beyond its end.
-/

namespace Symbolication.Elf

/-- A function in a symbol table. -/
structure Symbol where
  value : Nat
  /-- Its size in bytes, zero if unknown. -/
  size : Nat
  name : String
deriving DecidableEq, Repr

namespace Symbol

/-- The order of symbols: by address, then by size, then by name. -/
def le (a b : Symbol) : Bool :=
  if a.value != b.value then a.value < b.value
  else if a.size != b.size then a.size < b.size
  else a.name ≤ b.name

/-- Whether an address at or above the symbol lies in it. -/
def reaches (s : Symbol) (address : Int) : Bool :=
  s.size == 0 || address < (s.value + s.size : Nat)

end Symbol

/-- The symbols in ascending order. -/
def sortSymbols (symbols : List Symbol) : List Symbol :=
  symbols.mergeSort Symbol.le

/-- The symbol that an address belongs to, among symbols in ascending order. -/
def symbolAt? (sorted : List Symbol) (address : Int) : Option Symbol :=
  ((sorted.takeWhile fun s => (s.value : Int) ≤ address).getLast?).filter (·.reaches address)

/-- An entry of a symbol table. -/
structure SymbolEntry where
  nameOffset : Nat
  value : Nat
  size : Nat
  type : Nat
deriving DecidableEq, Repr

/-- The type of symbols that are functions. -/
def functionType : Nat := 2

/-- Reads an entry of a symbol table. -/
def Source.readSymbolEntry (src : Source) : FieldReader SymbolEntry := do
  let nameOffset ← src.word
  if src.wide then
    let info ← src.byte
    let _visibility ← src.byte
    let _section ← src.half
    let value ← src.long
    let size ← src.long
    return { nameOffset, value, size, type := info % 16 }
  else
    let value ← src.long
    let size ← src.long
    let info ← src.byte
    let _visibility ← src.byte
    let _section ← src.half
    return { nameOffset, value, size, type := info % 16 }

/-- The symbol of an entry with a name, if it is a named function with an address. -/
def SymbolEntry.symbol? (entry : SymbolEntry) (name : String) : Option Symbol :=
  if entry.type != functionType || name.isEmpty || entry.value == 0 then none
  else some ⟨entry.value, entry.size, name⟩

namespace Image

/-- The functions among `count` entries of a symbol table from `index` on. -/
def functionsFrom (image : Image) (table strings : SectionHeader) (index : Nat) :
    Nat → Except Fault (List Symbol)
  | 0 => .ok []
  | count + 1 => do
    let entry ← Source.readAt (table.offset + index * table.entrySize) image.readSymbolEntry
    let name ← image.stringAt strings entry.nameOffset
    let rest ← image.functionsFrom table strings (index + 1) count
    return (entry.symbol? name).toList ++ rest

/-- The functions in the section of a name; none if there is no such symbol table. -/
def functionsIn (image : Image) (sections : List Section) (name : String) :
    Except Fault (List Symbol) :=
  match findSection? sections name with
  | some { header, strings := some strings, .. } =>
    image.functionsFrom header strings 0 (header.size / header.entrySize)
  | _ => .ok []

/-- The functions of an object in ascending order: those of its symbol table, or, if that has none,
those of the table for dynamic linking. -/
def functions (image : Image) (sections : List Section) : Except Fault (List Symbol) := do
  let full ← image.functionsIn sections ".symtab"
  if full.isEmpty then
    return sortSymbols (← image.functionsIn sections ".dynsym")
  else
    return sortSymbols full

end Image

end Symbolication.Elf
