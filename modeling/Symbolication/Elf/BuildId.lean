import Symbolication.Elf.SectionData

/-!
# Symbolication.Elf.BuildId

The build id of an object: the descriptor of the note in its build id section, in
lower-case hexadecimal. A note has a header of three words, a name padded to a
multiple of four bytes, and the descriptor; one that does not fit its section has
no build id.
-/

namespace Symbolication.Elf

open Number

/-- The name of the section with the build id. -/
def buildIdSection : String := ".note.gnu.build-id"

/-- The next multiple of four. -/
def alignFour (n : Nat) : Nat :=
  (n + 3) / 4 * 4

/-- The descriptor of a note, if the note fits its section. -/
def noteDescriptor? (littleEndian : Bool) (note : List UInt8) : Option (List UInt8) :=
  if note.length < 16 then none
  else
    let nameSize := numberOf littleEndian (note.take 4)
    let size := numberOf littleEndian ((note.drop 4).take 4)
    let offset := alignFour (12 + nameSize)
    if note.length < offset + size then none
    else some ((note.drop offset).take size)

/-- The build id that a note gives, empty if it gives none. -/
def buildIdOfNote (littleEndian : Bool) (note : List UInt8) : String :=
  ((noteDescriptor? littleEndian note).map hexBytes).getD ""

/-- The build id of a section's data: empty if there is no section, and nothing if its data cannot
be read for a flaw. -/
def buildIdOfData (littleEndian : Bool) (data : Option (Except Fault (List UInt8))) :
    Except Fault String :=
  match data with
  | none => .ok ""
  | some data => (buildIdOfNote littleEndian ·) <$> data

end Symbolication.Elf
