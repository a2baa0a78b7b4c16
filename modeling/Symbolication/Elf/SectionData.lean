import Symbolication.Deflate.Stream
import Symbolication.Elf.SectionTable

/-!
# Symbolication.Elf.SectionData

The data of a section. Data beyond the end of the file are missing, and compressed
data are unpacked.
-/

namespace Symbolication.Elf

namespace Image

/-- The packed data of a section, behind what stands in front of them. -/
def packedData (image : Image) (h : SectionHeader) : Except Fault (List UInt8) := do
  let width := Compression.width image.wide
  let place := h.offset + width
  if width ≤ h.size then
    image.readBytes place (h.size - width)
  else if h.size + 1 == width then
    let start ← Source.seek place
    return image.slice start image.bytes.size
  else
    let _start ← Source.seek place
    throw .sizeNegative

/-- Unpacks data, of which the size is known; zero does not limit it. -/
def unpacked (c : Compression) (bytes : List UInt8) : Except Fault (List UInt8) :=
  let limit := if c.size == 0 then none else some c.size
  if 0x8000000000000000 ≤ c.size then .error .unpackedTooLarge
  else
    match Deflate.unpack limit bytes with
    | .error flaw => .error (.packed flaw)
    | .ok data =>
      if data.length == c.size then .ok data
      else .error (.malformed (.unpackedSize data.length c.size))

/-- The data of a section that has room in the file. -/
def sectionData (image : Image) (s : Section) : Except Fault (List UInt8) := do
  match s.compression with
  | none => image.readBytes s.header.offset s.header.size
  | some c =>
    if c.method == Compression.deflate then
      unpacked c (← image.packedData s.header)
    else
      throw (.malformed (.unknownCompression c.method))

/-- The data of a section that holds a note. A section without room in the file holds zeros, of
which the first sixteen say as much as all. -/
def noteData (image : Image) (s : Section) : Except Fault (List UInt8) := do
  if s.header.type == SectionType.noBits then
    let size := (s.compression.map (·.size)).getD s.header.size
    Source.reserve size
    return List.replicate (min size 16) 0
  else
    image.sectionData s

end Image

end Symbolication.Elf
