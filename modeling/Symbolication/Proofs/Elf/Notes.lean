import Symbolication.Elf.Inspector

/-!
# Symbolication.Proofs.Elf.Notes

Notes with build ids, written and read.  A note that is written in one of the two byte orders
is read as its descriptor, whatever stands behind it; and whatever bytes are taken for a note,
an id that is read from them is part of them:

* `SpellsHex` — a text gives bytes in lower-case hexadecimal;
* `numberOf_word` — a word is read as the number that was written;
* `Note`, `noteDescriptor?_append` — notes, and what is read from them;
* `exists_slice_of_noteDescriptor?` — a descriptor is a part of the data, of the size that they
  announce;
* `spellsHex_buildIdOf` — both, for the build id.
-/

namespace Symbolication.Elf

open Number

variable {ω : Type}

/-! ## hexadecimal -/

/-- The digits in hexadecimal, in lower case. -/
def lowerDigits : List Char := "0123456789abcdef".toList

/-- The text gives the bytes, with two digits for each of them. -/
inductive SpellsHex : List Char → List UInt8 → Prop where
  /-- No bytes. -/
  | nil : SpellsHex [] []
  /-- One byte, and more. -/
  | cons {high low : Char} {text : List Char} {b : UInt8} {bytes : List UInt8}
      (hhigh : lowerDigits[b.toNat / 16]? = some high)
      (hlow : lowerDigits[b.toNat % 16]? = some low) (hrest : SpellsHex text bytes) :
      SpellsHex (high :: low :: text) (b :: bytes)

/-- The lower-case digits are those that the standard library prints. -/
theorem lowerDigits_getElem? {n : Nat} (h : n < 16) : lowerDigits[n]? = some n.digitChar := by
  have all : ∀ m : Fin 16, lowerDigits[m.val]? = some m.val.digitChar := by decide
  exact all ⟨n, h⟩

/-- The hexadecimal text of bytes spells them. -/
theorem spellsHex_hexBytes (bytes : List UInt8) : SpellsHex (hexBytes bytes).toList bytes := by
  rw [hexBytes, String.toList_ofList]
  induction bytes with
  | nil => exact .nil
  | cons b rest ih =>
      have hb : b.toNat < 256 := b.toNat_lt
      exact .cons (lowerDigits_getElem? (by omega)) (lowerDigits_getElem? (by omega)) ih

/-! ## words -/

/-- A word of four bytes, in one of the two byte orders. -/
def word (littleEndian : Bool) (n : Nat) : List UInt8 :=
  let bigEndian := [n / 0x1000000, n / 0x10000, n / 0x100, n].map UInt8.ofNat
  if littleEndian then bigEndian.reverse else bigEndian

/-- A word takes four bytes. -/
@[simp]
theorem length_word (littleEndian : Bool) (n : Nat) : (word littleEndian n).length = 4 := by
  cases littleEndian <;> rfl

/-- A word reads back as the number it was made of, in either byte order. -/
theorem numberOf_word (littleEndian : Bool) {n : Nat} (h : n < 0x100000000) :
    numberOf littleEndian (word littleEndian n) = n := by
  have hbig : numberOf false (word false n) = n := by
    simp [numberOf, word]
    omega
  cases littleEndian with
  | false => exact hbig
  | true =>
      have hreverse : (word true n).reverse = word false n := List.reverse_reverse _
      rw [numberOf_little, hreverse, hbig]

/-! ## notes -/

/-- A note: its type, its name with what fills it up to a multiple of four bytes, and its
descriptor. -/
structure Note where
  /-- The type. -/
  type : UInt32
  /-- The name. -/
  name : List UInt8
  /-- What stands between the name and the descriptor. -/
  padding : List UInt8
  /-- The descriptor. -/
  descriptor : List UInt8
  padding_lt : padding.length < 4
  aligned : (name.length + padding.length) % 4 = 0
  name_lt : name.length < 0x100000000
  descriptor_lt : descriptor.length < 0x100000000

namespace Note

/-- The three words that a note begins with. -/
def header (littleEndian : Bool) (note : Note) : List UInt8 :=
  word littleEndian note.name.length ++ word littleEndian note.descriptor.length ++
    word littleEndian note.type.toNat

/-- The bytes of a note. -/
def bytes (littleEndian : Bool) (note : Note) : List UInt8 :=
  note.header littleEndian ++ (note.name ++ note.padding) ++ note.descriptor

/-- The header of a note is three words. -/
theorem length_header (littleEndian : Bool) (note : Note) :
    (note.header littleEndian).length = 12 := by
  simp [header]

/-- The descriptor of a note begins behind its name and its padding. -/
theorem alignFour_name (note : Note) :
    alignFour (12 + note.name.length) = 12 + (note.name.length + note.padding.length) := by
  have hlt := note.padding_lt
  have haligned := note.aligned
  unfold alignFour
  omega

end Note

/-- A note is read as its descriptor, whatever stands behind it. -/
theorem noteDescriptor?_append {littleEndian : Bool} {note : Note} {trailing : List UInt8}
    (h : 16 ≤ (note.bytes littleEndian ++ trailing).length) :
    noteDescriptor? littleEndian (note.bytes littleEndian ++ trailing) =
      some note.descriptor := by
  have hname : numberOf littleEndian ((note.bytes littleEndian ++ trailing).take 4) =
      note.name.length := by
    rw [← numberOf_word littleEndian note.name_lt]
    simp [Note.bytes, Note.header]
  have hsize : numberOf littleEndian (((note.bytes littleEndian ++ trailing).drop 4).take 4) =
      note.descriptor.length := by
    rw [← numberOf_word littleEndian note.descriptor_lt]
    simp [Note.bytes, Note.header]
  have hfront : (note.header littleEndian ++ (note.name ++ note.padding)).length =
      alignFour (12 + note.name.length) := by
    rw [note.alignFour_name, List.length_append, List.length_append, note.length_header]
  have hfits : ¬ (note.bytes littleEndian ++ trailing).length <
      alignFour (12 + note.name.length) + note.descriptor.length := by
    rw [← hfront, Note.bytes, List.append_assoc _ note.descriptor]
    simp only [List.length_append]
    omega
  rw [noteDescriptor?, if_neg (Nat.not_lt.mpr h)]
  simp only [hname, hsize]
  rw [if_neg hfits, ← hfront, Note.bytes, List.append_assoc _ note.descriptor, List.drop_left,
    List.take_left]

/-- The size of the descriptor that data announce when they are taken for a note. -/
def announcedSize (littleEndian : Bool) (data : List UInt8) : Nat :=
  numberOf littleEndian ((data.drop 4).take 4)

/-- A descriptor is a slice of the data, of the size that the data announce. -/
theorem exists_slice_of_noteDescriptor? {littleEndian : Bool} {data descriptor : List UInt8}
    (h : noteDescriptor? littleEndian data = some descriptor) :
    descriptor.length = announcedSize littleEndian data ∧
      ∃ before after, data = before ++ descriptor ++ after := by
  unfold noteDescriptor? at h
  split at h
  · cases h
  · simp only at h
    split at h
    · cases h
    · rename_i hfits
      rw [← announcedSize] at h hfits
      generalize alignFour (12 + numberOf littleEndian (data.take 4)) = offset at h hfits
      obtain rfl := Option.some.inj h
      refine ⟨?_, data.take offset, (data.drop offset).drop (announcedSize littleEndian data), ?_⟩
      · rw [List.length_take, List.length_drop]
        omega
      · rw [List.append_assoc, List.take_append_drop, List.take_append_drop]

/-! ## build ids -/

/-- The build id that is read from a note spells out its descriptor.  From any data whatever, an id
is read that is empty, or spells out a part of the data of the size that they announce. -/
theorem spellsHex_buildIdOf (path : String) (littleEndian : Bool) :
    (∀ (note : Note) (trailing : List UInt8),
      16 ≤ (note.bytes littleEndian ++ trailing).length →
      ∃ id : String, SpellsHex id.toList note.descriptor ∧
        buildIdOf path littleEndian (some (.ok (note.bytes littleEndian ++ trailing))) =
          (pure id : Act ω String)) ∧
    ∀ data : List UInt8, ∃ id : String,
      buildIdOf path littleEndian (some (.ok data)) = (pure id : Act ω String) ∧
      (id ≠ "" → ∃ before slice after, data = before ++ slice ++ after ∧
        slice.length = announcedSize littleEndian data ∧ SpellsHex id.toList slice) := by
  have hread (data : List UInt8) : buildIdOf path littleEndian (some (.ok data)) =
      (pure (buildIdOfNote littleEndian data) : Act ω String) := rfl
  refine ⟨fun note trailing hroom => ?_, fun data => ⟨_, hread data, fun hne => ?_⟩⟩
  · refine ⟨_, spellsHex_hexBytes note.descriptor, ?_⟩
    rw [hread, buildIdOfNote, noteDescriptor?_append hroom]
    rfl
  · cases hdescriptor : noteDescriptor? littleEndian data with
    | none =>
        rw [buildIdOfNote, hdescriptor] at hne
        exact absurd rfl hne
    | some descriptor =>
        obtain ⟨hlength, before, after, hdata⟩ := exists_slice_of_noteDescriptor? hdescriptor
        refine ⟨before, descriptor, after, hdata, hlength, ?_⟩
        rw [buildIdOfNote, hdescriptor]
        exact spellsHex_hexBytes descriptor

/-- A note of the linker, with a name that needs no padding. -/
def linkerNote : Note where
  type := 3
  name := [0x47, 0x4e, 0x55, 0]
  padding := []
  descriptor := [0xab, 0x01]
  padding_lt := by decide
  aligned := by decide
  name_lt := by decide
  descriptor_lt := by decide

/-- The note of a linker, with a byte behind it, gives the build id `ab01`. -/
theorem spellsHex_linkerNote :
    16 ≤ (linkerNote.bytes false ++ [0]).length ∧
      ∃ id : String, SpellsHex id.toList [0xab, 0x01] ∧
        buildIdOf "/bin/a" false (some (.ok (linkerNote.bytes false ++ [0]))) =
          (pure id : Act Unit String) := by
  have hroom : 16 ≤ (linkerNote.bytes false ++ [0]).length := by decide
  exact ⟨hroom, (spellsHex_buildIdOf "/bin/a" false).1 linkerNote [0] hroom⟩

end Symbolication.Elf
