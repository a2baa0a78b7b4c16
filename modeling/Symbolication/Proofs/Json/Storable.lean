import Mathlib.Data.List.TakeWhile
import Symbolication.Proofs.Json.Numerals
import Symbolication.Proofs.Json.Strings

/-!
# Symbolication.Proofs.Json.Storable

The values that documents keep, and what such documents look like.  `Storable` asks for
integers within the limit, different names for the members of an object, and nesting up to
some depth.  By induction on the value, one case for each form:

* `isPlain_pieces` — every piece of the document can be written, and is plain text;
* `isWritable_of_storable`, `written_eq_textOf` — so nothing is missing from what is written;
* `isPlainText_written` — printable ASCII characters and line feeds are all there is.
-/

namespace Symbolication

open Number

namespace Json

/-! ## values that can be kept -/

/-- The values that are found again in their documents, where arrays and objects are nested up to
the given depth. -/
inductive Storable : Nat → Json → Prop
  /-- The null value. -/
  | null {depth : Nat} : Storable depth .null
  /-- Truth values. -/
  | bool {depth : Nat} (b : Bool) : Storable depth (.bool b)
  /-- Integers within the limit. -/
  | int {depth : Nat} {n : Int} (h : Number.isWritable n = true) : Storable depth (.int n)
  /-- Strings. -/
  | text {depth : Nat} (s : String) : Storable depth (.text s)
  /-- Arrays. -/
  | list {depth : Nat} {items : List Json} (h : ∀ v ∈ items, Storable depth v) :
      Storable (depth + 1) (.list items)
  /-- Objects whose members have different names. -/
  | object {depth : Nat} {members : List (String × Json)}
      (hnames : (members.map (·.1)).Nodup) (h : ∀ m ∈ members, Storable depth m.2) :
      Storable (depth + 1) (.object members)

/-! ## the characters of a document -/

/-- The characters of pieces. -/
def charsOf (ps : List Piece) : List Char :=
  ps.flatMap (·.text.toList)

@[simp] theorem charsOf_nil : charsOf [] = [] := rfl

@[simp] theorem charsOf_cons (p : Piece) (ps : List Piece) :
    charsOf (p :: ps) = p.text.toList ++ charsOf ps := rfl

@[simp] theorem charsOf_append (ps qs : List Piece) :
    charsOf (ps ++ qs) = charsOf ps ++ charsOf qs :=
  List.flatMap_append

theorem toList_textOf (ps : List Piece) : (textOf ps).toList = charsOf ps := by
  rw [textOf, String.toList_join, List.flatMap_map]
  rfl

theorem toList_newline (level : Nat) :
    (newline level).toList = '\n' :: List.replicate (2 * level) ' ' :=
  String.toList_ofList

@[simp] theorem toList_stringText (s : String) :
    (stringText s).toList = '"' :: s.toList.flatMap escapedChar ++ ['"'] :=
  String.toList_ofList

/-! ## plain text -/

/-- Text in printable ASCII characters and line feeds. -/
def IsPlainText (s : String) : Prop :=
  ∀ c ∈ s.toList, isPlain c = true ∨ c = '\n'

instance (s : String) : Decidable (IsPlainText s) :=
  decidable_of_iff ((s.toList.all fun c => isPlain c || c == '\n') = true) (by simp [IsPlainText])

theorem IsPlainText.append {s t : String} (hs : IsPlainText s) (ht : IsPlainText t) :
    IsPlainText (s ++ t) := by
  intro c hc
  rw [String.toList_append, List.mem_append] at hc
  exact hc.elim (hs c) (ht c)

theorem isPlainText_newline (level : Nat) : IsPlainText (newline level) := by
  intro c hc
  rw [toList_newline, List.mem_cons] at hc
  rcases hc with rfl | hc
  · exact .inr rfl
  · rw [List.eq_of_mem_replicate hc]
    exact .inl rfl

theorem isPlainText_stringText (s : String) : IsPlainText (stringText s) :=
  fun _ hc => .inl (isPlain_of_mem_stringText hc)

/-- What comes before the value of a member. -/
theorem isPlainText_memberHead {opening : String} (h : IsPlainText opening) (level : Nat)
    (name : String) : IsPlainText (opening ++ newline level ++ stringText name ++ ": ") := by
  have hcolon : IsPlainText ": " := by decide
  exact ((h.append (isPlainText_newline level)).append (isPlainText_stringText name)).append hcolon

theorem isPlainText_toString (n : Int) : IsPlainText (toString n) := by
  intro c hc
  rw [toList_toString, List.mem_append] at hc
  left
  rcases hc with hc | hc
  · split at hc
    · rw [List.mem_singleton.mp hc]
      rfl
    · exact absurd hc List.not_mem_nil
  · have hdigit := isDigit_of_mem_toDigits hc
    have hval : c.toNat = c.val.toNat := rfl
    simp [Char.isDigit, UInt32.le_iff_toNat_le] at hdigit
    simp [isPlain]
    omega

/-- A piece that is written, and that is plain text. -/
structure Piece.IsPlain (p : Piece) : Prop where
  /-- It can be written. -/
  writable : p.isWritable = true
  /-- It consists of printable ASCII characters and line feeds. -/
  plain : IsPlainText p.text

theorem Piece.IsPlain.chars {s : String} (h : IsPlainText s) : (Piece.chars s).IsPlain :=
  ⟨rfl, h⟩

theorem isPlain_piecesOfItems {items : List Json} {level : Nat}
    (h : ∀ v ∈ items, ∀ p ∈ pieces level v, p.IsPlain) :
    ∀ p ∈ piecesOfItems level items, p.IsPlain := by
  induction items with
  | nil => simp [piecesOfItems]
  | cons v items ih =>
      rw [List.forall_mem_cons] at h
      have hcomma : IsPlainText "," := by decide
      simp only [piecesOfItems, List.cons_append, List.forall_mem_cons, List.forall_mem_append]
      exact ⟨.chars (hcomma.append (isPlainText_newline level)), h.1, ih h.2⟩

theorem isPlain_piecesOfMembers {members : List (String × Json)} {level : Nat}
    (h : ∀ m ∈ members, ∀ p ∈ pieces level m.2, p.IsPlain) :
    ∀ p ∈ piecesOfMembers level members, p.IsPlain := by
  induction members with
  | nil => simp [piecesOfMembers]
  | cons m members ih =>
      rw [List.forall_mem_cons] at h
      have hcomma : IsPlainText "," := by decide
      simp only [piecesOfMembers, List.cons_append, List.forall_mem_cons, List.forall_mem_append]
      exact ⟨.chars (isPlainText_memberHead hcomma level m.1), h.1, ih h.2⟩

theorem isPlain_list {items : List Json}
    (h : ∀ v ∈ items, ∀ level, ∀ p ∈ pieces level v, p.IsPlain) (level : Nat) :
    ∀ p ∈ pieces level (.list items), p.IsPlain := by
  cases items with
  | nil =>
      simp only [pieces, List.forall_mem_singleton]
      exact .chars (by decide)
  | cons v items =>
      rw [List.forall_mem_cons] at h
      have hopen : IsPlainText "[" := by decide
      have hclose : IsPlainText "]" := by decide
      have hitems := isPlain_piecesOfItems fun w hw => h.2 w hw (level + 1)
      simp only [pieces, List.cons_append, List.forall_mem_cons, List.forall_mem_append]
      exact ⟨.chars (hopen.append (isPlainText_newline _)), ⟨h.1 (level + 1), hitems⟩,
        .chars ((isPlainText_newline level).append hclose), List.forall_mem_nil _⟩

theorem isPlain_object {members : List (String × Json)}
    (h : ∀ m ∈ members, ∀ level, ∀ p ∈ pieces level m.2, p.IsPlain) (level : Nat) :
    ∀ p ∈ pieces level (.object members), p.IsPlain := by
  cases members with
  | nil =>
      simp only [pieces, List.forall_mem_singleton]
      exact .chars (by decide)
  | cons m members =>
      rw [List.forall_mem_cons] at h
      have hopen : IsPlainText "\x7b" := by decide
      have hclose : IsPlainText "\x7d" := by decide
      have hmembers := isPlain_piecesOfMembers fun n hn => h.2 n hn (level + 1)
      simp only [pieces, List.cons_append, List.forall_mem_cons, List.forall_mem_append]
      exact ⟨.chars (isPlainText_memberHead hopen _ m.1), ⟨h.1 (level + 1), hmembers⟩,
        .chars ((isPlainText_newline level).append hclose), List.forall_mem_nil _⟩

/-! ## documents -/

variable {room : Nat}

/-- The pieces of a value that can be kept: all can be written, and are plain text. -/
theorem isPlain_pieces {v : Json} (h : Storable room v) :
    ∀ level, ∀ p ∈ pieces level v, p.IsPlain := by
  induction h with
  | null =>
      intro level
      simp only [pieces, List.forall_mem_singleton]
      exact .chars (by decide)
  | bool b =>
      intro level
      simp only [pieces, List.forall_mem_singleton]
      cases b with
      | false => exact .chars (by decide)
      | true => exact .chars (by decide)
  | @int _ n h =>
      intro level
      simp only [pieces, List.forall_mem_singleton]
      exact ⟨h, isPlainText_toString n⟩
  | text s =>
      intro level
      simp only [pieces, List.forall_mem_singleton]
      exact .chars (isPlainText_stringText s)
  | list _ ih =>
      exact isPlain_list ih
  | object _ _ ih =>
      exact isPlain_object ih

theorem isPlain_document {v : Json} (h : Storable room v) : ∀ p ∈ v.document, p.IsPlain := by
  simp only [document, List.forall_mem_append, List.forall_mem_singleton]
  exact ⟨isPlain_pieces h 0, .chars (by decide)⟩

/-- The document of a value that can be kept is written in full. -/
theorem isWritable_of_storable {v : Json} (h : Storable room v) : v.isWritable = true :=
  List.all_eq_true.mpr fun p hp => (isPlain_document h p hp).writable

theorem written_eq_textOf {v : Json} (h : Storable room v) : v.written = textOf v.document := by
  have hall : v.document.takeWhile Piece.isWritable = v.document :=
    List.takeWhile_eq_self_iff.mpr fun p hp => (isPlain_document h p hp).writable
  rw [written, hall]

/-- A document consists of printable ASCII characters and line feeds. -/
theorem isPlainText_written {v : Json} (h : Storable room v) : IsPlainText v.written := by
  intro c hc
  rw [written_eq_textOf h, toList_textOf, charsOf, List.mem_flatMap] at hc
  obtain ⟨p, hp, hc⟩ := hc
  exact (isPlain_document h p hp).plain c hc

end Json

end Symbolication
