import Symbolication.Proofs.Number.Numeral
import Symbolication.Proofs.Profile.Acceptance

/-!
# Symbolication.Proofs.Profile.Spelling

It does not matter how the integers of a document are written.  In place of an integer there may
be a string that holds a numeral of it, in any of the fields that hold integers:

* `Respelled` — such values, `Alike`, `ListAlike` — records and lists that differ in nothing else;
* `readInteger_respelled` — the integer is the same;
* `readMapping_alike`, `readFunction_alike`, `readLine_alike`, `readLocation_alike` — so is what a
  record is read as;
* `read_alike` — and so is the profile, or the fault.
-/

namespace Symbolication

open Number

namespace Document

/-! ## documents that differ in their numerals -/

/-- The value is the same, or a string with a numeral stands for an integer. -/
inductive Respelled : Json → Json → Prop
  | same (v : Json) : Respelled v v
  | spelt {n : Int} {s : String} (h : Spells s.toList n) : Respelled (.int n) (.text s)

/-- The records have the same names in the same order, and what they have under a name is
related. -/
def MembersAlike (R : String → Json → Json → Prop) : Record → Record → Prop :=
  List.Forall₂ fun m m' => m.1 = m'.1 ∧ R m.1 m.2 m'.2

/-- The values are the same, or they are records with related members. -/
inductive Alike (R : String → Json → Json → Prop) : Json → Json → Prop
  | same (v : Json) : Alike R v v
  | object {r r' : Record} (h : MembersAlike R r r') : Alike R (.object r) (.object r')

/-- The values are the same, or they are lists with related elements. -/
inductive ListAlike (R : Json → Json → Prop) : Json → Json → Prop
  | same (v : Json) : ListAlike R v v
  | list {vs vs' : List Json} (h : List.Forall₂ R vs vs') : ListAlike R (.list vs) (.list vs')

/-- Fields of these names may be respelled; others are the same. -/
def FieldAlike (fields : List String) (name : String) (v v' : Json) : Prop :=
  v = v' ∨ name ∈ fields ∧ Respelled v v'

/-- The values are the same but for the spelling of integers, as mappings. -/
def MappingAlike : Json → Json → Prop :=
  Alike (FieldAlike mappingFields)

/-- The values are the same but for the spelling of integers, as functions. -/
def FunctionAlike : Json → Json → Prop :=
  Alike (FieldAlike functionFields)

/-- The values are the same but for the spelling of integers, as lines. -/
def LineAlike : Json → Json → Prop :=
  Alike (FieldAlike lineFields)

/-- What locations have under a name is the same but for the spelling of integers. -/
def LocationPartAlike : String → Json → Json → Prop
  | "lines" => ListAlike LineAlike
  | name => FieldAlike locationFields name

/-- The values are the same but for the spelling of integers, as locations. -/
def LocationAlike : Json → Json → Prop :=
  Alike LocationPartAlike

/-- What documents have under a name is the same but for the spelling of integers. -/
def PartAlike : String → Json → Json → Prop
  | "mappings" => ListAlike MappingAlike
  | "functions" => ListAlike FunctionAlike
  | "locations" => ListAlike LocationAlike
  | _ => Eq

/-- The values are the same but for the spelling of integers, as documents. -/
def DocumentAlike : Json → Json → Prop :=
  Alike PartAlike

/-! ## values -/

/-- An integer is read alike from any of its spellings. -/
theorem readInteger_respelled {field : IntegerField} {v v' : Json} (h : Respelled v v') :
    readInteger field v' = readInteger field v := by
  cases h with
  | same => rfl
  | spelt h =>
      have hn := integer?_eq_some.mpr (.numeral (numeral?_of_spells h))
      exact (readInteger_eq_ok.mpr hn).trans (readInteger_eq_ok.mpr rfl).symm

section

variable {R : String → Json → Json → Prop} {r r' : Record}

/-- What a record has under a name, or takes in its place, is related. -/
theorem getD_alike (h : MembersAlike R r r')
    (name : String) {default : Json} (hdefault : R name default default) :
    R name ((Json.member? name r).getD default) ((Json.member? name r').getD default) := by
  unfold Json.member?
  induction h with
  | nil => exact hdefault
  | @cons m m' _ _ hm _ ih =>
      obtain ⟨hname, hvalue⟩ := hm
      obtain ⟨key, v⟩ := m
      obtain ⟨key', v'⟩ := m'
      obtain rfl : key = key' := hname
      rw [List.lookup_cons, List.lookup_cons]
      split
      next hkey =>
        rw [beq_iff_eq.mp hkey]
        exact hvalue
      next => exact ih

variable {fields : List String}

/-- A field that may be spelled in another way is respelled. -/
theorem FieldAlike.respelled {name : String} {v v' : Json} (h : FieldAlike fields name v v') :
    Respelled v v' := by
  rcases h with rfl | ⟨-, h⟩
  · exact .same _
  · exact h

/-- A field that may not be spelled in another way is the same. -/
theorem FieldAlike.eq {name : String} {v v' : Json} (h : FieldAlike fields name v v')
    (hname : name ∉ fields) : v' = v := by
  rcases h with rfl | ⟨hmem, -⟩
  · rfl
  · exact absurd hmem hname

end

/-! ## records -/

theorem ok_bind {α β : Type} (a : α) (f : α → Except Fault β) : .ok a >>= f = f a :=
  rfl

section

variable {fields : List String} {r r' : Record}
  (h : MembersAlike (FieldAlike fields) r r')

include h

/-- The integer fields of records that are alike read alike. -/
theorem readInteger_alike (field : IntegerField) (name : String) :
    readInteger field (valueOf name r') = readInteger field (valueOf name r) :=
  readInteger_respelled (getD_alike h name (.inl rfl)).respelled

/-- The ids of records that are alike read alike. -/
theorem readId_alike (field : IntegerField) (position : Nat) :
    readId field position r' = readId field position r :=
  readInteger_respelled (getD_alike h "id" (.inl rfl)).respelled

/-- The labels of records that are alike are the same. -/
theorem labelOf_alike {name : String} (hname : name ∉ fields) :
    labelOf name r' = labelOf name r := by
  have hvalue : valueOf name r' = valueOf name r := (getD_alike h name (.inl rfl)).eq hname
  rw [labelOf, labelOf, hvalue]

/-- The flags of records that are alike are the same. -/
theorem flagOf_alike {name : String} (hname : name ∉ fields) :
    flagOf name r' = flagOf name r := by
  have hvalue : valueOf name r' = valueOf name r := (getD_alike h name (.inl rfl)).eq hname
  rw [flagOf, flagOf, hvalue]

end

/-- Mappings that are alike read alike. -/
theorem readMapping_alike {v v' : Json} (h : MappingAlike v v') (position : Nat) :
    readMapping position v' = readMapping position v := by
  cases h with
  | same => rfl
  | object h =>
      simp only [readMapping, membersOf, ok_bind, readId_alike h, readInteger_alike h,
        labelOf_alike h (by decide : "file" ∉ mappingFields),
        labelOf_alike h (by decide : "build_id" ∉ mappingFields),
        flagOf_alike h (by decide : "has_functions" ∉ mappingFields),
        flagOf_alike h (by decide : "has_filenames" ∉ mappingFields),
        flagOf_alike h (by decide : "has_line_numbers" ∉ mappingFields),
        flagOf_alike h (by decide : "has_inline_frames" ∉ mappingFields)]

/-- Functions that are alike read alike. -/
theorem readFunction_alike {v v' : Json} (h : FunctionAlike v v') (position : Nat) :
    readFunction position v' = readFunction position v := by
  cases h with
  | same => rfl
  | object h =>
      simp only [readFunction, membersOf, ok_bind, readId_alike h,
        labelOf_alike h (by decide : "name" ∉ functionFields),
        labelOf_alike h (by decide : "system_name" ∉ functionFields),
        labelOf_alike h (by decide : "filename" ∉ functionFields)]

/-- Lines that are alike read alike. -/
theorem readLine_alike {v v' : Json} (h : LineAlike v v') (functions : List (FunctionOf Json)) :
    readLine functions v' = readLine functions v := by
  cases h with
  | same => rfl
  | object h => simp only [readLine, membersOf, ok_bind, readInteger_alike h]

/-! ## lists -/

section

variable {R : Json → Json → Prop} {vs vs' : List Json}

/-- Lists of values that are alike read alike, if the values do. -/
theorem mapM_alike {α : Type} {f : Json → Except Fault α} (h : List.Forall₂ R vs vs')
    (hf : ∀ v v', R v v' → f v' = f v) : vs'.mapM f = vs.mapM f := by
  induction h with
  | nil => rfl
  | cons hv _ ih => rw [List.mapM_cons, List.mapM_cons, hf _ _ hv, ih]

/-- Lists of values that are alike read alike, if the values do at each position. -/
theorem mapM_zipIdx_alike {α : Type} {f : Json × Nat → Except Fault α} (h : List.Forall₂ R vs vs')
    (hf : ∀ v v' position, R v v' → f (v', position) = f (v, position)) (start : Nat) :
    (vs'.zipIdx start).mapM f = (vs.zipIdx start).mapM f := by
  induction h generalizing start with
  | nil => rfl
  | cons hv _ ih =>
      rw [List.zipIdx_cons, List.zipIdx_cons, List.mapM_cons, List.mapM_cons, hf _ _ _ hv, ih]

/-- Lists of records that are alike read alike, if the records do. -/
theorem readRecords_alike {α : Type} {readAt : Nat → Json → Except Fault α} {idOf : α → Int}
    {duplicate : Int → DocumentFault} (h : List.Forall₂ R vs vs')
    (hread : ∀ v v', R v v' → ∀ position, readAt position v' = readAt position v)
    (before : List α) :
    readRecords readAt idOf duplicate before vs' = readRecords readAt idOf duplicate before vs := by
  induction h generalizing before with
  | nil => rfl
  | cons hv _ ih => simp only [readRecords, hread _ _ hv, ih]

/-- What is done with the elements of lists is the same if it is the same for related elements. -/
theorem bind_elementsOf_alike {α : Type} {v v' : Json} {f : List Json → Except Fault α}
    (h : ListAlike R v v') (hf : ∀ vs vs', List.Forall₂ R vs vs' → f vs' = f vs) :
    elementsOf v' >>= f = elementsOf v >>= f := by
  cases h with
  | same => rfl
  | list h => exact hf _ _ h

end

/-! ## locations -/

/-- A reference to a mapping is read alike from any spelling of the id. -/
theorem readMappingReference_respelled {mappings : List (MappingOf Json)} {v v' : Json}
    (h : Respelled v v') :
    readMappingReference mappings v' = readMappingReference mappings v := by
  cases h with
  | same => rfl
  | spelt h => simp only [readMappingReference, readInteger_respelled (.spelt h)]

/-- Locations that are alike read alike. -/
theorem readLocation_alike {mappings : List (MappingOf Json)} {functions : List (FunctionOf Json)}
    {v v' : Json} (h : LocationAlike v v') (position : Nat) :
    readLocation mappings functions position v' = readLocation mappings functions position v := by
  cases h with
  | same => rfl
  | @object r r' h =>
      have hid : Respelled ((Json.member? "id" r).getD (.int (position + 1)))
          ((Json.member? "id" r').getD (.int (position + 1))) :=
        FieldAlike.respelled (getD_alike h "id" (.inl rfl))
      have hmapping : Respelled (valueOf "mapping_id" r) (valueOf "mapping_id" r') :=
        FieldAlike.respelled (getD_alike h "mapping_id" (.inl rfl))
      have haddress : Respelled (valueOf "address" r) (valueOf "address" r') :=
        FieldAlike.respelled (getD_alike h "address" (.inl rfl))
      simp only [readLocation, membersOf, ok_bind, readId, listOf, readInteger_respelled hid,
        readMappingReference_respelled hmapping, readInteger_respelled haddress]
      refine bind_congr fun mapping => ?_
      refine bind_elementsOf_alike (getD_alike h "lines" (.same _)) fun vs vs' hvs => ?_
      rw [mapM_alike hvs fun _ _ hline => readLine_alike hline functions]

/-! ## documents -/

section

variable {members members' : Record} (h : MembersAlike PartAlike members members')

include h

/-- The mappings of documents that are alike read alike. -/
theorem readMappings_alike : readMappings members' = readMappings members :=
  bind_elementsOf_alike (getD_alike h "mappings" (.same _)) fun _ _ hvs =>
    readRecords_alike hvs (fun _ _ => readMapping_alike) []

/-- The functions of documents that are alike read alike. -/
theorem readFunctions_alike : readFunctions members' = readFunctions members :=
  bind_elementsOf_alike (getD_alike h "functions" (.same _)) fun _ _ hvs =>
    readRecords_alike hvs (fun _ _ => readFunction_alike) []

end

/-- A document in which numerals stand for integers is read as the one with the integers, be it a
profile or a fault.  Around a numeral may stand what is white space by the Unicode property.  The
information separators U+001C to U+001F are blank elsewhere, in tool output and answers of servers,
but a string with one of them denotes no integer, so that they are left out here. -/
theorem read_alike {v v' : Json} (h : DocumentAlike v v') : read v' = read v := by
  cases h with
  | same => rfl
  | object h =>
      simp only [read_object, readMappings_alike h, readFunctions_alike h, listOf]
      refine bind_congr fun mappings => bind_congr fun functions => ?_
      refine bind_elementsOf_alike (getD_alike h "locations" (.same _)) fun vs vs' hvs => ?_
      rw [mapM_zipIdx_alike hvs fun _ _ position hl => readLocation_alike hl position]

/-! ## a document -/

/-- A document with integers. -/
def numbered : Json :=
  .object [
    ("mappings", .list [.object [("id", .int 1), ("start", .int 4096), ("file", .text "a.out")]]),
    ("functions", .list [.object [("id", .int (-7)), ("name", .text "main")]]),
    ("locations", .list [.object [("mapping_id", .int 1),
      ("lines", .list [.object [("function_id", .int (-7)), ("line", .int 12)]])]])]

/-- The same document with numerals. -/
def spelled : Json :=
  .object [
    ("mappings", .list [.object [("id", .int 1), ("start", .text "0X1_000"),
      ("file", .text "a.out")]]),
    ("functions", .list [.object [("id", .text "-0b1_1_1"), ("name", .text "main")]]),
    ("locations", .list [.object [("mapping_id", .text "+0o1"),
      ("lines", .list [.object [("function_id", .text "-7"), ("line", .text " 1_2\n")]])]])]

/-- The document with numerals and the one with spellings are alike. -/
theorem documentAlike_spelled : DocumentAlike numbered spelled := by
  have hstart : Spells "0X1_000".toList 4096 :=
    ⟨[], [], "0X1_000".toList, [], rfl, nofun, nofun, .none (by decide),
      .marked (by decide : ('X', 16) ∈ marks) (rfl : AreDigits 16 4096 ['1', '0', '0', '0'])
        (.apart _ (.next _ (.next _ (.last _))))⟩
  have hid : Spells "-0b1_1_1".toList (-7) :=
    ⟨[], ['-'], "0b1_1_1".toList, [], rfl, nofun, nofun, .minus (by decide),
      .marked (by decide : ('b', 2) ∈ marks) (rfl : AreDigits 2 7 ['1', '1', '1'])
        (.apart _ (.apart _ (.last _)))⟩
  have hmapping : Spells "+0o1".toList 1 :=
    ⟨[], ['+'], "0o1".toList, [], rfl, nofun, nofun, .plus (by decide),
      .marked (by decide : ('o', 8) ∈ marks) (rfl : AreDigits 8 1 ['1']) (.last _)⟩
  have hfunction : Spells "-7".toList (-7) :=
    ⟨[], ['-'], ['7'], [], rfl, nofun, nofun, .minus (by decide),
      .decimal (by decide) (.last '7')⟩
  have hline : Spells " 1_2\n".toList 12 :=
    ⟨[' '], [], ['1', '_', '2'], ['\n'], rfl, Text.forall_mem_of_all (by decide),
      Text.forall_mem_of_all (by decide),
      .none (by decide), .decimal (by decide) (.apart '1' (.last '2'))⟩
  have spelt {fields : List String} {name s : String} {n : Int} (hname : name ∈ fields)
      (h : Spells s.toList n) : FieldAlike fields name (.int n) (.text s) :=
    .inr ⟨hname, .spelt h⟩
  have hmappings : MappingAlike
      (.object [("id", .int 1), ("start", .int 4096), ("file", .text "a.out")])
      (.object [("id", .int 1), ("start", .text "0X1_000"), ("file", .text "a.out")]) :=
    .object (.cons ⟨rfl, .inl rfl⟩ (.cons ⟨rfl, spelt (by decide) hstart⟩
      (.cons ⟨rfl, .inl rfl⟩ .nil)))
  have hfunctions : FunctionAlike (.object [("id", .int (-7)), ("name", .text "main")])
      (.object [("id", .text "-0b1_1_1"), ("name", .text "main")]) :=
    .object (.cons ⟨rfl, spelt (by decide) hid⟩ (.cons ⟨rfl, .inl rfl⟩ .nil))
  have hlines : LineAlike (.object [("function_id", .int (-7)), ("line", .int 12)])
      (.object [("function_id", .text "-7"), ("line", .text " 1_2\n")]) :=
    .object (.cons ⟨rfl, spelt (by decide) hfunction⟩
      (.cons ⟨rfl, spelt (by decide) hline⟩ .nil))
  exact .object (.cons ⟨rfl, .list (.cons hmappings .nil)⟩
    (.cons ⟨rfl, .list (.cons hfunctions .nil)⟩
      (.cons ⟨rfl, .list (.cons (.object (.cons ⟨rfl, spelt (by decide) hmapping⟩
        (.cons ⟨rfl, .list (.cons hlines .nil)⟩ .nil))) .nil)⟩ .nil)))

theorem read_alike_spelled :
    DocumentAlike numbered spelled ∧ read spelled = read numbered ∧ (read spelled).isOk = true :=
  ⟨documentAlike_spelled, read_alike documentAlike_spelled, by decide +kernel⟩

end Document

end Symbolication
