import Symbolication.Proofs.Profile.Loaded

/-!
# Symbolication.Proofs.Profile.Acceptance

Which documents hold a profile.  In a document of the right shape everything that should be a
list of records is one, or is missing.  Such a document is read unless an integer is none, an id
is used twice or a reference leads nowhere, and the profile that it holds can be told from it
record by record:

* `StandsFor`, `HasId`, `Names` — integers, ids and references as documents have them;
* `Acceptable`, `Reflects` — what is asked of a document, and what comes of it;
* `read_eq_ok` — the profiles that are read;
* `exists_reflects_iff` — when there is one;
* `read_shaped` — every other document is complained of.
-/

namespace Symbolication

open Number

namespace Document

/-- The members of a record. -/
abbrev Record := List (String × Json)

/-! ## integers -/

/-- The value stands for an integer: it is that integer, or a string that holds a numeral of it.
Null and the empty string stand for zero. -/
inductive StandsFor : Json → Int → Prop
  | null : StandsFor .null 0
  | int (n : Int) : StandsFor (.int n) n
  | empty : StandsFor (.text "") 0
  | numeral {s : String} {n : Int} (h : numeral? s.toList = some n) : StandsFor (.text s) n

/-- A value reads as an integer just if it stands for it. -/
theorem integer?_eq_some {v : Json} {n : Int} : integer? v = some n ↔ StandsFor v n := by
  constructor
  · intro h
    cases v with
    | null =>
        cases h
        exact .null
    | int m =>
        cases h
        exact .int _
    | text s =>
        by_cases hs : s = ""
        · subst hs
          cases h
          exact .empty
        · rw [integer?_numeral s (by simpa using hs)] at h
          exact .numeral h
    | _ => cases h
  · intro h
    cases h with
    | null | int | empty => rfl
    | @numeral s n h =>
        have hs : s.isEmpty = false := by
          by_contra hempty
          have hs : s = "" := by simpa using hempty
          subst hs
          cases h
        rw [integer?_numeral s hs, h]

/-- A value stands for one integer at most. -/
theorem StandsFor.unique {v : Json} {m n : Int} (hm : StandsFor v m) (hn : StandsFor v n) :
    m = n := by
  rw [← integer?_eq_some] at hm hn
  exact Option.some.inj (hm.symm.trans hn)

/-- An integer field is read just if its value stands for the integer. -/
theorem readInteger_eq_ok_iff {field : IntegerField} {v : Json} {n : Int} :
    readInteger field v = .ok n ↔ StandsFor v n :=
  readInteger_eq_ok.trans integer?_eq_some

/-- The fields of a record, as far as they are there, hold integers. -/
def IntegersIn (fields : List String) (r : Record) : Prop :=
  ∀ name ∈ fields, ∀ v ∈ Json.member? name r, ∃ n, StandsFor v n

theorem integersIn_nil {r : Record} : IntegersIn [] r :=
  fun _ hname => absurd hname List.not_mem_nil

theorem integersIn_cons {name : String} {fields : List String} {r : Record} :
    IntegersIn (name :: fields) r ↔
      (∀ v ∈ Json.member? name r, ∃ n, StandsFor v n) ∧ IntegersIn fields r :=
  List.forall_mem_cons

/-- A missing field stands for zero. -/
theorem exists_standsFor_valueOf {name : String} {r : Record} :
    (∃ n, StandsFor (valueOf name r) n) ↔ ∀ v ∈ Json.member? name r, ∃ n, StandsFor v n := by
  unfold valueOf
  cases Json.member? name r with
  | none => exact iff_of_true ⟨0, .null⟩ nofun
  | some v => simp

/-! ## ids -/

/-- The id of a record: without one, records count from one. -/
def idValue (position : Nat) (r : Record) : Json :=
  (Json.member? "id" r).getD (.int (position + 1))

/-- A record has an id unless its member stands for no integer. -/
theorem exists_standsFor_idValue (position : Nat) {r : Record} :
    (∃ n, StandsFor (idValue position r) n) ↔
      ∀ v ∈ Json.member? "id" r, ∃ n, StandsFor v n := by
  unfold idValue
  cases Json.member? "id" r with
  | none => exact iff_of_true ⟨_, .int _⟩ nofun
  | some v => simp

/-- The record at a position has the id. -/
def HasId (records : List Record) (n : Int) (i : Nat) : Prop :=
  ∃ r, records[i]? = some r ∧ StandsFor (idValue i r) n

/-- No two records have the same id. -/
def Distinct (records : List Record) : Prop :=
  ∀ n i j, HasId records n i → HasId records n j → i = j

/-- The value is the id of a record. -/
def IsKnown (records : List Record) (v : Json) : Prop :=
  ∃ n i, StandsFor v n ∧ HasId records n i

/-- The value is the id of the record at a position and of no other one. -/
def Names (records : List Record) (v : Json) (i : Nat) : Prop :=
  ∃ n, StandsFor v n ∧ ∀ j, HasId records n j ↔ j = i

/-- These are the ids of the records. -/
def Numbered (records : List Record) (ids : List Int) : Prop :=
  List.Forall₂ (fun x n => StandsFor (idValue x.2 x.1) n) records.zipIdx ids

variable {records : List Record}

/-- Something is named just if it is the id of a known record, with ids told apart. -/
theorem exists_names_iff (hdistinct : Distinct records) {v : Json} :
    (∃ i, Names records v i) ↔ IsKnown records v := by
  constructor
  · rintro ⟨i, n, hn, hi⟩
    exact ⟨n, i, hn, (hi i).mpr rfl⟩
  · rintro ⟨n, i, hn, hi⟩
    refine ⟨i, n, hn, fun j => ⟨fun hj => hdistinct n j i hj hi, ?_⟩⟩
    rintro rfl
    exact hi

section

variable {ids : List Int}

/-- A record has an id just if the list of ids has it at the record's position. -/
theorem hasId_iff (h : Numbered records ids) {n : Int} {i : Nat} :
    HasId records n i ↔ ids[i]? = some n := by
  obtain ⟨hlength, hget⟩ := List.forall₂_iff_get.mp h
  rw [List.length_zipIdx] at hlength
  constructor
  · rintro ⟨r, hr, hn⟩
    obtain ⟨hi, rfl⟩ := List.getElem?_eq_some_iff.mp hr
    have hid := hget i (by simpa using hi) (by omega)
    simp only [List.get_eq_getElem, List.getElem_zipIdx, Nat.zero_add] at hid
    rw [List.getElem?_eq_some_iff]
    exact ⟨by omega, hid.unique hn⟩
  · intro hn
    obtain ⟨hi, rfl⟩ := List.getElem?_eq_some_iff.mp hn
    have hid := hget i (by simpa using hlength ▸ hi) hi
    simp only [List.get_eq_getElem, List.getElem_zipIdx, Nat.zero_add] at hid
    exact ⟨_, List.getElem?_eq_getElem (by omega), hid⟩

/-- Records are told apart just if no id comes twice. -/
theorem distinct_iff (h : Numbered records ids) : Distinct records ↔ ids.Nodup := by
  simp only [Distinct, hasId_iff h, List.nodup_iff_getElem?_ne_getElem?]
  constructor
  · intro hdistinct i j hij hj heq
    have hn : ids[j]? = some ids[j] := List.getElem?_eq_getElem hj
    exact absurd (hdistinct _ i j (heq.trans hn) hn) (by omega)
  · intro hne n i j hi hj
    obtain ⟨hi', -⟩ := List.getElem?_eq_some_iff.mp hi
    obtain ⟨hj', -⟩ := List.getElem?_eq_some_iff.mp hj
    rcases Nat.lt_trichotomy i j with hlt | rfl | hlt
    · exact absurd (hi.trans hj.symm) (hne i j hlt hj')
    · rfl
    · exact absurd (hj.trans hi.symm) (hne j i hlt hi')

/-- The record with an id is looked up at its position. -/
theorem findIdx?_eq_some_iff {α : Type} {idOf : α → Int} {rs : List α}
    (hnodup : (rs.map idOf).Nodup) {n : Int} {i : Nat} :
    rs.findIdx? (idOf · == n) = some i ↔ (rs.map idOf)[i]? = some n := by
  constructor
  · intro h
    obtain ⟨hi, hsame, -⟩ := List.findIdx?_eq_some_iff_getElem.mp h
    rw [List.getElem?_map, List.getElem?_eq_getElem hi]
    simpa using hsame
  · intro h
    obtain ⟨r, hr, rfl⟩ := Option.map_eq_some_iff.mp (List.getElem?_map ▸ h)
    obtain ⟨hi, rfl⟩ := List.getElem?_eq_some_iff.mp hr
    exact findIdx?_getElem hnodup hi

/-- What is looked up by the id that a value stands for is what the value names. -/
theorem names_iff_findIdx? {α : Type} {idOf : α → Int} {rs : List α}
    (h : Numbered records (rs.map idOf)) (hnodup : (rs.map idOf).Nodup) {v : Json} {i : Nat} :
    Names records v i ↔ ∃ n, StandsFor v n ∧ rs.findIdx? (idOf · == n) = some i := by
  refine exists_congr fun n => and_congr_right fun _ => ?_
  rw [findIdx?_eq_some_iff hnodup, ← hasId_iff h]
  constructor
  · exact fun hi => (hi i).mpr rfl
  · intro hi j
    refine ⟨fun hj => (distinct_iff h).mpr hnodup n j i hj hi, ?_⟩
    rintro rfl
    exact hi

end

/-! ## shapes -/

/-- The members of the records in a list; none if it is missing. -/
def recordsOf (name : String) (r : Record) : List Record :=
  match Json.member? name r with
  | some (.list items) => items.filterMap fun
    | .object members => some members
    | _ => none
  | _ => []

/-- The list is missing, or it holds records only. -/
def IsRecordList (name : String) (r : Record) : Prop :=
  ∀ v ∈ Json.member? name r, ∃ rs : List Record, v = .list (rs.map .object)

/-- Where a document should have a list of records, it has one or nothing. -/
structure Shaped (members : Record) : Prop where
  mappings : IsRecordList "mappings" members
  functions : IsRecordList "functions" members
  locations : IsRecordList "locations" members
  lines : ∀ l ∈ recordsOf "locations" members, IsRecordList "lines" l

/-- A list of records is taken as the list of their objects. -/
theorem listOf_eq_of_isRecordList {name : String} {r : Record} (h : IsRecordList name r) :
    listOf name r = .ok ((recordsOf name r).map .object) := by
  unfold listOf recordsOf
  cases hv : Json.member? name r with
  | none => rfl
  | some v =>
      obtain ⟨rs, rfl⟩ := h v hv
      simp [elementsOf, Json.elements?, List.filterMap_map]

/-! ## records -/

/-- What a mapping is in the record at a position. -/
structure IsMapping (position : Nat) (r : Record) (m : MappingOf Json) : Prop where
  id : StandsFor (idValue position r) m.id
  start : StandsFor (valueOf "start" r) m.start
  limit : StandsFor (valueOf "limit" r) m.limit
  offset : StandsFor (valueOf "offset" r) m.offset
  file : m.file = labelOf "file" r
  buildId : m.buildId = labelOf "build_id" r
  hasFunctions : m.hasFunctions = flagOf "has_functions" r
  hasFilenames : m.hasFilenames = flagOf "has_filenames" r
  hasLineNumbers : m.hasLineNumbers = flagOf "has_line_numbers" r
  hasInlineFrames : m.hasInlineFrames = flagOf "has_inline_frames" r

/-- What a function is in the record at a position. -/
structure IsFunction (position : Nat) (r : Record) (fn : FunctionOf Json) : Prop where
  id : StandsFor (idValue position r) fn.id
  name : fn.name = labelOf "name" r
  systemName : fn.systemName = labelOf "system_name" r
  filename : fn.filename = labelOf "filename" r

/-- What a line is in a record, where functions have these records. -/
structure IsLine (functions : List Record) (r : Record) (line : Line) : Prop where
  function : Names functions (valueOf "function_id" r) line.function
  line : StandsFor (valueOf "line" r) line.line

/-- What a location is in the record at a position, where mappings and functions have these
records. -/
structure IsLocation (mappings functions : List Record) (position : Nat) (r : Record)
    (l : Location) : Prop where
  id : StandsFor (idValue position r) l.id
  address : StandsFor (valueOf "address" r) l.address
  unmapped : l.mapping = none ↔ valueOf "mapping_id" r = .null
  mapping : ∀ i ∈ l.mapping, Names mappings (valueOf "mapping_id" r) i
  lines : List.Forall₂ (IsLine functions) (recordsOf "lines" r) l.lines

/-- The integer fields of a mapping. -/
def mappingFields : List String := ["id", "start", "limit", "offset"]

/-- The integer fields of a function. -/
def functionFields : List String := ["id"]

/-- The integer fields of a line. -/
def lineFields : List String := ["function_id", "line"]

/-- The integer fields of a location. -/
def locationFields : List String := ["id", "mapping_id", "address"]

/-- A record describes a mapping just if its integer fields hold integers. -/
theorem exists_isMapping_iff (position : Nat) (r : Record) :
    (∃ m, IsMapping position r m) ↔ IntegersIn mappingFields r := by
  rw [mappingFields, integersIn_cons, ← exists_standsFor_idValue position]
  simp only [integersIn_cons, integersIn_nil, and_true, ← exists_standsFor_valueOf]
  constructor
  · rintro ⟨m, h⟩
    exact ⟨⟨_, h.id⟩, ⟨_, h.start⟩, ⟨_, h.limit⟩, ⟨_, h.offset⟩⟩
  · rintro ⟨⟨id, hid⟩, ⟨start, hstart⟩, ⟨limit, hlimit⟩, ⟨offset, hoffset⟩⟩
    exact ⟨⟨id, start, limit, offset, _, _, _, _, _, _⟩, hid, hstart, hlimit, hoffset, rfl, rfl,
      rfl, rfl, rfl, rfl⟩

/-- A record describes a function just if its integer field holds an integer. -/
theorem exists_isFunction_iff (position : Nat) (r : Record) :
    (∃ fn, IsFunction position r fn) ↔ IntegersIn functionFields r := by
  rw [functionFields, integersIn_cons, ← exists_standsFor_idValue position]
  simp only [integersIn_nil, and_true]
  constructor
  · rintro ⟨fn, h⟩
    exact ⟨_, h.id⟩
  · rintro ⟨id, hid⟩
    exact ⟨⟨id, _, _, _⟩, hid, rfl, rfl, rfl⟩

/-- A record describes a line just if its integer fields hold integers and its function is known. -/
theorem exists_isLine_iff {functions : List Record} (hdistinct : Distinct functions) {r : Record} :
    (∃ line, IsLine functions r line) ↔
      IntegersIn lineFields r ∧ IsKnown functions (valueOf "function_id" r) := by
  simp only [lineFields, integersIn_cons, integersIn_nil, and_true, ← exists_standsFor_valueOf]
  constructor
  · rintro ⟨line, h⟩
    have hknown := (exists_names_iff hdistinct).mp ⟨_, h.function⟩
    obtain ⟨n, i, hn, -⟩ := id hknown
    exact ⟨⟨⟨n, hn⟩, _, h.line⟩, hknown⟩
  · rintro ⟨⟨-, n, hn⟩, hknown⟩
    obtain ⟨i, hi⟩ := (exists_names_iff hdistinct).mpr hknown
    exact ⟨⟨i, n⟩, hi, hn⟩

/-- Each element of a list has a partner if there is a list of partners. -/
theorem exists_forall₂_iff {α β : Type} {R : α → β → Prop} {l : List α} :
    (∃ bs, List.Forall₂ R l bs) ↔ ∀ a ∈ l, ∃ b, R a b := by
  induction l with
  | nil => simp
  | cons a rest ih => simp [List.forall₂_cons_left_iff, ← ih]

/-- A record describes a location just if its fields hold integers, its mapping, should it name one,
is known, and so are the functions of its lines. -/
theorem exists_isLocation_iff {mappings functions : List Record} (hmappings : Distinct mappings)
    (hfunctions : Distinct functions) (position : Nat) (r : Record) :
    (∃ l, IsLocation mappings functions position r l) ↔
      IntegersIn locationFields r ∧
      (valueOf "mapping_id" r ≠ .null → IsKnown mappings (valueOf "mapping_id" r)) ∧
      ∀ line ∈ recordsOf "lines" r,
        IntegersIn lineFields line ∧ IsKnown functions (valueOf "function_id" line) := by
  rw [locationFields, integersIn_cons, ← exists_standsFor_idValue position]
  simp only [integersIn_cons, integersIn_nil, and_true, ← exists_standsFor_valueOf,
    ← exists_isLine_iff hfunctions, ← exists_forall₂_iff, ← exists_names_iff hmappings]
  constructor
  · rintro ⟨l, h⟩
    have hmapping : valueOf "mapping_id" r ≠ .null →
        ∃ i, Names mappings (valueOf "mapping_id" r) i := by
      intro hne
      obtain ⟨i, hi⟩ := Option.ne_none_iff_exists'.mp (mt h.unmapped.mp hne)
      exact ⟨i, h.mapping i hi⟩
    refine ⟨⟨⟨_, h.id⟩, ?_, _, h.address⟩, hmapping, _, h.lines⟩
    by_cases hnull : valueOf "mapping_id" r = .null
    · exact ⟨0, hnull ▸ .null⟩
    · obtain ⟨i, n, hn, -⟩ := hmapping hnull
      exact ⟨n, hn⟩
  · rintro ⟨⟨⟨id, hid⟩, -, address, haddress⟩, hmapping, lines, hlines⟩
    by_cases hnull : valueOf "mapping_id" r = .null
    · exact ⟨⟨id, address, none, lines⟩, hid, haddress, by simpa using hnull, nofun, hlines⟩
    · obtain ⟨i, hi⟩ := hmapping hnull
      refine ⟨⟨id, address, some i, lines⟩, hid, haddress, by simpa using hnull, ?_, hlines⟩
      rintro _ ⟨⟩
      exact hi

/-! ## reading records -/

/-- A mapping is read just if the record describes it. -/
theorem readMapping_eq_ok {position : Nat} {r : Record} {m : MappingOf Json} :
    readMapping position (.object r) = .ok m ↔ IsMapping position r m := by
  simp only [readMapping, membersOf, readId, bind_eq_ok, readInteger_eq_ok_iff, pure, Except.pure,
    Except.ok.injEq, exists_eq_left']
  constructor
  · rintro ⟨id, hid, start, hstart, limit, hlimit, offset, hoffset, rfl⟩
    exact ⟨hid, hstart, hlimit, hoffset, rfl, rfl, rfl, rfl, rfl, rfl⟩
  · intro h
    refine ⟨_, h.id, _, h.start, _, h.limit, _, h.offset, ?_⟩
    rw [← h.file, ← h.buildId, ← h.hasFunctions, ← h.hasFilenames, ← h.hasLineNumbers,
      ← h.hasInlineFrames]

/-- A function is read just if the record describes it. -/
theorem readFunction_eq_ok {position : Nat} {r : Record} {fn : FunctionOf Json} :
    readFunction position (.object r) = .ok fn ↔ IsFunction position r fn := by
  simp only [readFunction, membersOf, readId, bind_eq_ok, readInteger_eq_ok_iff, pure, Except.pure,
    Except.ok.injEq, exists_eq_left']
  constructor
  · rintro ⟨id, hid, rfl⟩
    exact ⟨hid, rfl, rfl, rfl⟩
  · intro h
    refine ⟨_, h.id, ?_⟩
    rw [← h.name, ← h.systemName, ← h.filename]

section

variable {α : Type} {readAt : Nat → Json → Except Fault α} {idOf : α → Int}
  {duplicate : Int → DocumentFault}

/-- Records are read one by one, if no two of them have the same id. -/
theorem readRecords_eq_ok (before : List α) (hbefore : (before.map idOf).Nodup) {vs : List Json}
    {rs : List α} :
    readRecords readAt idOf duplicate before vs = .ok rs ↔
      ∃ new, rs = before ++ new ∧
        List.Forall₂ (fun x r => readAt x.2 x.1 = .ok r) (vs.zipIdx before.length) new ∧
        (rs.map idOf).Nodup := by
  induction vs generalizing before with
  | nil =>
      simp only [readRecords, List.zipIdx_nil, List.forall₂_nil_left_iff, Except.ok.injEq]
      constructor
      · rintro rfl
        exact ⟨[], by simp, rfl, hbefore⟩
      · rintro ⟨_, rfl, rfl, -⟩
        simp
  | cons v rest ih =>
      rw [readRecords_cons, bind_eq_ok, List.zipIdx_cons]
      constructor
      · rintro ⟨r, hr, h⟩
        split at h
        · cases h
        · rename_i hnew
          have hnodup := nodup_append_singleton.mpr ⟨hbefore, hnew⟩
          obtain ⟨new, rfl, hread, hrs⟩ := (ih _ hnodup).mp h
          rw [List.length_append, List.length_singleton] at hread
          exact ⟨r :: new, by simp, .cons hr hread, hrs⟩
      · rintro ⟨_, rfl, hread, hrs⟩
        obtain ⟨r, new, hr, hread, rfl⟩ := List.forall₂_cons_left_iff.mp hread
        have hassoc : before ++ r :: new = before ++ [r] ++ new := by simp
        have hnodup : ((before ++ [r]).map idOf).Nodup := by
          rw [hassoc, List.map_append] at hrs
          exact hrs.of_append_left
        refine ⟨r, hr, ?_⟩
        rw [if_neg (nodup_append_singleton.mp hnodup).2]
        refine (ih _ hnodup).mpr ⟨new, hassoc, ?_, hrs⟩
        rwa [List.length_append, List.length_singleton]

end

/-- A walk gives what each of its steps gives. -/
theorem mapM_eq_ok_iff {α β : Type} {f : α → Except Fault β} {l : List α} {bs : List β} :
    l.mapM f = .ok bs ↔ List.Forall₂ (fun a b => f a = .ok b) l bs := by
  induction l generalizing bs with
  | nil => simp [pure, Except.pure, eq_comm]
  | cons a rest ih =>
      simp only [List.mapM_cons, bind_eq_ok, ih, List.forall₂_cons_left_iff, pure, Except.pure,
        Except.ok.injEq]
      constructor
      · rintro ⟨b, hb, later, hlater, rfl⟩
        exact ⟨b, later, hb, hlater, rfl⟩
      · rintro ⟨b, later, hb, hlater, rfl⟩
        exact ⟨b, hb, later, hlater, rfl⟩

section

variable {mappingRecords functionRecords : List Record} {mappings : List (MappingOf Json)}
  {functions : List (FunctionOf Json)}

/-- A reference to a mapping is read as none for `null`, else as the position that it names. -/
theorem readMappingReference_eq_ok (h : Numbered mappingRecords (mappings.map (·.id)))
    (hnodup : (mappings.map (·.id)).Nodup) {v : Json} {reference : Option Nat} :
    readMappingReference mappings v = .ok reference ↔
      (reference = none ↔ v = .null) ∧ ∀ i ∈ reference, Names mappingRecords v i := by
  unfold readMappingReference
  split
  · simp only [Except.ok.injEq, iff_true]
    constructor
    · rintro rfl
      exact ⟨rfl, nofun⟩
    · exact fun h => h.1.symm
  · rename_i hnull
    have hne : v ≠ .null := hnull
    simp only [bind_eq_ok, readInteger_eq_ok_iff, names_iff_findIdx? h hnodup, hne, iff_false]
    constructor
    · rintro ⟨n, hn, hfound⟩
      split at hfound
      · rename_i i hi
        cases hfound
        refine ⟨nofun, ?_⟩
        rintro _ ⟨⟩
        exact ⟨n, hn, hi⟩
      · cases hfound
    · rintro ⟨hsome, hnames⟩
      obtain ⟨i, rfl⟩ := Option.ne_none_iff_exists'.mp hsome
      obtain ⟨n, hn, hi⟩ := hnames i rfl
      exact ⟨n, hn, by rw [hi]; rfl⟩

/-- A line is read just if the record describes it. -/
theorem readLine_eq_ok (h : Numbered functionRecords (functions.map (·.id)))
    (hnodup : (functions.map (·.id)).Nodup) {r : Record} {line : Line} :
    readLine functions (.object r) = .ok line ↔ IsLine functionRecords r line := by
  simp only [readLine, membersOf, bind_eq_ok, readInteger_eq_ok_iff, Except.ok.injEq,
    exists_eq_left']
  constructor
  · rintro ⟨n, hn, hfound⟩
    split at hfound
    · rename_i i hi
      obtain ⟨k, hk, hline⟩ := bind_eq_ok.mp hfound
      cases hline
      exact ⟨(names_iff_findIdx? h hnodup).mpr ⟨n, hn, hi⟩, readInteger_eq_ok_iff.mp hk⟩
    · cases hfound
  · intro hline
    obtain ⟨n, hn, hi⟩ := (names_iff_findIdx? h hnodup).mp hline.function
    refine ⟨n, hn, ?_⟩
    simp only [hi, bind_eq_ok, readInteger_eq_ok_iff]
    exact ⟨_, hline.line, rfl⟩

/-- A location is read just if the record describes it. -/
theorem readLocation_eq_ok (hm : Numbered mappingRecords (mappings.map (·.id)))
    (hmappings : (mappings.map (·.id)).Nodup)
    (hf : Numbered functionRecords (functions.map (·.id)))
    (hfunctions : (functions.map (·.id)).Nodup) {position : Nat} {r : Record}
    (hlines : IsRecordList "lines" r) {l : Location} :
    readLocation mappings functions position (.object r) = .ok l ↔
      IsLocation mappingRecords functionRecords position r l := by
  simp only [readLocation, membersOf, readId, bind_eq_ok, readInteger_eq_ok_iff,
    readMappingReference_eq_ok hm hmappings, listOf_eq_of_isRecordList hlines, mapM_eq_ok_iff,
    List.forall₂_map_left_iff, readLine_eq_ok hf hfunctions, pure, Except.pure, Except.ok.injEq,
    exists_eq_left']
  constructor
  · rintro ⟨mapping, ⟨hunmapped, hmapping⟩, lines, hread, id, hid, address, haddress, rfl⟩
    exact ⟨hid, haddress, hunmapped, hmapping, hread⟩
  · intro h
    exact ⟨_, ⟨h.unmapped, h.mapping⟩, _, h.lines, _, h.id, _, h.address, rfl⟩

end

/-! ## documents -/

/-- Two relations that agree on the members of a list relate it to the same lists. -/
theorem forall₂_congr_left {α β : Type} {R S : α → β → Prop} {l : List α}
    (h : ∀ a ∈ l, ∀ b, R a b ↔ S a b) {bs : List β} :
    List.Forall₂ R l bs ↔ List.Forall₂ S l bs := by
  induction l generalizing bs with
  | nil => simp
  | cons a rest ih =>
      simp only [List.forall₂_cons_left_iff, h a List.mem_cons_self,
        ih fun b hb => h b (List.mem_cons_of_mem _ hb)]

/-- What is said holds of every integer field that is there. -/
structure OfIntegers (P : Json → Prop) (members : Record) : Prop where
  mappings : ∀ r ∈ recordsOf "mappings" members, ∀ name ∈ mappingFields,
    ∀ v ∈ Json.member? name r, P v
  functions : ∀ r ∈ recordsOf "functions" members, ∀ name ∈ functionFields,
    ∀ v ∈ Json.member? name r, P v
  locations : ∀ r ∈ recordsOf "locations" members, ∀ name ∈ locationFields,
    ∀ v ∈ Json.member? name r, P v
  lines : ∀ l ∈ recordsOf "locations" members, ∀ r ∈ recordsOf "lines" l, ∀ name ∈ lineFields,
    ∀ v ∈ Json.member? name r, P v

/-- All integers of a document are within the limit. -/
def WithinLimit (members : Record) : Prop :=
  OfIntegers (fun v => ∀ n, StandsFor v n → isWritable n = true) members

/-- Integer fields hold integers, no two mappings and no two functions have the same id, and every
reference is the id of a mapping or function.  A location need not refer to a mapping. -/
structure Acceptable (members : Record) : Prop where
  integers : OfIntegers (fun v => ∃ n, StandsFor v n) members
  mappings_distinct : Distinct (recordsOf "mappings" members)
  functions_distinct : Distinct (recordsOf "functions" members)
  mapping_known : ∀ l ∈ recordsOf "locations" members, valueOf "mapping_id" l ≠ .null →
    IsKnown (recordsOf "mappings" members) (valueOf "mapping_id" l)
  function_known : ∀ l ∈ recordsOf "locations" members, ∀ r ∈ recordsOf "lines" l,
    IsKnown (recordsOf "functions" members) (valueOf "function_id" r)

/-- The records of a profile are those of a document, in the same order. -/
structure Reflects (members : Record) (p : RawProfile) : Prop where
  mappings : List.Forall₂ (fun x => IsMapping x.2 x.1) (recordsOf "mappings" members).zipIdx
    p.mappings
  functions : List.Forall₂ (fun x => IsFunction x.2 x.1) (recordsOf "functions" members).zipIdx
    p.functions
  locations : List.Forall₂
    (fun x => IsLocation (recordsOf "mappings" members) (recordsOf "functions" members) x.2 x.1)
    (recordsOf "locations" members).zipIdx p.locations

variable {members : Record} {p : RawProfile}

/-- Mappings have the ids of the records that describe them. -/
theorem numbered_mappings {ms : List (MappingOf Json)}
    (h : List.Forall₂ (fun x => IsMapping x.2 x.1) records.zipIdx ms) :
    Numbered records (ms.map (·.id)) :=
  List.forall₂_map_right_iff.mpr (h.imp fun _ _ hm => hm.id)

/-- Functions have the ids of the records that describe them. -/
theorem numbered_functions {fns : List (FunctionOf Json)}
    (h : List.Forall₂ (fun x => IsFunction x.2 x.1) records.zipIdx fns) :
    Numbered records (fns.map (·.id)) :=
  List.forall₂_map_right_iff.mpr (h.imp fun _ _ hfn => hfn.id)

/-- Mappings are read just if the records describe them and are told apart. -/
theorem readMappings_eq_ok (h : IsRecordList "mappings" members) {ms : List (MappingOf Json)} :
    readMappings members = .ok ms ↔
      List.Forall₂ (fun x => IsMapping x.2 x.1) (recordsOf "mappings" members).zipIdx ms ∧
        Distinct (recordsOf "mappings" members) := by
  simp only [readMappings, listOf_eq_of_isRecordList h, bind_eq_ok, Except.ok.injEq,
    exists_eq_left', readRecords_eq_ok [] List.nodup_nil, List.nil_append,
    exists_eq_left', List.length_nil, List.zipIdx_map, List.forall₂_map_left_iff, Prod.map,
    id_eq, readMapping_eq_ok]
  exact and_congr_right fun hread => (distinct_iff (numbered_mappings hread)).symm

/-- Functions are read just if the records describe them and are told apart. -/
theorem readFunctions_eq_ok (h : IsRecordList "functions" members)
    {fns : List (FunctionOf Json)} :
    readFunctions members = .ok fns ↔
      List.Forall₂ (fun x => IsFunction x.2 x.1) (recordsOf "functions" members).zipIdx fns ∧
        Distinct (recordsOf "functions" members) := by
  simp only [readFunctions, listOf_eq_of_isRecordList h, bind_eq_ok, Except.ok.injEq,
    exists_eq_left', readRecords_eq_ok [] List.nodup_nil, List.nil_append,
    exists_eq_left', List.length_nil, List.zipIdx_map, List.forall₂_map_left_iff, Prod.map,
    id_eq, readFunction_eq_ok]
  exact and_congr_right fun hread => (distinct_iff (numbered_functions hread)).symm

/-- Locations are read where the mappings and functions have been. -/
theorem mapM_readLocation_eq_ok (h : Shaped members) {ms : List (MappingOf Json)}
    {fns : List (FunctionOf Json)} {ls : List Location}
    (hm : Numbered (recordsOf "mappings" members) (ms.map (·.id)))
    (hms : Distinct (recordsOf "mappings" members))
    (hf : Numbered (recordsOf "functions" members) (fns.map (·.id)))
    (hfns : Distinct (recordsOf "functions" members)) :
    (((recordsOf "locations" members).map Json.object).zipIdx.mapM fun (v, position) =>
      readLocation ms fns position v) = .ok ls ↔
      List.Forall₂ (fun x => IsLocation (recordsOf "mappings" members)
        (recordsOf "functions" members) x.2 x.1) (recordsOf "locations" members).zipIdx ls := by
  rw [mapM_eq_ok_iff, List.zipIdx_map, List.forall₂_map_left_iff]
  refine forall₂_congr_left fun x hx _ => ?_
  exact readLocation_eq_ok hm ((distinct_iff hm).mp hms) hf ((distinct_iff hf).mp hfns)
    (h.lines x.1 (List.fst_mem_of_mem_zipIdx hx))

/-- The profile that a document of the right shape is read as. -/
theorem read_eq_ok (h : Shaped members) :
    read (.object members) = .ok p ↔ Reflects members p ∧
      Distinct (recordsOf "mappings" members) ∧ Distinct (recordsOf "functions" members) := by
  simp only [read_object, bind_eq_ok, readMappings_eq_ok h.mappings,
    readFunctions_eq_ok h.functions, listOf_eq_of_isRecordList h.locations, pure, Except.pure,
    Except.ok.injEq, exists_eq_left']
  constructor
  · rintro ⟨ms, ⟨hms, hmdistinct⟩, fns, ⟨hfns, hfdistinct⟩, ls, hls, rfl⟩
    rw [mapM_readLocation_eq_ok h (numbered_mappings hms) hmdistinct (numbered_functions hfns)
      hfdistinct] at hls
    exact ⟨⟨hms, hfns, hls⟩, hmdistinct, hfdistinct⟩
  · rintro ⟨⟨hms, hfns, hls⟩, hmdistinct, hfdistinct⟩
    rw [← mapM_readLocation_eq_ok h (numbered_mappings hms) hmdistinct (numbered_functions hfns)
      hfdistinct] at hls
    exact ⟨_, ⟨hms, hmdistinct⟩, _, ⟨hfns, hfdistinct⟩, _, hls, rfl⟩

/-- Each element has a partner, wherever it stands, if there is a list of partners. -/
theorem exists_forall₂_zipIdx_iff {α β : Type} {R : Nat → α → β → Prop} {P : α → Prop}
    (h : ∀ i a, (∃ b, R i a b) ↔ P a) {l : List α} :
    (∃ bs, List.Forall₂ (fun x => R x.2 x.1) l.zipIdx bs) ↔ ∀ a ∈ l, P a := by
  simp only [exists_forall₂_iff, h]
  constructor
  · intro hl a ha
    obtain ⟨i, hi⟩ := List.mem_iff_getElem?.mp ha
    exact hl (a, i) (List.mk_mem_zipIdx_iff_getElem?.mpr hi)
  · exact fun hl x hx => hl x.1 (List.fst_mem_of_mem_zipIdx hx)

/-- There is a profile with the records of a document exactly if the document is acceptable. -/
theorem exists_reflects_iff :
    (∃ p, Reflects members p ∧ Distinct (recordsOf "mappings" members) ∧
      Distinct (recordsOf "functions" members)) ↔ Acceptable members := by
  constructor
  · rintro ⟨p, h, hmappings, hfunctions⟩
    have hms := (exists_forall₂_zipIdx_iff exists_isMapping_iff).mp ⟨_, h.mappings⟩
    have hfns := (exists_forall₂_zipIdx_iff exists_isFunction_iff).mp ⟨_, h.functions⟩
    have hls := (exists_forall₂_zipIdx_iff
      (exists_isLocation_iff hmappings hfunctions)).mp ⟨_, h.locations⟩
    exact {
      integers := ⟨hms, hfns, fun l hl => (hls l hl).1, fun l hl r hr => ((hls l hl).2.2 r hr).1⟩
      mappings_distinct := hmappings
      functions_distinct := hfunctions
      mapping_known := fun l hl => (hls l hl).2.1
      function_known := fun l hl r hr => ((hls l hl).2.2 r hr).2 }
  · rintro ⟨⟨hms, hfns, hls, hlines⟩, hmappings, hfunctions, hmapping, hfunction⟩
    obtain ⟨ms, hms⟩ := (exists_forall₂_zipIdx_iff exists_isMapping_iff).mpr hms
    obtain ⟨fns, hfns⟩ := (exists_forall₂_zipIdx_iff exists_isFunction_iff).mpr hfns
    obtain ⟨ls, hls⟩ := (exists_forall₂_zipIdx_iff
      (exists_isLocation_iff hmappings hfunctions)).mpr fun l hl =>
        ⟨hls l hl, hmapping l hl, fun r hr => ⟨hlines l hl r hr, hfunction l hl r hr⟩⟩
    exact ⟨⟨ms, fns, ls⟩, ⟨hms, hfns, hls⟩, hmappings, hfunctions⟩

/-! ## complaints -/

theorem isWritable_zero : isWritable 0 = true := by
  -- for any limit, lest the power be computed
  have hlimit : ∀ limit : Nat, decide (0 < Nat.pow 10 limit) = true := fun limit =>
    decide_eq_true (Nat.pow_pos (by decide))
  exact hlimit digitLimit

/-- A missing field stands for zero, which is within any limit. -/
theorem isWritable_of_valueOf {name : String} {r : Record}
    (h : ∀ v ∈ Json.member? name r, ∀ n, StandsFor v n → isWritable n = true) {n : Int}
    (hn : StandsFor (valueOf name r) n) : isWritable n = true := by
  unfold valueOf at hn
  cases hv : Json.member? name r with
  | none =>
      rw [hv] at hn
      rw [hn.unique .null]
      exact isWritable_zero
  | some v =>
      rw [hv] at hn
      exact h v hv n hn

/-- An id that two records share is within the limit, since one of them has it written down: by
their positions alone, records have different ids. -/
theorem isWritable_of_shared {i j : Nat} (hne : i ≠ j) {r s : Record}
    (hr : ∀ v ∈ Json.member? "id" r, ∀ n, StandsFor v n → isWritable n = true)
    (hs : ∀ v ∈ Json.member? "id" s, ∀ n, StandsFor v n → isWritable n = true) {n : Int}
    (hi : StandsFor (idValue i r) n) (hj : StandsFor (idValue j s) n) : isWritable n = true := by
  unfold idValue at hi hj
  cases hv : Json.member? "id" r with
  | some v =>
      rw [hv] at hi
      exact hr v hv n hi
  | none =>
      cases hw : Json.member? "id" s with
      | some w =>
          rw [hw] at hj
          exact hs w hw n hj
      | none =>
          rw [hv] at hi
          rw [hw] at hj
          have hi := hi.unique (.int _)
          have hj := hj.unique (.int _)
          omega

section

variable {α : Type} {readAt : Nat → Json → Except Fault α} {idOf : α → Int}
  {duplicate : Int → DocumentFault}

/-- Records whose ids are within the limit give no faults but complaints. -/
theorem properRecords
    (hread : ∀ position r a, readAt position (.object r) = .ok a →
      StandsFor (idValue position r) (idOf a))
    (hlimit : ∀ r ∈ records, ∀ v ∈ Json.member? "id" r, ∀ n, StandsFor v n →
      isWritable n = true) :
    ProperRecords readAt idOf duplicate [] (records.map .object) := by
  intro earlier v hprefix as has
  obtain ⟨rs, hrs, hmap⟩ := List.prefix_map_iff.mp hprefix
  obtain ⟨before, last, rfl, rfl, hlast⟩ := List.append_eq_map_iff.mp hmap
  obtain ⟨r, _, rfl, rfl, hnil⟩ := List.map_eq_cons_iff.mp hlast
  obtain rfl := List.map_eq_nil_iff.mp hnil
  have hmem : ∀ s ∈ before ++ [r], s ∈ records := fun s hs => hrs.subset (by simpa using hs)
  refine ⟨⟨r, rfl⟩, fun a ha hsame => ?_⟩
  obtain ⟨_, rfl, hbefore, -⟩ := (readRecords_eq_ok [] List.nodup_nil).mp has
  rw [List.zipIdx_map, List.forall₂_map_left_iff] at hbefore
  have hnumbered : Numbered before (as.map idOf) :=
    List.forall₂_map_right_iff.mpr (hbefore.imp fun _ _ hb => hread _ _ _ hb)
  have hlength : before.length = as.length := by simpa using hbefore.length_eq
  obtain ⟨j, hj⟩ := List.mem_iff_getElem?.mp hsame
  obtain ⟨s, hs, hid⟩ := (hasId_iff hnumbered).mpr hj
  have hlt : j < before.length := (List.getElem?_eq_some_iff.mp hs).1
  exact isWritable_of_shared (by omega)
    (hlimit s (hmem s (List.mem_append_left _ (List.mem_of_getElem? hs))))
    (hlimit r (hmem r (List.mem_append_right _ List.mem_cons_self))) hid (hread _ _ _ ha)

end

/-- Nothing but a complaint comes of a document of the right shape. -/
theorem proper_of_shaped (h : Shaped members) (hlimit : WithinLimit members) :
    Proper members where
  mappings := ⟨_, listOf_eq_of_isRecordList h.mappings,
    properRecords (fun _ _ _ hm => (readMapping_eq_ok.mp hm).id) fun r hr =>
      hlimit.mappings r hr "id" List.mem_cons_self⟩
  functions _ _ := ⟨_, listOf_eq_of_isRecordList h.functions,
    properRecords (fun _ _ _ hfn => (readFunction_eq_ok.mp hfn).id) fun r hr =>
      hlimit.functions r hr "id" List.mem_cons_self⟩
  locations mappings functions _ _ := by
    refine ⟨_, listOf_eq_of_isRecordList h.locations, fun earlier x hstart _ => ?_⟩
    have hx : x.1 ∈ (recordsOf "locations" members).map Json.object :=
      List.fst_mem_of_mem_zipIdx (hstart.subset (by simp))
    obtain ⟨r, hr, hobject⟩ := List.mem_map.mp hx
    have hmapping : ∀ v ∈ Json.member? "mapping_id" r, ∀ n, StandsFor v n → isWritable n = true :=
      hlimit.locations r hr "mapping_id" (by decide)
    refine ⟨r, hobject.symm, fun id _ hid => .inr ?_, fun _ _ => ?_⟩
    · exact isWritable_of_valueOf hmapping (integer?_eq_some.mp hid)
    · refine ⟨_, listOf_eq_of_isRecordList (h.lines r hr), fun _ line hstart _ => ?_⟩
      obtain ⟨s, hs, rfl⟩ := List.mem_map.mp (hstart.subset (by simp) :
        line ∈ (recordsOf "lines" r).map Json.object)
      refine ⟨s, rfl, fun id hid => .inr ?_⟩
      exact isWritable_of_valueOf (hlimit.lines r hr s hs "function_id" List.mem_cons_self)
        (integer?_eq_some.mp hid)

/-- A document of the right shape holds a profile exactly if it is acceptable.  The profile has its
records in their order, and each reference leads to the one record with its id.  Any other such
document is complained of. -/
theorem read_shaped {members : Record} (hshape : Shaped members) (hlimit : WithinLimit members) :
    ((∃ p, read (.object members) = .ok p) ↔ Acceptable members) ∧
      (∀ p, read (.object members) = .ok p → Reflects members p) ∧
      ∀ fault, read (.object members) = .error fault → ∃ cause, fault = .document cause := by
  refine ⟨?_, fun p hp => ((read_eq_ok hshape).mp hp).1, ?_⟩
  · simp only [read_eq_ok hshape, exists_reflects_iff]
  · refine harmless_read.mpr ?_
    rintro _ ⟨⟩
    exact proper_of_shaped hshape hlimit

/-! ## a document -/

/-- A document that refers to its second mapping, which has no id, by a numeral, and to its only
function, whose id is empty, by leaving the reference out. -/
def terse : Record :=
  [("mappings", .list [.object [("id", .int 1), ("start", .text "0x1_000")], .object []]),
   ("functions", .list [.object [("id", .text ""), ("name", .text "main")]]),
   ("locations", .list [.object [("mapping_id", .text " 0b10"), ("lines", .list [.object []])]])]

/-- The terse document has the shape of a profile. -/
theorem shaped_terse : Shaped terse where
  mappings := by
    rintro _ ⟨⟩
    exact ⟨[_, _], rfl⟩
  functions := by
    rintro _ ⟨⟩
    exact ⟨[_], rfl⟩
  locations := by
    rintro _ ⟨⟩
    exact ⟨[_], rfl⟩
  lines := by
    intro l hl
    obtain rfl := List.mem_singleton.mp hl
    rintro _ ⟨⟩
    exact ⟨[_], rfl⟩

/-- The ids of the terse document are short enough to be written. -/
theorem withinLimit_terse : WithinLimit terse := by
  have hall : OfIntegers (fun v => ∀ n ∈ integer? v, isWritable n = true) terse :=
    ⟨by decide +kernel, by decide +kernel, by decide +kernel, by decide +kernel⟩
  simp only [WithinLimit, ← integer?_eq_some]
  exact hall

theorem read_shaped_terse : Shaped terse ∧ WithinLimit terse ∧ Acceptable terse ∧
    ∃ p, read (.object terse) = .ok p ∧ Reflects terse p := by
  have hok : (read (.object terse)).isOk = true := by decide +kernel
  obtain ⟨haccepts, hreflects, -⟩ := read_shaped shaped_terse withinLimit_terse
  cases hread : read (.object terse) with
  | error fault =>
      rw [hread] at hok
      cases hok
  | ok p =>
      exact ⟨shaped_terse, withinLimit_terse, haccepts.mp ⟨p, hread⟩, p, rfl, hreflects p hread⟩

end Document

end Symbolication
