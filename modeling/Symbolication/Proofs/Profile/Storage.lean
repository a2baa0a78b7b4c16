import Symbolication.Files
import Symbolication.Proofs.Action.Triple
import Symbolication.Proofs.Json.Roundtrip
import Symbolication.Proofs.Text.Utf8

/-!
# Symbolication.Proofs.Profile.Storage

Profiles are found again in the files in which they are saved.  `ProfileOf.Storable` says
which profiles these are: labels are strings, integers are within the limit, no two mappings
and no two functions have the same id, and locations refer to records of the profile.

* `readMapping_ofMapping`, `readFunction_ofFunction`, `readLocation_ofLocation` — each record
  is read as it was written, whatever its position;
* `findIdx?_getElem` — a reference by id leads to the record at its position;
* `read_ofProfile` — so the document of a profile holds that profile;
* `storable_ofProfile`, `parse_written` — and the text of that document holds the document;
* `Files.loadRaw_saveDocument` — so what is saved is loaded again.
-/

namespace Symbolication

open Number Text

/-! ## profiles that can be kept -/

/-- The value is a string. -/
def Json.IsText (v : Json) : Prop :=
  ∃ s, v = .text s

instance : DecidablePred Json.IsText
  | .text s => isTrue ⟨s, rfl⟩
  | .null | .bool _ | .int _ | .real _ | .list _ | .object _ => isFalse (by simp [Json.IsText])

/-- A mapping whose integers are within the limit and whose labels are strings. -/
structure MappingOf.Storable (m : MappingOf Json) : Prop where
  /-- The id is within the limit. -/
  id : isWritable m.id = true
  /-- So is the first address. -/
  start : isWritable m.start = true
  /-- So is the address after the region. -/
  limit : isWritable m.limit = true
  /-- So is the place in the file. -/
  offset : isWritable m.offset = true
  /-- The file is a string. -/
  file : m.file.IsText
  /-- The build id is a string. -/
  buildId : m.buildId.IsText

/-- A function whose id is within the limit and whose labels are strings. -/
structure FunctionOf.Storable (fn : FunctionOf Json) : Prop where
  /-- The id is within the limit. -/
  id : isWritable fn.id = true
  /-- The name is a string. -/
  name : fn.name.IsText
  /-- So is the name that the binary reports. -/
  systemName : fn.systemName.IsText
  /-- So is the source file. -/
  filename : fn.filename.IsText

/-- A location whose integers are within the limit. -/
structure Location.Storable (l : Location) : Prop where
  /-- The id is within the limit. -/
  id : isWritable l.id = true
  /-- So is the address. -/
  address : isWritable l.address = true
  /-- So are the source lines. -/
  lines : ∀ line ∈ l.lines, isWritable line.line = true

/-- A profile that is found again in its document. -/
structure ProfileOf.Storable (p : RawProfile) : Prop extends p.WellFormed where
  /-- No two mappings have the same id. -/
  mappings_nodup : (p.mappings.map (·.id)).Nodup
  /-- No two functions have the same id. -/
  functions_nodup : (p.functions.map (·.id)).Nodup
  /-- The mappings can be kept. -/
  mappings : ∀ m ∈ p.mappings, m.Storable
  /-- The functions can be kept. -/
  functions : ∀ fn ∈ p.functions, fn.Storable
  /-- The locations can be kept. -/
  locations : ∀ l ∈ p.locations, l.Storable

namespace Document

/-! ## records -/

/-- A member is that in front, if the name is its own, or else one of the rest. -/
theorem member?_cons (name other : String) (v : Json) (members : List (String × Json)) :
    Json.member? name ((other, v) :: members) =
      if name = other then some v else Json.member? name members := by
  by_cases h : name = other
  · simp [Json.member?, h]
  · have hb : (name == other) = false := by simpa using h
    simp [Json.member?, List.lookup_cons, h, hb]

/-- A string is read as it is, also where an empty one stands for a missing label. -/
theorem labelOf_of_isText {name : String} {members : List (String × Json)} {v : Json}
    (hmember : Json.member? name members = some v) (h : v.IsText) :
    labelOf name members = v := by
  obtain ⟨s, rfl⟩ := h
  have hvalue : valueOf name members = .text s := by rw [valueOf, hmember, Option.getD_some]
  rw [labelOf, hvalue]
  by_cases hs : s = ""
  · simp [hs]
  · have htruthy : (Json.text s).isTruthy = true := by simpa [Json.isTruthy] using hs
    rw [if_pos htruthy]

/-- What is written for a storable mapping is read back as the mapping. -/
theorem readMapping_ofMapping (position : Nat) {m : MappingOf Json} (h : m.Storable) :
    readMapping position (ofMapping id m) = .ok m := by
  rw [readMapping, ofMapping]
  simp only [membersOf, bind, Except.bind]
  rw [labelOf_of_isText (v := m.file) (by simp [member?_cons]) h.file,
    labelOf_of_isText (v := m.buildId) (by simp [member?_cons]) h.buildId]
  simp [readId, readInteger, integer?, valueOf, flagOf, member?_cons, Json.isTruthy, pure,
    Except.pure]

/-- What is written for a storable function is read back as the function. -/
theorem readFunction_ofFunction (position : Nat) {fn : FunctionOf Json} (h : fn.Storable) :
    readFunction position (ofFunction id fn) = .ok fn := by
  rw [readFunction, ofFunction]
  simp only [membersOf, bind, Except.bind]
  rw [labelOf_of_isText (v := fn.name) (by simp [member?_cons]) h.name,
    labelOf_of_isText (v := fn.systemName) (by simp [member?_cons]) h.systemName,
    labelOf_of_isText (v := fn.filename) (by simp [member?_cons]) h.filename]
  simp [readId, readInteger, integer?, member?_cons, pure, Except.pure]

/-! ## references -/

/-- A reference by id leads to the record at its position. -/
theorem findIdx?_getElem {α : Type} {records : List α} {idOf : α → Int}
    (h : (records.map idOf).Nodup) {i : Nat} (hi : i < records.length) :
    records.findIdx? (idOf · == idOf records[i]) = some i := by
  rw [List.findIdx?_eq_some_iff_getElem]
  have hne := List.pairwise_iff_getElem.mp h
  refine ⟨hi, by simp, fun j hj heq => ?_⟩
  refine hne j i (by simp; omega) (by simpa using hi) hj ?_
  simpa using heq

/-- A reference is written as the id of the record at its position. -/
theorem reference_map {α : Type} {records : List α} {idOf : α → Int} {i : Nat}
    (hi : i < records.length) : reference (records.map idOf) (some i) = .int (idOf records[i]) := by
  simp [reference, hi]

variable {mappings : List (MappingOf Json)} {functions : List (FunctionOf Json)}

/-- What is written for a reference to a mapping is read back as the reference. -/
theorem readMappingReference_reference (hnodup : (mappings.map (·.id)).Nodup)
    {position : Option Nat} (h : ∀ i ∈ position, i < mappings.length) :
    readMappingReference mappings (reference (mappings.map (·.id)) position) = .ok position := by
  cases position with
  | none => rfl
  | some i =>
      have hi : i < mappings.length := h i rfl
      rw [reference_map hi, readMappingReference]
      · simp only [readInteger, integer?, bind, Except.bind, findIdx?_getElem hnodup hi]
        rfl
      · intro hnull
        cases hnull

/-- What is written for a line is read back as the line. -/
theorem readLine_ofLine (hnodup : (functions.map (·.id)).Nodup) {line : Line}
    (h : line.function < functions.length) :
    readLine functions (ofLine (functions.map (·.id)) line) = .ok line := by
  rw [ofLine, reference_map h, readLine]
  simp [membersOf, valueOf, member?_cons, readInteger, integer?, findIdx?_getElem hnodup h, bind,
    Except.bind, pure, Except.pure]

/-- What is written for a location is read back as the location. -/
theorem readLocation_ofLocation (hmappings : (mappings.map (·.id)).Nodup)
    (hfunctions : (functions.map (·.id)).Nodup) (position : Nat) {l : Location}
    (hmapping : ∀ i ∈ l.mapping, i < mappings.length)
    (hlines : ∀ line ∈ l.lines, line.function < functions.length) :
    readLocation mappings functions position
        (ofLocation (mappings.map (·.id)) (functions.map (·.id)) l) = .ok l := by
  have hread : (l.lines.map (ofLine (functions.map (·.id)))).mapM (readLine functions) =
      .ok l.lines := by
    have hline : ∀ line ∈ l.lines,
        (readLine functions ∘ ofLine (functions.map (·.id))) line = .ok (id line) :=
      fun line hline => readLine_ofLine hfunctions (hlines line hline)
    rw [List.mapM_map, mapM_eq_ok hline, List.map_id]
  rw [readLocation, ofLocation]
  simp [membersOf, valueOf, member?_cons, readMappingReference_reference hmappings hmapping, listOf,
    elementsOf, Json.elements?, hread, readId, readInteger, integer?, bind, Except.bind, pure,
    Except.pure]

/-! ## profiles -/

/-- Records with different ids are read one after another. -/
theorem readRecords_map {α : Type} {readAt : Nat → Json → Except Fault α} {idOf : α → Int}
    (duplicate : Int → DocumentFault) {write : α → Json} {before records : List α}
    (hread : ∀ position, ∀ r ∈ records, readAt position (write r) = .ok r)
    (hnodup : ((before ++ records).map idOf).Nodup) :
    readRecords readAt idOf duplicate before (records.map write) = .ok (before ++ records) := by
  induction records generalizing before with
  | nil => simp [readRecords]
  | cons r records ih =>
      have hnew : before.any (idOf · == idOf r) = false := by
        rw [List.map_append, List.map_cons, List.nodup_append] at hnodup
        rw [List.any_eq_false]
        intro s hs heq
        exact hnodup.2.2 _ (List.mem_map_of_mem hs) _ List.mem_cons_self (by simpa using heq)
      have hassoc : before ++ r :: records = before ++ [r] ++ records := by simp
      have hrest := ih (fun position s hs => hread position s (List.mem_cons_of_mem _ hs))
        (hassoc ▸ hnodup)
      rw [List.map_cons, readRecords, hread _ r List.mem_cons_self, hassoc]
      simp only [bind, Except.bind, hnew, if_false, Bool.false_eq_true]
      exact hrest

/-- What is written for the locations of a storable profile is read back as the locations. -/
theorem readLocations_ofProfile {p : RawProfile} (h : p.Storable) :
    (p.locations.map (ofLocation (p.mappings.map (·.id)) (p.functions.map (·.id)))).zipIdx.mapM
      (fun (v, position) => readLocation p.mappings p.functions position v) = .ok p.locations := by
  have hlocation : ∀ x ∈ p.locations.zipIdx,
      readLocation p.mappings p.functions x.2 (ofLocation (p.mappings.map (·.id))
        (p.functions.map (·.id)) x.1) = .ok x.1 := fun x hx =>
    have hl := List.fst_mem_of_mem_zipIdx hx
    readLocation_ofLocation h.mappings_nodup h.functions_nodup x.2 (h.mapping_lt x.1 hl)
      (h.function_lt x.1 hl)
  rw [List.zipIdx_map, List.mapM_map]
  exact (mapM_eq_ok hlocation).trans (by rw [List.zipIdx_map_fst])

/-- The document of a profile holds that profile. -/
theorem read_ofProfile {p : RawProfile} (h : p.Storable) : read (ofProfile id p) = .ok p := by
  have hmappings : readRecords readMapping (·.id) .duplicateMapping []
      (p.mappings.map (ofMapping id)) = .ok p.mappings :=
    readRecords_map _ (fun position m hm => readMapping_ofMapping position (h.mappings m hm))
      h.mappings_nodup
  have hfunctions : readRecords readFunction (·.id) .duplicateFunction []
      (p.functions.map (ofFunction id)) = .ok p.functions :=
    readRecords_map _ (fun position fn hfn => readFunction_ofFunction position (h.functions fn hfn))
      h.functions_nodup
  rw [ofProfile]
  simp [read, listOf, elementsOf, Json.elements?, member?_cons, hmappings, hfunctions,
    readLocations_ofProfile h, bind, Except.bind, pure, Except.pure]

/-! ## documents of profiles -/

/-- A text can be stored at any depth. -/
theorem storable_of_isText {depth : Nat} {v : Json} (h : v.IsText) : v.Storable depth := by
  obtain ⟨s, rfl⟩ := h
  exact .text s

/-- A reference can be stored if the ids can be written. -/
theorem storable_reference (depth : Nat) {ids : List Int} (h : ∀ n ∈ ids, isWritable n = true)
    (position : Option Nat) : (reference ids position).Storable depth := by
  rw [reference]
  split
  next n hn =>
    obtain ⟨i, -, hi⟩ := Option.bind_eq_some_iff.mp hn
    exact .int (h n (List.mem_of_getElem? hi))
  next => exact .null

/-- What is written for a storable mapping can be stored, one level deeper. -/
theorem storable_ofMapping (depth : Nat) {m : MappingOf Json} (h : m.Storable) :
    (ofMapping id m).Storable (depth + 1) := by
  refine .object (by simp) ?_
  simp only [List.forall_mem_cons]
  exact ⟨.int h.id, .int h.start, .int h.limit, .int h.offset, storable_of_isText h.file,
    storable_of_isText h.buildId, .bool _, .bool _, .bool _, .bool _, List.forall_mem_nil _⟩

/-- What is written for a storable function can be stored, one level deeper. -/
theorem storable_ofFunction (depth : Nat) {fn : FunctionOf Json} (h : fn.Storable) :
    (ofFunction id fn).Storable (depth + 1) := by
  refine .object (by simp) ?_
  simp only [List.forall_mem_cons]
  exact ⟨.int h.id, storable_of_isText h.name, storable_of_isText h.systemName,
    storable_of_isText h.filename, List.forall_mem_nil _⟩

/-- What is written for a line can be stored, one level deeper. -/
theorem storable_ofLine (depth : Nat) {ids : List Int} (hids : ∀ n ∈ ids, isWritable n = true)
    {line : Line} (h : isWritable line.line = true) :
    (ofLine ids line).Storable (depth + 1) := by
  refine .object (by simp) ?_
  simp only [List.forall_mem_cons]
  exact ⟨storable_reference depth hids _, .int h, List.forall_mem_nil _⟩

/-- What is written for a storable location can be stored, three levels deeper. -/
theorem storable_ofLocation (depth : Nat) {mappingIds functionIds : List Int}
    (hmappings : ∀ n ∈ mappingIds, isWritable n = true)
    (hfunctions : ∀ n ∈ functionIds, isWritable n = true) {l : Location} (h : l.Storable) :
    (ofLocation mappingIds functionIds l).Storable (depth + 3) := by
  have hlines : Json.Storable (depth + 2) (.list (l.lines.map (ofLine functionIds))) := by
    refine .list (List.forall_mem_map.mpr fun line hline => ?_)
    exact storable_ofLine depth hfunctions (h.lines line hline)
  refine .object (by simp) ?_
  simp only [List.forall_mem_cons]
  exact ⟨.int h.id, storable_reference _ hmappings _, .int h.address, hlines,
    List.forall_mem_nil _⟩

/-- The document of a profile is nested five levels deep. -/
theorem storable_ofProfile (depth : Nat) {p : RawProfile} (h : p.Storable) :
    (ofProfile id p).Storable (depth + 5) := by
  have hmappingIds : ∀ n ∈ p.mappings.map (·.id), isWritable n = true :=
    List.forall_mem_map.mpr fun m hm => (h.mappings m hm).id
  have hfunctionIds : ∀ n ∈ p.functions.map (·.id), isWritable n = true :=
    List.forall_mem_map.mpr fun fn hfn => (h.functions fn hfn).id
  have hmappings : Json.Storable (depth + 4) (.list (p.mappings.map (ofMapping id))) :=
    .list (List.forall_mem_map.mpr fun m hm => storable_ofMapping _ (h.mappings m hm))
  have hfunctions : Json.Storable (depth + 4) (.list (p.functions.map (ofFunction id))) :=
    .list (List.forall_mem_map.mpr fun fn hfn => storable_ofFunction _ (h.functions fn hfn))
  have hlocations : Json.Storable (depth + 4) (.list (p.locations.map
      (ofLocation (p.mappings.map (·.id)) (p.functions.map (·.id))))) :=
    .list (List.forall_mem_map.mpr fun l hl =>
      storable_ofLocation depth hmappingIds hfunctionIds (h.locations l hl))
  refine .object (by simp) ?_
  simp only [List.forall_mem_cons]
  exact ⟨hmappings, hfunctions, hlocations, List.forall_mem_nil _⟩

/-- The bytes of a document hold that document. -/
theorem parse_written (path : String) {v : Json} (h : v.Storable Json.nestingLimit) :
    parse path (Utf8.encode v.written.toList) = .ok v := by
  have hreturn : '\r' ∉ v.written.toList := by
    intro hmem
    rcases Json.isPlainText_written h _ hmem with hplain | hline
    · exact absurd hplain (by decide)
    · exact absurd hline (by decide)
  rw [parse, Utf8.decode_encode]
  simp only [Except.mapError, bind, Except.bind, unifyNewlines_of_notMem hreturn,
    Json.readDocument_written h]

end Document

namespace Files

variable {ω : Type} {files : Files ω} {path : String} {env : Env ω}

/-! ## files -/

/-- A path that passes its check is used once. -/
theorem run_access {α : Type} (use : String → ω → Except SystemFault α × ω)
    (hpath : checkPath path = .ok ()) :
    (access path use).run env =
      ((use path env.world).1.mapError Fault.system,
        { env with world := (use path env.world).2 }) := by
  rw [access, hpath]
  rfl

/-- A document that can be written in full is saved. -/
theorem run_saveDocument {v : Json} {world : ω}
    (hpath : checkPath (PathName.plainString path) = .ok ()) (hv : v.isWritable = true)
    (hwrite : files.write (PathName.plainString path) v.written env.world = (.ok (), world)) :
    (files.saveDocument path v).run env =
      (.ok (), { (env.noting [.writing (PathName.plainString path)]) with world }) := by
  rw [saveDocument]
  simp only [Act.run_bind_apply, Act.run_note_apply, run_access _ hpath, world_noting, hwrite,
    Except.mapError, hv]
  rfl

/-- A file whose bytes parse to a document is loaded as the profile that the document describes. -/
theorem run_loadRaw {bytes : List UInt8} {v : Json} {p : RawProfile}
    (hpath : checkPath (PathName.plainString path) = .ok ())
    (hread : (files.read (PathName.plainString path) env.world).1 = .ok bytes)
    (hparse : Document.parse (PathName.plainString path) bytes = .ok v)
    (hp : Document.read v = .ok p) : ((files.loadRaw path).run env).1 = .ok p := by
  rw [loadRaw]
  simp only [Act.run_bind_apply, Act.run_note_apply, Act.run_result_apply, run_access _ hpath,
    world_noting, hread, Except.mapError, hparse, hp]
  rfl

/-- What is saved is plain ASCII text, and is loaded again if the file gives back what was written
to it. -/
theorem loadRaw_saveDocument (files : Files ω) {path : String} {p : RawProfile} {env : Env ω}
    {world : ω} (hpath : checkPath (PathName.plainString path) = .ok ()) (hp : p.Storable)
    (hwrite : files.write (PathName.plainString path) (Document.ofProfile id p).written env.world =
      (.ok (), world))
    (hread : (files.read (PathName.plainString path) world).1 =
      .ok (Utf8.encode (Document.ofProfile id p).written.toList)) :
    Json.IsPlainText (Document.ofProfile id p).written ∧
      ((do
        files.saveDocument path (Document.ofProfile id p)
        files.loadRaw path : Act ω RawProfile).run env).1 = .ok p := by
  have hdocument : (Document.ofProfile id p).Storable Json.nestingLimit :=
    Document.storable_ofProfile 980 hp
  refine ⟨Json.isPlainText_written hdocument, ?_⟩
  rw [Act.run_bind_apply, run_saveDocument hpath (Json.isWritable_of_storable hdocument) hwrite]
  exact run_loadRaw hpath hread (Document.parse_written _ hdocument) (Document.read_ofProfile hp)

end Files

/-! ## a file -/

/-- A world with one file, whatever it is called. -/
def oneFile : Files String where
  isFile _ _ := .ok true
  read _ text := (.ok (Utf8.encode text.toList), text)
  write _ text _ := (.ok (), text)

/-- Labels with quotes, control characters and characters of two units, and integers of both signs.
-/
def oddities : RawProfile where
  mappings :=
    [{ id := -7, start := 0x1000, limit := 0x2000, offset := -1, file := .text "/bin/\"😀\"",
       buildId := .text "", hasFunctions := true },
     { id := 0, file := .text "a\\b\x00", buildId := .text "ab12", hasInlineFrames := true }]
  functions := [{ id := 2, name := .text "f\r\n", systemName := .text "é", filename := .text "" }]
  locations :=
    [{ id := 1, address := 0x10000000000000000, mapping := some 1, lines := [⟨0, -12⟩, ⟨0, 0⟩] },
     { id := 1, address := -1 }]

/-- The profile of oddities can be stored. -/
theorem storable_oddities : oddities.Storable where
  mapping_lt := by decide
  function_lt := by decide
  mappings_nodup := by decide
  functions_nodup := by decide
  mappings := by
    have hlimit : ∀ m ∈ oddities.mappings, isWritable m.id = true ∧ isWritable m.start = true ∧
        isWritable m.limit = true ∧ isWritable m.offset = true := by decide +kernel
    have htext : ∀ m ∈ oddities.mappings, m.file.IsText ∧ m.buildId.IsText := by decide
    intro m hm
    obtain ⟨hid, hstart, hend, hoffset⟩ := hlimit m hm
    obtain ⟨hfile, hbuildId⟩ := htext m hm
    exact ⟨hid, hstart, hend, hoffset, hfile, hbuildId⟩
  functions := by
    have hall : ∀ fn ∈ oddities.functions, isWritable fn.id = true ∧ fn.name.IsText ∧
        fn.systemName.IsText ∧ fn.filename.IsText := by decide +kernel
    intro fn hfn
    obtain ⟨hid, hname, hsystemName, hfilename⟩ := hall fn hfn
    exact ⟨hid, hname, hsystemName, hfilename⟩
  locations := by
    have hall : ∀ l ∈ oddities.locations, isWritable l.id = true ∧ isWritable l.address = true ∧
        ∀ line ∈ l.lines, isWritable line.line = true := by decide +kernel
    intro l hl
    obtain ⟨hid, haddress, hlines⟩ := hall l hl
    exact ⟨hid, haddress, hlines⟩

theorem checkPath_document : Files.checkPath (PathName.plainString "./p.json") = .ok () := by
  have hzero : '\x00' ∉ (PathName.plainString "./p.json").toList := by decide +kernel
  simp [Files.checkPath, String.contains_char_eq, hzero]

/-- A profile full of oddities is loaded again. -/
theorem loadRaw_saveDocument_oddities :
    Json.IsPlainText (Document.ofProfile id oddities).written ∧
      ((do
        oneFile.saveDocument "./p.json" (Document.ofProfile id oddities)
        oneFile.loadRaw "./p.json" : Act String RawProfile).run { world := "" }).1 =
          .ok oddities :=
  oneFile.loadRaw_saveDocument checkPath_document storable_oddities rfl rfl

end Symbolication
