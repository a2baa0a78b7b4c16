import Symbolication.Proofs.Profile.Storage

/-!
# Symbolication.Proofs.Profile.Complaints

What reading a document ends with.  Much of what may be wrong with a document is
complained of, but not all: a record that is no object, a value that cannot be walked
through, and an id with too many digits for a complaint about it give faults of other
kinds, and labels are taken as they are, whether they are texts or not.  The first thing
that is wrong decides, so what counts is what the reader comes to:

* `ProperRecords`, `ProperLine`, `ProperLocation`, `Proper` — documents of which nothing
  but a complaint can come;
* `harmless_read` — these are all of them;
* `hasTextLabels_iff` — when the labels of the profile that is read are texts.
-/

namespace Symbolication

open Number Text

/-- The fault is a complaint about a document. -/
def Fault.IsComplaint (f : Fault) : Prop :=
  ∃ cause, f = .document cause

@[simp] theorem isComplaint_document (cause : DocumentFault) :
    (Fault.document cause).IsComplaint :=
  ⟨cause, rfl⟩

instance : DecidablePred Fault.IsComplaint := fun fault =>
  decidable_of_iff ((match fault with | .document _ => true | _ => false) = true) (by
    cases fault <;> simp [Fault.IsComplaint])

/-- All labels of the profile are texts.  Its other fields are integers, flags and places of records
in any case. -/
structure ProfileOf.HasTextLabels (p : RawProfile) : Prop where
  mappings : ∀ m ∈ p.mappings, m.file.IsText ∧ m.buildId.IsText
  functions : ∀ fn ∈ p.functions, fn.name.IsText ∧ fn.systemName.IsText ∧ fn.filename.IsText

instance (p : RawProfile) : Decidable p.HasTextLabels :=
  decidable_of_iff ((∀ m ∈ p.mappings, m.file.IsText ∧ m.buildId.IsText) ∧
    ∀ fn ∈ p.functions, fn.name.IsText ∧ fn.systemName.IsText ∧ fn.filename.IsText)
    ⟨fun h => ⟨h.1, h.2⟩, fun h => ⟨h.1, h.2⟩⟩

namespace Document

/-! ## values -/

/-- A complaint about an id is one only if the id can be written. -/
theorem isComplaint_faultAbout {id : Int} {cause : DocumentFault} :
    (faultAbout id cause).IsComplaint ↔ isWritable id = true := by
  unfold faultAbout
  split
  · simpa
  · rename_i hlong
    refine iff_of_false ?_ hlong
    rintro ⟨_, h⟩
    cases h

/-- Only an object has members. -/
theorem membersOf_eq_ok {v : Json} {members : List (String × Json)} :
    membersOf v = .ok members ↔ v = .object members := by
  cases v <;> simp [membersOf]

/-- Taking the members of a value fails with complaints alone just if it is an object. -/
theorem harmless_membersOf {v : Json} :
    Harmless Fault.IsComplaint (membersOf v) ↔ ∃ members, v = .object members := by
  cases v <;> simp [membersOf, harmless_error, Fault.IsComplaint]

/-- Taking a list out of members fails with complaints alone just if there is a list to take. -/
theorem harmless_listOf {name : String} {members : List (String × Json)} :
    Harmless Fault.IsComplaint (listOf name members) ↔ ∃ vs, listOf name members = .ok vs := by
  unfold listOf elementsOf
  split <;> simp [harmless_error, Fault.IsComplaint]

/-- There is an answer, and every answer fits. -/
theorem exists_ok_and_forall {α : Type} {x : Except Fault α} {P : α → Prop} :
    ((∃ a, x = .ok a) ∧ ∀ a, x = .ok a → P a) ↔ ∃ a, x = .ok a ∧ P a := by
  cases x <;> simp

/-- A value is an object and its members fit just if it is an object with members that fit. -/
theorem exists_object_and_forall {v : Json} {P : List (String × Json) → Prop} :
    ((∃ members, v = .object members) ∧ ∀ members, v = .object members → P members) ↔
      ∃ members, v = .object members ∧ P members := by
  cases v <;> simp

/-- What is no integer is complained of. -/
theorem harmless_readInteger (field : IntegerField) (v : Json) :
    Harmless Fault.IsComplaint (readInteger field v) := by
  unfold readInteger
  split
  · exact harmless_ok _
  · exact harmless_error.mpr (isComplaint_document _)

/-- An integer is read from what stands for it. -/
theorem readInteger_eq_ok {field : IntegerField} {v : Json} {n : Int} :
    readInteger field v = .ok n ↔ integer? v = some n := by
  unfold readInteger
  split <;> simp [*]

theorem harmless_readId (field : IntegerField) (position : Nat) (members : List (String × Json)) :
    Harmless Fault.IsComplaint (readId field position members) :=
  harmless_readInteger field _

/-! ## records -/

/-- Reading a mapping fails with complaints alone just if it is an object. -/
theorem harmless_readMapping (position : Nat) {v : Json} :
    Harmless Fault.IsComplaint (readMapping position v) ↔ ∃ members, v = .object members := by
  simp only [readMapping, harmless_bind, harmless_membersOf, harmless_readId,
    harmless_readInteger, pure, Except.pure, harmless_ok, implies_true, and_true]

/-- Reading a function fails with complaints alone just if it is an object. -/
theorem harmless_readFunction (position : Nat) {v : Json} :
    Harmless Fault.IsComplaint (readFunction position v) ↔ ∃ members, v = .object members := by
  simp only [readFunction, harmless_bind, harmless_membersOf, harmless_readId, pure, Except.pure,
    harmless_ok, implies_true, and_true]

section

variable {α : Type} {readAt : Nat → Json → Except Fault α} {idOf : α → Int}
  {duplicate : Int → DocumentFault}

/-- A value is read unless an earlier record has its id, and then the rest is. -/
theorem readRecords_cons (before : List α) (v : Json) (rest : List Json) :
    readRecords readAt idOf duplicate before (v :: rest) =
      readAt before.length v >>= fun r =>
        if idOf r ∈ before.map idOf then .error (faultAbout (idOf r) (duplicate (idOf r)))
        else readRecords readAt idOf duplicate (before ++ [r]) rest := by
  rw [readRecords]
  refine congrArg _ (funext fun r => ?_)
  by_cases hsame : idOf r ∈ before.map idOf
  · have hany : before.any (idOf · == idOf r) = true := by simpa using hsame
    rw [if_pos hsame, if_pos hany]
    rfl
  · have hany : ¬ before.any (idOf · == idOf r) = true := by simpa using hsame
    rw [if_neg hsame, if_neg hany]

/-- Each value that the reader comes to is an object, and if its id is that of an earlier record, it
can be written. -/
def ProperRecords (readAt : Nat → Json → Except Fault α) (idOf : α → Int)
    (duplicate : Int → DocumentFault) (before : List α) (vs : List Json) : Prop :=
  ∀ earlier v, earlier ++ [v] <+: vs →
    ∀ records, readRecords readAt idOf duplicate before earlier = .ok records →
      (∃ members, v = .object members) ∧
        ∀ r, readAt records.length v = .ok r → idOf r ∈ records.map idOf →
          isWritable (idOf r) = true

/-- Reading records one by one fails with complaints alone just if the records are proper. -/
theorem harmless_readRecords
    (hread : ∀ position v, Harmless Fault.IsComplaint (readAt position v) ↔
      ∃ members, v = .object members) {before : List α} {vs : List Json} :
    Harmless Fault.IsComplaint (readRecords readAt idOf duplicate before vs) ↔
      ProperRecords readAt idOf duplicate before vs := by
  -- the record of the first value stands before those of the rest
  induction vs generalizing before with
  | nil => simp [readRecords, ProperRecords]
  | cons v rest ih =>
      have hnext (r : α) (hr : readAt before.length v = .ok r) (earlier : List Json) :
          readRecords readAt idOf duplicate before (v :: earlier) =
            if idOf r ∈ before.map idOf then .error (faultAbout (idOf r) (duplicate (idOf r)))
            else readRecords readAt idOf duplicate (before ++ [r]) earlier := by
        rw [readRecords_cons, hr]
        rfl
      rw [readRecords_cons, harmless_bind, hread, ProperRecords, forall_prefix_cons]
      constructor
      · rintro ⟨hobject, hrest⟩
        constructor
        · rintro records hrecords
          cases hrecords
          refine ⟨hobject, fun r hr hsame => ?_⟩
          have hfault := hrest r hr
          rwa [if_pos hsame, harmless_error, isComplaint_faultAbout] at hfault
        · intro earlier x hprefix records hrecords
          cases hr : readAt before.length v with
          | error fault =>
              rw [readRecords_cons, hr] at hrecords
              cases hrecords
          | ok r =>
              have hlater := hrest r hr
              rw [hnext r hr] at hrecords
              split at hrecords
              · cases hrecords
              · rename_i hnew
                rw [if_neg hnew, ih] at hlater
                exact hlater earlier x hprefix records hrecords
      · rintro ⟨hfirst, hrest⟩
        obtain ⟨hobject, hid⟩ := hfirst before rfl
        refine ⟨hobject, fun r hr => ?_⟩
        split
        · rename_i hsame
          exact harmless_error.mpr (isComplaint_faultAbout.mpr (hid r hr hsame))
        · rename_i hnew
          refine ih.mpr fun earlier x hprefix records hrecords => ?_
          exact hrest earlier x hprefix records (by rw [hnext r hr, if_neg hnew, hrecords])

end

/-! ## locations -/

/-- The value is an object, and the function that it names is known or can be written. -/
def ProperLine (functions : List (FunctionOf Json)) (v : Json) : Prop :=
  ∃ members, v = .object members ∧
    ∀ id, integer? (valueOf "function_id" members) = some id →
      id ∈ functions.map (·.id) ∨ isWritable id = true

/-- The value is an object, the mapping that it names is known or can be written, and so for the
lines that the reader comes to. -/
def ProperLocation (mappings : List (MappingOf Json)) (functions : List (FunctionOf Json))
    (v : Json) : Prop :=
  ∃ members, v = .object members ∧
    (∀ id, valueOf "mapping_id" members ≠ .null →
      integer? (valueOf "mapping_id" members) = some id →
        id ∈ mappings.map (·.id) ∨ isWritable id = true) ∧
    ∀ mapping, readMappingReference mappings (valueOf "mapping_id" members) = .ok mapping →
      ∃ vs, listOf "lines" members = .ok vs ∧ ∀ earlier line, earlier ++ [line] <+: vs →
        (∀ v ∈ earlier, ∃ line, readLine functions v = .ok line) → ProperLine functions line

/-- A record is looked up by its id: if there is none, that is complained of as far as the id can be
written. -/
theorem harmless_lookup {α β : Type} {records : List α} {idOf : α → Int} {id : Int}
    {cause : DocumentFault} {found : Nat → Except Fault β}
    (hfound : ∀ i, Harmless Fault.IsComplaint (found i)) :
    Harmless Fault.IsComplaint (match records.findIdx? (idOf · == id) with
      | some i => found i
      | none => throw (faultAbout id cause)) ↔
      id ∈ records.map idOf ∨ isWritable id = true := by
  cases hfind : records.findIdx? (idOf · == id) with
  | none =>
      have hunknown : id ∉ records.map idOf := by simpa using hfind
      rw [or_iff_right hunknown]
      exact harmless_error.trans isComplaint_faultAbout
  | some i =>
      have hknown : id ∈ records.map idOf := by
        by_contra hunknown
        have hnone : records.findIdx? (idOf · == id) = none := by simpa using hunknown
        rw [hnone] at hfind
        cases hfind
      exact iff_of_true (hfound i) (.inl hknown)

/-- Reading a line fails with complaints alone just if the line is proper. -/
theorem harmless_readLine {functions : List (FunctionOf Json)} {v : Json} :
    Harmless Fault.IsComplaint (readLine functions v) ↔ ProperLine functions v := by
  simp only [readLine, harmless_bind, harmless_membersOf, membersOf_eq_ok, harmless_readInteger,
    readInteger_eq_ok, exists_object_and_forall, true_and, ProperLine]
  refine exists_congr fun members => and_congr_right fun _ => forall_congr' fun id =>
    imp_congr_right fun _ => harmless_lookup fun _ => ?_
  exact harmless_bind.mpr ⟨harmless_readInteger _ _, fun _ _ => harmless_ok _⟩

/-- A reference to a mapping fails with complaints alone if its id is known or can be written. -/
theorem harmless_readMappingReference {mappings : List (MappingOf Json)} {v : Json} :
    Harmless Fault.IsComplaint (readMappingReference mappings v) ↔
      ∀ id, v ≠ .null → integer? v = some id →
        id ∈ mappings.map (·.id) ∨ isWritable id = true := by
  unfold readMappingReference
  split
  · simp
  · rename_i hnull
    have hne : v ≠ .null := hnull
    simp only [harmless_bind, harmless_readInteger, readInteger_eq_ok, true_and]
    refine forall_congr' fun id => ?_
    rw [imp_iff_right hne]
    exact imp_congr_right fun _ => harmless_lookup fun _ => harmless_ok _

/-- Reading a location fails with complaints alone just if the location is proper. -/
theorem harmless_readLocation {mappings : List (MappingOf Json)}
    {functions : List (FunctionOf Json)} (position : Nat) {v : Json} :
    Harmless Fault.IsComplaint (readLocation mappings functions position v) ↔
      ProperLocation mappings functions v := by
  simp only [readLocation, harmless_bind, harmless_membersOf, membersOf_eq_ok,
    harmless_readMappingReference, harmless_listOf, harmless_mapM, harmless_readLine,
    harmless_readId, harmless_readInteger, exists_ok_and_forall, exists_object_and_forall,
    pure, Except.pure, harmless_ok, implies_true, and_true, ProperLocation]

/-! ## profiles -/

/-- The mappings of a document. -/
def readMappings (members : List (String × Json)) : Except Fault (List (MappingOf Json)) :=
  listOf "mappings" members >>= readRecords readMapping (·.id) .duplicateMapping []

/-- The functions of a document. -/
def readFunctions (members : List (String × Json)) : Except Fault (List (FunctionOf Json)) :=
  listOf "functions" members >>= readRecords readFunction (·.id) .duplicateFunction []

/-- What the reader comes to in the document is as it expects it, or is complained of. -/
structure Proper (members : List (String × Json)) : Prop where
  mappings : ∃ vs, listOf "mappings" members = .ok vs ∧
    ProperRecords readMapping (·.id) .duplicateMapping [] vs
  functions : ∀ mappings, readMappings members = .ok mappings →
    ∃ vs, listOf "functions" members = .ok vs ∧
      ProperRecords readFunction (·.id) .duplicateFunction [] vs
  locations : ∀ mappings functions, readMappings members = .ok mappings →
    readFunctions members = .ok functions →
      ∃ vs, listOf "locations" members = .ok vs ∧ ∀ earlier x, earlier ++ [x] <+: vs.zipIdx →
        (∀ e ∈ earlier, ∃ l, readLocation mappings functions e.2 e.1 = .ok l) →
          ProperLocation mappings functions x.1

/-- A document that is an object is read as mappings, then functions, then locations. -/
theorem read_object (members : List (String × Json)) :
    read (.object members) = (do
      let mappings ← readMappings members
      let functions ← readFunctions members
      let vs ← listOf "locations" members
      let locations ← vs.zipIdx.mapM fun (v, position) =>
        readLocation mappings functions position v
      return { mappings, functions, locations }) := by
  rw [read, readMappings, readFunctions]
  simp only [bind_assoc]

/-- Reading the mappings fails with complaints alone just if they are a list of proper records. -/
theorem harmless_readMappings {members : List (String × Json)} :
    Harmless Fault.IsComplaint (readMappings members) ↔ ∃ vs, listOf "mappings" members = .ok vs ∧
      ProperRecords readMapping (·.id) .duplicateMapping [] vs := by
  simp only [readMappings, harmless_bind, harmless_listOf,
    harmless_readRecords fun position _ => harmless_readMapping position, exists_ok_and_forall]

/-- Reading the functions fails with complaints alone just if they are a list of proper records. -/
theorem harmless_readFunctions {members : List (String × Json)} :
    Harmless Fault.IsComplaint (readFunctions members) ↔
      ∃ vs, listOf "functions" members = .ok vs ∧
        ProperRecords readFunction (·.id) .duplicateFunction [] vs := by
  simp only [readFunctions, harmless_bind, harmless_listOf,
    harmless_readRecords fun position _ => harmless_readFunction position, exists_ok_and_forall]

/-- Nothing but a complaint comes of a document that is no profile, exactly if it is proper or no
object at all. -/
theorem harmless_read {v : Json} :
    Harmless Fault.IsComplaint (read v) ↔ ∀ members, v = .object members → Proper members := by
  cases v with
  | object members =>
      simp only [read_object, harmless_bind, harmless_readMappings, harmless_readFunctions,
        harmless_listOf, harmless_mapM, harmless_readLocation, exists_ok_and_forall, pure,
        Except.pure, harmless_ok, implies_true, and_true, Json.object.injEq, forall_eq']
      constructor
      · rintro ⟨hmappings, h⟩
        exact ⟨hmappings, fun ms hms => (h ms hms).1, fun ms fns hms => (h ms hms).2 fns⟩
      · rintro ⟨hmappings, hfunctions, hlocations⟩
        exact ⟨hmappings, fun ms hms => ⟨hfunctions ms hms, fun fns => hlocations ms fns hms⟩⟩
  | _ =>
      refine iff_of_true (harmless_error.mpr (isComplaint_document _)) ?_
      intro members h
      cases h

/-! ## whose fault it is -/

/-- The system is not at fault when a document is read. -/
abbrev SparesSystem {α : Type} (r : Except Fault α) : Prop :=
  Harmless (fun fault => fault.isSystem = false) r

theorem sparesSystem_membersOf (v : Json) : SparesSystem (membersOf v) := by
  cases v <;> simp [membersOf, harmless_error, Fault.isSystem]

theorem sparesSystem_listOf (name : String) (members : List (String × Json)) :
    SparesSystem (listOf name members) := by
  unfold listOf elementsOf
  split <;> simp [harmless_error, Fault.isSystem]

theorem sparesSystem_readInteger (field : IntegerField) (v : Json) :
    SparesSystem (readInteger field v) := by
  unfold readInteger
  split <;> simp [harmless_error, Fault.isSystem]

theorem sparesSystem_readId (field : IntegerField) (position : Nat)
    (members : List (String × Json)) : SparesSystem (readId field position members) :=
  sparesSystem_readInteger field _

theorem sparesSystem_faultAbout {α : Type} (id : Int) (cause : DocumentFault) :
    SparesSystem (throw (faultAbout id cause) : Except Fault α) := by
  refine harmless_error.mpr ?_
  unfold faultAbout
  split <;> rfl

theorem sparesSystem_readMapping (position : Nat) (v : Json) :
    SparesSystem (readMapping position v) := by
  simp [readMapping, harmless_bind, sparesSystem_membersOf, sparesSystem_readId,
    sparesSystem_readInteger, pure, Except.pure]

theorem sparesSystem_readFunction (position : Nat) (v : Json) :
    SparesSystem (readFunction position v) := by
  simp [readFunction, harmless_bind, sparesSystem_membersOf, sparesSystem_readId, pure,
    Except.pure]

/-- The system is not at fault for records if it is not for one of them. -/
theorem sparesSystem_readRecords {α : Type} {readAt : Nat → Json → Except Fault α}
    {idOf : α → Int} {duplicate : Int → DocumentFault}
    (hread : ∀ position v, SparesSystem (readAt position v)) (before : List α) (vs : List Json) :
    SparesSystem (readRecords readAt idOf duplicate before vs) := by
  induction vs generalizing before with
  | nil => exact harmless_ok _
  | cons v rest ih =>
      rw [readRecords_cons]
      refine harmless_bind.mpr ⟨hread _ v, fun r _ => ?_⟩
      split
      · exact sparesSystem_faultAbout _ _
      · exact ih _

theorem sparesSystem_readLine (functions : List (FunctionOf Json)) (v : Json) :
    SparesSystem (readLine functions v) := by
  refine harmless_bind.mpr ⟨sparesSystem_membersOf v, fun members _ => ?_⟩
  refine harmless_bind.mpr ⟨sparesSystem_readInteger _ _, fun id _ => ?_⟩
  split
  · exact harmless_bind.mpr ⟨sparesSystem_readInteger _ _, fun _ _ => harmless_ok _⟩
  · exact sparesSystem_faultAbout _ _

theorem sparesSystem_readMappingReference (mappings : List (MappingOf Json)) (v : Json) :
    SparesSystem (readMappingReference mappings v) := by
  unfold readMappingReference
  split
  · exact harmless_ok _
  · refine harmless_bind.mpr ⟨sparesSystem_readInteger _ _, fun id _ => ?_⟩
    split
    · exact harmless_ok _
    · exact sparesSystem_faultAbout _ _

/-- The system is not at fault for a location. -/
theorem sparesSystem_readLocation (mappings : List (MappingOf Json))
    (functions : List (FunctionOf Json)) (position : Nat) (v : Json) :
    SparesSystem (readLocation mappings functions position v) := by
  simp [readLocation, harmless_bind, harmless_mapM, sparesSystem_membersOf, sparesSystem_listOf,
    sparesSystem_readMappingReference, sparesSystem_readLine, sparesSystem_readId,
    sparesSystem_readInteger, pure, Except.pure]

/-- The system is not at fault when a document is read. -/
theorem sparesSystem_read (v : Json) : SparesSystem (read v) := by
  cases v with
  | object members =>
      simp [read_object, readMappings, readFunctions, harmless_bind, harmless_mapM,
        sparesSystem_listOf, sparesSystem_readRecords sparesSystem_readMapping,
        sparesSystem_readRecords sparesSystem_readFunction, sparesSystem_readLocation, pure,
        Except.pure]
  | _ => exact harmless_error.mpr rfl

/-! ## labels -/

/-- The label is a text, or counts as false and is read as an empty one. -/
def LabelFits (members : List (String × Json)) (name : String) : Prop :=
  (valueOf name members).IsText ∨ (valueOf name members).isTruthy = false

/-- The label of a record is a text just if its member fits a label. -/
theorem isText_labelOf {name : String} {members : List (String × Json)} :
    (labelOf name members).IsText ↔ LabelFits members name := by
  unfold labelOf LabelFits
  simp only
  split
  · rename_i htruthy
    simp [htruthy]
  · rename_i hfalsy
    exact iff_of_true ⟨_, rfl⟩ (.inr (by simpa using hfalsy))

/-- The labels with these names fit in all records of a list. -/
def LabelsFitIn (list : String) (names : List String) (members : List (String × Json)) : Prop :=
  ∀ vs, listOf list members = .ok vs → ∀ v ∈ vs, ∀ record, v = .object record →
    ∀ name ∈ names, LabelFits record name

/-- All labels of a document fit. -/
structure LabelsFit (members : List (String × Json)) : Prop where
  mappings : LabelsFitIn "mappings" ["file", "build_id"] members
  functions : LabelsFitIn "functions" ["name", "system_name", "filename"] members

section

variable {α : Type} {readAt : Nat → Json → Except Fault α} {idOf : α → Int}
  {duplicate : Int → DocumentFault}

/-- What holds of records that were read is what holds of the values that they were read from. -/
theorem forall_mem_readRecords {P : α → Prop} {Q : Json → Prop}
    (hread : ∀ position v r, readAt position v = .ok r → (P r ↔ Q v)) {before records : List α}
    {vs : List Json} (h : readRecords readAt idOf duplicate before vs = .ok records) :
    (∀ r ∈ records, P r) ↔ (∀ r ∈ before, P r) ∧ ∀ v ∈ vs, Q v := by
  induction vs generalizing before with
  | nil =>
      cases h
      simp
  | cons v rest ih =>
      rw [readRecords_cons] at h
      cases hr : readAt before.length v with
      | error fault =>
          rw [hr] at h
          cases h
      | ok r =>
          rw [hr] at h
          change (if _ then _ else _) = _ at h
          split at h
          · cases h
          · rw [ih h, List.forall_mem_append, List.forall_mem_singleton, List.forall_mem_cons,
              hread _ v r hr, and_assoc]

end

/-- The labels of a mapping are texts just if its file and its build id fit labels. -/
theorem isText_iff_of_readMapping {position : Nat} {v : Json} {m : MappingOf Json}
    (h : readMapping position v = .ok m) :
    m.file.IsText ∧ m.buildId.IsText ↔
      ∀ record, v = .object record → ∀ name ∈ ["file", "build_id"], LabelFits record name := by
  obtain ⟨record, hrecord, h⟩ := bind_eq_ok.mp h
  obtain ⟨id, -, h⟩ := bind_eq_ok.mp h
  obtain ⟨start, -, h⟩ := bind_eq_ok.mp h
  obtain ⟨limit, -, h⟩ := bind_eq_ok.mp h
  obtain ⟨offset, -, h⟩ := bind_eq_ok.mp h
  cases h
  rw [membersOf_eq_ok.mp hrecord]
  simp [isText_labelOf]

/-- The labels of a function are texts just if its names and its file fit labels. -/
theorem isText_iff_of_readFunction {position : Nat} {v : Json} {fn : FunctionOf Json}
    (h : readFunction position v = .ok fn) :
    fn.name.IsText ∧ fn.systemName.IsText ∧ fn.filename.IsText ↔
      ∀ record, v = .object record →
        ∀ name ∈ ["name", "system_name", "filename"], LabelFits record name := by
  obtain ⟨record, hrecord, h⟩ := bind_eq_ok.mp h
  obtain ⟨id, -, h⟩ := bind_eq_ok.mp h
  cases h
  rw [membersOf_eq_ok.mp hrecord]
  simp [isText_labelOf]

/-- The labels of the profile that is read are texts exactly if those of the document fit. -/
theorem hasTextLabels_iff {members : List (String × Json)} {p : RawProfile}
    (h : read (.object members) = .ok p) :
    p.HasTextLabels ↔ LabelsFit members := by
  rw [read_object] at h
  obtain ⟨mappings, hmappings, h⟩ := bind_eq_ok.mp h
  obtain ⟨functions, hfunctions, h⟩ := bind_eq_ok.mp h
  obtain ⟨vs, -, h⟩ := bind_eq_ok.mp h
  obtain ⟨locations, -, h⟩ := bind_eq_ok.mp h
  cases h
  obtain ⟨ms, hms, hmappings⟩ := bind_eq_ok.mp hmappings
  obtain ⟨fns, hfns, hfunctions⟩ := bind_eq_ok.mp hfunctions
  have hmapping := forall_mem_readRecords (fun _ _ _ h => isText_iff_of_readMapping h) hmappings
  have hfunction := forall_mem_readRecords (fun _ _ _ h => isText_iff_of_readFunction h) hfunctions
  constructor
  · intro hlabels
    constructor
    · intro vs hvs
      rw [hms] at hvs
      cases hvs
      exact (hmapping.mp hlabels.mappings).2
    · intro vs hvs
      rw [hfns] at hvs
      cases hvs
      exact (hfunction.mp hlabels.functions).2
  · intro hfit
    exact ⟨hmapping.mpr ⟨by simp, hfit.mappings ms hms⟩,
      hfunction.mpr ⟨by simp, hfit.functions fns hfns⟩⟩

end Document

end Symbolication
