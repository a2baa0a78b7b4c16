import Symbolication.CommandLine.Run
import Symbolication.Proofs.Profile.Complaints
import Symbolication.Proofs.Text.PathName

/-!
# Symbolication.Proofs.CommandLine.Loading

How the command takes a profile file that can be read.  A complaint about the document is
reported and ends the run as a failed one; whatever else is wrong with the file ends the
run as it is.

* `Clean` — files of which a profile comes whose labels are texts, or a complaint;
* `run_loadRaw_of_read`, `run_load_of_complaint` — what loading comes to, whatever the file holds;
* `loadsCleanly_loadRaw` — the clean files are those that load cleanly, and how the command
  ends with the others.
-/

namespace Symbolication

open Number Text

/-- A profile whose labels are texts has come of a file, or a complaint. -/
def LoadsCleanly (r : Except Fault RawProfile) : Prop :=
  (∃ p, r = .ok p ∧ p.HasTextLabels) ∨ ∃ cause, r = .error (.document cause)

/-- A profile loads cleanly if faults are complaints and labels are texts. -/
theorem loadsCleanly_iff {r : Except Fault RawProfile} :
    LoadsCleanly r ↔ Harmless Fault.IsComplaint r ∧ ∀ p, r = .ok p → p.HasTextLabels := by
  cases r <;> simp [LoadsCleanly, harmless_error, Fault.IsComplaint]

/-- A fault is clean just if it is a complaint. -/
theorem loadsCleanly_error {fault : Fault} : LoadsCleanly (.error fault) ↔ fault.IsComplaint := by
  simp [LoadsCleanly, Fault.IsComplaint]

instance : DecidablePred LoadsCleanly
  | .ok p => decidable_of_iff p.HasTextLabels (by simp [LoadsCleanly])
  | .error _ => decidable_of_iff _ loadsCleanly_error.symm

namespace Document

/-! ## bytes -/

/-- The profile that the bytes of a file hold. -/
def ofBytes (path : String) (bytes : List UInt8) : Except Fault RawProfile :=
  parse path bytes >>= read

/-- The text is a document, or complained of as none; and the document, if it is an object, is
proper, and its labels fit if it holds a profile. -/
structure CleanText (s : List Char) : Prop where
  reads : ∀ flaw, Json.readDocument s = .error flaw →
    ∃ complaint rest, flaw = .malformed complaint rest
  proper : ∀ members, Json.readDocument s = .ok (.object members) → Proper members
  labels : ∀ members p, Json.readDocument s = .ok (.object members) →
    read (.object members) = .ok p → LabelsFit members

/-- The bytes are those of a clean text. -/
def Clean (bytes : List UInt8) : Prop :=
  ∃ s, Utf8.decode bytes = .ok s ∧ CleanText (unifyNewlines s)

/-- Bytes that decode are parsed and read with newlines made alike. -/
theorem ofBytes_of_decode {path : String} {bytes : List UInt8} {s : List Char}
    (h : Utf8.decode bytes = .ok s) : ofBytes path bytes =
      (Json.readDocument (unifyNewlines s)).mapError (faultOfFlaw path (unifyNewlines s)) >>=
        read := by
  rw [ofBytes, parse, h]
  rfl

/-- Bytes that do not decode fail with the place of the flaw. -/
theorem ofBytes_of_decode_error {path : String} {bytes : List UInt8} {fault : Utf8.Fault}
    (h : Utf8.decode bytes = .error fault) : ofBytes path bytes = .error (.undecodable fault) := by
  rw [ofBytes, parse, h]
  rfl

/-- A flaw is a complaint just if the text is malformed. -/
theorem isComplaint_faultOfFlaw {path : String} {s : List Char} {flaw : Json.Flaw} :
    (faultOfFlaw path s flaw).IsComplaint ↔
      ∃ complaint rest, flaw = .malformed complaint rest := by
  cases flaw <;> simp [faultOfFlaw, Fault.IsComplaint]

/-- A value is read cleanly unless it is an object that is improper, or has labels that are no
texts. -/
theorem loadsCleanly_read {v : Json} : LoadsCleanly (read v) ↔
    ∀ members, v = .object members →
      Proper members ∧ ∀ p, read (.object members) = .ok p → LabelsFit members := by
  rw [loadsCleanly_iff, harmless_read]
  cases v with
  | object members =>
      have hlabels : (∀ p, read (.object members) = .ok p → p.HasTextLabels) ↔
          ∀ p, read (.object members) = .ok p → LabelsFit members :=
        forall_congr' fun p => forall_congr' fun h => hasTextLabels_iff h
      simp [hlabels]
  | _ => simp [read]

/-- A text is clean just if it parses and reads cleanly. -/
theorem cleanText_iff {path : String} {s : List Char} :
    CleanText s ↔
      LoadsCleanly ((Json.readDocument s).mapError (faultOfFlaw path s) >>= read) := by
  cases hv : Json.readDocument s with
  | error flaw =>
      refine Iff.trans ⟨fun h => h.reads flaw hv, fun hflaw => ?_⟩
        (loadsCleanly_error.trans isComplaint_faultOfFlaw).symm
      constructor
      · rintro _ h
        rw [hv] at h
        cases h
        exact hflaw
      all_goals simp [hv]
  | ok v =>
      refine Iff.trans ⟨?_, fun hclean => ?_⟩ (loadsCleanly_read (v := v)).symm
      · rintro hclean members rfl
        exact ⟨hclean.proper members hv, fun p => hclean.labels members p hv⟩
      · constructor
        · simp [hv]
        · intro members h
          rw [hv] at h
          cases h
          exact (hclean members rfl).1
        · intro members p h
          rw [hv] at h
          cases h
          exact (hclean members rfl).2 p

/-- The clean files are those that load cleanly. -/
theorem loadsCleanly_ofBytes {path : String} {bytes : List UInt8} :
    LoadsCleanly (ofBytes path bytes) ↔ Clean bytes := by
  cases hs : Utf8.decode bytes with
  | error fault =>
      rw [ofBytes_of_decode_error hs]
      simp [LoadsCleanly, Clean, hs]
  | ok s =>
      rw [ofBytes_of_decode hs, ← cleanText_iff]
      simp [Clean, hs]

/-- The system is not at fault for any bytes. -/
theorem sparesSystem_ofBytes (path : String) (bytes : List UInt8) :
    SparesSystem (ofBytes path bytes) := by
  cases hs : Utf8.decode bytes with
  | error fault =>
      rw [ofBytes_of_decode_error hs]
      exact harmless_error.mpr rfl
  | ok s =>
      rw [ofBytes_of_decode hs]
      refine harmless_bind.mpr ⟨?_, fun v _ => sparesSystem_read v⟩
      cases Json.readDocument (unifyNewlines s) with
      | ok v => exact harmless_ok v
      | error flaw => cases flaw <;> exact harmless_error.mpr rfl

end Document

namespace Files

variable {ω : Type} {files : Files ω} {path : String} {env : Env ω} {bytes : List UInt8}

/-! ## files -/

/-- Of a file that can be read comes the profile that its bytes hold, or what is wrong with them. -/
theorem run_loadRaw_of_read (hpath : checkPath (PathName.plainString path) = .ok ())
    (hread : (files.read (PathName.plainString path) env.world).1 = .ok bytes) :
    ((files.loadRaw path).run env).1 = Document.ofBytes (PathName.plainString path) bytes := by
  rw [loadRaw, Document.ofBytes]
  simp only [Act.run_bind_apply, Act.run_note_apply, Act.run_result_apply, run_access _ hpath,
    world_noting, hread, Except.mapError]
  cases Document.parse (PathName.plainString path) bytes with
  | error fault => rfl
  | ok v =>
      simp only [bind, Except.bind]
      cases Document.read v <;> rfl

/-- It does not matter whether a path is plain already. -/
@[simp] theorem loadRaw_plainString (files : Files ω) (path : String) :
    files.loadRaw (PathName.plainString path) = files.loadRaw path := by
  rw [loadRaw, loadRaw, PathName.plainString_plainString]

/-- What is wrong with a file is found out after the attempt to load it was noted. -/
theorem run_loadRaw_of_fault {fault : Fault}
    (hpath : checkPath (PathName.plainString path) = .ok ())
    (hread : (files.read (PathName.plainString path) env.world).1 = .ok bytes)
    (hfault : Document.ofBytes (PathName.plainString path) bytes = .error fault) :
    (files.loadRaw path).run env = (.error fault,
      { (env.noting [.loading (PathName.plainString path)]) with
        world := (files.read (PathName.plainString path) env.world).2 }) := by
  rw [loadRaw]
  simp only [Act.run_bind_apply, Act.run_note_apply, Act.run_result_apply, run_access _ hpath,
    world_noting, hread, Except.mapError]
  rw [Document.ofBytes] at hfault
  cases hparse : Document.parse (PathName.plainString path) bytes with
  | error other =>
      rw [hparse] at hfault
      cases hfault
      rfl
  | ok v =>
      rw [hparse] at hfault
      change Document.read v = _ at hfault
      simp only [hfault]

theorem run_hasFile (hpath : checkPath path = .ok ())
    (hfile : files.isFile path env.world = .ok true) :
    (files.hasFile path).run env = (.ok true, env) := by
  have hzero : path.contains '\x00' = false := by
    unfold checkPath at hpath
    split at hpath
    · cases hpath
    · rename_i hzero
      exact Bool.eq_false_iff.mpr hzero
  change (if path.contains '\x00' then _ else _, env) = _
  simp [hzero, hfile, Except.mapError]

end Files

namespace CommandLine

variable {ω : Type} {s : Services ω} {bytes : List UInt8} {fault : Fault}

/-! ## the command -/

section

variable {path : String} {env : Env ω}

/-- A complaint is reported, and there is no profile. -/
theorem run_load_of_complaint {cause : DocumentFault}
    (hpath : Files.checkPath (PathName.plainString path) = .ok ())
    (hfile : s.files.isFile (PathName.plainString path) env.world = .ok true)
    (hread : (s.files.read (PathName.plainString path) env.world).1 = .ok bytes)
    (hfault : Document.ofBytes (PathName.plainString path) bytes = .error (.document cause)) :
    (load s path).run env = (.ok none,
      { (env.noting [.loading (PathName.plainString path),
          .loadFailed (PathName.plainString path) (.document cause)]) with
        world := (s.files.read (PathName.plainString path) env.world).2 }) := by
  rw [load]
  simp only [Act.run_bind_apply, Files.run_hasFile hpath hfile, Bool.not_true, Bool.false_eq_true,
    if_false, Act.run_tryCatch_apply, Act.run_map_apply, Files.loadRaw_plainString,
    Files.run_loadRaw_of_fault hpath hread hfault, Act.run_note_apply]
  simp only [Env.noting, List.append_assoc]
  rfl

/-- Any other fault of the file is passed on. -/
theorem run_load_of_fault (hpath : Files.checkPath (PathName.plainString path) = .ok ())
    (hfile : s.files.isFile (PathName.plainString path) env.world = .ok true)
    (hread : (s.files.read (PathName.plainString path) env.world).1 = .ok bytes)
    (hfault : Document.ofBytes (PathName.plainString path) bytes = .error fault)
    (hcomplaint : ¬ fault.IsComplaint) :
    (load s path).run env = (.error fault,
      { (env.noting [.loading (PathName.plainString path)]) with
        world := (s.files.read (PathName.plainString path) env.world).2 }) := by
  -- faults of the system would be reported too, but none comes of bytes
  have hsystem : fault.isSystem = false := Document.sparesSystem_ofBytes _ _ _ hfault
  rw [load]
  simp only [Act.run_bind_apply, Files.run_hasFile hpath hfile, Bool.not_true, Bool.false_eq_true,
    if_false, Act.run_tryCatch_apply, Act.run_map_apply, Files.loadRaw_plainString,
    Files.run_loadRaw_of_fault hpath hread hfault]
  cases fault with
  | system cause => cases hsystem
  | document cause => exact absurd (isComplaint_document cause) hcomplaint
  | _ => rfl

end

/-! ## runs -/

section

variable {a : Arguments} {env : Env (Workshop ω)} {out : Env ω}

/-- A run for which there is no profile ends as a failed one. -/
theorem run_of_load_none (h : (load s a.profile).run
      { world := env.world.outside, notices := env.notices } = (.ok none, out)) :
    run s a env = ({ status := .ok .failure },
      { world := { env.world with outside := out.world }, notices := out.notices }) := by
  have hprepare : (prepare s a).run { world := env.world.outside, notices := env.notices } =
      (.ok none, out) := by
    rw [prepare, Act.run_bind_apply, h]
    rfl
  rw [run, Step.bind_apply, Workshop.outsideStep, hprepare]
  rfl

/-- A fault that loading passes on ends a run. -/
theorem run_of_load_error (h : (load s a.profile).run
      { world := env.world.outside, notices := env.notices } = (.error fault, out)) :
    run s a env = ({ status := .error fault },
      { world := { env.world with outside := out.world }, notices := out.notices }) := by
  have hprepare : (prepare s a).run { world := env.world.outside, notices := env.notices } =
      (.error fault, out) := by
    rw [prepare, Act.run_bind_apply, h]
  rw [run, Step.bind_apply, Workshop.outsideStep, hprepare]
  rfl

end

end CommandLine

open CommandLine in
/-- A profile file that can be read loads cleanly exactly if it is clean: then there comes of it a
profile whose labels are texts, or a complaint.  The command reports a complaint and fails; any
other fault ends the run as it is. -/
theorem loadsCleanly_loadRaw {ω : Type} (s : Services ω) (a : Arguments) (env : Env (Workshop ω))
    {bytes : List UInt8} (hpath : Files.checkPath (PathName.plainString a.profile) = .ok ())
    (hread : (s.files.read (PathName.plainString a.profile) env.world.outside).1 = .ok bytes) :
    (LoadsCleanly ((s.files.loadRaw a.profile).run ⟨env.world.outside, env.notices⟩).1 ↔
        Document.Clean bytes) ∧
      (s.files.isFile (PathName.plainString a.profile) env.world.outside = .ok true → ∀ fault,
        ((s.files.loadRaw a.profile).run ⟨env.world.outside, env.notices⟩).1 = .error fault →
          (fault.IsComplaint → (run s a env).1.status = .ok .failure ∧
            (run s a env).2.notices = env.notices ++
              [.loading (PathName.plainString a.profile),
                .loadFailed (PathName.plainString a.profile) fault]) ∧
          (¬ fault.IsComplaint → (run s a env).1.status = .error fault)) := by
  rw [Files.run_loadRaw_of_read hpath hread]
  refine ⟨Document.loadsCleanly_ofBytes, fun hfile fault hfault => ⟨?_, fun hcomplaint => ?_⟩⟩
  · rintro ⟨cause, rfl⟩
    rw [run_of_load_none (run_load_of_complaint hpath hfile hread hfault)]
    exact ⟨rfl, rfl⟩
  · rw [run_of_load_error (run_load_of_fault hpath hfile hread hfault hcomplaint)]

/-! ## files in which something is wrong -/

/-- A world of one file, without tools and servers. -/
def lonelyFile : Services (List UInt8) where
  files :=
    { isFile := fun _ _ => .ok true
      read := fun _ bytes => (.ok bytes, bytes)
      write := fun _ _ bytes => (.ok (), bytes) }
  tools _ bytes := (.notStarted (.notFound ""), bytes)
  transport _ bytes := (.failed .noServers, bytes)

/-- What a file holds is what counts, wherever it is. -/
theorem run_loadRaw_lonelyFile (bytes : List UInt8) (notices : List Notice) :
    ((lonelyFile.files.loadRaw "./p.json").run ⟨bytes, notices⟩).1 =
      Document.ofBytes (PathName.plainString "./p.json") bytes :=
  Files.run_loadRaw_of_read checkPath_document rfl

/-- An id that is no integer. -/
def wrongId : List UInt8 :=
  Utf8.encode "\x7b\"mappings\": [\x7b\"id\": \"x\"\x7d]\x7d".toList

/-- It is complained of, and the run fails. -/
theorem loadsCleanly_loadRaw_wrongId : Document.Clean wrongId ∧
    (CommandLine.run lonelyFile { profile := "./p.json" } ⟨{ outside := wrongId }, []⟩).1.status =
      .ok .failure := by
  obtain ⟨hclean, hcommand⟩ := loadsCleanly_loadRaw lonelyFile { profile := "./p.json" }
    ⟨{ outside := wrongId }, []⟩ checkPath_document rfl
  have hloads : LoadsCleanly (Document.ofBytes (PathName.plainString "./p.json") wrongId) := by
    decide +kernel
  have hnone : (Document.ofBytes (PathName.plainString "./p.json") wrongId).isOk = false := by
    decide +kernel
  rw [← run_loadRaw_lonelyFile wrongId []] at hloads hnone
  refine ⟨hclean.mp hloads, ?_⟩
  obtain ⟨p, hp, -⟩ | ⟨cause, hcause⟩ := hloads
  · rw [hp] at hnone
    cases hnone
  · exact ((hcommand rfl _ hcause).1 (isComplaint_document cause)).1

/-- A byte that is no text. -/
def strayByte : List UInt8 := [0xff]

/-- A mapping that is no object. -/
def wrongRecord : List UInt8 :=
  Utf8.encode "\x7b\"mappings\": [1]\x7d".toList

/-- A file whose name is a number. -/
def wrongLabel : List UInt8 :=
  Utf8.encode "\x7b\"mappings\": [\x7b\"file\": 5\x7d]\x7d".toList

/-- None of these is complained of.  The first two end the run with a fault of another kind, and the
number is taken for a label. -/
theorem not_loadsCleanly_flawedFiles :
    (∀ bytes ∈ [strayByte, wrongRecord, wrongLabel],
      ¬ LoadsCleanly ((lonelyFile.files.loadRaw "./p.json").run ⟨bytes, []⟩).1) ∧
    ∀ bytes ∈ [strayByte, wrongRecord], ∃ fault,
      (CommandLine.run lonelyFile { profile := "./p.json" }
        ⟨{ outside := bytes }, []⟩).1.status = .error fault := by
  have hloads : ∀ bytes ∈ [strayByte, wrongRecord, wrongLabel],
      ¬ LoadsCleanly (Document.ofBytes (PathName.plainString "./p.json") bytes) := by
    decide +kernel
  have hnone : ∀ bytes ∈ [strayByte, wrongRecord],
      (Document.ofBytes (PathName.plainString "./p.json") bytes).isOk = false := by
    decide +kernel
  constructor
  · intro bytes hbytes
    rw [run_loadRaw_lonelyFile]
    exact hloads bytes hbytes
  · intro bytes hbytes
    cases hfault : Document.ofBytes (PathName.plainString "./p.json") bytes with
    | ok p =>
        have hnone := hnone bytes hbytes
        rw [hfault] at hnone
        cases hnone
    | error fault =>
        have hcomplaint : ¬ fault.IsComplaint := by
          have hmem : bytes ∈ [strayByte, wrongRecord, wrongLabel] :=
            List.mem_append_left [wrongLabel] hbytes
          have hbad := hloads bytes hmem
          rwa [hfault, loadsCleanly_error] at hbad
        have hload : (CommandLine.load lonelyFile "./p.json").run ⟨bytes, []⟩ =
            (.error fault, ⟨bytes, [.loading (PathName.plainString "./p.json")]⟩) :=
          CommandLine.run_load_of_fault checkPath_document rfl rfl hfault hcomplaint
        have hrun : CommandLine.run lonelyFile { profile := "./p.json" }
            ⟨{ outside := bytes }, []⟩ = ({ status := .error fault }, _) :=
          CommandLine.run_of_load_error hload
        exact ⟨fault, by rw [hrun]⟩

end Symbolication
