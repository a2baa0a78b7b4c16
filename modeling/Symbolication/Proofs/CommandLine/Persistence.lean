import Symbolication.Proofs.CommandLine.Loading
import Symbolication.Proofs.CommandLine.Sparing
import Symbolication.Proofs.Pass.Labels
import Symbolication.Proofs.Profile.Loaded

/-!
# Symbolication.Proofs.CommandLine.Persistence

The profile that a run of the command leaves in a file.  What the run has symbolized is what
is loaded from there again.  It can be kept because references by ids were unambiguous in the
profile that was loaded in the beginning, and labels were texts, symbolization keeps it so,
and all integers have been written:

* `of_run_saveDocument` — what has been written when saving succeeded;
* `loadRaw_of_run_prepare` — the profile that is worked on;
* `Symbolizes`, `Symbolizes.storable` — what becomes of it can be kept, if its document can
  be written in full;
* `stores_run` — how runs end, and what is in the files then.
-/

namespace Symbolication

open Number Text

variable {ω : Type}

/-! ## files -/

namespace Files

variable {files : Files ω}

/-- The same files are there, and hold the same. -/
def Same (files : Files ω) (w w' : ω) : Prop :=
  ∀ path, files.isFile path w' = files.isFile path w ∧
    (files.read path w').1 = (files.read path w).1

theorem Same.trans {w w' w'' : ω} (h : files.Same w w') (h' : files.Same w' w'') :
    files.Same w w'' :=
  fun path => ⟨(h' path).1.trans (h path).1, (h' path).2.trans (h path).2⟩

/-- A path that was used passed its check, and was used in the world as it was. -/
theorem of_run_access {α : Type} {use : String → ω → Except SystemFault α × ω} {path : String}
    {env env' : Env ω} {answer : α} (h : (access path use).run env = (.ok answer, env')) :
    checkPath path = .ok () ∧ use path env.world = (.ok answer, env'.world) := by
  cases hpath : checkPath path with
  | error fault =>
      rw [access, hpath] at h
      cases h
  | ok _ =>
      rw [run_access use hpath] at h
      obtain ⟨hanswer, rfl⟩ := Prod.mk.inj h
      refine ⟨rfl, ?_⟩
      generalize use path env.world = used at hanswer
      obtain ⟨_ | _, _⟩ := used <;> cases hanswer
      rfl

/-- Saving succeeds only if the whole document has been written. -/
theorem of_run_saveDocument {path : String} {v : Json} {env env' : Env ω}
    (h : (files.saveDocument path v).run env = (.ok (), env')) :
    checkPath (PathName.plainString path) = .ok () ∧ v.isWritable = true ∧
      files.write (PathName.plainString path) v.written env.world = (.ok (), env'.world) := by
  rw [saveDocument, Act.run_bind_eq_ok] at h
  obtain ⟨_, _, ⟨⟩, h⟩ := h
  obtain ⟨_, written, hwritten, h⟩ := Act.run_bind_eq_ok.mp h
  obtain ⟨hpath, hwrite⟩ := of_run_access hwritten
  cases hwritable : v.isWritable with
  | false =>
      simp only [hwritable] at h
      cases h
  | true =>
      simp only [hwritable] at h
      cases h
      exact ⟨hpath, rfl, hwrite⟩

/-- A profile loaded from a file is sound, and its ids are told apart. -/
theorem unambiguous_of_run_loadRaw {path : String} {env : Env ω} {p : RawProfile}
    (h : ((files.loadRaw path).run env).1 = .ok p) : p.Unambiguous := by
  obtain ⟨env', h⟩ : ∃ env', (files.loadRaw path).run env = (.ok p, env') := ⟨_, Prod.ext h rfl⟩
  obtain ⟨_, _, _, h⟩ := Act.run_bind_eq_ok.mp h
  obtain ⟨bytes, _, _, h⟩ := Act.run_bind_eq_ok.mp h
  obtain ⟨v, _, _, h⟩ := Act.run_bind_eq_ok.mp h
  obtain ⟨q, _, hread, h⟩ := Act.run_bind_eq_ok.mp h
  obtain ⟨_, _, _, h⟩ := Act.run_bind_eq_ok.mp h
  cases h
  exact Document.unambiguous_of_read (Prod.mk.inj hread).1

end Files

/-- A file holds what was written to it, and only writing changes files. -/
structure Services.Stores (s : Services ω) : Prop where
  read_write : ∀ path text w w', s.files.write path text w = (.ok (), w') →
    (s.files.read path w').1 = .ok (Utf8.encode text.toList)
  same_read : ∀ path w, s.files.Same w (s.files.read path w).2
  same_tools : ∀ command w, s.files.Same w (s.tools command w).2
  same_transport : ∀ request w, s.files.Same w (s.transport request w).2

/-- Services that store files keep all others as they were. -/
theorem Services.Stores.keeps {s : Services ω} (h : s.Stores) (before : ω) :
    s.Keeps (s.files.Same before) where
  read path w hw := hw.trans (h.same_read path w)
  tools command w hw := hw.trans (h.same_tools command w)
  transport request w hw := hw.trans (h.same_transport request w)

/-! ## the profile that is worked on -/

/-- Naming the main binary leaves the ids of mappings. -/
theorem CommandLine.mappingIds_withBinary (file : String) (p : RawProfile) :
    (withBinary file p).mappings.map (·.id) = p.mappings.map (·.id) := by
  obtain ⟨_ | ⟨m, rest⟩, functions, locations⟩ := p <;> rfl

/-- Naming the main binary does not make ids ambiguous. -/
theorem ProfileOf.Unambiguous.withBinary {p : RawProfile} (h : p.Unambiguous) (file : String) :
    (CommandLine.withBinary file p).Unambiguous where
  mapping_lt := by
    have hlength : (CommandLine.withBinary file p).mappings.length = p.mappings.length :=
      List.length_modify ..
    rw [hlength]
    exact h.mapping_lt
  function_lt := h.function_lt
  ids_nodup := h.ids_nodup
  mappings_nodup := by
    rw [CommandLine.mappingIds_withBinary]
    exact h.mappings_nodup

/-- Naming the main binary leaves texts for labels. -/
theorem ProfileOf.HasTextLabels.withBinary {p : RawProfile} (h : p.HasTextLabels)
    (file : String) : (CommandLine.withBinary file p).HasTextLabels where
  mappings := by
    obtain ⟨_ | ⟨m, rest⟩, functions, locations⟩ := p
    · exact h.mappings
    · obtain ⟨hfirst, hrest⟩ := List.forall_mem_cons.mp h.mappings
      exact List.forall_mem_cons.mpr ⟨⟨isText_ofText_json file, hfirst.2⟩, hrest⟩
  functions := h.functions

namespace CommandLine

variable {s : Services ω} {a : Arguments}

/-- The profile that is loaded is the one in the file. -/
theorem loadRaw_of_run_load {path : String} {env env' : Env ω} {p : RawProfile}
    (h : (load s path).run env = (.ok (some p), env')) :
    ((s.files.loadRaw path).run env).1 = .ok p := by
  rw [load, Act.run_bind_eq_ok] at h
  obtain ⟨isFile, _, hfile, h⟩ := h
  obtain ⟨-, rfl⟩ := Prod.mk.inj hfile
  cases isFile with
  | false =>
      obtain ⟨_, _, _, h⟩ := Act.run_bind_eq_ok.mp h
      cases h
  | true =>
      simp only [Bool.not_true, Bool.false_eq_true, if_false, Files.loadRaw_plainString,
        Act.run_tryCatch_apply, Act.run_map_apply] at h
      generalize (s.files.loadRaw path).run env = loaded at h
      obtain ⟨fault | q, _⟩ := loaded
      · cases fault <;> cases h
      · cases h
        rfl

/-- The profile goes on as it is, or with its main binary named. -/
theorem run_applyBinary (binary : String) (p : RawProfile) (env : Env ω) :
    ∃ q env', (applyBinary binary p).run env = (.ok q, env') ∧
      (q = p ∨ q = withBinary binary p) := by
  unfold applyBinary
  split
  · exact ⟨p, _, rfl, .inl rfl⟩
  · split
    · exact ⟨p, _, rfl, .inl rfl⟩
    · exact ⟨_, _, rfl, .inr rfl⟩

/-- The profile that is worked on is the one in the file, apart from its main binary. -/
theorem loadRaw_of_run_prepare {env env' : Env ω} {p : RawProfile}
    (h : (prepare s a).run env = (.ok (some p), env')) :
    ∃ loaded, ((s.files.loadRaw a.profile).run env).1 = .ok loaded ∧
      (p = loaded ∨ p = withBinary a.binary loaded) := by
  rw [prepare, Act.run_bind_eq_ok] at h
  obtain ⟨_ | loaded, _, hload, h⟩ := h
  · cases h
  · refine ⟨loaded, loadRaw_of_run_load hload, ?_⟩
    obtain ⟨q, _, happly, hq⟩ := run_applyBinary a.binary loaded _
    rw [Act.run_map_apply, happly] at h
    cases h
    exact hq

/-- A prepared profile is sound, and its ids are told apart. -/
theorem unambiguous_of_run_prepare {env env' : Env ω} {p : RawProfile}
    (h : (prepare s a).run env = (.ok (some p), env')) : p.Unambiguous := by
  obtain ⟨loaded, hload, rfl | rfl⟩ := loadRaw_of_run_prepare h
  · exact Files.unambiguous_of_run_loadRaw hload
  · exact (Files.unambiguous_of_run_loadRaw hload).withBinary a.binary

/-- The labels are texts if those of the profile in the file are; the binary is named by one. -/
theorem hasTextLabels_of_run_prepare {env env' : Env ω} {p loaded : RawProfile}
    (h : (prepare s a).run env = (.ok (some p), env'))
    (hload : ((s.files.loadRaw a.profile).run env).1 = .ok loaded)
    (hlabels : loaded.HasTextLabels) : p.HasTextLabels := by
  obtain ⟨other, hother, hp⟩ := loadRaw_of_run_prepare h
  obtain rfl : other = loaded := Except.ok.inj (hother.symm.trans hload)
  obtain rfl | rfl := hp
  · exact hlabels
  · exact hlabels.withBinary a.binary

/-! ## symbolization -/

/-- A relation that covers the steps of symbolization leads to what the command makes of a
profile. -/
theorem gives_symbolize {R : RawProfile → RawProfile → Prop} (h : CoversSteps R)
    (p : RawProfile) : Step.Gives (symbolize s a p) (fun r => R p r.1) := by
  unfold symbolize
  split
  · exact Step.gives_pure (h.refl p)
  · exact Step.gives_pure (h.refl p)
  · exact Step.gives_bind (h.gives_symbolize _ _ _ p) fun _ hr => Step.gives_pure hr

/-- The run comes through symbolization without a fault, and has made `q` of its profile then. -/
def Symbolizes (s : Services ω) (a : Arguments) (env : Env (Workshop ω)) (q : RawProfile)
    (after : Env (Workshop ω)) : Prop :=
  ∃ p out, (prepare s a).run ⟨env.world.outside, env.notices⟩ = (.ok (some p), out) ∧
    symbolize s a p ⟨{ env.world with outside := out.world }, out.notices⟩ = ((q, .ok ()), after)

/-- What has been symbolized can be kept if its document can be written in full. -/
theorem Symbolizes.storable {env after : Env (Workshop ω)} {loaded q : RawProfile}
    (h : Symbolizes s a env q after)
    (hload : ((s.files.loadRaw a.profile).run ⟨env.world.outside, env.notices⟩).1 = .ok loaded)
    (hlabels : loaded.HasTextLabels) (hwritable : (Document.ofProfile id q).isWritable = true) :
    q.Storable := by
  obtain ⟨p, out, hprepare, hsymbolize⟩ := h
  have hmade {R : RawProfile → RawProfile → Prop} (hR : CoversSteps R) : R p q := by
    have hgives := gives_symbolize (s := s) (a := a) hR p
      ⟨{ env.world with outside := out.world }, out.notices⟩
    rw [hsymbolize] at hgives
    exact hgives
  exact Document.storable_of_isWritable
    ((hmade coversSteps_becomes).unambiguous (unambiguous_of_run_prepare hprepare))
    (hmade coversSteps_hasTextLabels (hasTextLabels_of_run_prepare hprepare hload hlabels))
    hwritable

/-! ## runs -/

/-- A run that succeeds finishes with what it has symbolized. -/
theorem symbolizes_of_run {env : Env (Workshop ω)} (h : (run s a env).1.status = .ok .success) :
    ∃ q after, Symbolizes s a env q after ∧
      run s a env = Workshop.outsideStep (finish s a q) after := by
  cases hprepare : (prepare s a).run ⟨env.world.outside, env.notices⟩ with
  | mk r out =>
      rw [run, Step.bind_apply, Workshop.outsideStep, hprepare] at h ⊢
      obtain fault | (_ | p) := r
      · cases h
      · cases h
      · cases hsymbolize : symbolize s a p
            ⟨{ env.world with outside := out.world }, out.notices⟩ with
        | mk r after =>
            obtain ⟨q, ended⟩ := r
            simp only [Step.bind_apply, hsymbolize] at h ⊢
            cases ended with
            | ok _ => exact ⟨q, after, ⟨p, out, hprepare, hsymbolize⟩, rfl⟩
            | error fault =>
                simp only at h
                split at h <;> cases h

/-- If the run comes to a good end the profile has been kept. -/
theorem keepProfile_of_finish {p : RawProfile} {env : Env ω}
    (h : (finish s a p env).1.status = .ok .success) :
    ∃ before, (keepProfile s a.writeProfile p).run before = (.ok (), (finish s a p env).2) := by
  cases hreport : Report.ofProfile? p with
  | none =>
      rw [finish, hreport] at h
      cases h
  | some lines =>
      rw [finish, hreport] at h ⊢
      cases hdeliver : (deliver s a.output lines).run env with
      | mk r delivered =>
          simp only [Step.bind_apply, hdeliver] at h ⊢
          cases r with
          | error fault => cases h
          | ok printed =>
              refine ⟨delivered, ?_⟩
              cases hkeep : (keepProfile s a.writeProfile p).run delivered with
              | mk r kept =>
                  simp only [Step.bind_apply, hkeep] at h ⊢
                  cases r with
                  | error fault => cases h
                  | ok _ => rfl

/-- A profile that can be kept once its document is written is loaded from the file again. -/
theorem loadRaw_of_keepProfile (hs : s.Stores) {path : String} (hpath : path ≠ "")
    {q : RawProfile} (hq : (Document.ofProfile id q).isWritable = true → q.Storable)
    {env env' : Env ω} (h : (keepProfile s path q).run env = (.ok (), env'))
    (notices : List Notice) : ((s.files.loadRaw path).run ⟨env'.world, notices⟩).1 = .ok q := by
  have hnamed : ¬ path.isEmpty = true := by simpa using hpath
  rw [keepProfile, if_neg hnamed] at h
  obtain ⟨hchecked, hwritable, hwrite⟩ := Files.of_run_saveDocument h
  have hstorable := hq hwritable
  have hdocument : (Document.ofProfile id q).Storable Json.nestingLimit :=
    Document.storable_ofProfile 980 hstorable
  exact Files.run_loadRaw hchecked (hs.read_write _ _ _ _ hwrite)
    (Document.parse_written _ hdocument) (Document.read_ofProfile hstorable)

/-- If a run succeeds, the profile that it has symbolized is loaded again from the file in which it
was to be kept.  If a run fails, no file has been created or changed, and nothing was printed. -/
theorem stores_run (hs : s.Stores) (a : Arguments) (env : Env (Workshop ω)) {loaded : RawProfile}
    (hload : ((s.files.loadRaw a.profile).run ⟨env.world.outside, env.notices⟩).1 = .ok loaded)
    (hlabels : loaded.HasTextLabels) :
    ((run s a env).1.status = .ok .success → ∃ q after, Symbolizes s a env q after ∧
        (a.writeProfile ≠ "" → ∀ notices,
          ((s.files.loadRaw a.writeProfile).run
            ⟨(run s a env).2.world.outside, notices⟩).1 = .ok q)) ∧
      ((run s a env).1.status = .ok .failure →
        s.files.Same env.world.outside (run s a env).2.world.outside ∧
          (run s a env).1.printed = "") := by
  constructor
  · intro hsuccess
    obtain ⟨q, after, hsymbolizes, hrun⟩ := symbolizes_of_run hsuccess
    refine ⟨q, after, hsymbolizes, fun hpath notices => ?_⟩
    rw [hrun] at hsuccess ⊢
    obtain ⟨before, hkeep⟩ := keepProfile_of_finish hsuccess
    exact loadRaw_of_keepProfile hs hpath (hsymbolizes.storable hload hlabels) hkeep notices
  · exact meets_run a (hs.keeps env.world.outside) env fun _ => ⟨rfl, rfl⟩

end CommandLine

/-! ## a shelf -/

/-- Files in memory, the latest first, a server that knows one function, and no tools. -/
def shelf : Services (List (String × List UInt8)) where
  files :=
    { isFile := fun path w => .ok (w.lookup path).isSome
      read := fun path w => ((w.lookup path).elim (.error (.notFound path)) .ok, w)
      write := fun path text w => (.ok (), (path, Utf8.encode text.toList) :: w) }
  tools _ w := (.notStarted (.notFound ""), w)
  transport _ w := (.answered 200 "OK" (Utf8.encode "0x9 f".toList), w)

/-- The services of a shelf store files. -/
theorem stores_shelf : shelf.Stores where
  read_write path text w w' h := by
    obtain rfl := (Prod.mk.inj h).2
    simp [shelf]
  same_read _ _ _ := ⟨rfl, rfl⟩
  same_tools _ _ _ := ⟨rfl, rfl⟩
  same_transport _ _ _ := ⟨rfl, rfl⟩

/-- A profile with a function of negative id, and a location that nothing is known of. -/
def sparse : List UInt8 :=
  Utf8.encode ("\x7b\"mappings\":[\x7b\"id\":3\x7d],\"functions\":[\x7b\"id\":-5\x7d]," ++
    "\"locations\":[\x7b\"mapping_id\":3,\"address\":9\x7d]\x7d").toList

/-- The profile lies on the shelf. -/
def sparseShelf : Env (Workshop (List (String × List UInt8))) :=
  ⟨{ outside := [("p.json", sparse)] }, []⟩

/-- The profile on the sparse shelf is loaded, with texts for labels. -/
theorem exists_loadRaw_sparseShelf :
    ∃ loaded, ((shelf.files.loadRaw "./p.json").run
      ⟨sparseShelf.world.outside, sparseShelf.notices⟩).1 = .ok loaded ∧
        loaded.HasTextLabels := by
  have hread : (shelf.files.read (PathName.plainString "./p.json") sparseShelf.world.outside).1 =
      .ok sparse := by
    have hplain : PathName.plainString "./p.json" = "p.json" := by decide +kernel
    rw [hplain]
    rfl
  have hfits : (Document.ofBytes (PathName.plainString "./p.json") sparse).toOption.any
      (fun p => decide p.HasTextLabels) = true := by decide +kernel
  obtain ⟨loaded, hloaded, hlabels⟩ := (Option.any_eq_true _ _).mp hfits
  rw [Files.run_loadRaw_of_read checkPath_document hread]
  exact ⟨loaded, eq_ok_of_toOption hloaded, of_decide_eq_true hlabels⟩

/-- The arguments with which servers are asked and the profile is kept. -/
def keepingArguments (servers : List CommandLine.Given) : CommandLine.Arguments where
  profile := "./p.json"
  directive := some (.word "remote")
  binary := "/bin/a"
  servers := servers
  writeProfile := "q.json"

open CommandLine

/-- How runs end with a server and without one. -/
theorem status_run_sparseShelf :
    (run shelf (keepingArguments [.word "http://host"]) sparseShelf).1.status = .ok .success ∧
      (run shelf (keepingArguments []) sparseShelf).1.status = .ok .failure := by
  have hoptions :
      (run shelf (keepingArguments [.word "http://host"]) sparseShelf).1.status.toOption =
          some .success ∧
        (run shelf (keepingArguments []) sparseShelf).1.status.toOption = some .failure := by
    -- the kernel cannot look for a zero in a path, but it can in the characters of the path
    simp only [run, prepare, load, finish, keepProfile, Files.hasFile, Files.loadRaw,
      Files.saveDocument, Files.access, Files.checkPath, String.contains_char_eq]
    decide +kernel
  exact ⟨eq_ok_of_toOption hoptions.1, eq_ok_of_toOption hoptions.2⟩

/-- With a server the profile is kept and loaded again; without one all stays as it is. -/
theorem stores_run_sparseShelf :
    (∃ q after, Symbolizes shelf (keepingArguments [.word "http://host"]) sparseShelf q after ∧
      ((shelf.files.loadRaw "q.json").run
        ⟨(run shelf (keepingArguments [.word "http://host"]) sparseShelf).2.world.outside,
          []⟩).1 = .ok q) ∧
      shelf.files.Same sparseShelf.world.outside
        (run shelf (keepingArguments []) sparseShelf).2.world.outside := by
  obtain ⟨loaded, hload, hlabels⟩ := exists_loadRaw_sparseShelf
  obtain ⟨hsuccess, hfailure⟩ := status_run_sparseShelf
  constructor
  · have hstores := stores_run stores_shelf (keepingArguments [.word "http://host"]) sparseShelf
      hload hlabels
    obtain ⟨q, after, hsymbolizes, hloads⟩ := hstores.1 hsuccess
    exact ⟨q, after, hsymbolizes, hloads (by simp [keepingArguments]) []⟩
  · exact ((stores_run stores_shelf (keepingArguments []) sparseShelf hload hlabels).2 hfailure).1

end Symbolication
