import Symbolication.Proofs.Pass.OpenCloseLog
import Symbolication.Proofs.Pass.Opening

/-!
# Symbolication.Proofs.Pass.Selection

Which mappings get a segment, and what is said of those that get none.  The turns of
mappings are followed in the log of the files that are opened, and each leaves its own
part of it:

* `ProfileOf.tries`, `ProfileOf.LacksFile` — the files to open, and the files missing;
* `SegmentTable.Leaves` — what the turns of some mappings leave in the log, among the
  notices and in the table;
* `Gets.leaves`, `Opens.leaves` — one turn, and one turn after another;
* `selects_ofProfile` — the opening as a whole.
-/

namespace Symbolication

variable {ω η : Type}

/-! ## mappings -/

/-- Build ids tell files apart only if there are two. -/
theorem isMismatch_iff {m : Mapping} {buildId : String} :
    m.isMismatch buildId = true ↔ m.buildId ≠ "" ∧ buildId ≠ "" ∧ m.buildId ≠ buildId := by
  have hempty : Label.isEmpty m.buildId = m.buildId.isEmpty := rfl
  have hsame : Label.isText m.buildId buildId = (m.buildId == buildId) := rfl
  simp [MappingOf.isMismatch, hempty, hsame, and_assoc]

namespace ProfileOf

variable {force : Bool} {p : Profile} {i : Nat} {m : Mapping}

/-- The file of a mapping is to be opened: a location lies in the mapping, which has no symbols yet
or is to be done anew, and the file is named and no pages of the system. -/
def tries (force : Bool) (p : Profile) (m : Mapping) (i : Nat) : Bool :=
  p.refersTo i && (force || !m.isSymbolized) && m.file != "" && !PathName.isSystemPages m.file

/-- The mapping at a position is to be done, but has no file. -/
def LacksFile (force : Bool) (p : Profile) (i : Nat) : Prop :=
  ∃ m, p.mappings[i]? = some m ∧ p.refersTo i = true ∧ (force = true ∨ m.isSymbolized = false) ∧
    m.file = ""

/-- A mapping is tried just if it stands as a candidate. -/
theorem tries_iff : p.tries force m i = true ↔ p.standing force i m = .candidate m.file := by
  rw [standing_eq_candidate]
  have htext : Label.text m.file = .ok m.file := rfl
  simp only [tries, htext, Bool.and_eq_true, Bool.or_eq_true, Bool.not_eq_true', bne_iff_ne, ne_eq,
    and_assoc, true_and, ← Bool.not_eq_true, String.isEmpty_iff]

/-- A candidate is tried by its own file name. -/
theorem eq_file_of_candidate {file : String} (h : p.standing force i m = .candidate file) :
    file = m.file := by
  have htext := ((standing_eq_candidate force p i m file).mp h).2.2.1
  exact (Except.ok.inj htext).symm

theorem tries_of_candidate {file : String} (h : p.standing force i m = .candidate file) :
    p.tries force m i = true := by
  rw [tries_iff, h, eq_file_of_candidate h]

/-- A mapping that is passed over is not tried. -/
theorem not_tries_of_passed (h : (p.standing force i m).IsPassed) : p.tries force m i = false := by
  rw [← Bool.not_eq_true, tries_iff]
  intro hcandidate
  rw [hcandidate] at h
  exact h

/-- A mapping is nameless if some location needs it and it has no file name. -/
theorem standing_eq_nameless :
    p.standing force i m = .nameless ↔
      p.refersTo i = true ∧ (force = true ∨ m.isSymbolized = false) ∧ m.file = "" := by
  have htext : Label.text m.file = .ok m.file := rfl
  simp only [standing, htext, ← String.isEmpty_iff]
  cases p.refersTo i <;> cases force <;> cases m.isSymbolized <;> grind

/-- A mapping lacks a file just if it stands as nameless. -/
theorem lacksFile_iff :
    p.LacksFile force i ↔ ∃ m, p.mappings[i]? = some m ∧ p.standing force i m = .nameless := by
  simp only [LacksFile, standing_eq_nameless]

/-- The test for files that are lacking finds just the mappings behind the first. -/
theorem lacksFiles_iff : p.lacksFiles force = true ↔ ∃ i, 0 < i ∧ p.LacksFile force i := by
  simp only [lacksFiles, List.any_eq_true, Prod.exists, List.mk_mem_zipIdx_iff_getElem?,
    Bool.and_eq_true, decide_eq_true_eq, beq_iff_eq, lacksFile_iff]
  constructor
  · rintro ⟨m, i, hm, hi, hstanding⟩
    exact ⟨i, hi, m, hm, hstanding⟩
  · rintro ⟨i, hi, m, hm, hstanding⟩
    exact ⟨m, i, hm, hi, hstanding⟩

end ProfileOf

namespace SegmentTable

/-! ## turns -/

/-- What stays in the table of a file that was tried: its segment, unless it could not be opened or
turned out not to be the one that was profiled. -/
def kept (inspector : Inspector ω η) : (Mapping × Nat) × Except Fault η → Option (Nat × η)
  | ((m, i), .ok segment) =>
    if m.isMismatch (inspector.buildId segment) then none else some (i, segment)
  | (_, .error _) => none

/-- What the turns of some mappings leave: the log of what is opened and closed, the notices given
beside that, the files that were tried, and the segments added to the table. -/
structure Leaves (inspector : Inspector ω η) (force : Bool) (p : Profile)
    (turns : List (Mapping × Nat)) (log : List (OpenCloseEvent ω η)) (given : List Notice)
    (tried : List ((Mapping × Nat) × Except Fault η)) (added : List (Nat × η)) : Prop where
  opened_eq : log.filterMap OpenCloseEvent.opened? =
    tried.map fun e => (e.1.1.region e.1.1.file, e.2)
  tried_eq : tried.map (·.1) = turns.filter fun e => p.tries force e.1 e.2
  added_eq : added = tried.filterMap (kept inspector)
  countP_main : given.countP (· matches .mainBinaryUnnamed) =
    turns.countP fun e => e.2 == 0 && p.standing force e.2 e.1 == .nameless
  countP_others : given.countP (· matches .binariesUnnamed) = 0

variable {inspector : Inspector ω η} {force : Bool} {p : Profile}

theorem Leaves.nil : Leaves inspector force p [] [] [] [] [] :=
  ⟨rfl, rfl, rfl, rfl, rfl⟩

/-- What two stretches of turns leave is put together. -/
theorem Leaves.append {turns turns' : List (Mapping × Nat)} {log log' : List (OpenCloseEvent ω η)}
    {given given' : List Notice} {tried tried' : List ((Mapping × Nat) × Except Fault η)}
    {added added' : List (Nat × η)} (h : Leaves inspector force p turns log given tried added)
    (h' : Leaves inspector force p turns' log' given' tried' added') :
    Leaves inspector force p (turns ++ turns') (log ++ log') (given ++ given') (tried ++ tried')
      (added ++ added') where
  opened_eq := by rw [List.filterMap_append, List.map_append, h.opened_eq, h'.opened_eq]
  tried_eq := by rw [List.map_append, List.filter_append, h.tried_eq, h'.tried_eq]
  added_eq := by rw [List.filterMap_append, h.added_eq, h'.added_eq]
  countP_main := by rw [List.countP_append, List.countP_append, h.countP_main, h'.countP_main]
  countP_others := by rw [List.countP_append, h.countP_others, h'.countP_others]

/-- A mapping that is passed over leaves notices only. -/
theorem leaves_of_passed {m : Mapping} {i : Nat} (h : (p.standing force i m).IsPassed) :
    Leaves inspector force p [(m, i)] ([] : List (OpenCloseEvent ω η))
      ((p.standing force i m).noticesFor m i) [] [] where
  opened_eq := rfl
  tried_eq := by simp [ProfileOf.not_tries_of_passed h]
  added_eq := rfl
  countP_main := by
    cases hstanding : p.standing force i m with
    | nameless =>
        have hname : (p.standing force i m == .nameless) = true := beq_iff_eq.mpr hstanding
        by_cases hi : i == 0 <;> simp [Standing.noticesFor, hname, hi]
    | _ => simp [Standing.noticesFor, hstanding]
  countP_others := by
    cases p.standing force i m with
    | nameless => by_cases hi : i = 0 <;> simp [Standing.noticesFor, hi]
    | _ => simp [Standing.noticesFor]

/-- A mapping whose file is tried leaves the try, and no notice about missing files. -/
theorem leaves_of_candidate {m : Mapping} {i : Nat} {file : String} {ended : Except Fault η}
    {log : List (OpenCloseEvent ω η)} {given : List Notice} {segment? : Option η}
    (h : p.standing force i m = .candidate file)
    (hopened : log.filterMap OpenCloseEvent.opened? = [(m.region file, ended)])
    (hkept : kept inspector ((m, i), ended) = segment?.map (i, ·))
    (hmain : given.countP (· matches .mainBinaryUnnamed) = 0)
    (hothers : given.countP (· matches .binariesUnnamed) = 0) :
    Leaves inspector force p [(m, i)] log given [((m, i), ended)]
      (segment?.map (i, ·)).toList where
  opened_eq := by rw [hopened, ProfileOf.eq_file_of_candidate h]; rfl
  tried_eq := by simp [ProfileOf.tries_of_candidate h]
  added_eq := by
    rw [List.filterMap_cons, hkept]
    cases segment? <;> rfl
  countP_main := by simp [hmain, h]
  countP_others := hothers

/-- The turn of a mapping leaves its part of the log. -/
theorem Gets.leaves {m : Mapping} {i : Nat} {env env' : Env (Watched ω (List (OpenCloseEvent ω η)))}
    {segment? : Option η} (h : Gets inspector.logged force p m i env segment? env') :
    ∃ log given tried, env'.world.seen = env.world.seen ++ log ∧
      Between env.plain log env'.plain given ∧
      Leaves inspector force p [(m, i)] log given tried (segment?.map (i, ·)).toList := by
  cases h with
  | passed hpassed =>
      exact ⟨[], _, [], (List.append_nil _).symm, .rest _ _, leaves_of_passed hpassed⟩
  | @refused opened file cause hcandidate hopen =>
      have hbetween := Between.single (η := η)
        (.opening (m.region file) env.plain (.error (.objectOpen cause)) opened.plain)
      refine ⟨[_], _, [((m, i), .error (.objectOpen cause))], ?_, hbetween.noting _,
        leaves_of_candidate hcandidate rfl rfl (by simp) (by simp)⟩
      exact seen_of_openRegion hopen
  | @mismatched opened _ file segment hcandidate hopen hmismatch hclose =>
      have hopening := Between.single
        (.opening (m.region file) env.plain (.ok segment) opened.plain)
      have hclosing := Between.single (.closing segment
        (opened.noting [.buildIdMismatch (PathName.baseNameString file)]).plain (.ok ()) env'.plain)
      refine ⟨_, _, [((m, i), .ok segment)], ?_, (hopening.noting _).append hclosing,
        leaves_of_candidate hcandidate rfl (if_pos hmismatch) (by simp) (by simp)⟩
      rw [seen_of_close hclose, ← List.append_assoc, ← seen_of_openRegion hopen]
      rfl
  | @opened _ file segment hcandidate hopen hmatch =>
      have hbetween := Between.single
        (.opening (m.region file) env.plain (.ok segment) env'.plain)
      refine ⟨_, _, [((m, i), .ok segment)], seen_of_openRegion hopen, hbetween,
        leaves_of_candidate hcandidate rfl (if_neg ?_) (by simp) (by simp)⟩
      exact Bool.eq_false_iff.mp hmatch

/-- A segment that may have been opened is added at the end, if it was. -/
theorem entries_addSome (t : SegmentTable η) (i : Nat) (segment? : Option η) :
    (t.addSome i segment?).entries = t.entries ++ (segment?.map (i, ·)).toList := by
  cases segment? with
  | none => exact (List.append_nil _).symm
  | some segment => rfl

/-- Turns one after another leave one part of the log after another. -/
theorem Opens.leaves {env env' : Env (Watched ω (List (OpenCloseEvent ω η)))}
    {t t' : SegmentTable η}
    {turns : List (Mapping × Nat)} (h : Opens inspector.logged force p env t turns t' env') :
    ∃ log given tried added, env'.world.seen = env.world.seen ++ log ∧
      Between env.plain log env'.plain given ∧ t'.entries = t.entries ++ added ∧
      Leaves inspector force p turns log given tried added := by
  induction h with
  | nil =>
      exact ⟨[], [], [], [], (List.append_nil _).symm, .nil _, (List.append_nil _).symm, .nil⟩
  | cons hfirst _ ih =>
      obtain ⟨log, given, tried, hseen, hbetween, hleaves⟩ := hfirst.leaves
      obtain ⟨log', given', tried', added, hseen', hbetween', hadded, hleaves'⟩ := ih
      refine ⟨_, _, _, _, ?_, hbetween.append hbetween', ?_, hleaves.append hleaves'⟩
      · rw [hseen', hseen, List.append_assoc]
      · rw [hadded, entries_addSome, List.append_assoc]

/-! ## the table -/

/-- Where no mapping comes twice, a table has just what has been added to it. -/
theorem get?_eq_some_iff {t : SegmentTable η} (hnodup : (t.entries.map (·.1)).Nodup) {i : Nat}
    {segment : η} : t.get? (some i) = some segment ↔ (i, segment) ∈ t.entries := by
  obtain ⟨entries⟩ := t
  simp only [get?, Option.bind_some]
  induction entries with
  | nil => simp
  | cons entry rest ih =>
      obtain ⟨j, other⟩ := entry
      rw [List.map_cons, List.nodup_cons] at hnodup
      rw [List.lookup_cons, List.mem_cons, Prod.mk.injEq]
      by_cases hij : i = j
      · subst hij
        have hnot : (i, segment) ∉ rest := fun hmem => hnodup.1 (List.mem_map.mpr ⟨_, hmem, rfl⟩)
        simp [hnot, eq_comm]
      · have hb : (i == j) = false := beq_eq_false_iff_ne.mpr hij
        simp [hb, hij, ih hnodup.2]

/-- The segments kept are those opened whose build id is no mismatch. -/
theorem mem_filterMap_kept {tried : List ((Mapping × Nat) × Except Fault η)} {i : Nat}
    {segment : η} :
    (i, segment) ∈ tried.filterMap (kept inspector) ↔ ∃ m, ((m, i), .ok segment) ∈ tried ∧
      m.isMismatch (inspector.buildId segment) = false := by
  rw [List.mem_filterMap]
  constructor
  · rintro ⟨⟨⟨m, j⟩, ended⟩, hmem, hkept⟩
    cases ended with
    | error fault => cases hkept
    | ok other =>
        rw [kept] at hkept
        split at hkept
        · cases hkept
        · rename_i hmatch
          cases hkept
          exact ⟨m, hmem, Bool.eq_false_iff.mpr hmatch⟩
  · rintro ⟨m, hmem, hmatch⟩
    exact ⟨_, hmem, if_neg (Bool.eq_false_iff.mp hmatch)⟩

/-- Where mappings have one turn each, none comes twice in the table. -/
theorem Leaves.nodup_added {turns : List (Mapping × Nat)} {log : List (OpenCloseEvent ω η)}
    {given : List Notice} {tried : List ((Mapping × Nat) × Except Fault η)}
    {added : List (Nat × η)} (h : Leaves inspector force p turns log given tried added)
    (hnodup : (turns.map (·.2)).Nodup) : (added.map (·.1)).Nodup := by
  have htried : (tried.map (·.1)).Pairwise (·.2 ≠ ·.2) := by
    rw [h.tried_eq]
    exact (List.pairwise_map.mp hnodup).filter _
  rw [h.added_eq]
  refine List.pairwise_map.mpr ((List.pairwise_map.mp htried).filterMap _ ?_)
  intro e e' hne a ha b hb
  have hfst {e : (Mapping × Nat) × Except Fault η} {a : Nat × η} (ha : kept inspector e = some a) :
      a.1 = e.1.2 := by
    obtain ⟨⟨m, i⟩, ended⟩ := e
    cases ended with
    | error fault => cases ha
    | ok segment =>
        rw [kept] at ha
        split at ha <;> cases ha
        rfl
  rw [hfst ha, hfst hb]
  exact hne

/-! ## notices about missing files -/

/-- A notice is among those given just if a test that it alone passes counts it there. -/
theorem mem_iff_countP_pos {given : List Notice} {n : Notice} {test : Notice → Bool}
    (htest : ∀ m, test m = true ↔ m = n) : n ∈ given ↔ 0 < given.countP test := by
  simp only [List.countP_pos_iff, htest]
  exact ⟨fun h => ⟨n, h, rfl⟩, fun ⟨m, hm, heq⟩ => heq ▸ hm⟩

/-- The main binary's warning is given just if its count is positive. -/
theorem mainBinaryUnnamed_mem_iff {given : List Notice} :
    .mainBinaryUnnamed ∈ given ↔ 0 < given.countP (· matches .mainBinaryUnnamed) :=
  mem_iff_countP_pos fun m => by cases m <;> simp

/-- The other binaries' warning is given just if its count is positive. -/
theorem binariesUnnamed_mem_iff {given : List Notice} :
    .binariesUnnamed ∈ given ↔ 0 < given.countP (· matches .binariesUnnamed) :=
  mem_iff_countP_pos fun m => by cases m <;> simp

/-- The first mapping has its turn once, if there is one. -/
theorem countP_first (force : Bool) (p : Profile) :
    let count := p.mappings.zipIdx.countP fun e =>
      e.2 == 0 && p.standing force e.2 e.1 == .nameless
    count ≤ 1 ∧ (0 < count ↔ p.LacksFile force 0) := by
  intro count
  constructor
  · have hfirst : count ≤ p.mappings.zipIdx.countP (·.2 == 0) :=
      List.countP_mono_left fun e _ he => (Bool.and_eq_true_iff.mp he).1
    have hcount : p.mappings.zipIdx.countP (·.2 == 0) =
        (p.mappings.zipIdx.map Prod.snd).count 0 := by
      rw [List.count, List.countP_map]
      rfl
    have hle := List.nodup_iff_count_le_one.mp (List.nodup_zipIdx_map_snd p.mappings) 0
    omega
  · simp only [count, List.countP_pos_iff, Prod.exists, List.mk_mem_zipIdx_iff_getElem?,
      Bool.and_eq_true, beq_iff_eq, ProfileOf.lacksFile_iff]
    constructor
    · rintro ⟨m, i, hm, rfl, hstanding⟩
      exact ⟨m, hm, hstanding⟩
    · rintro ⟨m, hm, hstanding⟩
      exact ⟨m, 0, hm, rfl, hstanding⟩

/-- Once there is a table, the missing files of other mappings are reported all at once. -/
theorem countP_noticesAbout (force : Bool) (p : Profile) (t : SegmentTable η) :
    (t.noticesAbout force p).countP (· matches .mainBinaryUnnamed) = 0 ∧
      (t.noticesAbout force p).countP (· matches .binariesUnnamed) =
        if p.lacksFiles force then 1 else 0 := by
  rw [noticesAbout]
  cases p.lacksFiles force <;> exact ⟨rfl, rfl⟩

/-! ## opening -/

/-- A table that the inspector gives comes with the log, too. -/
theorem run_logged_of_ofProfile {t : SegmentTable η} {env opened : Env ω}
    (h : (ofProfile inspector force p).run env = (.ok t, opened)) :
    ∃ log, (ofProfile inspector.logged force p).run (env.watchedFrom []) =
      (.ok t, opened.watchedFrom log) := by
  have henv : (env.watchedFrom ([] : List (OpenCloseEvent ω η))).through Watched.world = env := rfl
  rw [← henv] at h
  obtain ⟨opened', hrun, rfl⟩ := (shows_logged inspector).ofProfile_eq_ok h
  exact ⟨opened'.world.seen, hrun⟩

/-- Opening that returns a table has opened, once each and in the order of the profile, the files of
just those mappings in which locations lie, that have no symbols yet or are to be done anew, and
whose files are named and no pages of the system. A mapping has a segment in the table exactly if
that segment was opened then, and the build ids do not tell it from the one that was profiled. The
first mapping is reported exactly if it is to be done and has no file, and the others exactly if one
of them is, all of them at once. -/
theorem selects_ofProfile {t : SegmentTable η} {env opened : Env ω}
    (h : (ofProfile inspector force p).run env = (.ok t, opened)) :
    ∃ (log : List (OpenCloseEvent ω η)) (given : List Notice)
      (tried : List ((Mapping × Nat) × Except Fault η)),
      (ofProfile inspector.logged force p).run (env.watchedFrom []) =
        (.ok t, opened.watchedFrom log) ∧
      Between env log opened given ∧
      log.filterMap OpenCloseEvent.opened? = tried.map (fun e => (e.1.1.region e.1.1.file, e.2)) ∧
      tried.map (·.1) = p.mappings.zipIdx.filter (fun e => p.tries force e.1 e.2) ∧
      (∀ i segment, t.get? (some i) = some segment ↔ ∃ m, ((m, i), .ok segment) ∈ tried ∧
        ¬ (m.buildId ≠ "" ∧ inspector.buildId segment ≠ "" ∧
          m.buildId ≠ inspector.buildId segment)) ∧
      (.mainBinaryUnnamed ∈ given ↔ p.LacksFile force 0) ∧
      (.binariesUnnamed ∈ given ↔ ∃ i, 0 < i ∧ p.LacksFile force i) ∧
      given.countP (· matches .mainBinaryUnnamed) ≤ 1 ∧
      given.countP (· matches .binariesUnnamed) ≤ 1 := by
  obtain ⟨log, hrun⟩ : ∃ log, (ofProfile inspector.logged force p).run (env.watchedFrom []) =
      (.ok t, opened.watchedFrom log) :=
    run_logged_of_ofProfile h
  obtain ⟨env', hopens, hnoting⟩ := opens_noting_of_ofProfile hrun
  obtain ⟨log', given, tried, added, hseen, hbetween, hentries, hleaves⟩ := hopens.leaves
  have hadded : t.entries = added := hentries
  have hlog : log' = log := by
    have hworld := congrArg (·.world.seen) hnoting
    rw [world_noting, hseen] at hworld
    exact hworld.symm
  have hopened : opened = env'.plain.noting (t.noticesAbout force p) := congrArg Env.plain hnoting
  have hnodup : (t.entries.map (·.1)).Nodup := by
    rw [hadded]
    exact hleaves.nodup_added (List.nodup_zipIdx_map_snd _)
  obtain ⟨hmain, hothers⟩ := countP_noticesAbout force p t
  obtain ⟨hle, hpos⟩ := countP_first force p
  rw [← hleaves.countP_main] at hle hpos
  refine ⟨log, given ++ t.noticesAbout force p, tried, hrun, ?_, ?_, hleaves.tried_eq, ?_, ?_, ?_,
    ?_, ?_⟩
  · rw [hopened, ← hlog]
    exact hbetween.noting _
  · rw [← hlog, hleaves.opened_eq]
  · intro i segment
    rw [get?_eq_some_iff hnodup, hadded, hleaves.added_eq]
    simp only [mem_filterMap_kept, ← isMismatch_iff, Bool.not_eq_true]
  · rw [mainBinaryUnnamed_mem_iff, List.countP_append, hmain, Nat.add_zero, hpos]
  · rw [binariesUnnamed_mem_iff, List.countP_append, hleaves.countP_others, hothers, Nat.zero_add,
      ← ProfileOf.lacksFiles_iff]
    split <;> simp [*]
  · rw [List.countP_append, hmain, Nat.add_zero]
    exact hle
  · rw [List.countP_append, hleaves.countP_others, hothers, Nat.zero_add]
    split <;> decide

/-- An inspector of files with one build id, one of which is gone. -/
def oneBuild : Inspector Unit String where
  openRegion region :=
    if region.path = "/bin/gone" then throw (.objectOpen (.other "no such file"))
    else return region.path
  buildId _ := "beef"
  lookup _ _ := return []
  prefetch? _ := none
  close _ := return ()
  fastSwitch? := none

/-- A profile whose mappings stand in all ways: with a file and without, with the build id of the
file, with another and with none, with symbols, and with no location in them. -/
def motley : Profile where
  mappings :=
    [{ id := 1, file := "", buildId := "" }, { id := 2, file := "/bin/app", buildId := "beef" },
      { id := 3, file := "/bin/old", buildId := "cafe" },
      { id := 3, file := "/bin/gone", buildId := "beef" },
      { id := 4, file := "[vdso]", buildId := "" },
      { id := 5, file := "/lib/done.so", buildId := "", hasFunctions := true },
      { id := 6, file := "/lib/idle.so", buildId := "" }, { id := 7, file := "", buildId := "" },
      { id := 2, file := "/bin/app", buildId := "" }]
  locations := [0, 1, 2, 3, 4, 5, 7, 8].map fun (i : Nat) => { id := i, mapping := some i }

/-- Of these mappings four are tried and two of them kept, and both notices are given. -/
theorem selects_ofProfile_motley :
    (∃ opened, (ofProfile oneBuild false motley).run { world := () } =
      (.ok { entries := [(1, "/bin/app"), (8, "/bin/app")] }, opened)) ∧
    ∃ (given : List Notice) (tried : List ((Mapping × Nat) × Except Fault String)),
      tried.map (·.1.2) = [1, 2, 3, 8] ∧ (∃ m, ((m, 8), .ok "/bin/app") ∈ tried) ∧
        .mainBinaryUnnamed ∈ given ∧ .binariesUnnamed ∈ given := by
  have hrun : (ofProfile oneBuild false motley).run { world := () } =
      (.ok { entries := [(1, "/bin/app"), (8, "/bin/app")] },
        ((ofProfile oneBuild false motley).run { world := () }).2) := by rfl
  refine ⟨⟨_, hrun⟩, ?_⟩
  obtain ⟨log, given, tried, -, -, -, htried, htable, hmain, hothers, -, -⟩ :=
    selects_ofProfile hrun
  refine ⟨given, tried, ?_, ?_, ?_, ?_⟩
  · have hturns := congrArg (List.map (·.2)) htried
    rw [List.map_map] at hturns
    exact hturns.trans (by decide +kernel)
  · obtain ⟨m, hmem, -⟩ := (htable 8 "/bin/app").mp rfl
    exact ⟨m, hmem⟩
  · exact hmain.mpr ⟨_, rfl, rfl, .inr rfl, rfl⟩
  · exact hothers.mpr ⟨7, by decide, _, rfl, rfl, .inr rfl, rfl⟩

end SegmentTable

end Symbolication
