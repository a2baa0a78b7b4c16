import Symbolication.Proofs.CommandLine.Persistence
import Symbolication.Proofs.Report.Blocks

/-!
# Symbolication.Proofs.CommandLine.Delivery

The report of a run, printed or kept in a file.  Both ways it is about the same profile, and it
is the same text, with one exception: for a profile without locations nothing is kept, but an
empty line is printed.

* `run_deliver_empty`, `run_deliver` — all is printed, or a file takes in the whole text;
* `finish_of_deliver` — how a run ends once its report is delivered;
* `run_of_symbolizes` — where the report goes does not matter before;
* `delivers_finish` — what is printed, and what is kept.
-/

namespace Symbolication

open Text

variable {ω : Type}

namespace CommandLine

/-- The arguments with another place for the report. -/
def Arguments.withOutput (a : Arguments) (output : String) : Arguments :=
  { a with output }

variable {s : Services ω} {a : Arguments}

/-- Without a file all is printed. -/
theorem run_deliver_empty (s : Services ω) (lines : List String) (env : Env ω) :
    (deliver s "" lines).run env = (.ok (Report.printed lines), env) :=
  rfl

/-- A file that can be written takes in the whole text. -/
theorem run_deliver {path : String} {lines : List String} {env : Env ω} {w : ω}
    (hpath : path ≠ "") (hchecked : Files.checkPath (PathName.plainString path) = .ok ())
    (hwrite : s.files.write (PathName.plainString path) (Report.kept lines) env.world =
      (.ok (), w)) :
    (deliver s path lines).run env =
      (.ok "", { (env.noting [.writingReport (PathName.plainString path)]) with world := w }) := by
  have hnamed : ¬ path.isEmpty = true := by simpa using hpath
  rw [deliver, if_neg hnamed]
  simp only [Act.run_bind_apply, Act.run_note_apply, Files.run_access _ hchecked, world_noting,
    hwrite, Except.mapError]
  rfl

/-- Once its report is delivered, a run ends with keeping the profile. -/
theorem finish_of_deliver {p : RawProfile} {lines : List String} {env delivered : Env ω}
    {printed : String} (hreport : Report.ofProfile? p = some lines)
    (hdeliver : (deliver s a.output lines).run env = (.ok printed, delivered)) :
    finish s a p env =
      let kept := (keepProfile s a.writeProfile p).run delivered
      ({ status := kept.1.map fun _ => .success, printed }, kept.2) := by
  rw [finish, hreport]
  simp only [Step.bind_apply, hdeliver]
  rfl

/-- A run that has symbolized its profile finishes with that, wherever the report goes. -/
theorem run_of_symbolizes {env after : Env (Workshop ω)} {q : RawProfile}
    (h : Symbolizes s a env q after) (output : String) :
    run s (a.withOutput output) env =
      Workshop.outsideStep (finish s (a.withOutput output) q) after := by
  obtain ⟨p, out, hprepare, hsymbolize⟩ := h
  have hprepare' : (prepare s (a.withOutput output)).run ⟨env.world.outside, env.notices⟩ =
    (.ok (some p), out) := hprepare
  have hsymbolize' : symbolize s (a.withOutput output) p
    ⟨{ env.world with outside := out.world }, out.notices⟩ = ((q, .ok ()), after) := hsymbolize
  rw [run, Step.bind_apply, Workshop.outsideStep, hprepare']
  simp only [Step.bind_apply, hsymbolize']

/-- A run finishes with the same profile wherever its report goes.  If the report can be written,
what a file takes in is its text, and that is what is printed too, unless there are no locations:
then an empty line is printed.  The text shows the locations in their order, and is cut into what it
shows of each of them if no label breaks a line. -/
theorem delivers_finish (hs : s.Stores) (a : Arguments) (p : RawProfile) (env : Env ω)
    {path : String} {w : ω} (hpath : path ≠ "")
    (hchecked : Files.checkPath (PathName.plainString path) = .ok ())
    (hwrite : s.files.write (PathName.plainString path) (Report.text p) env.world = (.ok (), w)) :
    let shown := finish s (a.withOutput "") p env
    let kept := finish s (a.withOutput path) p env
    (∀ (before after : Env (Workshop ω)) (q : RawProfile), Symbolizes s a before q after →
      ∀ output, run s (a.withOutput output) before =
        Workshop.outsideStep (finish s (a.withOutput output) q) after) ∧
    (Report.ofProfile? p = none → shown = ({ status := .error .integerTooLong }, env) ∧
      kept = shown) ∧
    (Report.ofProfile? p ≠ none →
      shown.1.printed = (if p.locations = [] then "\n" else Report.text p) ∧
      (shown.1.printed = Report.text p ↔ p.locations ≠ []) ∧
      (s.files.read (PathName.plainString path) w).1 =
        .ok (Utf8.encode (Report.text p).toList) ∧
      ∃ notices, let ended := (keepProfile s a.writeProfile p).run ⟨w, notices⟩
        kept = ({ status := ended.1.map fun _ => .success, printed := "" }, ended.2)) ∧
    (∀ l ∈ p.locations, Report.Shows p l (Report.linesOf p l)) ∧
    (p.IsUnbroken →
      Report.blocksIn (Report.text p) = p.locations.map (Report.linesOf p)) := by
  intro shown kept
  refine ⟨fun before after q => run_of_symbolizes, fun hnone => ?_, fun hsome => ?_,
    fun l _ => Report.shows_linesOf p l, Report.blocksIn_text⟩
  · have hfinish (output : String) : finish s (a.withOutput output) p env =
        ({ status := .error .integerTooLong }, env) := by
      rw [finish, hnone]
      rfl
    exact ⟨hfinish "", (hfinish path).trans (hfinish "").symm⟩
  · have hreport := (Report.ofProfile?_cases p).resolve_left hsome
    have hshown := finish_of_deliver (a := a.withOutput "") hreport (run_deliver_empty s _ env)
    have hkept := finish_of_deliver (a := a.withOutput path) hreport
      (run_deliver hpath hchecked hwrite)
    have hprinted : shown.1.printed = (if p.locations = [] then "\n" else Report.text p) := by
      rw [← Report.printed_flatMap_linesOf]
      exact congrArg (·.1.printed) hshown
    refine ⟨hprinted, ?_, hs.read_write _ _ _ _ hwrite, _, hkept⟩
    rw [hprinted]
    by_cases hnil : p.locations = []
    · have hempty : Report.text p = "" := by
        rw [Report.text, hnil]
        rfl
      rw [if_pos hnil, hempty]
      simp [hnil]
    · simp [hnil]

/-- A location with an inlined call, and one that nothing is known of. -/
def inlinedCall : RawProfile where
  mappings :=
    [{ id := 1, start := 0x1000, limit := 0x2000, file := .text "/bin/a", buildId := .text "" }]
  functions :=
    [{ id := 1, name := .text "f", systemName := .text "f", filename := .text "a.c" }]
  locations :=
    [{ id := 1, address := 0x1010, mapping := some 0, lines := [⟨0, 7⟩, ⟨0, 9⟩] },
      { id := 2, address := 0x1020, mapping := some 0 }]

theorem isUnbroken_inlinedCall : inlinedCall.IsUnbroken where
  functions := by decide +kernel
  mappings := by decide +kernel

theorem checkPath_report : Files.checkPath (PathName.plainString "r.txt") = .ok () := by
  have hzero : '\x00' ∉ (PathName.plainString "r.txt").toList := by decide +kernel
  simp [Files.checkPath, String.contains_char_eq, hzero]

/-- The arguments with which nothing is asked for but a report. -/
def reportingArguments : Arguments where
  profile := "p.json"

/-- What is printed is the text, and the two locations are told apart in it. -/
theorem delivers_finish_inlinedCall :
    (finish shelf (reportingArguments.withOutput "") inlinedCall
        { world := [] }).1.printed = Report.text inlinedCall ∧
      Report.blocksIn (Report.text inlinedCall) =
        inlinedCall.locations.map (Report.linesOf inlinedCall) := by
  have hwritable : Report.ofProfile? inlinedCall ≠ none := by decide +kernel
  have hall := delivers_finish stores_shelf reportingArguments inlinedCall { world := [] }
    (by decide : "r.txt" ≠ "") checkPath_report rfl
  exact ⟨(hall.2.2.1 hwritable).2.1.mpr (List.cons_ne_nil _ _),
    hall.2.2.2.2 isUnbroken_inlinedCall⟩

/-- For a profile without locations an empty line is printed, and nothing is kept. -/
theorem printed_empty :
    let shown := finish shelf (reportingArguments.withOutput "") {} { world := [] }
    let kept := finish shelf (reportingArguments.withOutput "r.txt") {} { world := [] }
    shown.1.printed = "\n" ∧ (shelf.files.read "r.txt" kept.2.world).1.toOption = some [] := by
  -- the kernel cannot look for a zero in a path, but it can in the characters of the path
  simp only [finish, deliver, Files.access, Files.checkPath, String.contains_char_eq]
  decide +kernel

end CommandLine

end Symbolication
