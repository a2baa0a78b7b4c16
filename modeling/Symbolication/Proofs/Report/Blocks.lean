import Mathlib.Data.List.SplitBy
import Symbolication.Proofs.Frame.Listing
import Symbolication.Proofs.Json.Numerals
import Symbolication.Report

/-!
# Symbolication.Proofs.Report.Blocks

The text of a report.  It has one line for each location without calls, and else one for each
call, and each line ends with a line feed.  The first line of a location is marked, and so are
the others, in another way; if no label breaks a line, the lines of each location are found
again:

* `printed_eq` — what is printed and what is kept are the same text, but for the report
  without lines;
* `Shows`, `shows_linesOf` — the lines of a location;
* `ProfileOf.IsUnbroken`, `blocksIn_text` — a text is cut into the lines of each location.
-/

namespace Symbolication

open Number Text

variable {τ : Type}

/-- No label of the profile breaks a line where it is shown. -/
structure ProfileOf.IsUnbroken [Label τ] (p : ProfileOf τ) : Prop where
  functions : ∀ fn ∈ p.functions, '\n' ∉ (Label.shown fn.name).toList ∧
    '\n' ∉ (Label.shown fn.systemName).toList ∧ '\n' ∉ (Label.shown fn.filename).toList
  mappings : ∀ m ∈ p.mappings, '\n' ∉ (Label.shown m.file).toList ∧
    '\n' ∉ (Label.shown m.buildId).toList

namespace Report

/-! ## lines and texts -/

/-- Lines that end with line feeds are lines with line feeds between them, the last one empty. -/
theorem kept_eq_intercalate (lines : List String) :
    kept lines = "\n".intercalate (lines ++ [""]) := by
  induction lines with
  | nil => rfl
  | cons line rest ih =>
      rw [List.cons_append, String.intercalate_cons_of_ne_nil (by simp), ← ih]
      simp [kept]

/-- What is printed is what is kept, but for the report without lines: an empty line is printed,
and nothing is kept. -/
theorem printed_eq (lines : List String) :
    printed lines = if lines = [] then "\n" else kept lines := by
  split
  · subst lines
    rfl
  · rename_i hne
    rw [kept_eq_intercalate, String.intercalate_append_of_ne_nil hne (List.cons_ne_nil _ _),
      String.intercalate_singleton, String.append_empty]
    rfl

variable [Label τ]

/-- The text of a report. -/
def text (p : ProfileOf τ) : String :=
  kept (p.locations.flatMap (linesOf p))

/-- Every location has a line in the report. -/
theorem linesOf_ne_nil (p : ProfileOf τ) (l : Location) : linesOf p l ≠ [] := by
  intro hnil
  have hlength := length_linesOf p l
  rw [hnil, List.length_nil] at hlength
  omega

/-- There are no lines exactly if there are no locations. -/
theorem flatMap_linesOf_eq_nil_iff {p : ProfileOf τ} :
    p.locations.flatMap (linesOf p) = [] ↔ p.locations = [] := by
  refine ⟨fun h => ?_, fun h => by rw [h]; rfl⟩
  refine List.eq_nil_iff_forall_not_mem.mpr fun l hl => ?_
  exact linesOf_ne_nil p l (List.flatMap_eq_nil_iff.mp h l hl)

/-- A report is left out or has the lines of all locations in turn. -/
theorem ofProfile?_cases (p : ProfileOf τ) :
    ofProfile? p = none ∨ ofProfile? p = some (p.locations.flatMap (linesOf p)) := by
  unfold ofProfile?
  split
  · exact .inr rfl
  · exact .inl rfl

/-- The report on a profile, as it is printed. -/
theorem printed_flatMap_linesOf (p : ProfileOf τ) :
    printed (p.locations.flatMap (linesOf p)) = if p.locations = [] then "\n" else text p := by
  rw [printed_eq]
  simp only [flatMap_linesOf_eq_nil_iff]
  rfl

/-! ## blocks -/

/-- The lines show a location: a single one if it has no calls, and else one for each call, in
their order.  The first line is marked by a sign, and all others as those of inlined calls. -/
structure Shows (p : ProfileOf τ) (l : Location) (block : List String) : Prop where
  unresolved : l.lines = [] → ∃ line, block = [line]
  resolved : l.lines ≠ [] →
    List.Forall₂ (fun frame line => (call p frame).toList <:+ String.toList line) l.lines block
  marked : ∃ first rest, block = first :: rest ∧ "#".toList <+: first.toList ∧
    ∀ line ∈ rest, "    inlined: ".toList <+: line.toList

/-- The lines of a location show it. -/
theorem shows_linesOf (p : ProfileOf τ) (l : Location) : Shows p l (linesOf p l) := by
  have hheading (s : String) : "#".toList <+: (heading l ++ s).toList := by
    simp [heading]
  unfold linesOf
  cases hlines : l.lines with
  | nil =>
      refine ⟨fun _ => ⟨_, rfl⟩, fun hne => absurd hlines hne, _, _, rfl, ?_, List.forall_mem_nil _⟩
      rw [String.append_assoc]
      exact hheading _
  | cons inner outer =>
      refine ⟨fun hnil => ?_, fun _ => ?_, _, _, rfl, hheading _, ?_⟩
      · rw [hlines] at hnil
        cases hnil
      · rw [hlines]
        refine .cons (by simp) ?_
        rw [List.forall₂_map_right_iff, List.forall₂_same]
        intro frame _
        rw [String.toList_append]
        exact List.suffix_append _ _
      · intro line hline
        obtain ⟨frame, -, rfl⟩ := List.mem_map.mp hline
        simp

/-! ## line breaks -/

theorem notMem_hex (a : Int) : '\n' ∉ (hex a).toList := fun hmem =>
  absurd (Listing.mem_hex hmem) (by decide)

theorem notMem_repr (n : Int) : '\n' ∉ n.repr.toList := by
  rw [← Int.toString_eq_repr, Json.toList_toString, List.mem_append]
  rintro (hsign | hdigit)
  · split at hsign <;> simp at hsign
  · obtain ⟨d, hd, hchar⟩ := exists_digitChar_of_mem (by decide) hdigit
    have hall : ∀ d : Fin 10, '\n' ≠ d.val.digitChar := by decide
    exact hall ⟨d, hd⟩ hchar

/-- A label without line breaks is shown without any. -/
theorem notMem_shownOr {other : String} {label : τ} (hother : '\n' ∉ other.toList)
    (h : '\n' ∉ (Label.shown label).toList) : '\n' ∉ (Label.shownOr other label).toList := by
  unfold Label.shownOr
  split
  · exact hother
  · exact h

variable {p : ProfileOf τ}

/-- A call is shown in one line, in an unbroken profile. -/
theorem notMem_call (h : p.IsUnbroken) (frame : Line) : '\n' ∉ (call p frame).toList := by
  have hunknown : '\n' ∉ "??".toList := by decide
  have hline : '\n' ∉ (if frame.line = 0 then "?" else frame.line.repr).toList := by
    split
    · decide
    · exact notMem_repr _
  have hnames : '\n' ∉ (functionName (functionOf p frame)).toList ∧
      '\n' ∉ (Label.shownOr "??" (functionOf p frame).filename).toList := by
    unfold functionOf
    cases hfn : p.functions[frame.function]? with
    | none => simp [functionName, Label.shownOr]
    | some fn =>
        obtain ⟨hname, hsystem, hfile⟩ := h.functions fn (List.mem_of_getElem? hfn)
        exact ⟨notMem_shownOr (notMem_shownOr hunknown hsystem) hname,
          notMem_shownOr hunknown hfile⟩
  simp [call, place, hnames, hline]

/-- The hint of a location is one line, in an unbroken profile. -/
theorem notMem_hint (h : p.IsUnbroken) (l : Location) : '\n' ∉ (hint p l).toList := by
  unfold hint
  split
  · decide
  · rename_i m hm
    have hmem : m ∈ p.mappings := by
      obtain ⟨i, -, hi⟩ := Option.bind_eq_some_iff.mp hm
      exact List.mem_of_getElem? hi
    obtain ⟨hfile, hbuildId⟩ := h.mappings m hmem
    split
    · decide
    · simp only []
      split <;> simp [hfile, hbuildId, notMem_hex]

/-- The lines of a location have no line breaks within, in an unbroken profile. -/
theorem notMem_linesOf (h : p.IsUnbroken) {l : Location} {line : String}
    (hline : line ∈ linesOf p l) : '\n' ∉ line.toList := by
  have hheading : '\n' ∉ (heading l).toList := by
    simp [heading, notMem_hex, notMem_repr]
  unfold linesOf at hline
  split at hline
  · rw [List.mem_singleton.mp hline]
    simp [hheading, notMem_hint h]
  · obtain rfl | hline := List.mem_cons.mp hline
    · simp [hheading, notMem_call h]
    · obtain ⟨frame, -, rfl⟩ := List.mem_map.mp hline
      simp [notMem_call h]

/-! ## the text cut again -/

/-- The lines of a text of which each ends with a line feed. -/
def linesIn (s : String) : List String :=
  ((s.toList.splitOn '\n').dropLast).map String.ofList

/-- Whether the line is the first one of a block. -/
def opensBlock (line : String) : Bool :=
  "#".toList.isPrefixOf line.toList

/-- The lines of a text, block by block. -/
def blocksIn (s : String) : List (List String) :=
  (linesIn s).splitBy fun _ next => !opensBlock next

/-- A line that begins with the sign opens a block. -/
theorem opensBlock_of_sign {line : String} (h : "#".toList <+: line.toList) :
    opensBlock line = true :=
  List.isPrefixOf_iff_prefix.mpr h

/-- The line of an inlined call does not open a block. -/
theorem opensBlock_of_inlined {line : String} (h : "    inlined: ".toList <+: line.toList) :
    opensBlock line = false := by
  obtain ⟨rest, hrest⟩ := h
  rw [opensBlock, ← hrest]
  rfl

/-- Lines that were written to a file are read back. -/
theorem linesIn_kept {lines : List String} (h : ∀ line ∈ lines, '\n' ∉ line.toList) :
    linesIn (kept lines) = lines := by
  have hfree : ∀ s ∈ (lines ++ [""]).map String.toList, '\n' ∉ s := by
    rw [List.forall_mem_map]
    intro line hline
    obtain hline | hline := List.mem_append.mp hline
    · exact h line hline
    · rw [List.mem_singleton.mp hline]
      exact List.not_mem_nil
  have hfeed : "\n".toList = ['\n'] := rfl
  rw [linesIn, kept_eq_intercalate, String.toList_intercalate, hfeed,
    List.splitOn_intercalate '\n' hfree (by simp)]
  simp

/-- If no label breaks a line, the text of a report is cut into the lines of each location. -/
theorem blocksIn_text (h : p.IsUnbroken) :
    blocksIn (text p) = p.locations.map (linesOf p) := by
  have hlines : linesIn (text p) = (p.locations.map (linesOf p)).flatten := by
    rw [text, linesIn_kept, List.flatMap_def]
    intro line hline
    obtain ⟨l, -, hline⟩ := List.mem_flatMap.mp hline
    exact notMem_linesOf h hline
  rw [blocksIn, hlines]
  refine List.splitBy_flatten ?_ ?_ ?_
  · intro hmem
    obtain ⟨l, -, hnil⟩ := List.mem_map.mp hmem
    exact linesOf_ne_nil p l hnil
  -- no line within a block opens one
  · rw [List.forall_mem_map]
    intro l _
    obtain ⟨first, rest, hblock, -, hrest⟩ := (shows_linesOf p l).marked
    have hinlined : ∀ line ∈ rest, (!opensBlock line) = true := fun line hline => by
      rw [opensBlock_of_inlined (hrest line hline)]
      rfl
    rw [hblock]
    exact (List.pairwise_cons.mpr ⟨hinlined,
      List.pairwise_of_forall_mem_list fun _ _ line hline => hinlined line hline⟩).isChain
  -- and the line behind a block does
  · refine (List.pairwise_of_forall_mem_list fun a ha b hb => ?_).isChain
    obtain ⟨l, -, rfl⟩ := List.mem_map.mp ha
    obtain ⟨l', -, rfl⟩ := List.mem_map.mp hb
    refine ⟨linesOf_ne_nil p l, linesOf_ne_nil p l', ?_⟩
    obtain ⟨first, rest, hblock, hfirst, -⟩ := (shows_linesOf p l').marked
    simp only [hblock, List.head_cons, opensBlock_of_sign hfirst, Bool.not_true]

end Report

end Symbolication
