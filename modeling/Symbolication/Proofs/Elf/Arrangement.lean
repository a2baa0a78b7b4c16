import Symbolication.Proofs.Elf.FastLookup

/-!
# Symbolication.Proofs.Elf.Arrangement

What a lookup in the faster way answers, said of the entries of the table in use.  The entry
that is named is one of a function that has begun and, if it has a size, has not ended, and no
function begins between it and the address.  Nothing else about the tables counts, so two
objects with the same entries in another arrangement are answered for alike:

* `Describes` — the entry may be named for the address;
* `Answers` — the frames that a lookup may answer with;
* `SameEntries` — tables that differ in nothing but the arrangement of their entries;
* `sound_lookup` — lookups are sound, and do not depend on the arrangement.
-/

namespace Symbolication.Elf

open Symbolication.Elf.Symbol

variable {ω : Type}

/-! ## entries -/

/-- The entry, with its name, is that of a function with an address. -/
def IsFunction (e : SymbolEntry × String) : Prop :=
  e.1.type = functionType ∧ e.2 ≠ "" ∧ e.1.value ≠ 0

/-- The entry is that of a function which begins at or below the address and, if its size is known,
ends behind it, and no function begins nearer to the address. -/
structure Describes (entries : List (SymbolEntry × String)) (address : Int)
    (e : SymbolEntry × String) : Prop where
  mem : e ∈ entries
  isFunction : IsFunction e
  begun : (e.1.value : Int) ≤ address
  reaches : e.1.size ≠ 0 → address < (e.1.value + e.1.size : Nat)
  nearest : ∀ u ∈ entries, IsFunction u → ¬ (e.1.value < u.1.value ∧ (u.1.value : Int) ≤ address)

/-- The frames are a single one, with the name of an entry that describes the address and nothing
of files and lines.  Or they are none; then behind every function that the address lies in another
one begins before the address. -/
def Answers (entries : List (SymbolEntry × String)) (address : Int) (frames : List Frame) : Prop :=
  (∃ e, Describes entries address e ∧ frames = [{ func := e.2, file := "", line := 0 }]) ∨
    frames = [] ∧ ∀ e ∈ entries, IsFunction e → (e.1.value : Int) ≤ address →
      address < (e.1.value + e.1.size : Nat) →
      ∃ u ∈ entries, IsFunction u ∧ e.1.value < u.1.value ∧ (u.1.value : Int) ≤ address

/-- The functions of entries are the symbols of those that describe one. -/
theorem mem_functionsOf_iff {entries : List (SymbolEntry × String)} {s : Symbol} :
    s ∈ functionsOf entries ↔ ∃ e ∈ entries, IsFunction e ∧ s = ⟨e.1.value, e.1.size, e.2⟩ := by
  simp only [mem_functionsOf, IsFunction, and_assoc]

/-- What the sorted functions say of an address is an answer for the entries. -/
theorem answers_symbolFrames (entries : List (SymbolEntry × String)) (address : Int) :
    Answers entries address
      (Segment.symbolFrames (sortSymbols (functionsOf entries)) address) := by
  rcases symbolFrames_cases (functionsOf entries) address with
    ⟨t, hnearest, hreaches, hframes⟩ | ⟨hframes, hnone⟩
  · obtain ⟨e, he, hfunction, rfl⟩ := mem_functionsOf_iff.mp hnearest.mem
    refine .inl ⟨e, ⟨he, hfunction, hnearest.begun, fun hsize => ?_, ?_⟩, hframes⟩
    · simpa [reaches, hsize] using hreaches
    · intro u hu hufunction hbetween
      have hle := hnearest.value_le _ (mem_functionsOf_iff.mpr ⟨u, hu, hufunction, rfl⟩) hbetween.2
      exact absurd hbetween.1 (by simpa using hle)
  · refine .inr ⟨hframes, fun e he hfunction hbegun hend => ?_⟩
    refine Classical.byContradiction fun hlast => ?_
    refine hnone ⟨e.1.value, e.1.size, e.2⟩ ⟨?_, hbegun, ?_⟩ ⟨hbegun, hend⟩
    · exact mem_functionsOf_iff.mpr ⟨e, he, hfunction, rfl⟩
    · intro s hs hsbegun
      obtain ⟨u, hu, hufunction, rfl⟩ := mem_functionsOf_iff.mp hs
      refine Classical.byContradiction fun hlater => ?_
      exact hlast ⟨u, hu, hufunction, by simpa using hlater, hsbegun⟩

/-! ## tables -/

/-- The symbols that are read from two tables are the same in another arrangement, or neither table
can be read, for the same fault. -/
inductive SameEntries : (r r' : Except Fault (List (SymbolEntry × String))) → Prop where
  /-- Both tables can be read. -/
  | read {entries entries' : List (SymbolEntry × String)} (h : entries.Perm entries') :
      SameEntries (.ok entries) (.ok entries')
  /-- Neither can. -/
  | unreadable (fault : Fault) : SameEntries (.error fault) (.error fault)

/-- The symbol tables of two segments have the same entries. -/
def Segment.SameTables (s t : Segment) : Prop :=
  ∀ name ∈ [".symtab", ".dynsym"],
    SameEntries (s.image.entriesIn s.sections name) (t.image.entriesIn t.sections name)

/-- Functions in ascending order do not depend on the arrangement of the entries. -/
theorem functions_eq_of_sameEntries {image image' : Image} {sections sections' : List Section}
    (hsymbols : SameEntries (image.entriesIn sections ".symtab")
      (image'.entriesIn sections' ".symtab"))
    (hdynamic : SameEntries (image.entriesIn sections ".dynsym")
      (image'.entriesIn sections' ".dynsym")) :
    image.functions sections = image'.functions sections' := by
  have hsorted : ∀ {entries entries' : List (SymbolEntry × String)}, entries.Perm entries' →
      sortSymbols (functionsOf entries) = sortSymbols (functionsOf entries') :=
    fun h => sortSymbols_eq_of_perm (h.filterMap _)
  have hlinked : (image.entriesIn sections ".dynsym").map (fun e => sortSymbols (functionsOf e)) =
      (image'.entriesIn sections' ".dynsym").map fun e => sortSymbols (functionsOf e) := by
    generalize image.entriesIn sections ".dynsym" = r at hdynamic ⊢
    generalize image'.entriesIn sections' ".dynsym" = r' at hdynamic ⊢
    cases hdynamic with
    | unreadable fault => rfl
    | read h => exact congrArg Except.ok (hsorted h)
  rw [Image.functions_eq, Image.functions_eq, hlinked]
  generalize image.entriesIn sections ".symtab" = r at hsymbols ⊢
  generalize image'.entriesIn sections' ".symtab" = r' at hsymbols ⊢
  cases hsymbols with
  | unreadable fault => rfl
  | @read entries entries' h =>
      have hnone : functionsOf entries = [] ↔ functionsOf entries' = [] := by
        rw [← List.length_eq_zero_iff, ← List.length_eq_zero_iff (l := functionsOf entries')]
        rw [functionsOf, (h.filterMap _).length_eq, functionsOf]
      simp only [bind, Except.bind, hnone, hsorted h]

/-- Segments with the same tables, in whatever order, say the same of every address. -/
theorem said_eq_of_sameTables {s t : Segment} (h : s.SameTables t) (address : Int) :
    t.said address = s.said address := by
  have hsame := functions_eq_of_sameEntries (h ".symtab" (by simp)) (h ".dynsym" (by simp))
  rw [Segment.said, Segment.said, hsame]

/-! ## lookups -/

/-- A lookup in the faster way, after any uses of the segment, answers with the name of an entry
that describes the address, or with nothing if no such entry has the address in its range.  It
answers if and only if there is a table in use.  The answer, or the fault, is the same for every
segment with the same base whose tables have the same entries in another arrangement. -/
theorem sound_lookup {s : Segment} (hfast : s.fast = true) (tools : ToolRunner ω)
    (tool : Option String) (uses : List Segment.Use) {env : Env (Workshop ω)}
    (henv : env.world.segment? s.number = some {}) (address : Int) :
    let found := ((s.lookup tools tool address).run (s.use tools tool uses env).2).1
    (∀ frames, found = .ok frames → ∃ entries, s.image.UsesTable s.sections entries ∧
        Answers entries (address - s.base) frames) ∧
      (∀ entries, s.image.UsesTable s.sections entries → ∃ frames, found = .ok frames) ∧
      ∀ (t : Segment) (tools' : ToolRunner ω) (tool' : Option String) (uses' : List Segment.Use)
        (env' : Env (Workshop ω)), t.fast = true → t.base = s.base → s.SameTables t →
        env'.world.segment? t.number = some {} →
        ((t.lookup tools' tool' address).run (t.use tools' tool' uses' env').2).1 = found := by
  intro found
  have hfound : found = s.said (address - s.base) :=
    Segment.lookup_eq_said hfast tools tool uses henv address
  rw [hfound]
  refine ⟨fun frames hframes => ?_, fun entries htable => ?_, ?_⟩
  · obtain ⟨sorted, hread⟩ : ∃ sorted, s.image.functions s.sections = .ok sorted := by
      rw [Segment.said] at hframes
      cases hread : s.image.functions s.sections with
      | ok sorted => exact ⟨sorted, rfl⟩
      | error fault =>
          rw [hread] at hframes
          cases hframes
    obtain ⟨entries, htable⟩ := Image.usesTable_of_functions hread
    rw [Segment.said, Image.functions_of_usesTable htable] at hframes
    cases hframes
    exact ⟨entries, htable, answers_symbolFrames entries _⟩
  · rw [Segment.said, Image.functions_of_usesTable htable]
    exact ⟨_, rfl⟩
  · intro t tools' tool' uses' env' hfast' hbase hsame henv'
    rw [Segment.lookup_eq_said hfast' tools' tool' uses' henv', hbase]
    exact said_eq_of_sameTables hsame _

/-- The object with functions in functions, with the entries of its table the other way round. -/
def nestingBackwards : Segment :=
  { nesting with
    image := { nesting.image with
      bytes := (functionBytes 12 160 10 ++ functionBytes 7 140 0 ++ functionBytes 1 100 100 ++
        Text.Utf8.encode "\x00outer\x00mark\x00inner\x00".toList).toArray } }

/-- The nesting segment has the same table when its entries are turned round. -/
theorem sameTables_nestingBackwards : nesting.SameTables nestingBackwards := by
  have hread : (nesting.image.entriesIn nesting.sections ".symtab").toOption =
      some nestingEntries := by
    decide +kernel
  have hbackwards :
      (nestingBackwards.image.entriesIn nestingBackwards.sections ".symtab").toOption =
        some nestingEntries.reverse := by
    decide +kernel
  intro name hname
  rw [List.mem_cons, List.mem_singleton] at hname
  rcases hname with rfl | rfl
  · rw [eq_ok_of_toOption hread, eq_ok_of_toOption hbackwards]
    exact .read (List.reverse_perm _).symm
  · exact .read .rfl

/-- In the inner function its name is found, in either arrangement and after other lookups. -/
theorem sound_lookup_nestingBackwards :
    let found (s : Segment) (uses : List Segment.Use) :=
      ((s.lookup Segment.echoing (some "addr2line") 165).run
        (s.use Segment.echoing (some "addr2line") uses nestingOpened).2).1
    found nesting [] = .ok [{ func := "inner" }] ∧
      found nestingBackwards [.lookup 180, .prefetch [120], .lookup 50] = found nesting [] ∧
      ∃ entries, nesting.image.UsesTable nesting.sections entries ∧
        Answers entries 165 [{ func := "inner" }] := by
  have hopened : nestingOpened.world.segment? nesting.number = some {} := rfl
  obtain ⟨hanswers, -, hsame⟩ :=
    sound_lookup rfl Segment.echoing (some "addr2line") [] hopened 165
  have hsorted : sortSymbols (functionsOf nestingEntries) = functionsOf nestingEntries :=
    List.mergeSort_of_pairwise (by decide)
  have hfound := Segment.lookup_after_use rfl usesTable_nesting Segment.echoing (some "addr2line")
    [] hopened 165
  rw [hsorted] at hfound
  exact ⟨hfound, hsame nestingBackwards _ _ _ _ rfl rfl sameTables_nestingBackwards hopened,
    hanswers _ hfound⟩

end Symbolication.Elf
