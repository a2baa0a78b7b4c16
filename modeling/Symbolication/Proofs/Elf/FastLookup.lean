import Symbolication.Proofs.Elf.Batching
import Symbolication.Proofs.Elf.Ordering

/-!
# Symbolication.Proofs.Elf.FastLookup

Lookups in the faster way, which take names from symbol tables.  Whatever has been looked
up before, a lookup answers with what the functions of the table in use say of the address:

* `Image.UsesTable` — the table in use, with all its entries;
* `Segment.LooksUp` — the invariant: the segment is open, and what it remembers of addresses
  and functions follows from the tables;
* `Segment.meets_lookup_fast`, `Segment.keeps_use` — one lookup, and any number of uses;
* `Segment.lookup_eq_said` — a lookup after any uses, whether the tables can be read or not;
* `finds_lookup_of_nearest` — the address is found where a function that begins nearest has it.
-/

namespace Symbolication.Elf

open Symbolication.Elf.Symbol

variable {ω : Type}

/-! ## symbol tables -/

/-- The functions among entries of a symbol table with their names. -/
def functionsOf (entries : List (SymbolEntry × String)) : List Symbol :=
  entries.filterMap fun e => e.1.symbol? e.2

/-- A symbol is made of a function entry with a name and a value other than zero. -/
theorem symbol?_eq_some {entry : SymbolEntry} {name : String} {s : Symbol} :
    entry.symbol? name = some s ↔ entry.type = functionType ∧ name ≠ "" ∧ entry.value ≠ 0 ∧
      s = ⟨entry.value, entry.size, name⟩ := by
  have hskip : (entry.type != functionType || name.isEmpty || entry.value == 0) = true ↔
      entry.type ≠ functionType ∨ name = "" ∨ entry.value = 0 := by
    rw [Bool.or_eq_true, Bool.or_eq_true, bne_iff_ne, String.isEmpty_iff, beq_iff_eq, or_assoc]
  unfold SymbolEntry.symbol?
  split
  · rename_i h
    rcases hskip.mp h with h | h | h <;> simp [h]
  · rename_i h
    rw [hskip, not_or, not_or, Decidable.not_not] at h
    simp [h.1, h.2.1, h.2.2, eq_comm]

/-- The functions of a table are its named entries of that type with an address. -/
theorem mem_functionsOf {entries : List (SymbolEntry × String)} {s : Symbol} :
    s ∈ functionsOf entries ↔ ∃ e ∈ entries, e.1.type = functionType ∧ e.2 ≠ "" ∧
      e.1.value ≠ 0 ∧ s = ⟨e.1.value, e.1.size, e.2⟩ := by
  simp only [functionsOf, List.mem_filterMap, symbol?_eq_some]

namespace Image

variable {image : Image} {sections : List Section} {entries : List (SymbolEntry × String)}

/-- All entries among `count` entries of a symbol table from `index` on, with their names. -/
def entriesFrom (image : Image) (table strings : SectionHeader) (index : Nat) :
    Nat → Except Fault (List (SymbolEntry × String))
  | 0 => .ok []
  | count + 1 => do
    let entry ← Source.readAt (table.offset + index * table.entrySize) image.readSymbolEntry
    let name ← image.stringAt strings entry.nameOffset
    return (entry, name) :: (← image.entriesFrom table strings (index + 1) count)

/-- All entries of the section of a name; none if there is no such symbol table. -/
def entriesIn (image : Image) (sections : List Section) (name : String) :
    Except Fault (List (SymbolEntry × String)) :=
  match findSection? sections name with
  | some { header, strings := some strings, .. } =>
    image.entriesFrom header strings 0 (header.size / header.entrySize)
  | _ => .ok []

/-- The entries are those of the table in use: the symbol table, or, if there are no functions in
it, the table for dynamic linking. -/
def UsesTable (image : Image) (sections : List Section)
    (entries : List (SymbolEntry × String)) : Prop :=
  (image.entriesIn sections ".symtab" = .ok entries ∧ functionsOf entries ≠ []) ∨
    ∃ full, image.entriesIn sections ".symtab" = .ok full ∧ functionsOf full = [] ∧
      image.entriesIn sections ".dynsym" = .ok entries

/-- The functions read from a table are those of its entries. -/
theorem functionsFrom_eq (table strings : SectionHeader) (index count : Nat) :
    image.functionsFrom table strings index count =
      (image.entriesFrom table strings index count).map functionsOf := by
  induction count generalizing index with
  | zero => rfl
  | succ count ih =>
      rw [functionsFrom, entriesFrom]
      cases Source.readAt (table.offset + index * table.entrySize) image.readSymbolEntry with
      | error fault => rfl
      | ok entry =>
          cases hname : image.stringAt strings entry.nameOffset with
          | error fault => simp [bind, Except.bind, hname, Except.map]
          | ok name =>
              rw [ih]
              cases hrest : image.entriesFrom table strings (index + 1) count with
              | error fault => simp [bind, Except.bind, hname, Except.map]
              | ok rest =>
                  cases hsymbol : entry.symbol? name <;>
                    simp [bind, Except.bind, hname, Except.map, pure, Except.pure,
                      functionsOf, hsymbol]

/-- The functions of the tables of one name are those of their entries. -/
theorem functionsIn_eq (name : String) :
    image.functionsIn sections name = (image.entriesIn sections name).map functionsOf := by
  unfold functionsIn entriesIn
  cases findSection? sections name with
  | none => rfl
  | some found =>
      obtain ⟨name, header, compression, strings⟩ := found
      cases strings with
      | none => rfl
      | some strings => exact functionsFrom_eq _ _ _ _

/-- The functions of an object in ascending order, by the entries of its tables. -/
theorem functions_eq : image.functions sections =
    (image.entriesIn sections ".symtab" >>= fun full =>
      if functionsOf full = [] then
        (image.entriesIn sections ".dynsym").map fun entries => sortSymbols (functionsOf entries)
      else .ok (sortSymbols (functionsOf full))) := by
  unfold functions
  rw [functionsIn_eq, functionsIn_eq]
  cases image.entriesIn sections ".symtab" with
  | error fault => rfl
  | ok full =>
      have hempty : (functionsOf full).isEmpty = true ↔ functionsOf full = [] := List.isEmpty_iff
      simp only [bind, Except.bind, Except.map, hempty]
      cases image.entriesIn sections ".dynsym" <;> rfl

/-- The functions of an object are those of the table in use, in ascending order. -/
theorem functions_of_usesTable (h : image.UsesTable sections entries) :
    image.functions sections = .ok (sortSymbols (functionsOf entries)) := by
  rw [functions_eq]
  rcases h with ⟨hfull, hsome⟩ | ⟨full, hfull, hnone, hdynamic⟩
  · rw [hfull]
    exact if_neg hsome
  · rw [hfull, hdynamic]
    exact if_pos hnone

/-- Functions are read from an object only if one of its tables is in use. -/
theorem usesTable_of_functions {sorted : List Symbol} (h : image.functions sections = .ok sorted) :
    ∃ entries, image.UsesTable sections entries := by
  rw [functions_eq] at h
  obtain ⟨full, hfull, h⟩ := bind_eq_ok.mp h
  by_cases hnone : functionsOf full = []
  · rw [if_pos hnone] at h
    cases hdynamic : image.entriesIn sections ".dynsym" with
    | error fault =>
        rw [hdynamic] at h
        cases h
    | ok entries => exact ⟨entries, .inr ⟨full, hfull, hnone, hdynamic⟩⟩
  · exact ⟨full, .inl ⟨hfull, hnone⟩⟩

end Image

/-! ## lookups -/

namespace Segment

variable {s : Segment} {E : Symbolication.Fault → Workshop ω → Prop}

/-- What the symbol tables say of an address of the object, or the fault of reading them. -/
def said (s : Segment) (address : Int) : Except Symbolication.Fault (List Frame) :=
  ((s.image.functions s.sections).mapError Fault.object).map fun sorted =>
    symbolFrames sorted address

/-- What is remembered of an open segment follows from the symbol tables: its addresses, and the
functions if they have been read. -/
structure Knows (s : Segment) (object : OpenObject) : Prop where
  agrees : object.memo.Agrees s.said
  symbols : ∀ sorted, object.symbols = some sorted → s.image.functions s.sections = .ok sorted

/-- The segment is open, and what it remembers of addresses and of functions follows from the
symbol tables. -/
def LooksUp (s : Segment) (w : Workshop ω) : Prop :=
  ∃ object, w.segment? s.number = some object ∧ s.Knows object

/-- A segment that was just opened looks up what its image says. -/
theorem looksUp_of_opened {w : Workshop ω} (h : w.segment? s.number = some {}) : s.LooksUp w :=
  ⟨{}, h, FrameMemo.agrees_empty, nofun⟩

/-- Looking at the state of a segment leaves it one that looks up what its image says. -/
theorem meets_state_of_looksUp :
    Act.Meets s.LooksUp (s.state (ω := ω))
      (fun object w => w.segment? s.number = some object ∧ s.Knows object) E := by
  refine Act.meets_bind Workshop.meets_look fun w' => ?_
  intro env hw
  obtain ⟨rfl, object, hobject, hknows⟩ := hw
  rw [hobject]
  exact ⟨hobject, hknows⟩

/-- The functions that are read are those of the tables, and a fault is that of reading them. -/
theorem meets_symbols {object : OpenObject} (hknows : s.Knows object) :
    Act.Meets s.LooksUp (s.symbols (ω := ω) object)
      (fun sorted w => s.image.functions s.sections = .ok sorted ∧ s.LooksUp w)
      (fun fault w => (s.image.functions s.sections).mapError Fault.object = .error fault ∧
        s.LooksUp w) := by
  unfold symbols
  cases hsymbols : object.symbols with
  | some sorted => exact Act.meets_pure fun _ hw => ⟨hknows.symbols sorted hsymbols, hw⟩
  | none =>
      cases hread : s.image.functions s.sections with
      | error fault => exact fun _ hw => ⟨rfl, hw⟩
      | ok sorted =>
          refine Act.meets_bind (Q := fun found w => found = sorted ∧ s.LooksUp w)
            (Act.meets_pure fun _ hw => ⟨rfl, hw⟩) fun found => Act.meets_and fun hfound => ?_
          subst hfound
          refine Act.meets_bind Act.meets_note fun _ => ?_
          refine Act.meets_bind (Workshop.meets_change (Q := s.LooksUp) fun w _ => ?_) fun _ => ?_
          · refine ⟨{ object with symbols := some found }, ?_, hknows.agrees, ?_⟩
            · rw [Workshop.segment?_putSegment, if_pos rfl]
            · intro sorted hsorted
              rw [← Option.some.inj hsorted, hread]
          · exact Act.meets_pure fun _ hw => ⟨rfl, hw⟩

/-- A segment still looks up what its image says once it remembers answers that agree with the
image. -/
theorem meets_remember_of_looksUp {memo : FrameMemo} (h : memo.Agrees s.said) :
    Act.Meets s.LooksUp (s.remember (ω := ω) memo) (fun _ => s.LooksUp) E := by
  refine Workshop.meets_change fun w hw => ?_
  obtain ⟨object, hobject, hknows⟩ := hw
  refine ⟨{ object with memo }, ?_, h, hknows.symbols⟩
  rw [Workshop.segment?_putSegment, if_pos rfl, hobject]
  rfl

variable {tools : ToolRunner ω} {tool : Option String}

/-- A lookup in the faster way answers what the symbol tables say of the address, and fails only by
the fault of reading them. -/
theorem meets_lookup_fast (tools : ToolRunner ω) (tool : Option String) (hfast : s.fast = true)
    (address : Int) :
    Act.Meets s.LooksUp (s.lookup tools tool address)
      (fun frames w => s.said (s.objectAddress address) = .ok frames ∧ s.LooksUp w)
      (fun fault w => s.said (s.objectAddress address) = .error fault ∧ s.LooksUp w) := by
  unfold lookup
  refine Act.meets_bind meets_state_of_looksUp fun object => ?_
  intro env hw
  obtain ⟨hobject, hknows⟩ := hw
  simp only [hfast, if_true]
  have hask : ∀ a, Act.Meets s.LooksUp (do return symbolFrames (← s.symbols object) a)
      (fun frames w => s.LooksUp (ω := ω) w ∧ s.said a = .ok frames)
      (fun fault w => s.LooksUp w ∧ s.said a = .error fault) := by
    intro a
    refine Act.meets_bind (Act.meets_mono (meets_symbols hknows) (fun _ hw => hw)
      (fun _ _ hr => hr) fun fault w hr => ⟨hr.2, by rw [said, hr.1]; rfl⟩) fun sorted => ?_
    refine Act.meets_pure fun w hw => ⟨hw.2, ?_⟩
    rw [said, hw.1]
    rfl
  refine Act.meets_bind (Q := fun r w => s.LooksUp w ∧ r.1.Agrees s.said ∧
    s.said (s.objectAddress address) = .ok r.2)
    (Act.meets_mono (FrameMemo.meets_lookup hknows.agrees (hask _)) (fun _ hw => hw)
      (fun _ _ hr => hr) fun fault w hr => ⟨hr.2, hr.1⟩) ?_ env ⟨object, hobject, hknows⟩
  intro r env' hw
  obtain ⟨memo, frames⟩ := r
  obtain ⟨hlooks, hmemo, hframes⟩ := hw
  refine Act.meets_bind (meets_remember_of_looksUp hmemo) (fun _ => ?_) env' hlooks
  exact Act.meets_pure fun w hw => ⟨hframes, hw⟩

/-- In the faster way there is nothing to look up in advance. -/
theorem keeps_prefetch_fast (hfast : s.fast = true) (addresses : List Int) :
    Act.Keeps s.LooksUp (s.prefetch tools tool addresses) := by
  unfold prefetch
  refine Act.meets_bind meets_state_of_looksUp fun object => ?_
  simp only [hfast, Bool.not_true, Bool.false_eq_true, if_false]
  exact Act.meets_pure fun w hw => ⟨object, hw⟩

/-- Using a segment keeps what it remembers in line with the tables. -/
theorem keeps_use (tools : ToolRunner ω) (tool : Option String) (hfast : s.fast = true)
    (uses : List Use) : Step.Keeps s.LooksUp (s.use tools tool uses) := by
  induction uses with
  | nil => exact Step.keeps_pure _
  | cons step rest ih =>
      cases step with
      | prefetch addresses =>
          exact Step.keeps_bind (Act.keeps_run (keeps_prefetch_fast hfast addresses)) fun _ => ih
      | lookup address =>
          have hlookup : Act.Keeps s.LooksUp (s.lookup tools tool address) :=
            Act.meets_mono (meets_lookup_fast tools tool hfast address) (fun _ hw => hw)
              (fun _ _ hr => hr.2) fun _ _ hr => hr.2
          refine Step.keeps_bind (Act.keeps_run hlookup) fun _ => ?_
          exact Step.keeps_bind ih fun _ => Step.keeps_pure _

/-- After any uses of a segment that has been opened in the faster way, a lookup ends as the symbol
tables say of the address. -/
theorem lookup_eq_said (hfast : s.fast = true) (tools : ToolRunner ω) (tool : Option String)
    (uses : List Use) {env : Env (Workshop ω)}
    (henv : env.world.segment? s.number = some {}) (address : Int) :
    ((s.lookup tools tool address).run (s.use tools tool uses env).2).1 =
      s.said (address - s.base) := by
  have hlooks := keeps_use tools tool hfast uses env (looksUp_of_opened henv)
  have hlookup := meets_lookup_fast tools tool hfast address _ hlooks
  rw [objectAddress] at hlookup
  cases hfound : ((s.lookup tools tool address).run (s.use tools tool uses env).2).1 with
  | ok frames =>
      rw [hfound] at hlookup
      exact hlookup.1.symm
  | error fault =>
      rw [hfound] at hlookup
      exact hlookup.1.symm

/-- Where the tables can be read, it answers what the table in use says of the address. -/
theorem lookup_after_use (hfast : s.fast = true) {entries : List (SymbolEntry × String)}
    (htable : s.image.UsesTable s.sections entries) (tools : ToolRunner ω) (tool : Option String)
    (uses : List Use) {env : Env (Workshop ω)}
    (henv : env.world.segment? s.number = some {}) (address : Int) :
    ((s.lookup tools tool address).run (s.use tools tool uses env).2).1 =
      .ok (symbolFrames (sortSymbols (functionsOf entries)) (address - s.base)) := by
  rw [lookup_eq_said hfast tools tool uses henv, said, Image.functions_of_usesTable htable]
  rfl

end Segment

/-- A lookup in the faster way, after any others, finds an address in one of the functions that
begin nearest at or below it, if one of these has the address in its range.  If the address lies in
some function and none of those that begin nearest has a size, it is found in one of these. -/
theorem finds_lookup_of_nearest {s : Segment} (hfast : s.fast = true)
    {entries : List (SymbolEntry × String)} (htable : s.image.UsesTable s.sections entries)
    (tools : ToolRunner ω) (tool : Option String) (uses : List Segment.Use)
    {env : Env (Workshop ω)} (henv : env.world.segment? s.number = some {}) (address : Int) :
    let found := ((s.lookup tools tool address).run (s.use tools tool uses env).2).1
    let place := address - s.base
    ((∃ u, IsNearest (functionsOf entries) place u ∧ u.Contains place) →
      ∃ t, IsNearest (functionsOf entries) place t ∧ t.Contains place ∧
        found = .ok [{ func := t.name }]) ∧
    ((∃ x ∈ functionsOf entries, x.Contains place) →
      (∀ u, IsNearest (functionsOf entries) place u → u.size = 0) →
      ∃ t, IsNearest (functionsOf entries) place t ∧ found = .ok [{ func := t.name }]) := by
  dsimp only
  rw [Segment.lookup_after_use hfast htable tools tool uses henv address]
  constructor
  · rintro ⟨u, hu, hcontains⟩
    obtain ⟨t, hnearest, hin, hframes⟩ := symbolFrames_of_contains hu hcontains
    exact ⟨t, hnearest, hin, by rw [hframes]⟩
  · rintro ⟨x, hx, hcontains⟩ hsizeless
    obtain ⟨t, hnearest, hframes⟩ := symbolFrames_of_sizeless hx hcontains.1 hsizeless
    exact ⟨t, hnearest, by rw [hframes]⟩

/-! ## an object with functions in functions -/

/-- The bytes of an entry of a symbol table that is a function, for small numbers. -/
def functionBytes (nameOffset value size : UInt8) : List UInt8 :=
  [nameOffset, 0, 0, 0, 2, 0, 1, 0] ++ value :: List.replicate 7 0 ++ size :: List.replicate 7 0

/-- A segment of an object with a function, a mark in it without a size, and behind the mark a
smaller function. -/
def nesting : Segment where
  number := 0
  path := "/bin/app"
  base := 0
  buildId := ""
  fast := true
  image := {
    bytes := (functionBytes 1 100 100 ++ functionBytes 7 140 0 ++ functionBytes 12 160 10 ++
      Text.Utf8.encode "\x00outer\x00mark\x00inner\x00".toList).toArray
    wide := true, littleEndian := true
    header := {
      type := .shared, machine := .amd64, programOffset := 0, sectionOffset := 0
      programEntrySize := 0, programCount := 0, sectionEntrySize := 0, sectionCount := 0
      namesIndex := 0 } }
  sections := [{
    name := ".symtab"
    header := {
      nameOffset := 0, type := 2, flags := 0, offset := 0, size := 72, link := 1, info := 0
      entrySize := 24 }
    compression := none
    strings := some {
      nameOffset := 0, type := 3, flags := 0, offset := 72, size := 18, link := 0, info := 0
      entrySize := 0 } }]

/-- The entries of its symbol table. -/
def nestingEntries : List (SymbolEntry × String) :=
  [({ nameOffset := 1, value := 100, size := 100, type := 2 }, "outer"),
   ({ nameOffset := 7, value := 140, size := 0, type := 2 }, "mark"),
   ({ nameOffset := 12, value := 160, size := 10, type := 2 }, "inner")]

/-- The nesting image uses its table of the two nested functions. -/
theorem usesTable_nesting : nesting.image.UsesTable nesting.sections nestingEntries := by
  have hread : (nesting.image.entriesIn nesting.sections ".symtab").toOption =
      some nestingEntries := by
    decide +kernel
  exact .inl ⟨eq_ok_of_toOption hread, by decide⟩

/-- A world with the segment open. -/
def nestingOpened : Env (Workshop Unit) :=
  ⟨({ outside := () } : Workshop Unit).putSegment 0 {}, []⟩

/-- In front of the mark the outer function is found, and behind it, where no function begins that
has a size, the mark. -/
theorem finds_lookup_of_nearest_nesting :
    let found address := ((nesting.lookup Segment.echoing (some "addr2line") address).run
      (nesting.use Segment.echoing (some "addr2line") [.lookup 165, .lookup 180]
        nestingOpened).2).1
    (∃ t, IsNearest (functionsOf nestingEntries) 120 t ∧ t.Contains 120 ∧
        found 120 = .ok [{ func := t.name }]) ∧
      ∃ t, IsNearest (functionsOf nestingEntries) 150 t ∧ found 150 = .ok [{ func := t.name }] := by
  have hopened : nestingOpened.world.segment? nesting.number = some {} := rfl
  have hfinds := finds_lookup_of_nearest rfl usesTable_nesting Segment.echoing (some "addr2line")
    [.lookup 165, .lookup 180] hopened
  have hsizeless : ∀ u ∈ functionsOf nestingEntries,
      IsNearest (functionsOf nestingEntries) 150 u → u.size = 0 := by
    decide
  exact ⟨(hfinds 120).1 ⟨⟨100, 100, "outer"⟩, by decide, by decide⟩,
    (hfinds 150).2 ⟨⟨100, 100, "outer"⟩, by decide, by decide⟩ fun u hu => hsizeless u hu.mem hu⟩

/-- If the address lies in some function, a lookup finds a function that it lies in. -/
def FindsEnclosing (s : Segment) (entries : List (SymbolEntry × String)) (env : Env (Workshop Unit))
    (address : Int) : Prop :=
  (∃ x ∈ functionsOf entries, x.Contains (address - s.base)) →
    ∃ t ∈ functionsOf entries, t.Contains (address - s.base) ∧
      ((s.lookup Segment.echoing (some "addr2line") address).run env).1 = .ok [{ func := t.name }]

/-- Behind the mark, and behind the inner function, the outer one is not found, though the addresses
lie in it: the mark has no range, and behind the inner function nothing is found. -/
theorem lookup_misses_nesting :
    ¬ FindsEnclosing nesting nestingEntries nestingOpened 150 ∧
      ¬ FindsEnclosing nesting nestingEntries nestingOpened 180 := by
  have hsorted : sortSymbols (functionsOf nestingEntries) = functionsOf nestingEntries :=
    List.mergeSort_of_pairwise (by decide)
  have hopened : nestingOpened.world.segment? nesting.number = some {} := rfl
  have hfound : ∀ address, ((nesting.lookup Segment.echoing (some "addr2line") address).run
      nestingOpened).1 =
      .ok (Segment.symbolFrames (functionsOf nestingEntries) (address - nesting.base)) := by
    intro address
    rw [← hsorted]
    exact Segment.lookup_after_use rfl usesTable_nesting _ _ [] hopened address
  unfold FindsEnclosing
  rw [hfound, hfound]
  simp only [Except.ok.injEq]
  decide

end Symbolication.Elf
