import Mathlib.Data.List.Forall2
import Symbolication.Proofs.Profile.Interning

/-!
# Symbolication.Proofs.Profile.Resolution

What a profile is when frames have been entered into it.  `ProfileOf.Resolved` says it
without the pool: which locations have other lines and which, what the functions are
that stand behind the old ones, and what is known of each mapping.

* `ProfileOf.Resolved` — the profile in terms of what was found;
* `mem_stacksIn_iff` — the stacks that count for a mapping;
* `resolved_resolve` — entering frames leads to it, and to nothing else.
-/

namespace Symbolication

variable {τ : Type}

namespace ProfileOf

/-- The stack was found for a location in the mapping at a position, and is not empty. -/
def FoundIn (p : ProfileOf τ) (found : List (List Frame)) (i : Nat) (frames : List Frame) : Prop :=
  frames ≠ [] ∧
    ∃ (k : Nat) (l : Location), p.locations[k]? = some l ∧ l.mapping = some i ∧
      found[k]? = some frames

/-- The frame was found for a location of the profile, whose line for it is `line`. -/
def HasLineFor (q : ProfileOf τ) (found : List (List Frame)) (f : Frame) (line : Line) : Prop :=
  ∃ (k j : Nat) (frames : List Frame) (l : Location), found[k]? = some frames ∧
    frames[j]? = some f ∧ q.locations[k]? = some l ∧ l.lines[j]? = some line

/-- The line shows the frame: the same source line, and one of the functions that stand behind the
first `old`, with the name of the frame as both names and with its file. -/
def Shows [Label τ] (q : ProfileOf τ) (old : Nat) (f : Frame) (line : Line) : Prop :=
  line.line = f.line ∧ old ≤ line.function ∧
    ∃ fn, q.functions[line.function]? = some fn ∧ fn.name = Label.ofText f.func ∧
      fn.systemName = Label.ofText f.func ∧ fn.filename = Label.ofText f.file

end ProfileOf

/-- The mapping `m'` is `m` with what the stacks found in it show. -/
structure MappingOf.Learns (m m' : MappingOf τ) (stack : List Frame → Prop) : Prop where
  same : m' = { m with
    hasFunctions := m'.hasFunctions, hasFilenames := m'.hasFilenames
    hasLineNumbers := m'.hasLineNumbers, hasInlineFrames := m'.hasInlineFrames }
  hasFunctions : m'.hasFunctions = true ↔
    m.hasFunctions = true ∨ ∃ frames, stack frames ∧ ∃ f ∈ frames, f.func ≠ ""
  hasFilenames : m'.hasFilenames = true ↔
    m.hasFilenames = true ∨ ∃ frames, stack frames ∧ ∃ f ∈ frames, f.file ≠ ""
  hasLineNumbers : m'.hasLineNumbers = true ↔
    m.hasLineNumbers = true ∨ ∃ frames, stack frames ∧ ∃ f ∈ frames, f.line ≠ 0
  hasInlineFrames : m'.hasInlineFrames = true ↔
    m.hasInlineFrames = true ∨ ∃ frames, stack frames

/-- The profile `q` is `p` with the stacks of frames found for its locations. -/
structure ProfileOf.Resolved [Label τ] (p : ProfileOf τ) (found : List (List Frame))
    (q : ProfileOf τ) : Prop where
  /-- Behind the functions of `p` stand those of the frames, each once, in the order in which they
  first appear; their ids go on from the greatest one, or from zero if there is none. -/
  functions : q.functions = p.functions ++
    (found.flatten.map Frame.identity).eraseDups.mapIdx fun n identity =>
      identity.withId ((p.functions.map (·.id)).max?.getD 0 + 1 + n)
  /-- There is one stack for each location, which may be empty. -/
  length_found : found.length = p.locations.length
  /-- There are no other locations. -/
  length_locations : q.locations.length = p.locations.length
  /-- A location for which nothing was found is what it was. -/
  kept : ∀ (k : Nat) (l : Location), p.locations[k]? = some l → found[k]? = some [] →
    q.locations[k]? = some l
  /-- Any other location has one line for each frame, in their order, and is otherwise what it
  was. -/
  entered : ∀ (k : Nat) (l : Location) (frames : List Frame), p.locations[k]? = some l →
    found[k]? = some frames → frames ≠ [] →
      ∃ lines, q.locations[k]? = some { l with lines } ∧
        List.Forall₂ (q.Shows p.functions.length) frames lines
  /-- Two of these lines have the same function exactly if the frames agree in name and file. -/
  shared : ∀ f line f' line', q.HasLineFor found f line → q.HasLineFor found f' line' →
    (line.function = line'.function ↔ f.func = f'.func ∧ f.file = f'.file)
  /-- There are no other mappings. -/
  length_mappings : q.mappings.length = p.mappings.length
  /-- A mapping has been given the flags that the stacks found in it account for, and is otherwise
  what it was. -/
  learnt : ∀ (i : Nat) (m : MappingOf τ), p.mappings[i]? = some m →
    ∃ m', q.mappings[i]? = some m' ∧ m.Learns m' (p.FoundIn found i)

/-! ## mappings -/

/-- The stacks in a mapping are those found for its locations. -/
theorem mem_stacksIn_iff {p : ProfileOf τ} {found : List (List Frame)} {i : Nat}
    {frames : List Frame} : frames ∈ p.stacksIn found i ↔ p.FoundIn found i frames := by
  simp only [ProfileOf.stacksIn, List.mem_filterMap, ProfileOf.FoundIn]
  constructor
  · intro h
    obtain ⟨⟨l, stack⟩, hmem, hsome⟩ := h
    obtain ⟨k, hk⟩ := List.mem_iff_getElem?.mp hmem
    rw [List.getElem?_zip_eq_some] at hk
    split at hsome
    · rename_i hcond
      rw [Bool.and_eq_true] at hcond
      rw [← Option.some.inj hsome]
      exact ⟨by simpa using hcond.2, k, l, hk.1, by simpa using hcond.1, hk.2⟩
    · simp at hsome
  · intro h
    obtain ⟨hne, k, l, hl, hmapping, hfound⟩ := h
    refine ⟨(l, frames), ?_, ?_⟩
    · rw [List.mem_iff_getElem?]
      exact ⟨k, List.getElem?_zip_eq_some.mpr ⟨hl, hfound⟩⟩
    · simp [hmapping, hne]

/-- A mapping learns what the stacks found in it tell. -/
theorem learns_withStacks (m : MappingOf τ) {found : List (List Frame)}
    {stack : List Frame → Prop} (h : ∀ frames, frames ∈ found ↔ stack frames) :
    m.Learns (m.withStacks found) stack where
  same := rfl
  hasFunctions := by simp [MappingOf.withStacks, h]
  hasFilenames := by simp [MappingOf.withStacks, h]
  hasLineNumbers := by simp [MappingOf.withStacks, h]
  hasInlineFrames := by
    have hsome : found ≠ [] ↔ ∃ frames, stack frames := by
      rw [← List.isEmpty_eq_false_iff, List.isEmpty_eq_false_iff_exists_mem]
      simp only [h]
    simp [MappingOf.withStacks, ← hsome]

/-! ## entering nothing -/

/-- Empty stacks change neither the pool nor the locations. -/
theorem enterStacks_nil (pool : FunctionPool τ) (locations : List Location)
    {found : List (List Frame)} (h : ∀ frames ∈ found, frames = []) :
    enterStacks pool locations found = (pool, locations) := by
  induction locations generalizing found with
  | nil => cases found <;> rfl
  | cons l rest ih =>
      cases found with
      | nil => rfl
      | cons frames found =>
          obtain ⟨rfl, hrest⟩ := List.forall_mem_cons.mp h
          simp only [enterStacks, List.isEmpty_nil, if_true, ih hrest]

/-- A mapping in which nothing was found is left as it is. -/
theorem withStacks_nil (m : MappingOf τ) : m.withStacks [] = m := by
  simp [MappingOf.withStacks]

/-- A profile into which nothing is entered stays what it is. -/
theorem resolve_nil [Label τ] (p : ProfileOf τ) {found : List (List Frame)}
    (h : ∀ frames ∈ found, frames = []) : p.resolve found = p := by
  have hstacks (i : Nat) : p.stacksIn found i = [] := by
    rw [ProfileOf.stacksIn, List.filterMap_eq_nil_iff]
    rintro ⟨l, frames⟩ hmem
    rw [h frames (List.of_mem_zip hmem).2]
    simp
  have hpool : ({ old := p.functions } : FunctionPool τ).functions = p.functions :=
    List.append_nil _
  have hmappings : (p.mappings.mapIdx fun _ m => m) = p.mappings :=
    List.ext_getElem? fun i => by simp
  simp only [ProfileOf.resolve, enterStacks_nil _ p.locations h, hstacks, withStacks_nil, hpool,
    hmappings]

/-! ## the pool -/

/-- The pool of a pass that has found frames. -/
def ProfileOf.poolFor (p : ProfileOf τ) (found : List (List Frame)) : FunctionPool τ :=
  .internAll { old := p.functions } (found.flatten.map Frame.identity)

/-- The old functions of the pool are those of the profile. -/
theorem old_poolFor (p : ProfileOf τ) (found : List (List Frame)) :
    (p.poolFor found).old = p.functions :=
  (FunctionPool.extends_internAll _ _).old_eq

/-- Every frame that was found has its function in the pool. -/
theorem mem_added_poolFor (p : ProfileOf τ) {found : List (List Frame)} {k : Nat}
    {frames : List Frame} (hfound : found[k]? = some frames) {f : Frame} (hf : f ∈ frames) :
    f.identity ∈ (p.poolFor found).added := by
  have hmem : f ∈ found.flatten := List.mem_flatten_of_mem (List.mem_of_getElem? hfound) hf
  exact FunctionPool.mem_added_internAll _ (List.mem_map_of_mem hmem)

variable [Label τ]

/-- The functions of the resolved profile are those of the pool. -/
theorem functions_resolve (p : ProfileOf τ) {found : List (List Frame)}
    (hlength : found.length = p.locations.length) :
    (p.resolve found).functions = (p.poolFor found).functions := by
  rw [ProfileOf.poolFor, ← enterStacks_fst _ hlength]
  rfl

/-! ## lines -/

/-- Each location of the resolved profile has the lines of its own frames. -/
theorem locations_resolve (p : ProfileOf τ) {found : List (List Frame)}
    (hlength : found.length = p.locations.length) :
    (p.resolve found).locations =
      List.zipWith (fun l frames => l.withFrames (p.poolFor found) frames) p.locations found := by
  have hpool := enterStacks_fst { old := p.functions } hlength
  refine enterStacks_eq hlength ?_
  rw [hpool]
  exact .refl _

/-- The location at a position is resolved with the frames found at that position. -/
theorem getElem?_resolve {p : ProfileOf τ} {found : List (List Frame)}
    (hlength : found.length = p.locations.length) {k : Nat} {l : Location} {frames : List Frame}
    (hl : p.locations[k]? = some l) (hfound : found[k]? = some frames) :
    (p.resolve found).locations[k]? = some (l.withFrames (p.poolFor found) frames) := by
  rw [locations_resolve p hlength, List.getElem?_zipWith, hl, hfound]

/-- The line for a frame shows it. -/
theorem shows_lineOf {p q : ProfileOf τ} {pool : FunctionPool τ}
    (hold : pool.old = p.functions) (hq : q.functions = pool.functions) {f : Frame}
    (hf : f.identity ∈ pool.added) : q.Shows p.functions.length f (pool.lineOf f) := by
  have hget := FunctionPool.getElem?_positionOf hf
  rw [← hq] at hget
  have hle : p.functions.length ≤ pool.positionOf f.identity := by
    rw [← hold]
    exact Nat.le_add_right ..
  exact ⟨rfl, hle, _, hget, rfl, rfl, rfl⟩

/-- The line that a location has for a frame is the one that the pool has for it. -/
theorem eq_lineOf_of_hasLineFor {p : ProfileOf τ} {found : List (List Frame)}
    (hlength : found.length = p.locations.length) {f : Frame} {line : Line}
    (h : (p.resolve found).HasLineFor found f line) :
    f.identity ∈ (p.poolFor found).added ∧ line = (p.poolFor found).lineOf f := by
  obtain ⟨k, j, frames, l', hfound, hf, hl', hline⟩ := h
  have hmem := List.mem_of_getElem? hf
  have hne : ¬ frames.isEmpty = true := by
    rw [List.isEmpty_iff]
    exact List.ne_nil_of_mem hmem
  have hk : k < p.locations.length := by
    rw [← hlength]
    exact (List.getElem?_eq_some_iff.mp hfound).1
  have hl := getElem?_resolve hlength (List.getElem?_eq_getElem hk) hfound
  rw [hl', Option.some.injEq, Location.withFrames, if_neg hne] at hl
  rw [hl, List.getElem?_map, hf, Option.map_some, Option.some.injEq] at hline
  exact ⟨mem_added_poolFor p hfound hmem, hline.symm⟩

/-! ## the profile -/

/-- What entering frames leads to. -/
theorem resolved_resolve (p : ProfileOf τ) {found : List (List Frame)}
    (hlength : found.length = p.locations.length) : p.Resolved found (p.resolve found) where
  functions := by
    rw [functions_resolve p hlength, ProfileOf.poolFor, FunctionPool.functions_internAll_old]
  length_found := hlength
  length_locations := by
    rw [locations_resolve p hlength, List.length_zipWith, hlength, Nat.min_self]
  kept k l hl hfound := getElem?_resolve hlength hl hfound
  entered := by
    intro k l frames hl hfound hne
    have hnot : ¬ frames.isEmpty = true := by simpa using hne
    have hget := getElem?_resolve hlength hl hfound
    rw [Location.withFrames, if_neg hnot] at hget
    refine ⟨_, hget, ?_⟩
    rw [List.forall₂_map_right_iff, List.forall₂_same]
    intro f hf
    exact shows_lineOf (old_poolFor p found) (functions_resolve p hlength)
      (mem_added_poolFor p hfound hf)
  shared := by
    intro f line f' line' h h'
    obtain ⟨hf, rfl⟩ := eq_lineOf_of_hasLineFor hlength h
    obtain ⟨-, rfl⟩ := eq_lineOf_of_hasLineFor hlength h'
    rw [← Frame.identity_inj]
    exact FunctionPool.positionOf_inj hf
  length_mappings := by simp [ProfileOf.resolve]
  learnt := by
    intro i m hm
    refine ⟨m.withStacks (p.stacksIn found i), ?_, learns_withStacks m fun _ => mem_stacksIn_iff⟩
    simp [ProfileOf.resolve, hm]

end Symbolication
