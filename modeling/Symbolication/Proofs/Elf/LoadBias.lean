import Mathlib.Data.List.Pairwise
import Symbolication.Elf.LoadBase

/-!
# Symbolication.Proofs.Elf.LoadBias

Load bases and what a loader adds to link-time addresses.  A loader maps whole pages, so
a mapping begins up to a page before its segment, in the file as well as in memory, and
the part of the file before the segment may belong to another one.

* `ProgramHeader.slide` — how far a segment is moved from the file into memory;
* `IsLoadedAt` — the mapping that a loader makes for a segment;
* `chooseSegment_eq_of_unique` — a segment that alone holds the offset is chosen;
* `chooseSegment_eq_self` — the segment that a mapping is taken to show, where it begins on a page;
* `recovers_loadBase_iff` — the load base is what the loader added exactly if the chosen
  segment is moved as far as the loaded one.
-/

namespace Symbolication.Elf

/-! ## segments -/

namespace ProgramHeader

/-- How far the segment is moved from its place in the file to its link-time address. -/
def slide (h : ProgramHeader) : Int :=
  h.address - h.offset

/-- The segment's part of the file has the byte at an offset. -/
def Shows (h : ProgramHeader) (offset : Int) : Prop :=
  h.offset ≤ offset ∧ offset < h.offset + h.fileSize

/-- The segment's part of the file, taken to have at least one byte, has the one at an offset. -/
def Spans (h : ProgramHeader) (offset : Int) : Prop :=
  h.offset ≤ offset ∧ offset < h.offset + max h.fileSize 1

/-- The link-time address of the byte at an offset of the file. -/
def linkAddress (h : ProgramHeader) (offset : Int) : Int :=
  h.address + (offset - h.offset)

/-- A header holds an offset if it is loaded and spans it. -/
theorem holds_eq_true_iff {h : ProgramHeader} {offset : Int} :
    h.holds offset = true ↔ h.isLoad = true ∧ h.Spans offset := by
  simp [holds, Spans, and_assoc]

end ProgramHeader

/-- What shares something with another entry of a list is that entry, if no two entries share
anything. -/
theorem eq_of_pairwise_apart {α β : Type} {P : α → β → Prop} {l : List α}
    (h : l.Pairwise fun a b => ∀ x, ¬ (P a x ∧ P b x)) {a b : α} (ha : a ∈ l) (hb : b ∈ l) {x : β}
    (hax : P a x) (hbx : P b x) : a = b := by
  by_contra hne
  have : Std.Symm fun a b : α => ∀ x, ¬ (P a x ∧ P b x) := ⟨fun _ _ h x hx => h x hx.symm⟩
  exact h.forall ha hb hne x ⟨hax, hbx⟩

/-- Segments as a linker lays them out for pages of a size: what is loaded lies in the file as it
lies in memory, up to whole pages, and no byte of the file is loaded twice. -/
structure IsLaidOut (page : Int) (headers : List ProgramHeader) : Prop where
  aligned : ∀ h ∈ headers, h.isLoad = true → h.offset % page = h.address % page
  disjoint : (headers.filter (·.isLoad)).Pairwise fun g h => ∀ x, ¬ (g.Shows x ∧ h.Shows x)

/-- The beginning of the page with an address, or an offset. -/
def pageStart (page x : Int) : Int :=
  x - x % page

/-- The mapping that a loader makes for a segment, with a bias added to all link-time addresses. -/
structure IsLoadedAt (page bias : Int) (s : ProgramHeader) (start limit offset : Int) : Prop where
  start_eq : start = pageStart page (bias + s.address)
  offset_eq : offset = pageStart page s.offset
  start_lt : start < limit

variable {page bias start limit offset : Int} {headers : List ProgramHeader} {s t : ProgramHeader}

/-- A bias of whole pages moves pages as they are. -/
theorem pageStart_add (hbias : page ∣ bias) (x : Int) :
    pageStart page (bias + x) = bias + pageStart page x := by
  have hmod : (bias + x) % page = x % page := by
    rw [Int.add_emod, Int.emod_eq_zero_of_dvd hbias, Int.zero_add, Int.emod_emod]
  unfold pageStart
  omega

/-- An address at the start of a page is the start of its page. -/
theorem pageStart_of_dvd {x : Int} (h : page ∣ x) : pageStart page x = x := by
  simp [pageStart, Int.emod_eq_zero_of_dvd h]

/-- The beginnings of a mapping in memory and in the file differ by the bias and the slide. -/
theorem start_sub_offset (halign : s.offset % page = s.address % page) (hbias : page ∣ bias)
    (hloaded : IsLoadedAt page bias s start limit offset) : start - offset = bias + s.slide := by
  rw [hloaded.start_eq, hloaded.offset_eq, pageStart_add hbias]
  unfold pageStart ProgramHeader.slide
  omega

/-! ## the chosen segment -/

/-- The chosen segment is one to be loaded. -/
theorem chooseSegment_mem (h : chooseSegment offset headers = some t) :
    t ∈ headers ∧ t.isLoad = true := by
  rw [chooseSegment_eq, Option.or_eq_some_iff] at h
  obtain hfound | ⟨-, hfound⟩ := h
  · have hholds := List.find?_some hfound
    exact ⟨List.mem_of_find?_eq_some hfound, (ProgramHeader.holds_eq_true_iff.mp hholds).1⟩
  · have hexec := List.find?_some hfound
    exact ⟨List.mem_of_find?_eq_some hfound, (Bool.and_eq_true_iff.mp hexec).1⟩

/-- A segment is chosen if one may be executed. -/
theorem chooseSegment_isSome (hmem : s ∈ headers) (hload : s.isLoad = true)
    (hexec : s.isExecutable = true) (offset : Int) :
    ∃ t, chooseSegment offset headers = some t := by
  rw [← Option.isSome_iff_exists, chooseSegment_eq, Option.isSome_or]
  have hfound : (headers.find? fun h => h.isLoad && h.isExecutable).isSome = true := by
    refine List.find?_isSome.mpr ⟨s, hmem, ?_⟩
    rw [hload, hexec]
    rfl
  rw [hfound, Bool.or_true]

/-- A segment that holds the offset is chosen if no other one does. -/
theorem chooseSegment_eq_of_unique (hmem : s ∈ headers) (hholds : s.holds offset = true)
    (hunique : ∀ t ∈ headers, t.holds offset = true → t = s) :
    chooseSegment offset headers = some s := by
  cases hfound : headers.find? (·.holds offset) with
  | none => exact absurd hholds (List.find?_eq_none.mp hfound s hmem)
  | some t =>
      have ht := List.find?_some hfound
      rw [chooseSegment_eq, hfound, Option.some_or,
        hunique t (List.mem_of_find?_eq_some hfound) ht]

/-- Where a segment begins, it is the chosen one, unless an empty one is there. -/
theorem chooseSegment_eq_self (hlaid : IsLaidOut page headers) (hmem : s ∈ headers)
    (hload : s.isLoad = true) (hsize : 0 < s.fileSize)
    (hempty : ∀ h ∈ headers, h.isLoad = true → h.offset = s.offset → 0 < h.fileSize) :
    chooseSegment s.offset headers = some s := by
  refine chooseSegment_eq_of_unique hmem ?_ fun t ht hholds => ?_
  · refine ProgramHeader.holds_eq_true_iff.mpr ⟨hload, Int.le_refl _, ?_⟩
    omega
  · obtain ⟨htload, hle, hlt⟩ := ProgramHeader.holds_eq_true_iff.mp hholds
    have hshows : t.Shows s.offset := by
      by_cases hsame : t.offset = s.offset
      · have := hempty t ht htload hsame
        exact ⟨hle, by omega⟩
      · exact ⟨hle, by omega⟩
    have hself : s.Shows s.offset := ⟨Int.le_refl _, by omega⟩
    exact eq_of_pairwise_apart hlaid.disjoint (List.mem_filter.mpr ⟨ht, htload⟩)
      (List.mem_filter.mpr ⟨hmem, hload⟩) hshows hself

/-- The segments are read up to the first that holds the offset, or all of them. -/
theorem programHeadersFrom_of_segments {image : Image} (offset : Int) (index : Nat)
    (h : ∀ i (hi : i < headers.length), image.segment (index + i) = .ok headers[i]) :
    ∃ read, image.programHeadersFrom offset index headers.length = .ok read ∧
      read.find? (·.holds offset) = headers.find? (·.holds offset) ∧
      (headers.find? (·.holds offset) = none → read = headers) := by
  induction headers generalizing index with
  | nil => exact ⟨[], rfl, rfl, fun _ => rfl⟩
  | cons first rest ih =>
      have hfirst : image.segment index = .ok first := h 0 (by simp)
      have hrest : ∀ i (hi : i < rest.length), image.segment (index + 1 + i) = .ok rest[i] := by
        intro i hi
        have hnext := h (i + 1) (by simpa using hi)
        rwa [Nat.add_assoc, Nat.add_comm 1 i]
      rw [List.length_cons, Image.programHeadersFrom, hfirst]
      cases hholds : first.holds offset with
      | true => exact ⟨[first], by simp [bind, Except.bind, hholds, pure, Except.pure],
          by simp [hholds], by simp [hholds]⟩
      | false =>
          obtain ⟨read, hread, hfound, hall⟩ := ih (index + 1) hrest
          refine ⟨first :: read, ?_, ?_, ?_⟩
          · simp [bind, Except.bind, hholds, hread, pure, Except.pure]
          · simp only [List.find?_cons, hholds, hfound]
          · simp only [List.find?_cons, hholds]
            exact fun hnone => congrArg (first :: ·) (hall hnone)

/-- The image is that of a shared object, and these are its program headers. -/
structure Image.HasProgramHeaders (image : Image) (headers : List ProgramHeader) : Prop where
  shared : image.header.type = .shared
  count : image.programCount = .ok headers.length
  segment : ∀ i (hi : i < headers.length), image.segment i = .ok headers[i]

/-- What is read of the segments of a shared object leads to the choice that all of them lead to. -/
theorem Image.HasProgramHeaders.loadBase_programHeaders {image : Image}
    (h : image.HasProgramHeaders headers) (start limit offset : Int) :
    ∃ read, image.programHeaders start limit offset = .ok read ∧
      loadBase .shared read start limit offset = loadBase .shared headers start limit offset := by
  unfold Image.programHeaders
  rw [h.shared, h.count]
  by_cases hrange : (start == 0 && limit == 0) = true
  · rw [hrange]
    exact ⟨[], rfl, by simp [loadBase, hrange]⟩
  · obtain ⟨read, hread, hfound, hall⟩ := programHeadersFrom_of_segments offset 0
      (by simpa using h.segment)
    have hchosen : chooseSegment offset read = chooseSegment offset headers := by
      rw [chooseSegment_eq, chooseSegment_eq, hfound]
      cases hnone : headers.find? (·.holds offset) with
      | some found => rfl
      | none => rw [hall hnone]
    refine ⟨read, ?_, by simp only [loadBase, hchosen]⟩
    rw [Bool.eq_false_iff.mpr hrange]
    exact hread

/-! ## the load base -/

/-- The load base of the mapping that a loader makes for a segment of a shared object. -/
theorem loadBase_of_isLoadedAt (halign : s.offset % page = s.address % page) (hbias : page ∣ bias)
    (hloaded : IsLoadedAt page bias s start limit offset)
    (hchosen : chooseSegment offset headers = some t) :
    loadBase .shared headers start limit offset = .ok (bias + s.slide - t.slide) := by
  have hlt := hloaded.start_lt
  have hrange : ¬ (start == 0 && limit == 0) = true := by
    simp only [Bool.and_eq_true, beq_iff_eq]
    omega
  have hstart := start_sub_offset halign hbias hloaded
  have hbase : baseOf start offset (some t) = bias + s.slide - t.slide := by
    simp only [baseOf, ProgramHeader.slide] at hstart ⊢
    omega
  unfold loadBase
  rw [if_neg hrange, hchosen, hbase]

/-- For the mapping that a loader makes for an executable segment of a shared object, the load base
is off by the difference of two slides, that of the loaded segment and that of the chosen one.  So
addresses become link-time addresses exactly if both are the same, as they are if the segment begins
on a page, unless an empty segment is there. -/
theorem recovers_loadBase_iff (hlaid : IsLaidOut page headers) (hmem : s ∈ headers)
    (hload : s.isLoad = true) (hexec : s.isExecutable = true) (hsize : 0 < s.fileSize)
    (hbias : page ∣ bias) (hloaded : IsLoadedAt page bias s start limit offset) :
    ∃ t, chooseSegment offset headers = some t ∧ t ∈ headers ∧ t.isLoad = true ∧
      (∀ base, loadBase .shared headers start limit offset = .ok base ↔
        base = bias + s.slide - t.slide) ∧
      (loadBase .shared headers start limit offset = .ok bias ↔ t.slide = s.slide) ∧
      (∀ base, loadBase .shared headers start limit offset = .ok base →
        ∀ address, address - base = s.linkAddress (offset + (address - start)) ↔
          t.slide = s.slide) ∧
      (page ∣ s.offset → (∀ h ∈ headers, h.isLoad = true → h.offset = s.offset → 0 < h.fileSize) →
        loadBase .shared headers start limit offset = .ok bias) := by
  have halign := hlaid.aligned s hmem hload
  obtain ⟨t, hchosen⟩ := chooseSegment_isSome hmem hload hexec offset
  obtain ⟨ht, htload⟩ := chooseSegment_mem hchosen
  have hbase := loadBase_of_isLoadedAt halign hbias hloaded hchosen
  have hiff : ∀ base, loadBase .shared headers start limit offset = .ok base ↔
      base = bias + s.slide - t.slide := by
    intro base
    rw [hbase, Except.ok.injEq, eq_comm]
  refine ⟨t, hchosen, ht, htload, hiff, ?_, fun base h address => ?_, fun hpage hempty => ?_⟩
  · rw [hiff]
    omega
  · have hstart := start_sub_offset halign hbias hloaded
    rw [hiff] at h
    unfold ProgramHeader.linkAddress
    unfold ProgramHeader.slide at *
    omega
  · have hself := chooseSegment_eq_self hlaid hmem hload hsize hempty
    rw [hloaded.offset_eq, pageStart_of_dvd hpage, hself] at hchosen
    cases hchosen
    rw [hiff]
    omega

/-- A part of an object to be read only, and behind it in the file the code, which is linked a page
further on. -/
def adjacent : List ProgramHeader :=
  [{ type := 1, offset := 0, address := 0, fileSize := 0x1100, flags := 4 },
   { type := 1, offset := 0x1100, address := 0x2100, fileSize := 0x500, flags := 5 }]

/-- The adjacent segments are laid out as a linker does. -/
theorem isLaidOut_adjacent : IsLaidOut 0x1000 adjacent where
  aligned := by decide
  disjoint := by
    have hall : adjacent.filter (·.isLoad) = adjacent := rfl
    rw [hall]
    refine List.pairwise_pair.mpr fun x ⟨⟨_, hlt⟩, hle, _⟩ => ?_
    exact absurd (Int.lt_of_le_of_lt hle hlt) (by decide)

/-- The page of the code begins in the part before it, so the base is a page off. -/
theorem recovers_loadBase_iff_adjacent :
    loadBase .shared adjacent 0x12000 0x13000 0x1000 = .ok 0x11000 := by
  have hloaded : IsLoadedAt 0x1000 0x10000
      { type := 1, offset := 0x1100, address := 0x2100, fileSize := 0x500, flags := 5 }
      0x12000 0x13000 0x1000 :=
    ⟨rfl, rfl, by decide⟩
  obtain ⟨t, hchosen, -, -, hbase, -⟩ := recovers_loadBase_iff isLaidOut_adjacent (by decide) rfl
    rfl (by decide) (by decide) hloaded
  cases hchosen
  exact (hbase 0x11000).mpr rfl

/-- The load base of a loaded segment is not always what the loader added. -/
theorem loadBase_ne_bias : ¬ ∀ (page bias start limit offset : Int) (headers : List ProgramHeader)
    (s : ProgramHeader), IsLaidOut page headers → s ∈ headers → s.isLoad = true →
    s.isExecutable = true → s.fileSize ≠ 0 → 0 < bias → page ∣ bias →
    IsLoadedAt page bias s start limit offset →
    loadBase .shared headers start limit offset = .ok bias := by
  intro h
  have hbase := h 0x1000 0x10000 0x12000 0x13000 0x1000 adjacent
    { type := 1, offset := 0x1100, address := 0x2100, fileSize := 0x500, flags := 5 }
    isLaidOut_adjacent (by decide) rfl rfl (by decide) (by decide) (by decide)
    ⟨rfl, rfl, by decide⟩
  exact absurd (Except.ok.inj hbase) (by decide)

end Symbolication.Elf
