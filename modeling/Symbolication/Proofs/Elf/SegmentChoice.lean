import Symbolication.Proofs.Elf.LoadBias
import Symbolication.Proofs.Elf.Setting

/-!
# Symbolication.Proofs.Elf.SegmentChoice

The segment that decides on the load base of a shared object.  One pass over the
segments serves two searches: the first executable segment is kept, and one that has
the offset of the mapping takes its place, wherever it stands.

* `Decides` — the segment that decides, told by where it stands among the others;
* `chooseSegment_eq_iff` — what the pass chooses is what decides;
* `chooseSegment_eq_of_apart` — where segments are apart in the file, their order does
  not matter;
* `loadBase_of_openSegment` — a segment that is opened has the base that all program headers lead
  to, though not all of them may have been read;
* `decides_loadBase` — the load base, and the object addresses that it leads to.
-/

namespace Symbolication.Elf

/-! ## the first of a list -/

/-- The entry has the property, and those before it have not. -/
def IsFirst {α : Type} (P : α → Prop) (l : List α) (a : α) : Prop :=
  ∃ before after, l = before ++ a :: after ∧ P a ∧ ∀ b ∈ before, ¬ P b

/-- A search finds the first member with a property, if its test decides the property. -/
theorem find?_eq_some_iff_isFirst {α : Type} {p : α → Bool} {P : α → Prop}
    (hp : ∀ a, p a = true ↔ P a) {l : List α} {a : α} : l.find? p = some a ↔ IsFirst P l a := by
  rw [List.find?_eq_some_iff_append, hp]
  constructor
  · rintro ⟨ha, before, after, heq, hbefore⟩
    refine ⟨before, after, heq, ha, fun b hb hPb => ?_⟩
    simpa [(hp b).mpr hPb] using hbefore b hb
  · rintro ⟨before, after, heq, ha, hbefore⟩
    refine ⟨ha, before, after, heq, fun b hb => ?_⟩
    rw [Bool.not_eq_true', Bool.eq_false_iff, ne_eq, hp]
    exact hbefore b hb

/-- A search finds nothing just if no member has the property. -/
theorem find?_eq_none_iff_forall_not {α : Type} {p : α → Bool} {P : α → Prop}
    (hp : ∀ a, p a = true ↔ P a) {l : List α} : l.find? p = none ↔ ∀ a ∈ l, ¬ P a := by
  simp only [List.find?_eq_none, hp]

/-! ## the deciding segment -/

namespace ProgramHeader

/-- The segment is to be loaded, and its part of the file has the byte at an offset. -/
def Covers (h : ProgramHeader) (offset : Int) : Prop :=
  h.isLoad = true ∧ h.Spans offset

instance (h : ProgramHeader) (offset : Int) : Decidable (h.Covers offset) :=
  inferInstanceAs (Decidable (_ ∧ _ ∧ _))

/-- The segment is to be loaded for execution. -/
def IsCode (h : ProgramHeader) : Prop :=
  h.isLoad = true ∧ h.isExecutable = true

theorem isCode_iff (h : ProgramHeader) : (h.isLoad && h.isExecutable) = true ↔ h.IsCode :=
  Bool.and_eq_true_iff

end ProgramHeader

/-- The segment that decides on the load base of a mapping at an offset, if there is one. -/
inductive Decides (offset : Int) (headers : List ProgramHeader) : Option ProgramHeader → Prop
  /-- It is the first that has the offset, whatever stands before it. -/
  | covering {h : ProgramHeader} :
      IsFirst (·.Covers offset) headers h → Decides offset headers (some h)
  /-- If none has the offset, it is the first for execution. -/
  | code {h : ProgramHeader} : (∀ g ∈ headers, ¬ g.Covers offset) →
      IsFirst ProgramHeader.IsCode headers h → Decides offset headers (some h)
  /-- If there is none for execution either, no segment decides. -/
  | neither : (∀ g ∈ headers, ¬ g.Covers offset) → (∀ g ∈ headers, ¬ g.IsCode) →
      Decides offset headers none

/-- No byte of the file, and no offset of an empty segment, belongs to two segments that are to be
loaded. -/
def AreApart (headers : List ProgramHeader) : Prop :=
  (headers.filter (·.isLoad)).Pairwise fun g h => ∀ x, ¬ (g.Spans x ∧ h.Spans x)

variable {start limit offset : Int} {headers headers' : List ProgramHeader} {h : ProgramHeader}

theorem find?_holds_eq_some_iff :
    headers.find? (·.holds offset) = some h ↔ IsFirst (·.Covers offset) headers h :=
  find?_eq_some_iff_isFirst fun _ => ProgramHeader.holds_eq_true_iff

theorem find?_holds_eq_none_iff :
    headers.find? (·.holds offset) = none ↔ ∀ g ∈ headers, ¬ g.Covers offset :=
  find?_eq_none_iff_forall_not fun _ => ProgramHeader.holds_eq_true_iff

/-- The segment that one pass chooses is the one that decides. -/
theorem chooseSegment_eq_iff {chosen : Option ProgramHeader} :
    chooseSegment offset headers = chosen ↔ Decides offset headers chosen := by
  rw [chooseSegment_eq]
  constructor
  · rintro rfl
    cases hcovering : headers.find? (·.holds offset) with
    | some h => exact .covering (find?_holds_eq_some_iff.mp hcovering)
    | none =>
        have hnot := find?_holds_eq_none_iff.mp hcovering
        rw [Option.none_or]
        cases hcode : headers.find? fun h => h.isLoad && h.isExecutable with
        | some h => exact .code hnot ((find?_eq_some_iff_isFirst (·.isCode_iff)).mp hcode)
        | none => exact .neither hnot ((find?_eq_none_iff_forall_not (·.isCode_iff)).mp hcode)
  · intro hdecides
    cases hdecides with
    | covering hfirst => rw [find?_holds_eq_some_iff.mpr hfirst, Option.some_or]
    | code hnot hfirst =>
        rw [find?_holds_eq_none_iff.mpr hnot, Option.none_or]
        exact (find?_eq_some_iff_isFirst (·.isCode_iff)).mpr hfirst
    | neither hnot hcode =>
        rw [find?_holds_eq_none_iff.mpr hnot, Option.none_or]
        exact (find?_eq_none_iff_forall_not (·.isCode_iff)).mpr hcode

/-- Where segments are apart in the file, the one that has the offset decides, in whatever order
they stand. -/
theorem chooseSegment_eq_of_apart (hapart : AreApart headers) (hmem : h ∈ headers)
    (hcovers : h.Covers offset) (hperm : headers'.Perm headers) :
    chooseSegment offset headers' = some h := by
  refine chooseSegment_eq_of_unique (hperm.mem_iff.mpr hmem)
    (ProgramHeader.holds_eq_true_iff.mpr hcovers) fun t ht hholds => ?_
  obtain ⟨htload, htspans⟩ := ProgramHeader.holds_eq_true_iff.mp hholds
  exact eq_of_pairwise_apart hapart (List.mem_filter.mpr ⟨hperm.mem_iff.mp ht, htload⟩)
    (List.mem_filter.mpr ⟨hmem, hcovers.1⟩) htspans hcovers.2

/-! ## the load base -/

/-- The load base of a mapping that has addresses follows from the chosen segment. -/
theorem loadBase_shared (hrange : ¬ (start = 0 ∧ limit = 0)) (offset : Int)
    (headers : List ProgramHeader) :
    loadBase .shared headers start limit offset =
      .ok (baseOf start offset (chooseSegment offset headers)) := by
  have hrange : ¬ (start == 0 && limit == 0) = true := by
    simpa only [Bool.and_eq_true, beq_iff_eq] using hrange
  rw [loadBase, if_neg hrange]

/-- By the base that a segment leads to, its bytes have their link-time addresses. -/
theorem objectAddress_of_baseOf {s : Segment} (hbase : s.base = baseOf start offset (some h))
    (address : Int) : s.objectAddress address = h.linkAddress (address - start + offset) := by
  simp only [Segment.objectAddress, hbase, baseOf, ProgramHeader.linkAddress]
  omega

/-- A segment of a shared object that is opened has the base that all its program headers lead to.
-/
theorem loadBase_of_openSegment {ω : Type} {files : Files ω} {number : Nat} {fast : Bool}
    {path : String} {env env' : Env ω} {s : Segment}
    (hopened : (openSegment files number fast ⟨path, start, limit, offset⟩).run env = (.ok s, env'))
    (himage : s.image.HasProgramHeaders headers) :
    loadBase .shared headers start limit offset = .ok s.base := by
  obtain ⟨-, read, hread, hbase⟩ := fields_of_openSegment hopened
  obtain ⟨read', hread', hsame⟩ := himage.loadBase_programHeaders start limit offset
  obtain rfl : read = read' := Except.ok.inj (hread.symm.trans hread')
  rwa [himage.shared, hsame] at hbase

/-- The load base of a mapping of a shared object is that of the one segment that decides: the first
that has the offset of the mapping, wherever it stands, else the first for execution; it is the
difference of address and offset if there is neither.  So where segments are apart in the file and
one of them has the offset, their order does not matter, and what lies in that segment is taken to
its link-time address.  It is by this base that the object is opened, although its program headers
are read no further than to the one that has the offset. -/
theorem decides_loadBase (hrange : ¬ (start = 0 ∧ limit = 0)) (offset : Int)
    (headers : List ProgramHeader) :
    (∃ chosen, (∀ other, Decides offset headers other ↔ other = chosen) ∧
      loadBase .shared headers start limit offset = .ok (baseOf start offset chosen)) ∧
    (∀ h ∈ headers, h.Covers offset → AreApart headers →
      ∃ base, (∀ headers', headers'.Perm headers →
          loadBase .shared headers' start limit offset = .ok base) ∧
        ∀ s : Segment, s.base = base → ∀ address, h.Spans (address - start + offset) →
          s.objectAddress address = h.linkAddress (address - start + offset)) ∧
    ∀ (ω : Type) (files : Files ω) (number : Nat) (fast : Bool) (path : String) (env env' : Env ω)
      (s : Segment), (openSegment files number fast ⟨path, start, limit, offset⟩).run env =
        (.ok s, env') → s.image.HasProgramHeaders headers →
      loadBase .shared headers start limit offset = .ok s.base := by
  refine ⟨⟨chooseSegment offset headers, fun other => ?_, loadBase_shared hrange offset headers⟩,
    fun h hmem hcovers hapart => ⟨baseOf start offset (some h), fun headers' hperm => ?_,
      fun s hbase address _ => objectAddress_of_baseOf hbase address⟩,
    fun ω files number fast path env env' s hopened => loadBase_of_openSegment hopened⟩
  · rw [← chooseSegment_eq_iff, eq_comm]
  · rw [loadBase_shared hrange, chooseSegment_eq_of_apart hapart hmem hcovers hperm]

/-- The data of an object, linked two pages behind its place in the file. -/
def dataSegment : ProgramHeader :=
  { type := 1, offset := 0x2000, address := 0x4000, fileSize := 0x400, flags := 6 }

/-- Code, a note in the data that is not loaded by itself, and the data. -/
def dataBehindCode : List ProgramHeader :=
  [{ type := 1, offset := 0x1000, address := 0x1000, fileSize := 0x800, flags := 5 },
   { type := 4, offset := 0x2000, address := 0x4000, fileSize := 0x40, flags := 4 },
   dataSegment]

/-- The two segments, data behind code, do not overlap. -/
theorem areApart_dataBehindCode : AreApart dataBehindCode := by
  have hload : dataBehindCode.filter (·.isLoad) =
      [{ type := 1, offset := 0x1000, address := 0x1000, fileSize := 0x800, flags := 5 },
       dataSegment] := rfl
  rw [AreApart, hload]
  refine List.pairwise_pair.mpr fun x ⟨⟨_, hlt⟩, hle, _⟩ => ?_
  exact absurd (Int.lt_of_le_of_lt hle hlt) (by decide)

/-- The data decides for a mapping of its page, although code stands before it. -/
theorem decides_loadBase_dataBehindCode :
    loadBase .shared dataBehindCode 0x14000 0x15000 0x2000 = .ok 0x10000 ∧
    loadBase .shared dataBehindCode.reverse 0x14000 0x15000 0x2000 = .ok 0x10000 ∧
    ∀ s : Segment, s.base = 0x10000 → s.objectAddress 0x14010 = 0x4010 := by
  have hrange : ¬ ((0x14000 : Int) = 0 ∧ (0x15000 : Int) = 0) := by decide
  obtain ⟨⟨chosen, hchosen, hbase⟩, hordered, -⟩ := decides_loadBase hrange 0x2000 dataBehindCode
  have hdecides : Decides 0x2000 dataBehindCode (some dataSegment) :=
    .covering ⟨dataBehindCode.take 2, [], rfl, by decide, by decide⟩
  obtain rfl := (hchosen _).mp hdecides
  obtain ⟨base, hperm, haddress⟩ :=
    hordered dataSegment (by decide) (by decide) areApart_dataBehindCode
  obtain rfl : base = 0x10000 := Except.ok.inj ((hperm _ (.refl _)).symm.trans hbase)
  exact ⟨hbase, hperm _ (List.reverse_perm _), fun s hs =>
    haddress s hs 0x14010 ⟨by decide, by decide⟩⟩

end Symbolication.Elf
