import Symbolication.Proofs.Frame.Listing
import Symbolication.Proofs.Number.Numeral

/-!
# Symbolication.Proofs.Frame.Printing

Frames as a tool prints them are read back.  `Prints` says how blocks of frames are printed: an
address line for each block, and two lines for each frame, its function and its place.  Files
may have colons, digits and whatever else looks like the end of a place in their names, for a line
number stands behind the last colon:

* `IsName`, `IsLineNumber`, `IsDiscriminatorSuffix` — what the lines are made of;
* `splitPlace?_append` — a place is cut at its last colon;
* `readFrame_of_isPlace`, `readPairs_of_printsFrames` — frames;
* `exists_sections` — address lines are told from the others;
* `ofListing_of_prints` — the blocks.
-/

namespace Symbolication

open Number Text

namespace Listing

/-! ## printed frames -/

/-- The name as listings have it. -/
def shownName (s : String) : List Char :=
  if s = "" then unknown else s.toList

/-- The text neither begins nor ends with white space. -/
structure IsTrimmed (s : List Char) : Prop where
  head : ∀ c ∈ s.head?, isBlank c = false
  last : ∀ c ∈ s.getLast?, isBlank c = false

/-- A listing may have the name on a line of its own. -/
structure IsName (s : String) : Prop where
  unbroken : ∀ c ∈ s.toList, isLineBreak c = false
  trimmed : IsTrimmed s.toList
  known : s ≠ "??"

instance (s : List Char) : Decidable (IsTrimmed s) :=
  decidable_of_iff (s.head?.all (!isBlank ·) = true ∧ s.getLast?.all (!isBlank ·) = true) <| by
    simp only [Option.all_eq_true, Bool.not_eq_true']
    exact ⟨fun ⟨hhead, hlast⟩ => ⟨hhead, hlast⟩, fun ⟨hhead, hlast⟩ => ⟨hhead, hlast⟩⟩

instance (s : String) : Decidable (IsName s) :=
  decidable_of_iff (s.toList.all (!isLineBreak ·) = true ∧ IsTrimmed s.toList ∧ s ≠ "??") <| by
    simp only [List.all_eq_true, Bool.not_eq_true']
    exact ⟨fun ⟨hunbroken, htrimmed, hknown⟩ => ⟨hunbroken, htrimmed, hknown⟩,
      fun ⟨hunbroken, htrimmed, hknown⟩ => ⟨hunbroken, htrimmed, hknown⟩⟩

/-- The text is an address as listings have it, with any number of zeros in front. -/
def IsHeader (address : Nat) (line : List Char) : Prop :=
  ∃ zeros digits, line = '0' :: 'x' :: (List.replicate zeros '0' ++ digits) ∧
    AreDigits 16 address digits

/-- The text looks like an address line. -/
def LooksLikeHeader (line : List Char) : Prop :=
  ∃ digits, line = '0' :: 'x' :: digits ∧ digits ≠ [] ∧ ∀ c ∈ digits, isHexDigit c = true

/-- The text is the line number.  Where it is not known there may be a question mark. -/
inductive IsLineNumber : Int → List Char → Prop
  | decimal (n : Nat) (hlimit : (Nat.toDigits 10 n).length ≤ digitLimit) :
      IsLineNumber n (Nat.toDigits 10 n)
  | unknown : IsLineNumber 0 ['?']

/-- The text is a discriminator behind a line number, or nothing. -/
inductive IsDiscriminatorSuffix : List Char → Prop
  | none : IsDiscriminatorSuffix []
  | discriminator (n : Nat) :
      IsDiscriminatorSuffix (" (discriminator ".toList ++ (Nat.toDigits 10 n ++ [')']))

/-- The text is the place of a frame. -/
def IsPlace (f : Frame) (place : List Char) : Prop :=
  ∃ number suffix, IsLineNumber f.line number ∧ IsDiscriminatorSuffix suffix ∧
    place = shownName f.file ++ ':' :: (number ++ suffix)

/-- The lines are those of the frames, two for each of them. -/
inductive PrintsFrames : List Frame → List (List Char) → Prop
  | nil : PrintsFrames [] []
  | cons {f : Frame} {frames : List Frame} {place : List Char} {lines : List (List Char)}
      (hfunc : IsName f.func) (hfile : IsName f.file) (hheader : ¬ LooksLikeHeader f.func.toList)
      (hplace : IsPlace f place) (h : PrintsFrames frames lines) :
      PrintsFrames (f :: frames) (shownName f.func :: place :: lines)

/-- The lines are those of the blocks, an address line and those of its frames for each of them. -/
inductive Prints : List (Nat × List Frame) → List (List Char) → Prop
  | nil : Prints [] []
  | cons {address : Nat} {frames : List Frame} {blocks : List (Nat × List Frame)}
      {header : List Char} {lines rest : List (List Char)} (hheader : IsHeader address header)
      (hframes : PrintsFrames frames lines) (h : Prints blocks rest) :
      Prints ((address, frames) :: blocks) (header :: lines ++ rest)

/-! ## names -/

/-- A name is never shown as an empty text. -/
theorem shownName_ne_nil (s : String) : shownName s ≠ [] := by
  unfold shownName
  split
  · decide
  · simpa using ‹s ≠ ""›

/-- A name that is shown is known again. -/
theorem knownName_shownName {s : String} (h : IsName s) : knownName (shownName s) = s := by
  unfold shownName
  split
  · rename_i hempty
    rw [hempty]
    rfl
  · have hne : s.toList ≠ unknown := by
      intro hunknown
      exact h.known (String.ofList_toList.symm.trans (congrArg String.ofList hunknown))
    simp [knownName, hne]

/-- A shown name has no line break. -/
theorem unbroken_shownName {s : String} (h : IsName s) :
    ∀ c ∈ shownName s, isLineBreak c = false := by
  unfold shownName
  split
  · exact forall_mem_of_all (by decide)
  · exact h.unbroken

/-- A shown name has no blank at either end. -/
theorem isTrimmed_shownName {s : String} (h : IsName s) : IsTrimmed (shownName s) := by
  unfold shownName
  split
  · decide
  · exact h.trimmed

/-! ## address lines -/

/-- A line gives no address just if it does not look like a header. -/
theorem headerAddress?_eq_none_iff {line : List Char} :
    headerAddress? line = none ↔ ¬ LooksLikeHeader line := by
  constructor
  · rintro h ⟨digits, rfl, hne, hdigits⟩
    have hall : digits.all isHexDigit = true := List.all_eq_true.mpr hdigits
    simp [headerAddress?, hne, hall] at h
  · intro h
    unfold headerAddress?
    split
    next digits =>
      refine if_neg fun hdigits => h ⟨digits, rfl, ?_⟩
      simpa using hdigits
    next => rfl

/-- Zeros in front of digits do not count. -/
theorem readHex_replicate_append (zeros : Nat) (digits : List Char) :
    readHex (List.replicate zeros '0' ++ digits) = readHex digits := by
  have hzeros : readHex (List.replicate zeros '0') = 0 := by
    induction zeros with
    | zero => rfl
    | succ zeros ih =>
        rw [List.replicate_succ', readHex_append, ih]
        rfl
  rw [readHex_append, hzeros]
  rfl

/-- The header of an address gives the address. -/
theorem headerAddress?_of_isHeader {address : Nat} {line : List Char} (h : IsHeader address line) :
    headerAddress? line = some address := by
  obtain ⟨zeros, digits, rfl, hdigits⟩ := h
  obtain ⟨hvalue, haddress⟩ := digits_of_areDigits (by decide) (by decide) hdigits
  have hhex : ∀ c ∈ digits, isHexDigit c = true := by
    intro c hc
    obtain ⟨hdigit, -⟩ := Option.filter_eq_some_iff.mp (hvalue c hc)
    rw [isHexDigit, hdigit]
    rfl
  have hne : digits ≠ [] := by
    rintro rfl
    exact Nat.toDigits_ne_nil hdigits.symm
  have hread : readHex digits = address := by
    rw [← haddress, ofDigits, List.foldl_map]
    rfl
  have hall : (List.replicate zeros '0' ++ digits).all isHexDigit = true := by
    rw [List.all_eq_true]
    intro c hc
    rcases List.mem_append.mp hc with hc | hc
    · rw [List.eq_of_mem_replicate hc]
      rfl
    · exact hhex c hc
  simp [headerAddress?, hall, hne, readHex_replicate_append, hread]

/-- A place is no address line. -/
theorem headerAddress?_of_colon {line : List Char} (h : ':' ∈ line) :
    headerAddress? line = none := by
  refine headerAddress?_eq_none_iff.mpr ?_
  rintro ⟨digits, rfl, -, hdigits⟩
  have hmem : ':' ∈ digits := by simpa using h
  exact absurd (hdigits ':' hmem) (by decide)

/-! ## line numbers -/

/-- A decimal digit is no colon, no line break and no blank. -/
theorem plain_of_mem_toDigits {n : Nat} {c : Char} (h : c ∈ Nat.toDigits 10 n) :
    isDecimalDigit c = true ∧ c ≠ ':' ∧ isLineBreak c = false ∧ isBlank c = false := by
  have all : ∀ d : Fin 10, isDecimalDigit d.val.digitChar = true ∧ d.val.digitChar ≠ ':' ∧
      isLineBreak d.val.digitChar = false ∧ isBlank d.val.digitChar = false := by decide
  obtain ⟨d, hd, rfl⟩ := exists_digitChar_of_mem (by decide) h
  exact all ⟨d, hd⟩

/-- The decimal digits of a number read back as the number, within the limit of digits. -/
theorem readDecimal_toDigits {n : Nat} (h : (Nat.toDigits 10 n).length ≤ digitLimit) :
    readDecimal (Nat.toDigits 10 n) = .ok n := by
  have all : ∀ d : Fin 10, (decimalDigit? d.val.digitChar).getD 0 = d.val := by decide
  rw [readDecimal, if_neg (Nat.not_lt.mpr h),
    ofDigits_map_toDigits (by decide) fun d hd => all ⟨d, hd⟩]

variable {number suffix : List Char}

/-- Digits in front of something else are the decimal digits that the text begins with. -/
theorem takeWhile_toDigits_append (n : Nat) {rest : List Char}
    (h : ∀ c ∈ rest.head?, isDecimalDigit c = false) :
    (Nat.toDigits 10 n ++ rest).takeWhile isDecimalDigit = Nat.toDigits 10 n ∧
      (Nat.toDigits 10 n ++ rest).dropWhile isDecimalDigit = rest := by
  have hdigits : ∀ c ∈ Nat.toDigits 10 n, isDecimalDigit c = true := fun c hc =>
    (plain_of_mem_toDigits hc).1
  rw [List.takeWhile_append_of_pos hdigits, List.dropWhile_append_of_pos hdigits]
  cases rest with
  | nil => simp
  | cons c rest => simp [h c rfl]

/-- A printed discriminator is one. -/
theorem isDiscriminator_discriminator (n : Nat) :
    isDiscriminator (" (discriminator ".toList ++ (Nat.toDigits 10 n ++ [')'])) = true := by
  have hclosing : ∀ c ∈ [')'].head?, isDecimalDigit c = false := by
    rintro _ ⟨⟩
    decide
  obtain ⟨htake, hdrop⟩ := takeWhile_toDigits_append n hclosing
  obtain ⟨c, cs, hcons⟩ := List.exists_cons_of_ne_nil (Nat.toDigits_ne_nil (b := 10) (n := n))
  have hrest : (" (discriminator ".toList ++ (Nat.toDigits 10 n ++ [')'])).dropWhile isBlank =
      "(discriminator ".toList ++ (Nat.toDigits 10 n ++ [')']) := rfl
  simp only [isDiscriminator, hrest, List.drop_left, htake, hdrop]
  simp [hcons, atEnd]

/-- A line number ends where a discriminator begins. -/
theorem ends_of_isDiscriminatorSuffix (h : IsDiscriminatorSuffix suffix) :
    (∀ c ∈ suffix.head?, isDecimalDigit c = false) ∧
      (atEnd suffix || isDiscriminator suffix) = true := by
  cases h with
  | none => exact ⟨nofun, rfl⟩
  | discriminator n =>
      refine ⟨?_, by rw [isDiscriminator_discriminator, Bool.or_true]⟩
      rintro _ ⟨⟩
      decide

/-- The digits of a line number are found before its suffix. -/
theorem lineDigits?_decimal (n : Nat) (h : IsDiscriminatorSuffix suffix) :
    lineDigits? (Nat.toDigits 10 n ++ suffix) = some (Nat.toDigits 10 n) := by
  obtain ⟨hhead, hends⟩ := ends_of_isDiscriminatorSuffix h
  obtain ⟨htake, hdrop⟩ := takeWhile_toDigits_append n hhead
  obtain ⟨c, cs, hcons⟩ := List.exists_cons_of_ne_nil (Nat.toDigits_ne_nil (b := 10) (n := n))
  have hc : c ≠ '?' := by
    rintro rfl
    exact absurd (plain_of_mem_toDigits (hcons ▸ List.mem_cons_self)).1 (by decide)
  rw [hcons, List.cons_append] at htake hdrop
  rw [hcons, List.cons_append]
  simp only [lineDigits?]
  split
  next hunknown => exact absurd (List.cons.inj hunknown).1 hc
  next =>
    simp only [htake, hdrop, hends]
    rfl

/-- A question mark in place of a line number leaves no digits. -/
theorem lineDigits?_unknown (h : IsDiscriminatorSuffix suffix) :
    lineDigits? ('?' :: suffix) = some [] := by
  simp [lineDigits?, (ends_of_isDiscriminatorSuffix h).2]

/-! ## places -/

/-- A place without a colon is not split. -/
theorem splitPlace?_of_notMem {s : List Char} (h : ':' ∉ s) : splitPlace? s = none := by
  induction s with
  | nil => rfl
  | cons c rest ih =>
      rw [List.mem_cons, not_or] at h
      have hc : c ≠ ':' := Ne.symm h.1
      simp [splitPlace?, ih h.2, hc]

/-- A place is cut at its last colon, if a line number stands behind that. -/
theorem splitPlace?_append {file tail digits : List Char} (hfile : '\n' ∉ file) (htail : ':' ∉ tail)
    (h : lineDigits? tail = some digits) :
    splitPlace? (file ++ ':' :: tail) = some (file, digits) := by
  induction file with
  | nil => simp [splitPlace?, splitPlace?_of_notMem htail, h]
  | cons c file ih =>
      rw [List.mem_cons, not_or] at hfile
      have hc : c ≠ '\n' := Ne.symm hfile.1
      simp [splitPlace?, ih hfile.2, hc]

/-- What stands behind the last colon of a place. -/
theorem exists_lineDigits? {n : Int} (hnumber : IsLineNumber n number)
    (hsuffix : IsDiscriminatorSuffix suffix) :
    ∃ digits line, lineDigits? (number ++ suffix) = some digits ∧
      readDecimal digits = .ok line ∧ (line : Int) = n := by
  cases hnumber with
  | decimal line hlimit =>
      exact ⟨_, line, lineDigits?_decimal line hsuffix, readDecimal_toDigits hlimit, rfl⟩
  | unknown => exact ⟨_, 0, lineDigits?_unknown hsuffix, rfl, rfl⟩

/-- A line number is never printed as an empty text. -/
theorem ne_nil_of_isLineNumber {n : Int} (h : IsLineNumber n number) : number ≠ [] := by
  cases h with
  | decimal line _ => exact Nat.toDigits_ne_nil
  | unknown => exact List.cons_ne_nil _ _

/-- A printed line number has no colon, no line break and no blank. -/
theorem plain_of_mem_number {n : Int} (h : IsLineNumber n number) {c : Char} (hc : c ∈ number) :
    c ≠ ':' ∧ isLineBreak c = false ∧ isBlank c = false := by
  cases h with
  | decimal line _ => exact (plain_of_mem_toDigits hc).2
  | unknown =>
      rw [List.mem_singleton.mp hc]
      decide

/-- A discriminator suffix has no colon and no line break. -/
theorem plain_of_mem_suffix (h : IsDiscriminatorSuffix suffix) {c : Char} (hc : c ∈ suffix) :
    c ≠ ':' ∧ isLineBreak c = false := by
  cases h with
  | none => exact absurd hc List.not_mem_nil
  | discriminator n =>
      have hlabel : ∀ c ∈ " (discriminator ".toList, c ≠ ':' ∧ isLineBreak c = false :=
        forall_mem_of_all (by decide)
      rw [List.mem_append, List.mem_append, List.mem_singleton] at hc
      rcases hc with hc | hc | rfl
      · exact hlabel c hc
      · obtain ⟨-, hcolon, hbreak, -⟩ := plain_of_mem_toDigits hc
        exact ⟨hcolon, hbreak⟩
      · decide

variable {f : Frame} {place : List Char}

/-- The place of a frame has no line break. -/
theorem unbroken_of_isPlace (hfile : IsName f.file) (h : IsPlace f place) :
    ∀ c ∈ place, isLineBreak c = false := by
  obtain ⟨number, suffix, hnumber, hsuffix, rfl⟩ := h
  intro c hc
  rw [List.mem_append, List.mem_cons, List.mem_append] at hc
  rcases hc with hc | rfl | hc | hc
  · exact unbroken_shownName hfile c hc
  · decide
  · exact (plain_of_mem_number hnumber hc).2.1
  · exact (plain_of_mem_suffix hsuffix hc).2

/-- The place of a frame has no blank at either end. -/
theorem isTrimmed_of_isPlace (hfile : IsName f.file) (h : IsPlace f place) : IsTrimmed place := by
  obtain ⟨number, suffix, hnumber, hsuffix, rfl⟩ := h
  constructor
  · intro c hc
    rw [List.head?_append_of_ne_nil _ (shownName_ne_nil _)] at hc
    exact (isTrimmed_shownName hfile).head c hc
  · intro c hc
    have hne : number ≠ [] := ne_nil_of_isLineNumber hnumber
    rw [List.getLast?_append_cons, List.getLast?_cons_of_ne_nil (by simp [hne])] at hc
    cases hsuffix with
    | none =>
        rw [List.append_nil] at hc
        exact (plain_of_mem_number hnumber (List.mem_of_getLast? hc)).2.2
    | discriminator n =>
        rw [← List.append_assoc, ← List.append_assoc, List.getLast?_concat] at hc
        cases hc
        decide

/-- A frame is read from the lines that show it. -/
theorem readFrame_of_isPlace (hfunc : IsName f.func) (hfile : IsName f.file)
    (h : IsPlace f place) : readFrame (shownName f.func) place = .ok f := by
  obtain ⟨number, suffix, hnumber, hsuffix, rfl⟩ := h
  obtain ⟨digits, line, hdigits, hread, hline⟩ := exists_lineDigits? hnumber hsuffix
  have hnewline : '\n' ∉ shownName f.file := fun hmem =>
    absurd (unbroken_shownName hfile _ hmem) (by decide)
  have hcolon : ':' ∉ number ++ suffix := by
    rw [List.mem_append]
    rintro (hmem | hmem)
    · exact (plain_of_mem_number hnumber hmem).1 rfl
    · exact (plain_of_mem_suffix hsuffix hmem).1 rfl
  rw [readFrame, splitPlace?_append hnewline hcolon hdigits]
  simp only [hread, knownName_shownName hfunc, knownName_shownName hfile]
  simp [Except.mapError, bind, Except.bind, pure, Except.pure, hline]

variable {frames : List Frame} {lines : List (List Char)}

/-- The lines printed for frames are read back as the frames. -/
theorem readPairs_of_printsFrames (h : PrintsFrames frames lines) :
    readPairs lines = .ok frames := by
  induction h with
  | nil => rfl
  | cons hfunc hfile _ hplace _ ih =>
      rw [readPairs, readFrame_of_isPlace hfunc hfile hplace, ih]
      rfl

/-- None of the lines of frames is an address line. -/
theorem isHeadless_of_printsFrames (h : PrintsFrames frames lines) : IsHeadless lines := by
  induction h with
  | nil => exact nofun
  | cons hfunc hfile hheader hplace _ ih =>
      rw [IsHeadless, List.forall_mem_cons, List.forall_mem_cons]
      refine ⟨?_, headerAddress?_of_colon ?_, ih⟩
      · unfold shownName
        split
        · rfl
        · exact headerAddress?_eq_none_iff.mpr hheader
      · obtain ⟨number, suffix, -, -, rfl⟩ := hplace
        simp

/-! ## lines -/

/-- Nothing is lost of the line when a listing is cut into its lines. -/
structure IsProperLine (line : List Char) : Prop where
  ne_nil : line ≠ []
  unbroken : ∀ c ∈ line, isLineBreak c = false
  trimmed : IsTrimmed line

/-- Proper lines that were joined are cut where they were. -/
theorem linesOf_joinLines (h : ∀ line ∈ lines, IsProperLine line) :
    linesOf (joinLines lines) = lines := by
  rw [linesOf, splitLines_joinLines lines fun line hline => (h line hline).unbroken]
  refine (List.map_congr_left fun line hline => ?_).trans (List.map_id _)
  obtain ⟨hne, -, htrimmed⟩ := h line hline
  have hstrip : strip ([] ++ line ++ []) = line :=
    strip_framed (List.forall_mem_nil _) (List.forall_mem_nil _) hne htrimmed.head htrimmed.last
  simpa using hstrip

theorem isLineBreak_of_isPlain {c : Char} (h : IsPlain c) : isLineBreak c = false := by
  obtain ⟨hlow, hhigh⟩ := h
  simp [isLineBreak]
  omega

theorem isBlank_of_isPlain {c : Char} (h : IsPlain c) : isBlank c = false := by
  obtain ⟨hlow, hhigh⟩ := h
  simp [isBlank, blankRanges, CodeRanges.covers]
  omega

/-- A header is a proper line. -/
theorem isProperLine_of_isHeader {address : Nat} {header : List Char}
    (h : IsHeader address header) : IsProperLine header := by
  have hplain : ∀ c ∈ header, IsPlain c := by
    obtain ⟨zeros, digits, rfl, hdigits⟩ := h
    obtain ⟨hvalue, -⟩ := digits_of_areDigits (by decide) (by decide) hdigits
    rw [List.forall_mem_cons, List.forall_mem_cons, List.forall_mem_append]
    refine ⟨⟨by decide, by decide⟩, ⟨by decide, by decide⟩, fun c hc => ?_, fun c hc => ?_⟩
    · rw [List.eq_of_mem_replicate hc]
      exact ⟨by decide, by decide⟩
    · exact isPlain_of_digitIn? (hvalue c hc)
  refine ⟨?_, fun c hc => isLineBreak_of_isPlain (hplain c hc),
    fun c hc => isBlank_of_isPlain (hplain c (List.mem_of_head? hc)),
    fun c hc => isBlank_of_isPlain (hplain c (List.mem_of_getLast? hc))⟩
  obtain ⟨zeros, digits, rfl, -⟩ := h
  exact List.cons_ne_nil _ _

/-- The lines printed for frames are proper. -/
theorem isProperLine_of_printsFrames (h : PrintsFrames frames lines) :
    ∀ line ∈ lines, IsProperLine line := by
  induction h with
  | nil => exact nofun
  | cons hfunc hfile _ hplace _ ih =>
      rw [List.forall_mem_cons, List.forall_mem_cons]
      refine ⟨⟨shownName_ne_nil _, unbroken_shownName hfunc, isTrimmed_shownName hfunc⟩,
        ⟨?_, unbroken_of_isPlace hfile hplace, isTrimmed_of_isPlace hfile hplace⟩, ih⟩
      obtain ⟨number, suffix, -, -, rfl⟩ := hplace
      simp

/-! ## blocks -/

variable {blocks : List (Nat × List Frame)}

/-- The lines of a printed listing are proper. -/
theorem isProperLine_of_prints (h : Prints blocks lines) : ∀ line ∈ lines, IsProperLine line := by
  induction h with
  | nil => exact nofun
  | cons hheader hframes _ ih =>
      rw [List.forall_mem_append, List.forall_mem_cons]
      exact ⟨⟨isProperLine_of_isHeader hheader, isProperLine_of_printsFrames hframes⟩, ih⟩

/-- The sections have the addresses of the blocks and the lines of their frames. -/
def AreSections : List (Nat × List Frame) → List (Nat × List (List Char)) → Prop :=
  List.Forall₂ fun b s => s.1 = b.1 ∧ PrintsFrames b.2 s.2

/-- Address lines are told from the lines of frames. -/
theorem exists_sections (h : Prints blocks lines) :
    ∃ found, sections lines = ([], found) ∧ AreSections blocks found := by
  induction h with
  | nil => exact ⟨[], rfl, .nil⟩
  | @cons address frames blocks header lines rest hheader hframes _ ih =>
      obtain ⟨found, hfound, hforall⟩ := ih
      refine ⟨(address, lines) :: found, ?_, .cons ⟨rfl, hframes⟩ hforall⟩
      simp only [List.cons_append, sections,
        sections_append (isHeadless_of_printsFrames hframes), hfound,
        headerAddress?_of_isHeader hheader, List.append_nil]

/-- Sections have the addresses of their blocks. -/
theorem AreSections.map_fst {found : List (Nat × List (List Char))} (h : AreSections blocks found) :
    found.map (·.1) = blocks.map (·.1) := by
  induction h with
  | nil => rfl
  | cons hb _ ih => rw [List.map_cons, List.map_cons, hb.1, ih]

end Listing

open Listing

namespace Answers

variable {blocks : List (Nat × List Frame)}

/-- The sections of blocks are read as the blocks, blank stacks dropped. -/
theorem mapM_readFrames {found : List (Nat × List (List Char))} (h : AreSections blocks found) :
    (found.mapM fun (address, lines) => do return ((address : Int), ← readFrames lines)) =
      .ok (blocks.map fun b => ((b.1 : Int), dropBlankStack b.2)) := by
  induction h with
  | nil => rfl
  | @cons b s _ _ hb _ ih =>
      obtain ⟨address, lines⟩ := s
      obtain ⟨rfl, hframes⟩ := hb
      have hread : readFrames lines = .ok (dropBlankStack b.2) := by
        rw [readFrames, readPairs_of_printsFrames hframes]
        rfl
      rw [List.mapM_cons, ih]
      simp only [hread]
      rfl

/-- What a tool prints for different addresses is read as these addresses, in their order, each with
its frames, or with none if nothing is known of any of them. -/
theorem ofListing_of_prints {lines : List (List Char)} (h : Prints blocks lines)
    (hnodup : (blocks.map (·.1)).Nodup) :
    ofListing (joinLines lines) =
      .ok (blocks.map fun b => ((b.1 : Int), dropBlankStack b.2)) := by
  obtain ⟨found, hfound, hforall⟩ := exists_sections h
  rw [ofListing, linesOf_joinLines (isProperLine_of_prints h), hfound,
    blocks_of_nodup (hforall.map_fst ▸ hnodup)]
  exact mapM_readFrames hforall

/-! ## a listing -/

/-- The frames of an inlined call, in a file whose name looks like the end of a place. -/
def inlinedCall : List Frame :=
  [{ func := "_Z5innerv", file := "C:/a:12 (discriminator 3):x 7.cc", line := 10 },
    { func := "main" }]

/-- How a tool may print them, and that it knows nothing of another address. -/
def inlinedCallLines : List (List Char) :=
  ["0x0000000000401136", "_Z5innerv", "C:/a:12 (discriminator 3):x 7.cc:10 (discriminator 2)",
    "main", "??:?", "0x20", "??", "??:0"].map String.toList

/-- The lines of the inlined call print its blocks. -/
theorem prints_inlinedCall : Prints [(0x401136, inlinedCall), (0x20, [{}])] inlinedCallLines := by
  have hname : ∀ s ∈ ["_Z5innerv", "C:/a:12 (discriminator 3):x 7.cc", "main", ""], IsName s := by
    decide
  have hinlined : PrintsFrames inlinedCall (inlinedCallLines.extract 1 5) :=
    .cons (hname _ (by decide)) (hname _ (by decide)) (headerAddress?_eq_none_iff.mp rfl)
      ⟨_, _, .decimal 10 (by decide), .discriminator 2, rfl⟩
      (.cons (hname _ (by decide)) (hname _ (by decide)) (headerAddress?_eq_none_iff.mp rfl)
        ⟨_, _, .unknown, .none, rfl⟩ .nil)
  have hblank : PrintsFrames [{}] (inlinedCallLines.extract 6 8) :=
    .cons (hname _ (by decide)) (hname _ (by decide)) (headerAddress?_eq_none_iff.mp rfl)
      ⟨_, _, .decimal 0 (by decide), .none, rfl⟩ .nil
  have hheader : IsHeader 0x401136 "0x0000000000401136".toList := ⟨10, "401136".toList, rfl, rfl⟩
  have hheader' : IsHeader 0x20 "0x20".toList := ⟨0, "20".toList, rfl, rfl⟩
  exact .cons hheader hinlined (.cons hheader' hblank .nil)

theorem ofListing_of_prints_inlinedCall :
    Prints [(0x401136, inlinedCall), (0x20, [{}])] inlinedCallLines ∧
      ofListing (joinLines inlinedCallLines) = .ok [(0x401136, inlinedCall), (0x20, [])] :=
  ⟨prints_inlinedCall, ofListing_of_prints prints_inlinedCall (by decide)⟩

end Answers

end Symbolication
