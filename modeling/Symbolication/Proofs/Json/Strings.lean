import Symbolication.Json.Reader
import Symbolication.Json.Writer

/-!
# Symbolication.Proofs.Json.Strings

Strings of documents are read as they were written.  `Escape` says how a character may
stand in a string without the writer and the reader; the writer keeps to it, and the
reader takes any of its forms, whatever follows in the text:

* `escape_escapedChar` — the form in which a character is written;
* `Escape.forall_isPlain` — strings are written in printable ASCII characters;
* `Escape.readString_append` — a character at the front of a string is found again;
* `readString_escaped` — and so is the string, up to its closing quote.
-/

namespace Symbolication

open Number Text

/-! ## four digits -/

namespace Text

theorem length_paddedHex_four {n : Nat} (h : n < 0x10000) : (paddedHex 4 n).length = 4 := by
  have hle : (Nat.toDigits 16 n).length ≤ 4 :=
    (Nat.length_toDigits_le_iff (by decide) (by decide)).mpr h
  rw [paddedHex, List.length_append, List.length_replicate, Nat.sub_add_cancel hle]

/-- Leading zeros do not count. -/
theorem readHex_paddedHex (width n : Nat) : readHex (paddedHex width n) = n := by
  have hzeros : ∀ zeros : Nat, readHex (List.replicate zeros '0') = 0 := by
    intro zeros
    induction zeros with
    | zero => rfl
    | succ zeros ih => rwa [List.replicate_succ]
  rw [paddedHex, readHex_append, hzeros]
  exact readHex_toDigits n

/-- Digits all the way, zeros in front included. -/
theorem exists_digitChar_of_mem_paddedHex {width n : Nat} {c : Char}
    (h : c ∈ paddedHex width n) : ∃ d < 16, c = d.digitChar := by
  rw [paddedHex, List.mem_append] at h
  rcases h with h | h
  · exact ⟨0, by decide, List.eq_of_mem_replicate h⟩
  · exact exists_digitChar_of_mem (by decide) h

end Text

namespace Json

/-- Four digits for a 16-bit unit. -/
theorem exists_paddedHex_four {unit : Nat} (h : unit < 0x10000) :
    ∃ a b c d, paddedHex 4 unit = [a, b, c, d] ∧ unit? a b c d = some unit := by
  have hdigits : ∀ digits : List Char, digits.length = 4 → digits.all isHexDigit = true →
      ∃ a b c d, digits = [a, b, c, d] ∧ unit? a b c d = some (readHex digits) := by
    intro digits hlength hall
    match digits, hlength with
    | [a, b, c, d], _ => exact ⟨a, b, c, d, rfl, if_pos hall⟩
  have hall : (paddedHex 4 unit).all isHexDigit = true := by
    rw [List.all_eq_true]
    intro c hc
    obtain ⟨d, hd, rfl⟩ := exists_digitChar_of_mem_paddedHex hc
    rw [isHexDigit, hexDigit?_digitChar hd]
    rfl
  obtain ⟨a, b, c, d, hfour, hunit⟩ := hdigits _ (length_paddedHex_four h) hall
  rw [readHex_paddedHex] at hunit
  exact ⟨a, b, c, d, hfour, hunit⟩

/-! ## the forms of a character -/

/-- Printable ASCII characters. -/
def isPlain (c : Char) : Bool :=
  0x20 ≤ c.toNat && c.toNat < 0x7F

/-- How a character may stand in a string. -/
inductive Escape : Char → List Char → Prop
  /-- As it is. -/
  | plain {c : Char} (hplain : isPlain c = true) (hquote : c ≠ '"')
      (hbackslash : c ≠ '\\') : Escape c [c]
  /-- By a letter. -/
  | letter {c letter : Char} (hplain : isPlain letter = true) (hu : letter ≠ 'u')
      (hletter : escapeLetter? letter = some c) : Escape c ['\\', letter]
  /-- By its number. -/
  | unit {c : Char} (h : c.toNat < 0x10000) : Escape c (escapedUnit c.toNat)
  /-- By the numbers of a pair. -/
  | pair {c : Char} {high low : Nat} (hhigh : isHighUnit high = true)
      (hlow : isLowUnit low = true) (hpair : charOfPair high low = c) :
      Escape c (escapedUnit high ++ escapedUnit low)

/-- A character outside of the first plane is given by a pair. -/
theorem escape_units (c : Char) : Escape c ((units c).flatMap escapedUnit) := by
  have hvalid : c.toNat < 0xD800 ∨ (0xDFFF < c.toNat ∧ c.toNat < 0x110000) := c.valid
  by_cases h : c.toNat < 0x10000
  · have hunits : (units c).flatMap escapedUnit = escapedUnit c.toNat := by simp [units, h]
    rw [hunits]
    exact .unit h
  · have hunits : (units c).flatMap escapedUnit =
        escapedUnit (0xD800 + (c.toNat - 0x10000) / 0x400) ++
          escapedUnit (0xDC00 + (c.toNat - 0x10000) % 0x400) := by
      simp [units, h]
    rw [hunits]
    refine .pair ?_ ?_ ?_
    · simp [isHighUnit]
      omega
    · simp [isLowUnit]
      omega
    · have hsum : 0x10000 + (0xD800 + (c.toNat - 0x10000) / 0x400 - 0xD800) * 0x400 +
          (0xDC00 + (c.toNat - 0x10000) % 0x400 - 0xDC00) = c.toNat := by omega
      rw [charOfPair, hsum, Char.ofNat_toNat]

/-- The form in which a character is written. -/
theorem escape_escapedChar (c : Char) : Escape c (escapedChar c) := by
  have hletter : ∀ {d letter : Char}, (c == d) = true → isPlain letter = true → letter ≠ 'u' →
      escapeLetter? letter = some d → Escape c ['\\', letter] := by
    intro d letter hc hplain hu h
    rw [← beq_iff_eq.mp hc] at h
    exact .letter hplain hu h
  -- the seven escapes by a letter, the characters that stand as they are, and the others
  fun_cases escapedChar c with
  | case1 h =>
      exact hletter h (by decide) (by decide) rfl
  | case2 _ h =>
      exact hletter h (by decide) (by decide) rfl
  | case3 _ _ h =>
      exact hletter h (by decide) (by decide) rfl
  | case4 _ _ _ h =>
      exact hletter h (by decide) (by decide) rfl
  | case5 _ _ _ _ h =>
      exact hletter h (by decide) (by decide) rfl
  | case6 _ _ _ _ _ h =>
      exact hletter h (by decide) (by decide) rfl
  | case7 _ _ _ _ _ _ h =>
      exact hletter h (by decide) (by decide) rfl
  | case8 hquote hbackslash _ _ _ _ _ h =>
      exact .plain h (by simpa using hquote) (by simpa using hbackslash)
  | case9 =>
      exact escape_units c

theorem isPlain_of_mem_escapedUnit {unit : Nat} {c : Char} (h : c ∈ escapedUnit unit) :
    isPlain c = true := by
  have hdigit : ∀ d : Fin 16, isPlain d.val.digitChar = true := by decide
  rw [escapedUnit, List.mem_cons, List.mem_cons] at h
  rcases h with rfl | rfl | h
  · decide
  · decide
  · obtain ⟨d, hd, rfl⟩ := exists_digitChar_of_mem_paddedHex h
    exact hdigit ⟨d, hd⟩

/-- Strings are written in printable ASCII characters. -/
theorem Escape.forall_isPlain {c : Char} {form : List Char} (h : Escape c form) :
    ∀ d ∈ form, isPlain d = true := by
  cases h with
  | plain hplain =>
      simpa using hplain
  | letter hplain =>
      rw [List.forall_mem_cons]
      exact ⟨by decide, by simpa using hplain⟩
  | unit =>
      exact fun _ => isPlain_of_mem_escapedUnit
  | pair =>
      intro d hd
      exact (List.mem_append.mp hd).elim isPlain_of_mem_escapedUnit isPlain_of_mem_escapedUnit

/-! ## reading -/

/-- Characters that belong to an escape already read are skipped. -/
theorem readString_skip (opening done rest : List Char) :
    readString opening done.length (done ++ rest) = readString opening 0 rest := by
  induction done with
  | nil => rfl
  | cons c done ih =>
      rw [List.length_cons, List.cons_append, readString]
      exact ih

/-- What an escape stands for is the next character. -/
theorem readString_escape {opening escape tail : List Char} {c : Char}
    (h : readEscape opening (escape ++ tail) = .ok (c, escape.length)) :
    readString opening 0 ('\\' :: escape ++ tail) =
      (readString opening 0 tail).map fun (s, rest) => (c :: s, rest) := by
  rw [List.cons_append, readString]
  simp only [h, readString_skip]
  rfl

theorem charOfUnit_toNat (c : Char) : charOfUnit c.toNat = c := by
  have hvalid : c.toNat < 0xD800 ∨ (0xDFFF < c.toNat ∧ c.toNat < 0x110000) := c.valid
  have hsingle : (isHighUnit c.toNat || isLowUnit c.toNat) = false := by
    simp [isHighUnit, isLowUnit]
    omega
  rw [charOfUnit, hsingle, if_neg (by decide), Char.ofNat_toNat]

/-- A character at the front of a string is found again, in whatever form it stands there; the
string goes on, if only with its closing quote. -/
theorem Escape.readString_append {c : Char} {form : List Char} (h : Escape c form)
    (opening : List Char) {tail : List Char} (htail : tail ≠ []) :
    readString opening 0 (form ++ tail) =
      (readString opening 0 tail).map fun (s, rest) => (c :: s, rest) := by
  obtain ⟨next, tail, rfl⟩ := List.exists_cons_of_ne_nil htail
  cases h with
  | plain hplain hquote hbackslash =>
      have hcontrol : ¬ c.toNat < 0x20 := by
        simp [isPlain] at hplain
        omega
      rw [List.singleton_append, readString]
      simp [hquote, hbackslash, hcontrol]
  | letter _ hu hletter =>
      refine readString_escape ?_
      simp [readEscape, hu, hletter]
  | unit hunit =>
      obtain ⟨x, y, z, w, hdigits, hread⟩ := exists_paddedHex_four hunit
      have hhigh : isHighUnit c.toNat = false := by
        have hvalid : c.toNat < 0xD800 ∨ (0xDFFF < c.toNat ∧ c.toNat < 0x110000) := c.valid
        simp [isHighUnit]
        omega
      refine readString_escape ?_
      simp [readEscape, hdigits, unitAt?, hread, hhigh, charOfUnit_toNat]
  | @pair high low hhigh hlow hpair =>
      have hhigh_lt : high < 0x10000 := by
        simp [isHighUnit] at hhigh
        omega
      have hlow_lt : low < 0x10000 := by
        simp [isLowUnit] at hlow
        omega
      obtain ⟨x, y, z, w, hdigits, hread⟩ := exists_paddedHex_four hhigh_lt
      obtain ⟨x', y', z', w', hdigits', hread'⟩ := exists_paddedHex_four hlow_lt
      rw [escapedUnit, List.cons_append, List.cons_append]
      refine readString_escape ?_
      simp [readEscape, escapedUnit, hdigits, hdigits', unitAt?, secondUnit?, hread, hread',
        hhigh, hlow, hpair, bind, Except.bind, pure, Except.pure]

/-- A string is found again, up to its closing quote. -/
theorem readString_escaped (opening s rest : List Char) :
    readString opening 0 (s.flatMap escapedChar ++ '"' :: rest) = .ok (s, rest) := by
  induction s with
  | nil => simp [readString]
  | cons c s ih =>
      rw [List.flatMap_cons, List.append_assoc,
        (escape_escapedChar c).readString_append opening (by simp), ih]
      rfl

/-- The text of a string consists of printable ASCII characters. -/
theorem isPlain_of_mem_stringText {s : String} {c : Char} (h : c ∈ (stringText s).toList) :
    isPlain c = true := by
  rw [stringText, String.toList_ofList, List.mem_append, List.mem_cons, List.mem_flatMap,
    List.mem_singleton] at h
  rcases h with (rfl | ⟨d, -, hd⟩) | rfl
  · decide
  · exact (escape_escapedChar d).forall_isPlain c hd
  · decide

end Json

end Symbolication
