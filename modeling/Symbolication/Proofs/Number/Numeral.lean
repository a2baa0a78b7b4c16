import Symbolication.Proofs.Json.Numerals
import Symbolication.Proofs.Text.Blank

/-!
# Symbolication.Proofs.Number.Numeral

An integer is read from every numeral of it.  `Spells` says which texts these are: a sign, the
decimal digits or a mark and the digits in the base of that mark, single underscores between
digits, and white space around all of it.

* `ofDigits_map_toDigits` — the digits of a number in any base denote it;
* `plainNumeral_eq` — the white space is gone before digits are looked at;
* `digitRun?_of_spaced` — so are the underscores afterwards;
* `unsignedNumeral?_of_magnitude`, `numeral?_of_spells` — numerals without and with a sign.
-/

namespace Symbolication.Number

open Text

/-! ## digits -/

/-- The digits of a number denote it. -/
theorem ofDigits_map_toDigits {base : Nat} (hbase : 1 < base) {value : Char → Nat}
    (hvalue : ∀ d < base, value d.digitChar = d) (n : Nat) :
    ofDigits base ((Nat.toDigits base n).map value) = n := by
  induction n using Nat.strongRecOn with
  | _ n ih =>
      by_cases hn : n < base
      · rw [Nat.toDigits_of_lt_base hn]
        simp [ofDigits, hvalue n hn]
      · have hlast := hvalue (n % base) (Nat.mod_lt n (by omega))
        have hrest := ih (n / base) (Nat.div_lt_self (by omega) hbase)
        rw [ofDigits] at hrest
        rw [Nat.toDigits_of_base_le hbase (by omega), List.map_append, ofDigits, List.foldl_append,
          hrest]
        simpa [hlast] using Nat.div_add_mod n base

/-! ## numerals -/

/-- White space by the Unicode property, which may stand around a numeral. The information
separators are blank, but a string with one of them is no numeral. -/
def IsSpace (c : Char) : Prop :=
  isBlank c = true ∧ ¬ (0x1C ≤ c.toNat ∧ c.toNat ≤ 0x1F)

instance : DecidablePred IsSpace := fun c =>
  inferInstanceAs (Decidable (isBlank c = true ∧ ¬ (0x1C ≤ c.toNat ∧ c.toNat ≤ 0x1F)))

/-- The text consists of the digits, with single underscores between some of them. -/
inductive Spaced : List Char → List Char → Prop
  | last (c : Char) : Spaced [c] [c]
  | next (c : Char) {digits text : List Char} (h : Spaced digits text) :
      Spaced (c :: digits) (c :: text)
  | apart (c : Char) {digits text : List Char} (h : Spaced digits text) :
      Spaced (c :: digits) (c :: '_' :: text)

/-- The digits are those of the number in the base, letters in either case. -/
def AreDigits (base n : Nat) (digits : List Char) : Prop :=
  digits.map Char.toLower = Nat.toDigits base n

/-- The marks of bases, behind a zero. -/
def marks : List (Char × Nat) :=
  [('x', 16), ('X', 16), ('o', 8), ('O', 8), ('b', 2), ('B', 2)]

/-- The text is a numeral of the number, without a sign.  Decimal digits are limited. -/
inductive IsMagnitude (n : Nat) : List Char → Prop
  | decimal {text : List Char} (hlimit : (Nat.toDigits 10 n).length ≤ digitLimit)
      (h : Spaced (Nat.toDigits 10 n) text) : IsMagnitude n text
  | marked {mark : Char} {base : Nat} {digits text : List Char} (hmark : (mark, base) ∈ marks)
      (hdigits : AreDigits base n digits) (h : Spaced digits text) :
      IsMagnitude n ('0' :: mark :: text)

/-- The text is a sign that the integer may have.  A plus may be left out. -/
inductive IsSign (n : Int) : List Char → Prop
  | none (h : 0 ≤ n) : IsSign n []
  | plus (h : 0 ≤ n) : IsSign n ['+']
  | minus (h : n ≤ 0) : IsSign n ['-']

/-- The text is a numeral of the integer. -/
def Spells (text : List Char) (n : Int) : Prop :=
  ∃ before sign magnitude after, text = before ++ (sign ++ magnitude) ++ after ∧
    (∀ c ∈ before, IsSpace c) ∧ (∀ c ∈ after, IsSpace c) ∧ IsSign n sign ∧
    IsMagnitude n.natAbs magnitude

/-! ## white space -/

/-- The character is printed in ASCII. -/
def IsPlain (c : Char) : Prop :=
  0x21 ≤ c.toNat ∧ c.toNat < 0x7F

theorem isNumeralSpace_plainNumeralChar {c : Char} (h : IsSpace c) :
    isNumeralSpace (plainNumeralChar c) = true := by
  obtain ⟨hblank, hseparator⟩ := h
  unfold plainNumeralChar
  split
  · rename_i hascii
    have hranges : (0x09 ≤ c.toNat ∧ c.toNat ≤ 0x0D) ∨ c.toNat = 0x20 := by
      simp [isBlank, blankRanges, CodeRanges.covers] at hblank
      omega
    rcases hranges with hcontrol | hspace
    · simp [isNumeralSpace, hcontrol]
    · have hc : c = ' ' := Char.toNat_inj.mp hspace
      simp [isNumeralSpace, hc]
  · rw [decimalDigit?_of_isBlank hblank]
    rfl

theorem plainNumeralChar_of_isPlain {c : Char} (h : IsPlain c) : plainNumeralChar c = c :=
  if_pos (Nat.lt_trans h.2 (by decide))

theorem isNumeralSpace_of_isPlain {c : Char} (h : IsPlain c) : isNumeralSpace c = false := by
  obtain ⟨hlow, -⟩ := h
  have hspace : c ≠ ' ' := by
    rintro rfl
    exact absurd hlow (by decide)
  simp [isNumeralSpace, hspace]
  omega

/-- The white space around a numeral is ignored. -/
theorem plainNumeral_eq {before numeral after : List Char} (hbefore : ∀ c ∈ before, IsSpace c)
    (hafter : ∀ c ∈ after, IsSpace c) (hplain : ∀ c ∈ numeral, IsPlain c) (hne : numeral ≠ []) :
    plainNumeral (before ++ numeral ++ after) = numeral := by
  have hspaces {s : List Char} (hs : ∀ c ∈ s, IsSpace c) :
      ∀ c ∈ s.map plainNumeralChar, isNumeralSpace c = true :=
    List.forall_mem_map.mpr fun c hc => isNumeralSpace_plainNumeralChar (hs c hc)
  have hsame : numeral.map plainNumeralChar = numeral :=
    (List.map_congr_left fun c hc => plainNumeralChar_of_isPlain (hplain c hc)).trans
      (List.map_id _)
  rw [plainNumeral, List.map_append, List.map_append, hsame]
  exact dropWhile_framed (hspaces hbefore) (hspaces hafter) hne
    (fun c hc => isNumeralSpace_of_isPlain (hplain c (List.mem_of_head? hc)))
    fun c hc => isNumeralSpace_of_isPlain (hplain c (List.mem_of_getLast? hc))

/-! ## underscores -/

theorem Spaced.exists_cons {digits text : List Char} (h : Spaced digits text) :
    ∃ c ds more, digits = c :: ds ∧ text = c :: more := by
  cases h with
  | last c => exact ⟨c, [], [], rfl, rfl⟩
  | next c _ => exact ⟨c, _, _, rfl, rfl⟩
  | apart c _ => exact ⟨c, _, _, rfl, rfl⟩

theorem Spaced.mem {digits text : List Char} (h : Spaced digits text) {c : Char} (hc : c ∈ text) :
    c = '_' ∨ c ∈ digits := by
  induction h with
  | last d => exact .inr hc
  | next d _ ih =>
      rcases List.mem_cons.mp hc with rfl | hc
      · exact .inr List.mem_cons_self
      · exact (ih hc).imp_right (List.mem_cons_of_mem _)
  | apart d _ ih =>
      rcases List.mem_cons.mp hc with rfl | hc
      · exact .inr List.mem_cons_self
      · rcases List.mem_cons.mp hc with rfl | hc
        · exact .inl rfl
        · exact (ih hc).imp_right (List.mem_cons_of_mem _)

theorem digitIn?_underscore (base : Nat) : digitIn? base '_' = none :=
  rfl

/-- The underscores between digits are ignored. -/
theorem digitRun?_of_spaced {base : Nat} {value : Char → Nat} {digits text : List Char}
    (h : Spaced digits text) (hvalue : ∀ c ∈ digits, digitIn? base c = some (value c)) :
    digitRun? base text = some (digits.map value) := by
  induction h with
  | last c => simp [digitRun?, hvalue c List.mem_cons_self]
  | @next c digits text h ih =>
      rw [List.forall_mem_cons] at hvalue
      obtain ⟨d, ds, more, rfl, rfl⟩ := h.exists_cons
      have hd : d ≠ '_' := by
        rintro rfl
        have := hvalue.2 '_' List.mem_cons_self
        rw [digitIn?_underscore] at this
        cases this
      rw [digitRun?.eq_4]
      · simp [hvalue.1, ih hvalue.2]
      · simp
      · simpa using hd
  | apart c _ ih =>
      rw [List.forall_mem_cons] at hvalue
      simp [digitRun?, hvalue.1, ih hvalue.2]

/-! ## numerals without a sign -/

/-- Letters are digits in either case. -/
theorem hexDigit?_of_toLower {c : Char} {d : Nat} (hd : d < 16) (h : c.toLower = d.digitChar) :
    hexDigit? c = some d := by
  by_cases hupper : 'A'.val ≤ c.val ∧ c.val ≤ 'Z'.val
  · obtain ⟨hlow, hhigh⟩ : 65 ≤ c.toNat ∧ c.toNat ≤ 90 := hupper
    have all : ∀ i : Fin 26, ∀ m : Fin 16, (Char.ofNat (65 + i)).toLower = m.val.digitChar →
        hexDigit? (Char.ofNat (65 + i)) = some m.val := by decide
    have hc : Char.ofNat (65 + (c.toNat - 65)) = c := by
      rw [Nat.add_sub_cancel' hlow, Char.ofNat_toNat]
    have hletter := all ⟨c.toNat - 65, by omega⟩ ⟨d, hd⟩
    rw [hc] at hletter
    exact hletter h
  · have hc : c.toLower = c := dif_neg hupper
    rw [← hc, h, hexDigit?_digitChar hd]

/-- The value of a digit in a base of at most sixteen. -/
def digitValue (c : Char) : Nat :=
  (hexDigit? c).getD 0

theorem digitValue_digitChar {d : Nat} (h : d < 16) : digitValue d.digitChar = d := by
  rw [digitValue, hexDigit?_digitChar h]
  rfl

variable {base n : Nat} {digits : List Char}

/-- Digits in either case have the values of those of the number. -/
theorem digits_of_areDigits (hbase : 1 < base) (hbase' : base ≤ 16)
    (h : AreDigits base n digits) :
    (∀ c ∈ digits, digitIn? base c = some (digitValue c)) ∧
      ofDigits base (digits.map digitValue) = n := by
  have hdigit : ∀ c ∈ digits, digitIn? base c = some (digitValue c) ∧
      digitValue c = digitValue c.toLower := by
    intro c hc
    have hmem : c.toLower ∈ Nat.toDigits base n := h ▸ List.mem_map_of_mem hc
    obtain ⟨d, hd, hlower⟩ := exists_digitChar_of_mem hbase hmem
    have hvalue := hexDigit?_of_toLower (by omega) hlower
    rw [hlower, digitValue_digitChar (by omega), digitValue, digitIn?, hvalue]
    simp [hd]
  refine ⟨fun c hc => (hdigit c hc).1, ?_⟩
  have hmap : digits.map digitValue = (Nat.toDigits base n).map digitValue := by
    rw [← h, List.map_map]
    exact List.map_congr_left fun c hc => (hdigit c hc).2
  rw [hmap]
  exact ofDigits_map_toDigits hbase (fun d hd => digitValue_digitChar (by omega)) n

theorem areDigits_toDigits_ten (n : Nat) : AreDigits 10 n (Nat.toDigits 10 n) := by
  have hlower : ∀ c ∈ Nat.toDigits 10 n, c.toLower = c := by
    intro c hc
    obtain ⟨d, hd, rfl⟩ := exists_digitChar_of_mem (by decide) hc
    have all : ∀ m : Fin 10, m.val.digitChar.toLower = m.val.digitChar := by decide
    exact all ⟨d, hd⟩
  exact (List.map_congr_left hlower).trans (List.map_id _)

theorem markedNumeral?_of_spaced {text : List Char} (hbase : 1 < base) (hbase' : base ≤ 16)
    (hdigits : AreDigits base n digits) (h : Spaced digits text) :
    markedNumeral? base text = some n := by
  obtain ⟨hvalue, hn⟩ := digits_of_areDigits hbase hbase' hdigits
  obtain ⟨c, ds, more, rfl, rfl⟩ := h.exists_cons
  have hc : c ≠ '_' := by
    rintro rfl
    have := hvalue '_' List.mem_cons_self
    rw [digitIn?_underscore] at this
    cases this
  rw [markedNumeral?.eq_2 _ _ (by simpa using hc), digitRun?_of_spaced h hvalue, Option.map_some,
    hn]

/-- A number other than zero has no leading zeros. -/
theorem head?_digits_of_pos (hn : 0 < n) :
    ((Nat.toDigits 10 n).map digitValue).head? ≠ some 0 := by
  obtain ⟨c, ds, hcons, hc⟩ := Json.exists_toDigits_cons hn
  have hmem : c ∈ Nat.toDigits 10 n := hcons ▸ List.mem_cons_self
  obtain ⟨d, hd, rfl⟩ := exists_digitChar_of_mem (by decide) hmem
  rw [hcons, List.map_cons, List.head?_cons, digitValue_digitChar (by omega)]
  rintro ⟨⟩
  exact hc rfl

theorem decimalNumeral?_of_spaced {text : List Char}
    (hlimit : (Nat.toDigits 10 n).length ≤ digitLimit) (h : Spaced (Nat.toDigits 10 n) text) :
    decimalNumeral? text = some n := by
  obtain ⟨hvalue, hn⟩ := digits_of_areDigits (by decide) (by decide) (areDigits_toDigits_ten n)
  have hzeros : (((Nat.toDigits 10 n).map digitValue).head? == some 0 &&
      ((Nat.toDigits 10 n).map digitValue).any (· != 0)) = false := by
    rcases Nat.eq_zero_or_pos n with rfl | hpos
    · rfl
    · simp [-List.head?_map, head?_digits_of_pos hpos]
  simp only [decimalNumeral?, digitRun?_of_spaced h hvalue, Option.bind_eq_bind, Option.bind_some,
    List.length_map, Nat.not_lt.mpr hlimit, hzeros, Bool.false_eq_true, if_false, hn]

/-- Every numeral of a number is read as that number. -/
theorem unsignedNumeral?_of_magnitude {text : List Char} (h : IsMagnitude n text) :
    unsignedNumeral? text = some n := by
  cases h with
  | decimal hlimit h =>
      have hmem : ∀ c ∈ text, c = '_' ∨ c.isDigit = true := fun c hc =>
        (h.mem hc).imp_right Json.isDigit_of_mem_toDigits
      rw [unsignedNumeral?.eq_7, decimalNumeral?_of_spaced hlimit h]
      all_goals
        rintro _ rfl
        exact absurd (hmem _ (List.mem_cons_of_mem _ List.mem_cons_self)) (by decide)
  | marked hmark hdigits h =>
      simp only [marks, List.mem_cons, Prod.mk.injEq, List.not_mem_nil, or_false] at hmark
      rcases hmark with ⟨rfl, rfl⟩ | ⟨rfl, rfl⟩ | ⟨rfl, rfl⟩ | ⟨rfl, rfl⟩ | ⟨rfl, rfl⟩ |
          ⟨rfl, rfl⟩ <;>
        exact markedNumeral?_of_spaced (by decide) (by decide) hdigits h

/-! ## numerals with a sign -/

theorem isPlain_of_digitIn? {c : Char} {d : Nat} (h : digitIn? base c = some d) : IsPlain c := by
  obtain ⟨h, -⟩ := Option.filter_eq_some_iff.mp h
  unfold hexDigit? at h
  split_ifs at h with hdecimal hlower hupper
  all_goals
    simp only [Bool.and_eq_true, decide_eq_true_eq, Char.le_def, UInt32.le_iff_toNat_le] at *
    unfold IsPlain
  · exact ⟨Nat.le_trans (by decide) hdecimal.1, Nat.lt_of_le_of_lt hdecimal.2 (by decide)⟩
  · exact ⟨Nat.le_trans (by decide) hlower.1, Nat.lt_of_le_of_lt hlower.2 (by decide)⟩
  · exact ⟨Nat.le_trans (by decide) hupper.1, Nat.lt_of_le_of_lt hupper.2 (by decide)⟩

theorem Spaced.isPlain {text : List Char} {value : Char → Nat}
    (hvalue : ∀ c ∈ digits, digitIn? base c = some (value c)) (h : Spaced digits text) :
    ∀ c ∈ text, IsPlain c := by
  intro c hc
  rcases h.mem hc with rfl | hmem
  · exact ⟨by decide, by decide⟩
  · exact isPlain_of_digitIn? (hvalue c hmem)

/-- A numeral without a sign begins with a decimal digit and has no white space. -/
theorem plain_of_magnitude {text : List Char} (h : IsMagnitude n text) :
    (∃ c more, text = c :: more ∧ c.isDigit = true) ∧ ∀ c ∈ text, IsPlain c := by
  cases h with
  | decimal hlimit h =>
      obtain ⟨hvalue, -⟩ :=
        digits_of_areDigits (by decide) (by decide) (areDigits_toDigits_ten n)
      obtain ⟨c, ds, more, hcons, htext⟩ := h.exists_cons
      have hmem : c ∈ Nat.toDigits 10 n := hcons ▸ List.mem_cons_self
      exact ⟨⟨c, more, htext, Json.isDigit_of_mem_toDigits hmem⟩, h.isPlain hvalue⟩
  | @marked mark base digits text hmark hdigits h =>
      have hmarks : ∀ m ∈ marks, IsPlain m.1 ∧ 1 < m.2 ∧ m.2 ≤ 16 := by
        unfold IsPlain
        decide
      obtain ⟨hmark, hbase, hbase'⟩ := hmarks _ hmark
      obtain ⟨hvalue, -⟩ := digits_of_areDigits hbase hbase' hdigits
      refine ⟨⟨'0', _, rfl, rfl⟩, ?_⟩
      rw [List.forall_mem_cons, List.forall_mem_cons]
      exact ⟨⟨by decide, by decide⟩, hmark, h.isPlain hvalue⟩

/-- A numeral is read as the integer that it is one of. -/
theorem numeral?_of_spells {text : List Char} {n : Int} (h : Spells text n) :
    numeral? text = some n := by
  obtain ⟨before, sign, magnitude, after, rfl, hbefore, hafter, hsign, hmagnitude⟩ := h
  obtain ⟨⟨c, more, hcons, hc⟩, hplain⟩ := plain_of_magnitude hmagnitude
  have hvalue := unsignedNumeral?_of_magnitude hmagnitude
  have hsigned : ∀ c ∈ sign ++ magnitude, IsPlain c := by
    rw [List.forall_mem_append]
    refine ⟨?_, hplain⟩
    cases hsign with
    | none => exact nofun
    | plus | minus => exact List.forall_mem_singleton.mpr ⟨by decide, by decide⟩
  rw [numeral?, plainNumeral_eq hbefore hafter hsigned (by simp [hcons])]
  cases hsign with
  | none hn =>
      rw [List.nil_append, hcons]
      split
      next hhead =>
        obtain ⟨rfl, -⟩ := List.cons.inj hhead
        exact absurd hc (by decide)
      next hhead =>
        obtain ⟨rfl, -⟩ := List.cons.inj hhead
        exact absurd hc (by decide)
      next => rw [← hcons, hvalue, Option.map_some, Int.ofNat_eq_natCast, Int.natAbs_of_nonneg hn]
  | plus hn => simp [hvalue, Int.natAbs_of_nonneg hn]
  | minus hn =>
      have hneg : -(n.natAbs : Int) = n := by omega
      simpa [hvalue] using hneg

end Symbolication.Number
