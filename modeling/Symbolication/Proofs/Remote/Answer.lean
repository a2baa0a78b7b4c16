import Mathlib.Data.List.Forall2
import Symbolication.Proofs.Frame.Listing
import Symbolication.Proofs.Text.Blank
import Symbolication.Proofs.Text.Utf8
import Symbolication.Remote.Answer

/-!
# Symbolication.Proofs.Remote.Answer

What a server is asked, and what its answer says.  `IsAnswer` states the form of a line
that counts without the reader: an address and a name, with white space between them and
possibly around them.  The reader takes these lines and no others:

* `forall₂_payload`, `payload_inj` — the addresses that are asked for can be read off
  the payload;
* `answerOfLine?_strip` — the reader against the form of a line;
* `lastName?_eq_some_iff`, `lastName?_eq_none_iff` — the last answer for an address, in
  terms of the lines.
-/

namespace Symbolication

open Number Text

/-! ## digits -/

namespace Text

/-- The code of a hexadecimal digit lies between those of zero and the last letter. -/
theorem toNat_of_isHexDigit {c : Char} (h : isHexDigit c = true) :
    48 ≤ c.toNat ∧ c.toNat ≤ 102 := by
  have hval : c.toNat = c.val.toNat := rfl
  simp only [isHexDigit, hexDigit?, Bool.and_eq_true, decide_eq_true_eq, Char.le_def,
    UInt32.le_iff_toNat_le] at h
  split at h
  · simp at *
    omega
  · split at h
    · simp at *
      omega
    · split at h
      · simp at *
        omega
      · simp at h

/-- White space is no part of a number. -/
theorem isHexDigit_of_isBlank {c : Char} (h : isBlank c = true) : isHexDigit c = false := by
  cases hc : isHexDigit c with
  | false => rfl
  | true =>
      have hbetween := toNat_of_isHexDigit hc
      simp [isBlank, blankRanges, CodeRanges.covers] at h
      omega

/-- Digits are cut off where something else begins. -/
theorem cut_digits {digits rest : List Char} (hdigits : ∀ c ∈ digits, isHexDigit c = true)
    (hrest : ∀ c, rest.head? = some c → isHexDigit c = false) :
    (digits ++ rest).takeWhile isHexDigit = digits ∧
      (digits ++ rest).dropWhile isHexDigit = rest := by
  rw [List.takeWhile_append_of_pos hdigits, List.dropWhile_append_of_pos hdigits]
  cases rest with
  | nil => simp
  | cons c rest =>
      have hc : isHexDigit c = false := hrest c rfl
      simp [hc]

end Text

namespace Remote

/-! ## the payload -/

/-- The text is an address: the mark of base sixteen, and digits in either case. -/
def IsAddress (text : List Char) (address : Nat) : Prop :=
  ∃ digits, text = '0' :: 'x' :: digits ∧ digits ≠ [] ∧ (∀ c ∈ digits, isHexDigit c = true) ∧
    readHex digits = address

theorem isAddress_hex (n : Nat) : IsAddress (hex n).toList n := by
  refine ⟨Nat.toDigits 16 n, ?_, by simp, ?_, readHex_toDigits n⟩
  · rw [Listing.toList_hex, if_neg (by omega)]
    rfl
  · have hdigits : Listing.addressDigits.all isHexDigit = true := by decide
    exact fun c hc => List.all_eq_true.mp hdigits c (Listing.mem_addressDigits hc)

/-- The pieces of a payload are the addresses in it. -/
theorem splitOn_payload {addresses : List Int} (h : addresses ≠ []) :
    (payload addresses).toList.splitOn '+' = addresses.map fun a => (hex a).toList := by
  have hplus : ∀ piece ∈ addresses.map (fun a => (hex a).toList), '+' ∉ piece := by
    intro piece hpiece hmem
    obtain ⟨a, -, rfl⟩ := List.mem_map.mp hpiece
    exact absurd (Listing.mem_hex hmem) (by decide)
  have hjoin : (payload addresses).toList =
      ['+'].intercalate (addresses.map fun a => (hex a).toList) := by
    rw [payload, String.toList_intercalate, List.map_map]
    rfl
  rw [hjoin, List.splitOn_intercalate '+' hplus (by simpa using h)]

/-- Different addresses are written differently. -/
theorem hex_inj {a b : Int} (h : hex a = hex b) : a = b := by
  have hlist : (hex a).toList = (hex b).toList := congrArg String.toList h
  have hdigits : Nat.toDigits 16 a.natAbs = Nat.toDigits 16 b.natAbs → a.natAbs = b.natAbs := by
    intro hd
    rw [← readHex_toDigits a.natAbs, hd, readHex_toDigits]
  rw [Listing.toList_hex, Listing.toList_hex] at hlist
  by_cases ha : a < 0
  · by_cases hb : b < 0
    · rw [if_pos ha, if_pos hb] at hlist
      have habs := hdigits (by simpa using hlist)
      omega
    · rw [if_pos ha, if_neg hb] at hlist
      simp at hlist
  · by_cases hb : b < 0
    · rw [if_neg ha, if_pos hb] at hlist
      simp at hlist
    · rw [if_neg ha, if_neg hb] at hlist
      have habs := hdigits (by simpa using hlist)
      omega

/-- Different lists of addresses make different payloads. -/
theorem payload_inj {as bs : List Int} (ha : as ≠ []) (hb : bs ≠ [])
    (h : payload as = payload bs) : as = bs := by
  have hpieces : as.map (fun a => (hex a).toList) = bs.map fun b => (hex b).toList := by
    rw [← splitOn_payload ha, ← splitOn_payload hb, h]
  have hinj : Function.Injective fun a : Int => (hex a).toList :=
    fun _ _ hab => hex_inj (String.toList_injective hab)
  exact List.map_injective_iff.mpr hinj hpieces

/-- The text is an address with its sign: the amount of a negative one stands behind a minus. -/
inductive SpellsAddress : List Char → Int → Prop where
  | nonneg {text : List Char} {address : Nat} (h : IsAddress text address) :
      SpellsAddress text address
  | negative {text : List Char} {address : Nat} (h : IsAddress text address) (hpos : 0 < address) :
      SpellsAddress ('-' :: text) (-address)

theorem spellsAddress_hex (a : Int) : SpellsAddress (hex a).toList a := by
  by_cases ha : a < 0
  · have hneg : a = -((a.natAbs : Nat) : Int) := by omega
    have htext : (hex a).toList = '-' :: (hex (a.natAbs : Nat)).toList := by
      rw [Listing.toList_hex, Listing.toList_hex, if_pos ha, if_neg (by omega)]
      rfl
    rw [htext, hneg, Int.natAbs_neg, Int.natAbs_natCast]
    exact .negative (isAddress_hex a.natAbs) (by omega)
  · obtain ⟨n, rfl⟩ := Int.eq_ofNat_of_zero_le (Int.not_lt.mp ha)
    exact .nonneg (isAddress_hex n)

/-- An address that is not negative stands without a sign. -/
theorem SpellsAddress.isAddress {piece : List Char} {a : Int} (h : SpellsAddress piece a)
    (ha : 0 ≤ a) : IsAddress piece a.toNat := by
  cases h with
  | nonneg h => exact h
  | negative _ hpos => omega

/-- What is asked for can be read off the payload, piece by piece. -/
theorem forall₂_payload {addresses : List Int} (hne : addresses ≠ []) :
    List.Forall₂ SpellsAddress ((payload addresses).toList.splitOn '+') addresses := by
  rw [splitOn_payload hne, List.forall₂_map_left_iff, List.forall₂_same]
  exact fun a _ => spellsAddress_hex a

/-! ## a line -/

/-- The line says that an address has a name: the two of them stand on it in this order, with white
space between them and possibly around them. -/
def IsAnswer (line : List Char) (address : Nat) (name : List Char) : Prop :=
  ∃ before number gap after, line = before ++ (number ++ gap ++ name) ++ after ∧
    IsAddress number address ∧ gap ≠ [] ∧ name ≠ [] ∧
    (∀ c ∈ before ++ gap ++ after, isBlank c = true) ∧
    (∀ c, name.head? = some c → isBlank c = false) ∧
    ∀ c, name.getLast? = some c → isBlank c = false

/-- What the reader takes is an address, white space and a name. -/
theorem exists_of_answerOfLine? {line name : List Char} {address : Nat}
    (h : answerOfLine? line = some (address, name)) :
    ∃ number gap, line = number ++ gap ++ name ∧ IsAddress number address ∧ gap ≠ [] ∧
      (∀ c ∈ gap, isBlank c = true) ∧ ∀ c, name.head? = some c → isBlank c = false := by
  unfold answerOfLine? at h
  split at h
  · rename_i rest
    simp only at h
    split at h
    · simp at h
    · rename_i hcond
      simp only [Bool.or_eq_true, List.isEmpty_iff, beq_iff_eq, not_or] at hcond
      simp only [Option.some.injEq, Prod.mk.injEq] at h
      obtain ⟨haddress, hname⟩ := h
      obtain ⟨after, hafter⟩ : ∃ after, after = rest.dropWhile isHexDigit := ⟨_, rfl⟩
      rw [← hafter] at hname hcond
      have hgap : after.takeWhile isBlank ++ name = after := by
        rw [← hname, List.takeWhile_append_dropWhile]
      refine ⟨'0' :: 'x' :: rest.takeWhile isHexDigit, after.takeWhile isBlank, ?_,
        ⟨_, rfl, hcond.1.1, ?_, haddress⟩, ?_, ?_, ?_⟩
      · rw [List.append_assoc, hgap, hafter]
        simp
      · exact fun c hc => List.all_eq_true.mp List.all_takeWhile c hc
      · intro hnil
        rw [hnil, List.nil_append] at hgap
        exact hcond.2 (by rw [hname, hgap])
      · exact fun c hc => isBlank_of_mem_takeWhile hc
      · intro c hc
        have hhead := List.head?_dropWhile_not isBlank after
        rw [hname, hc] at hhead
        exact hhead
  · simp at h

/-- An address, white space and a name are taken by the reader. -/
theorem answerOfLine?_append {number gap name : List Char} {address : Nat}
    (hnumber : IsAddress number address) (hgap : gap ≠ []) (hname : name ≠ [])
    (hblank : ∀ c ∈ gap, isBlank c = true)
    (hhead : ∀ c, name.head? = some c → isBlank c = false) :
    answerOfLine? (number ++ gap ++ name) = some (address, name) := by
  obtain ⟨digits, rfl, hdigits, hhex, rfl⟩ := hnumber
  have hcut : ∀ c, (gap ++ name).head? = some c → isHexDigit c = false := by
    intro c hc
    rw [List.head?_append_of_ne_nil _ hgap] at hc
    exact isHexDigit_of_isBlank (hblank c (List.mem_of_mem_head? hc))
  obtain ⟨htake, hdrop⟩ := cut_digits hhex hcut
  have hskip : (gap ++ name).dropWhile isBlank = name := by
    rw [List.dropWhile_append_of_pos hblank, dropWhile_of_head? hhead]
  have hline : ('0' :: 'x' :: digits) ++ gap ++ name =
      '0' :: 'x' :: (digits ++ (gap ++ name)) := by simp
  rw [hline, answerOfLine?, htake, hdrop, hskip]
  simp [hdigits, hname, hgap]

/-- The reader takes the lines that say something, and no others. -/
theorem answerOfLine?_strip {line name : List Char} {address : Nat} :
    answerOfLine? (strip line) = some (address, name) ↔ IsAnswer line address name := by
  constructor
  · intro h
    obtain ⟨number, gap, hstrip, hnumber, hgap, hblank, hhead⟩ := exists_of_answerOfLine? h
    obtain ⟨before, after, hline, hbefore, hafter⟩ := exists_strip line
    have hname : name ≠ [] := name_ne_nil_of_answer h
    refine ⟨before, number, gap, after, by rw [← hstrip]; exact hline, hnumber, hgap, hname, ?_,
      hhead, ?_⟩
    · simp only [List.mem_append]
      rintro c ((hc | hc) | hc)
      · exact hbefore c hc
      · exact hblank c hc
      · exact hafter c hc
    · intro c hc
      refine getLast?_strip (s := line) ?_
      rw [hstrip, List.getLast?_append_of_ne_nil _ hname, hc]
  · intro h
    obtain ⟨before, number, gap, after, rfl, hnumber, hgap, hname, hblank, hhead, hlast⟩ := h
    simp only [List.mem_append] at hblank
    have hstrip : strip (before ++ (number ++ gap ++ name) ++ after) = number ++ gap ++ name := by
      refine strip_framed (fun c hc => hblank c (.inl (.inl hc)))
        (fun c hc => hblank c (.inr hc)) (by simp [hname]) ?_ ?_
      · obtain ⟨digits, rfl, -⟩ := hnumber
        intro c hc
        rw [List.append_assoc, List.cons_append, List.head?_cons, Option.some.injEq] at hc
        rw [← hc]
        decide
      · intro c hc
        rw [List.getLast?_append_of_ne_nil _ hname] at hc
        exact hlast c hc
    rw [hstrip]
    exact answerOfLine?_append hnumber hgap hname (fun c hc => hblank c (.inl (.inr hc))) hhead

/-! ## the last answer -/

/-- The name in the last of the answers for an address. -/
def lastName? (answers : List (Nat × String)) (address : Int) : Option String :=
  (answers.reverse.find? fun answer => (answer.1 : Int) == address).map (·.2)

/-- A line says something of an address. -/
def Says (lines : List (List Char)) (address : Int) : Prop :=
  ∃ line ∈ lines, ∃ (a : Nat) (name : List Char), (a : Int) = address ∧ IsAnswer line a name

/-- Of the lines that say something of an address, the last one gives it a name. -/
def LastSays (lines : List (List Char)) (address : Int) (name : String) : Prop :=
  ∃ (a : Nat) (earlier : List (List Char)) (line : List Char) (later : List (List Char)),
    (a : Int) = address ∧ lines = earlier ++ line :: later ∧ IsAnswer line a name.toList ∧
      ∀ other ∈ later, ∀ name', ¬ IsAnswer other a name'

/-- The answer on a line. -/
def answerOn? (line : List Char) : Option (Nat × String) :=
  (answerOfLine? (strip line)).map fun (address, name) => (address, String.ofList name)

theorem answers_eq (body : List UInt8) :
    answers body = (splitLines (Utf8.decodeLossy body)).filterMap answerOn? :=
  rfl

theorem answerOn?_eq_some_iff {line : List Char} {address : Nat} {name : String} :
    answerOn? line = some (address, name) ↔ IsAnswer line address name.toList := by
  rw [← answerOfLine?_strip, answerOn?]
  cases answerOfLine? (strip line) with
  | none => simp
  | some answer => simp [Prod.ext_iff, String.ext_iff]

/-- The answers are what the lines say. -/
theorem mem_answers {body : List UInt8} {address : Nat} {name : String} :
    (address, name) ∈ answers body ↔
      ∃ line ∈ splitLines (Utf8.decodeLossy body), IsAnswer line address name.toList := by
  simp only [answers_eq, List.mem_filterMap, answerOn?_eq_some_iff]

/-- The last answer for an address, in terms of the lines. -/
theorem lastName?_eq_some_iff {body : List UInt8} {address : Int} {name : String} :
    lastName? (answers body) address = some name ↔
      LastSays (splitLines (Utf8.decodeLossy body)) address name := by
  rw [lastName?, answers_eq, ← List.filterMap_reverse, List.find?_filterMap]
  simp only [Option.map_eq_some_iff, Option.bind_eq_some_iff, List.find?_eq_some_iff_append,
    Option.any_eq_true, beq_iff_eq]
  constructor
  · intro h
    obtain ⟨⟨a, _⟩, ⟨line, ⟨⟨_, hread, haddress⟩, later, earlier, hlines, hlater⟩, hanswer⟩, rfl⟩ :=
      h
    rw [hanswer, Option.some.injEq] at hread
    subst hread
    refine ⟨a, earlier.reverse, line, later.reverse, haddress, ?_,
      answerOn?_eq_some_iff.mp hanswer, ?_⟩
    · rw [← List.reverse_reverse (splitLines _), hlines]
      simp
    · intro other hother name' hanswer'
      have hread : answerOn? other = some (a, String.ofList name') := by
        rw [answerOn?_eq_some_iff, String.toList_ofList]
        exact hanswer'
      have hnot := hlater other (List.mem_reverse.mp hother)
      simp [hread, haddress] at hnot
  · intro h
    obtain ⟨a, earlier, line, later, haddress, hlines, hanswer, hlater⟩ := h
    have hread := answerOn?_eq_some_iff.mpr hanswer
    refine ⟨(a, name), ⟨line, ⟨⟨_, hread, haddress⟩, later.reverse, earlier.reverse, ?_, ?_⟩,
      hread⟩, rfl⟩
    · rw [hlines]
      simp
    · intro other hother
      cases hread' : answerOn? other with
      | none => rfl
      | some answer =>
          obtain ⟨a', name'⟩ := answer
          have hne : ¬ (a' : Int) = address := by
            intro ha
            have hsame : a' = a := by omega
            rw [hsame] at hread'
            exact hlater other (List.mem_reverse.mp hother) _ (answerOn?_eq_some_iff.mp hread')
          simpa using hne

/-- There is no last answer exactly if no line says anything of the address. -/
theorem lastName?_eq_none_iff {body : List UInt8} {address : Int} :
    lastName? (answers body) address = none ↔
      ¬ Says (splitLines (Utf8.decodeLossy body)) address := by
  rw [lastName?, Option.map_eq_none_iff, List.find?_eq_none, ← not_iff_not, not_not]
  simp only [List.mem_reverse, beq_iff_eq, not_forall, not_not]
  constructor
  · intro h
    obtain ⟨⟨a, name⟩, hanswer, haddress⟩ := h
    obtain ⟨line, hline, hsays⟩ := mem_answers.mp hanswer
    exact ⟨line, hline, a, name.toList, haddress, hsays⟩
  · intro h
    obtain ⟨line, hline, a, name, haddress, hsays⟩ := h
    have hanswer : (a, String.ofList name) ∈ answers body :=
      mem_answers.mpr ⟨line, hline, by rwa [String.toList_ofList]⟩
    exact ⟨_, hanswer, haddress⟩

end Remote

end Symbolication
