import Symbolication.Json.Reader
import Symbolication.Json.Writer

/-!
# Symbolication.Proofs.Json.Numerals

Integers of documents are read as they were written.  A numeral ends where something
stands that could not be part of a number; the sign and the digits in front of that give
the integer, as long as it is within the limit:

* `readWhole?_toDigits` — the digits of a number are one whole part, without leading zeros;
* `readNumber_toString` — an integer that can be written is read again.
-/

namespace Symbolication

open Number

namespace Json

/-- What may follow an integer: nothing that could be part of a number. -/
def EndsNumber (rest : List Char) : Prop :=
  ∀ c ∈ rest.head?, c.isDigit = false ∧ c ≠ '.' ∧ c ≠ 'e' ∧ c ≠ 'E'

/-! ## digits -/

/-- Only zero begins with a zero. -/
theorem exists_toDigits_cons {n : Nat} (h : 0 < n) :
    ∃ c digits, Nat.toDigits 10 n = c :: digits ∧ c ≠ '0' := by
  induction n using Nat.strongRecOn with
  | _ n ih =>
      by_cases hn : n < 10
      · refine ⟨n.digitChar, [], Nat.toDigits_of_lt_base hn, ?_⟩
        rw [ne_eq, Nat.digitChar_eq_zero]
        omega
      · obtain ⟨c, digits, hdigits, hc⟩ := ih (n / 10) (by omega) (by omega)
        rw [Nat.toDigits_of_base_le (by decide) (by omega), hdigits]
        exact ⟨c, _, rfl, hc⟩

theorem isDigit_of_mem_toDigits {n : Nat} {c : Char} (h : c ∈ Nat.toDigits 10 n) :
    c.isDigit = true :=
  Nat.isDigit_of_mem_toDigits (by decide) (by decide) h

theorem digitsAt_append {digits rest : List Char} (hdigits : ∀ c ∈ digits, c.isDigit = true)
    (hrest : EndsNumber rest) : digitsAt (digits ++ rest) = (digits, rest) := by
  rw [digitsAt, List.takeWhile_append_of_pos hdigits, List.dropWhile_append_of_pos hdigits]
  cases rest with
  | nil => simp
  | cons c rest =>
      have hc : c.isDigit = false := (hrest c rfl).1
      simp [hc]

/-- The digits of a number are one whole part. -/
theorem readWhole?_toDigits (n : Nat) {rest : List Char} (hrest : EndsNumber rest) :
    readWhole? (Nat.toDigits 10 n ++ rest) = some (Nat.toDigits 10 n, rest) := by
  rcases Nat.eq_zero_or_pos n with rfl | hn
  · simp [readWhole?]
  · obtain ⟨c, digits, hdigits, hc⟩ := exists_toDigits_cons hn
    have hall : ∀ d ∈ c :: digits, d.isDigit = true := by
      rw [← hdigits]
      exact fun _ => isDigit_of_mem_toDigits
    rw [hdigits, List.cons_append, readWhole?.eq_2 _ _ (by simpa using hc),
      if_pos (hall c List.mem_cons_self), ← List.cons_append, digitsAt_append hall hrest]

theorem ofDigits_toDigits (n : Nat) :
    ofDigits 10 ((Nat.toDigits 10 n).map fun c => c.toNat - 48) = n := by
  rw [ofDigits, List.foldl_map]
  exact Nat.ofDigitChars_eq_foldl.symm.trans Nat.ofDigitChars_ten_toDigits

/-! ## numbers -/

theorem readFraction_of_endsNumber {rest : List Char} (h : EndsNumber rest) :
    readFraction rest = ([], rest) := by
  cases rest with
  | nil => rfl
  | cons c rest =>
      have hc : c ≠ '.' := (h c rfl).2.1
      rw [readFraction]
      intro d more hd
      exact hc (List.cons.inj hd).1

theorem readExponent_of_endsNumber {rest : List Char} (h : EndsNumber rest) :
    readExponent rest = (none, rest) := by
  cases rest with
  | nil => rfl
  | cons c rest =>
      obtain ⟨-, -, he, hE⟩ := h c rfl
      simp [readExponent, he, hE]

theorem exists_toDigits_append (n : Nat) (rest : List Char) :
    ∃ c more, Nat.toDigits 10 n ++ rest = c :: more ∧ c.isDigit = true := by
  obtain ⟨c, digits, hdigits⟩ : ∃ c digits, Nat.toDigits 10 n = c :: digits :=
    List.exists_cons_of_ne_nil Nat.toDigits_ne_nil
  refine ⟨c, digits ++ rest, by rw [hdigits, List.cons_append], ?_⟩
  exact isDigit_of_mem_toDigits (n := n) (by simp [hdigits])

theorem readNumber_toDigits {n : Nat} (h : (Nat.toDigits 10 n).length ≤ digitLimit)
    {rest : List Char} (hrest : EndsNumber rest) :
    readNumber (Nat.toDigits 10 n ++ rest) = .ok (.int n, rest) := by
  have hwhole := readWhole?_toDigits n hrest
  obtain ⟨c, more, hs, hc⟩ := exists_toDigits_append n rest
  have hminus : c ≠ '-' := by
    rintro rfl
    exact absurd hc (by decide)
  rw [hs] at hwhole ⊢
  unfold readNumber
  simp [hminus, hwhole, readFraction_of_endsNumber hrest,
    readExponent_of_endsNumber hrest, ofDigits_toDigits, Nat.not_lt.mpr h]

theorem readNumber_minus_toDigits {n : Nat} (h : (Nat.toDigits 10 n).length ≤ digitLimit)
    {rest : List Char} (hrest : EndsNumber rest) :
    readNumber ('-' :: Nat.toDigits 10 n ++ rest) = .ok (.int (-n), rest) := by
  unfold readNumber
  simp [readWhole?_toDigits n hrest, readFraction_of_endsNumber hrest,
    readExponent_of_endsNumber hrest, ofDigits_toDigits, Nat.not_lt.mpr h]

/-! ## integers -/

/-- The digits of an integer, behind its sign. -/
theorem toList_toString (n : Int) :
    (toString n).toList = (if n < 0 then ['-'] else []) ++ Nat.toDigits 10 n.natAbs := by
  rw [Int.toString_eq_repr, Int.repr_eq_if]
  by_cases hn : 0 ≤ n
  · have habs : n.toNat = n.natAbs := by omega
    rw [if_pos hn, if_neg (by omega), Nat.toList_repr, habs, List.nil_append]
  · have habs : (-n).toNat = n.natAbs := by omega
    rw [if_neg hn, if_pos (by omega), String.toList_append, Nat.toList_repr, habs]
    rfl

theorem length_toDigits_le {n : Int} (h : Number.isWritable n = true) :
    (Nat.toDigits 10 n.natAbs).length ≤ digitLimit := by
  -- for any limit, lest the power be computed
  have hlimit : ∀ limit : Nat, 0 < limit → decide (n.natAbs < Nat.pow 10 limit) = true →
      (Nat.toDigits 10 n.natAbs).length ≤ limit := fun limit hpos hlt =>
    (Nat.length_toDigits_le_iff (by decide) hpos).mpr (of_decide_eq_true hlt)
  exact hlimit digitLimit (by decide) h

/-- An integer that can be written is read again. -/
theorem readNumber_toString {n : Int} (h : Number.isWritable n = true) {rest : List Char}
    (hrest : EndsNumber rest) :
    readNumber ((toString n).toList ++ rest) = .ok (.int n, rest) := by
  have hlength := length_toDigits_le h
  rw [toList_toString]
  by_cases hn : n < 0
  · have hvalue : -(n.natAbs : Int) = n := by omega
    rw [if_pos hn, List.singleton_append, readNumber_minus_toDigits hlength hrest, hvalue]
  · have hvalue : (n.natAbs : Int) = n := by omega
    rw [if_neg hn, List.nil_append, readNumber_toDigits hlength hrest, hvalue]

end Json

end Symbolication
