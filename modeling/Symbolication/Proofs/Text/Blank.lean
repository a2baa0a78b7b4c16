import Mathlib.Data.List.Basic
import Symbolication.Text.Blank
import Symbolication.Text.DecimalDigit

/-!
# Symbolication.Proofs.Text.Blank

What stripping does to a text: it takes off the white space around it, and no more.  White
space is no digit, so that a text that ends in a digit is left as it is.

* `exists_strip` — what is taken off is white space;
* `dropWhile_framed`, `strip_framed` — what neither begins nor ends with it stays;
* `decimalDigit?_of_isBlank` — no digit of any script is white space.
-/

namespace Symbolication.Text

theorem forall_mem_of_all {s : List Char} {P : Char → Prop} [DecidablePred P]
    (h : (s.all fun c => decide (P c)) = true) : ∀ c ∈ s, P c := by
  simpa using h

/-! ## stripping -/

theorem isBlank_of_mem_takeWhile {c : Char} {s : List Char} (h : c ∈ s.takeWhile isBlank) :
    isBlank c = true :=
  List.all_eq_true.mp List.all_takeWhile c h

/-- What stripping takes off is white space. -/
theorem exists_strip (s : List Char) :
    ∃ before after, s = before ++ strip s ++ after ∧ (∀ c ∈ before, isBlank c = true) ∧
      ∀ c ∈ after, isBlank c = true := by
  have hend : ∀ t : List Char, t = stripEnd t ++ (t.reverse.takeWhile isBlank).reverse := by
    intro t
    rw [stripEnd, ← List.reverse_append, List.takeWhile_append_dropWhile, List.reverse_reverse]
  refine ⟨s.takeWhile isBlank, ((s.dropWhile isBlank).reverse.takeWhile isBlank).reverse, ?_,
    fun c hc => isBlank_of_mem_takeWhile hc, fun c hc => ?_⟩
  · rw [strip, List.append_assoc, ← hend, List.takeWhile_append_dropWhile]
  · exact isBlank_of_mem_takeWhile (List.mem_reverse.mp hc)

/-- What is left does not end with white space. -/
theorem getLast?_strip {c : Char} {s : List Char} (h : (strip s).getLast? = some c) :
    isBlank c = false := by
  rw [strip, stripEnd, List.getLast?_reverse] at h
  have hhead := List.head?_dropWhile_not isBlank (s.dropWhile isBlank).reverse
  rw [h] at hhead
  exact hhead

theorem dropWhile_of_head? {p : Char → Bool} {s : List Char}
    (h : ∀ c, s.head? = some c → p c = false) : s.dropWhile p = s := by
  cases s with
  | nil => rfl
  | cons c s =>
      have hc : p c = false := h c rfl
      rw [List.dropWhile_cons_of_neg (by simp [hc])]

/-- Characters of a kind around a text that neither begins nor ends with one are taken off. -/
theorem dropWhile_framed {p : Char → Bool} {before s after : List Char}
    (hbefore : ∀ c ∈ before, p c = true) (hafter : ∀ c ∈ after, p c = true) (hne : s ≠ [])
    (hhead : ∀ c, s.head? = some c → p c = false) (hlast : ∀ c, s.getLast? = some c → p c = false) :
    (((before ++ s ++ after).dropWhile p).reverse.dropWhile p).reverse = s := by
  have hfront : (before ++ s ++ after).dropWhile p = s ++ after := by
    rw [List.append_assoc, List.dropWhile_append_of_pos hbefore]
    refine dropWhile_of_head? fun c hc => hhead c ?_
    rwa [List.head?_append_of_ne_nil _ hne] at hc
  have hback : (s ++ after).reverse.dropWhile p = s.reverse := by
    rw [List.reverse_append, List.dropWhile_append_of_pos (by simpa using hafter)]
    refine dropWhile_of_head? fun c hc => hlast c ?_
    rwa [List.head?_reverse] at hc
  rw [hfront, hback, List.reverse_reverse]

/-- White space around a text that neither begins nor ends with any is taken off. -/
theorem strip_framed {before s after : List Char} (hbefore : ∀ c ∈ before, isBlank c = true)
    (hafter : ∀ c ∈ after, isBlank c = true) (hne : s ≠ [])
    (hhead : ∀ c, s.head? = some c → isBlank c = false)
    (hlast : ∀ c, s.getLast? = some c → isBlank c = false) :
    strip (before ++ s ++ after) = s :=
  dropWhile_framed hbefore hafter hne hhead hlast

/-! ## digits -/

/-- White space is no digit. -/
theorem decimalDigit?_of_isBlank {c : Char} (h : isBlank c = true) : decimalDigit? c = none := by
  have hapart : ∀ r ∈ blankRanges, ∀ first ∈ zeroDigits, r.2 < first ∨ first + 10 ≤ r.1 := by decide
  obtain ⟨r, hr, hc⟩ := List.any_eq_true.mp h
  have hc : r.1 ≤ c.toNat ∧ c.toNat ≤ r.2 := by simpa using hc
  rw [decimalDigit?, Option.map_eq_none_iff, List.find?_eq_none]
  intro first hfirst hdigit
  have hdigit : first ≤ c.toNat ∧ c.toNat < first + 10 := by simpa using hdigit
  have := hapart r hr first hfirst
  omega

end Symbolication.Text
