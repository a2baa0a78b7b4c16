/-!
# Symbolication.Text.Search

Looking for one text inside another, and cutting a text at a separator.

* `occursIn_iff`: the search finds exactly the runs of consecutive characters;
* `notMem_splitOn`: no part holds the separator.
-/

namespace Symbolication.Text

/-- Whether the characters of `part` stand one after another somewhere in the text. -/
def occursIn (part : List Char) : List Char → Bool
  | [] => part.isEmpty
  | c :: rest => part.isPrefixOf (c :: rest) || occursIn part rest

/-- The search finds exactly the runs of consecutive characters. -/
theorem occursIn_iff (part s : List Char) : occursIn part s = true ↔ part <:+: s := by
  induction s with
  | nil => simp [occursIn]
  | cons c rest ih => simp [occursIn, ih, List.infix_cons_iff]

/-- The parts of a text between the occurrences of a separator; one more than there are of them. -/
def splitOn (sep : Char) : List Char → List (List Char)
  | [] => [[]]
  | c :: rest =>
    if c == sep then [] :: splitOn sep rest
    else
      match splitOn sep rest with
      | [] => [[c]]
      | part :: parts => (c :: part) :: parts

/-- No part holds the separator. -/
theorem notMem_splitOn (sep : Char) (s : List Char) : ∀ part ∈ splitOn sep s, sep ∉ part := by
  induction s with
  | nil => simp [splitOn]
  | cons c rest ih =>
    unfold splitOn
    split
    · simpa using ih
    · rename_i hc
      have hne : sep ≠ c := fun h => hc (by simp [h])
      split
      · simpa using hne
      · rename_i part parts hparts
        intro p hp
        rw [hparts] at ih
        simp only [List.mem_cons] at hp ih
        rcases hp with rfl | hp
        · simpa [hne] using ih part (Or.inl rfl)
        · exact ih p (Or.inr hp)

end Symbolication.Text
