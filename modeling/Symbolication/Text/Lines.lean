/-!
# Symbolication.Text.Lines

Cutting a text into lines. Every line break of the Unicode standard counts, a
carriage return followed by a line feed is one break, and a break at the end of
the text opens no further line.

* `splitLines_joinLines`: texts without breaks, each ended by a line feed, are
  found again;
* `unifyNewlines`: the reading of text files, where the three usual line ends
  become a line feed.
-/

namespace Symbolication.Text

/-- Whether the character ends a line. -/
def isLineBreak (c : Char) : Bool :=
  (0x0A ≤ c.toNat && c.toNat ≤ 0x0D) || (0x1C ≤ c.toNat && c.toNat ≤ 0x1E) ||
    c.toNat == 0x85 || c.toNat == 0x2028 || c.toNat == 0x2029

/-- The lines of a text, without their breaks. -/
def splitLines : List Char → List (List Char)
  | [] => []
  | '\r' :: '\n' :: rest => [] :: splitLines rest
  | c :: rest =>
    if isLineBreak c then
      [] :: splitLines rest
    else
      match splitLines rest with
      | [] => [[c]]
      | line :: lines => (c :: line) :: lines

/-- The lines, each ended by a line feed. -/
def joinLines (lines : List (List Char)) : List Char :=
  lines.flatMap (· ++ ['\n'])

/-- The text with a lone carriage return, and one before a line feed, read as a line feed. -/
def unifyNewlines : List Char → List Char
  | [] => []
  | '\r' :: '\n' :: rest => '\n' :: unifyNewlines rest
  | '\r' :: rest => '\n' :: unifyNewlines rest
  | c :: rest => c :: unifyNewlines rest

/-- Nothing happens to a text without carriage returns. -/
theorem unifyNewlines_of_notMem {s : List Char} (h : '\r' ∉ s) : unifyNewlines s = s := by
  induction s with
  | nil => rfl
  | cons c rest ih =>
    rw [List.mem_cons, not_or] at h
    rw [unifyNewlines, ih h.2]
    · rintro rest rfl
      exact absurd rfl h.1
    · rintro rfl
      exact absurd rfl h.1

theorem splitLines_line_append (line rest : List Char) (h : ∀ c ∈ line, isLineBreak c = false) :
    splitLines (line ++ '\n' :: rest) = line :: splitLines rest := by
  induction line with
  | nil =>
    rw [List.nil_append, splitLines]
    · rw [if_pos (by decide)]
    · intro r hr; exact absurd hr (by decide)
  | cons c line ih =>
    have hc : isLineBreak c = false := h c (by simp)
    have hr : c ≠ '\r' := by rintro rfl; exact absurd hc (by decide)
    rw [List.cons_append, splitLines]
    · simp [hc, ih fun d hd => h d (by simp [hd])]
    · intro r hcr; exact absurd hcr hr

/-- Texts without breaks, each ended by a line feed, are found again. -/
theorem splitLines_joinLines (lines : List (List Char))
    (h : ∀ line ∈ lines, ∀ c ∈ line, isLineBreak c = false) :
    splitLines (joinLines lines) = lines := by
  induction lines with
  | nil => rfl
  | cons line lines ih =>
    have hcons : joinLines (line :: lines) = line ++ '\n' :: joinLines lines := by
      simp [joinLines]
    rw [hcons, splitLines_line_append line _ (h line (by simp)),
      ih fun l hl => h l (by simp [hl])]

end Symbolication.Text
