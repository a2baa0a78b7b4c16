import Symbolication.Number.Hexadecimal
import Symbolication.Text.Blank
import Symbolication.Text.Lines
import Symbolication.Text.Utf8

/-!
# Symbolication.Remote.Answer

What goes to a symbol server and what comes back: a list of addresses with plus
signs between them, and lines with an address and a name.

* `name_ne_nil_of_answer`: an answer always has a name.
-/

namespace Symbolication

open Number Text

namespace Remote

/-- The payload that asks for addresses. -/
def payload (addresses : List Int) : String :=
  "+".intercalate (addresses.map hex)

/-- The address and the name on a line. The address has hexadecimal digits in either case, and
white space stands between the two. -/
def answerOfLine? : List Char → Option (Nat × List Char)
  | '0' :: 'x' :: rest =>
    let digits := rest.takeWhile isHexDigit
    let rest := rest.dropWhile isHexDigit
    let name := rest.dropWhile isBlank
    if digits.isEmpty || name.isEmpty || name.length == rest.length then none
    else some (readHex digits, name)
  | _ => none

/-- An answer always has a name. -/
theorem name_ne_nil_of_answer {line name : List Char} {address : Nat}
    (h : answerOfLine? line = some (address, name)) : name ≠ [] := by
  unfold answerOfLine? at h
  split at h
  · simp only at h
    split at h
    · simp at h
    · rename_i hne
      simp only [Option.some.injEq, Prod.mk.injEq] at h
      simp only [Bool.or_eq_true, List.isEmpty_iff, not_or] at hne
      rw [← h.2]
      exact hne.1.2
  · simp at h

/-- The answers of a server, in the order of their lines. -/
def answers (body : List UInt8) : List (Nat × String) :=
  (splitLines (Utf8.decodeLossy body)).filterMap fun line =>
    (answerOfLine? (strip line)).map fun (address, name) => (address, String.ofList name)

end Remote

end Symbolication
