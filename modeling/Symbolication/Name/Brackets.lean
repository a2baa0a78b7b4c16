/-!
# Symbolication.Name.Brackets

Removing bracketed groups from a name: with parentheses, `f(pair<a,b>)` becomes
`f`. Only outermost groups count, so what is nested goes with them. A group that
is never closed stays, and a name with a closing bracket too many is left alone.

* `depthAfter`: the nesting depth behind a text, the measure that tells which
  brackets open and close an outermost group.
-/

namespace Symbolication.Name

/-- The nesting depth behind a text that begins at a given depth: none if more groups are closed
than are open. -/
def depthAfter (opening closing : Char) : Nat → List Char → Option Nat
  | depth, [] => some depth
  | depth, c :: rest =>
    if c == opening then depthAfter opening closing (depth + 1) rest
    else if c == closing then
      match depth with
      | 0 => none
      | depth + 1 => depthAfter opening closing depth rest
    else depthAfter opening closing depth rest

/-- What is left of a text that begins at a given depth; `held` is the open outermost group so far,
the last character first. None if more groups are closed than are open. -/
def outsideGroups (opening closing : Char) : Nat → List Char → List Char → Option (List Char)
  | _, held, [] => some held.reverse
  | 0, _, c :: rest =>
    if c == opening then outsideGroups opening closing 1 [c] rest
    else if c == closing then none
    else (outsideGroups opening closing 0 [] rest).map (c :: ·)
  | depth + 1, held, c :: rest =>
    if c == opening then outsideGroups opening closing (depth + 2) (c :: held) rest
    else if c == closing then
      match depth with
      | 0 => outsideGroups opening closing 0 [] rest
      | depth + 1 => outsideGroups opening closing (depth + 1) (c :: held) rest
    else outsideGroups opening closing (depth + 1) (c :: held) rest

/-- The name without its outermost groups. -/
def removeGroups (opening closing : Char) (name : List Char) : List Char :=
  (outsideGroups opening closing 0 [] name).getD name

/-- The name without its outermost groups. A bracket is a single character; other texts occur
nowhere as brackets, so with one of them nothing is removed. -/
def withoutGroups (opening closing : String) (name : String) : String :=
  match opening.toList, closing.toList with
  | [o], [c] => String.ofList (removeGroups o c name.toList)
  | _, _ => name

end Symbolication.Name
