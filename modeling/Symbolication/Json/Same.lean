import Symbolication.Json.Value

/-!
# Symbolication.Json.Same

When two values of documents say the same. Truth values count as the numbers zero
and one, numbers are compared by what they are and not by how they are written,
and the order of the members of an object does not matter. What is no number is
the same as nothing else, but inside of lists and objects it is the same as
itself.

* `Json.sameItem_text`: strings are the same if they are equal.
-/

namespace Symbolication

open Number

/-- Whether two numbers are equal; the two zeros are. -/
def Number.Binary64.same (x y : Binary64) : Bool :=
  x != .nan && (x == y || (x.isZero && y.isZero))

/-- Whether a number is equal to an integer. -/
def Number.Binary64.isInteger (x : Binary64) (n : Int) : Bool :=
  match x with
  | .finite negative mantissa exponent =>
    let size : Int := (mantissa <<< exponent.toNat : Nat)
    (if negative then -size else size) == n * (1 <<< (-exponent).toNat : Nat)
  | _ => false

namespace Json

/-- The integer that a value counts as, if it is one or a truth value. -/
def asInteger? : Json → Option Int
  | bool b => some (if b then 1 else 0)
  | int n => some n
  | _ => none

/-- Whether two values are the same number. -/
def sameNumber (v w : Json) : Bool :=
  match v.asInteger?, w.asInteger?, v, w with
  | some m, some n, _, _ => m == n
  | some n, none, _, real x => x.isInteger n
  | none, some n, real x, _ => x.isInteger n
  | none, none, real x, real y => (x == .nan && y == .nan) || x.same y
  | _, _, _, _ => false

mutual

/-- Whether two values inside of others say the same. -/
def sameItem : Json → Json → Bool
  | null, null => true
  | text s, text t => s == t
  | list items, list others => sameItems items others
  | object members, object others =>
    members.length == others.length && sameMembers others members
  | v, w => sameNumber v w

/-- Whether two lists hold the same values. -/
def sameItems : List Json → List Json → Bool
  | [], [] => true
  | v :: rest, w :: others => sameItem v w && sameItems rest others
  | _, _ => false

/-- Whether members are among others, with the same values. -/
def sameMembers (others : List (String × Json)) : List (String × Json) → Bool
  | [] => true
  | (name, v) :: rest =>
    (match member? name others with
      | some w => sameItem v w
      | none => false) && sameMembers others rest

end

/-- Whether two values say the same. -/
def same : Json → Json → Bool
  | real x, real y => x.same y
  | v, w => sameItem v w

/-- Strings are the same if they are equal. -/
theorem sameItem_text (s t : String) : sameItem (text s) (text t) = (s == t) := by
  simp [sameItem]

end Json

end Symbolication
