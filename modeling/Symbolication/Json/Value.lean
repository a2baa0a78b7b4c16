import Symbolication.Number.Binary64
import Symbolication.Text.Quoted

/-!
# Symbolication.Json.Value

JSON documents. Integers and numbers with a fraction or an exponent are told
apart, and the members of an object keep the order in which their names first
appeared.

* `Json.members_insert_of_notMem`: a new name goes to the end;
* `Json.kind`, `Json.isTruthy`, `Json.elements?`: what a reader that expects a
  certain shape may ask of any value.
-/

namespace Symbolication

open Number Text

/-- A JSON document. -/
inductive Json where
  | null
  | bool (b : Bool)
  | int (n : Int)
  /-- A number written with a fraction or an exponent, or one of the special numbers. -/
  | real (x : Binary64)
  | text (s : String)
  | list (items : List Json)
  | object (members : List (String × Json))
deriving Repr, Inhabited

namespace Json

/-- The kinds of values. -/
inductive Kind where
  | null
  | bool
  | int
  | real
  | text
  | list
  | object
deriving DecidableEq, Repr

/-- The kind as messages name it. -/
def Kind.name : Kind → String
  | .null => "NoneType"
  | .bool => "bool"
  | .int => "int"
  | .real => "float"
  | .text => "str"
  | .list => "list"
  | .object => "dict"

/-- The kind of a value. -/
def kind : Json → Kind
  | null => .null
  | bool _ => .bool
  | int _ => .int
  | real _ => .real
  | text _ => .text
  | list _ => .list
  | object _ => .object

/-- Whether a value counts as true: null, false, zero and whatever is empty do not. -/
def isTruthy : Json → Bool
  | null => false
  | bool b => b
  | int n => n != 0
  | real x => !x.isZero
  | text s => !s.isEmpty
  | list items => !items.isEmpty
  | object members => !members.isEmpty

/-- The values met when walking through a value: the items of an array, the names of an object, the
characters of a string. Other values cannot be walked through. -/
def elements? : Json → Option (List Json)
  | list items => some items
  | object members => some (members.map (text ·.1))
  | text s => some (s.toList.map fun c => text (String.singleton c))
  | _ => none

/-! ## Members of an object -/

/-- The members with the value of `name` set: in its place if the name is there, else at the end.
-/
def insertMember (name : String) (value : Json) :
    List (String × Json) → List (String × Json)
  | [] => [(name, value)]
  | m :: rest => if m.1 == name then (name, value) :: rest else m :: insertMember name value rest

/-- The members of an object from what was written: of equal names the last value counts. -/
def settleMembers (written : List (String × Json)) : List (String × Json) :=
  written.foldl (fun members m => insertMember m.1 m.2 members) []

/-- The value of a name among members. -/
def member? (name : String) (members : List (String × Json)) : Option Json :=
  members.lookup name

/-- A new name goes to the end. -/
theorem members_insert_of_notMem (name : String) (value : Json) (members : List (String × Json))
    (h : name ∉ members.map (·.1)) :
    insertMember name value members = members ++ [(name, value)] := by
  induction members with
  | nil => rfl
  | cons m rest ih =>
    simp only [List.map_cons, List.mem_cons, not_or] at h
    simp [insertMember, Ne.symm h.1, ih h.2]

/-! ## Quoting a value in a message -/

mutual

/-- The value as messages quote it. -/
def quoted : Json → String
  | null => "None"
  | bool b => if b then "True" else "False"
  | int n => toString n
  | real x => x.text
  | text s => quotedString s
  | list items => "[" ++ quotedItems items ++ "]"
  | object members => "\x7b" ++ quotedMembers members ++ "\x7d"

/-- The quoted items of an array, between commas. -/
def quotedItems : List Json → String
  | [] => ""
  | [v] => quoted v
  | v :: rest => quoted v ++ ", " ++ quotedItems rest

/-- The quoted members of an object, between commas. -/
def quotedMembers : List (String × Json) → String
  | [] => ""
  | [(name, v)] => quotedString name ++ ": " ++ quoted v
  | (name, v) :: rest => quotedString name ++ ": " ++ quoted v ++ ", " ++ quotedMembers rest

end

end Json

end Symbolication
