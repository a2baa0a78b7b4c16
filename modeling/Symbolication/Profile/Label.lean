import Symbolication.Json.Same

/-!
# Symbolication.Profile.Label

The labels of a profile: file names, build ids, names of functions. A label is a
text, but a profile document may hold other values in the place of one. Such a
profile can be worked on too, as long as nothing is asked of a label that only a
text can give.

* `Label.text_ofText`: the label of a text is that text;
* `Label.isEmpty_ofText`: it is empty if the text is.
-/

namespace Symbolication

/-- What can be asked of labels of type `τ`. -/
class Label (τ : Type) where
  /-- The label that a text is. -/
  ofText : String → τ
  /-- The text that a label is, or the kind of what stands in its place. -/
  text : τ → Except Json.Kind String
  text_ofText (s : String) : text (ofText s) = .ok s
  /-- The label as reports and notices show it. -/
  shown : τ → String
  /-- Whether two labels say the same. -/
  same : τ → τ → Bool
  /-- Whether what is kept under one label is found under another. -/
  sameKey : τ → τ → Bool
  /-- The kind of a label under which nothing can be kept. -/
  keyless? : τ → Option Json.Kind

attribute [simp] Label.text_ofText

namespace Label

variable {τ : Type} [Label τ]

/-- Whether the label is a certain text. -/
def isText (label : τ) (s : String) : Bool :=
  match text label with
  | .ok t => t == s
  | .error _ => false

/-- Whether the label is an empty text. -/
def isEmpty (label : τ) : Bool :=
  match text label with
  | .ok s => s.isEmpty
  | .error _ => false

/-- The label as it is shown, or another text if it is empty. -/
def shownOr (other : String) (label : τ) : String :=
  if isEmpty label then other else shown label

/-- The label of a text is empty if the text is. -/
@[simp] theorem isEmpty_ofText (s : String) : isEmpty (ofText s : τ) = s.isEmpty := by
  simp [isEmpty]

end Label

/-! ## Texts -/

/-- Texts are labels. -/
instance : Label String where
  ofText := id
  text := .ok
  text_ofText _ := rfl
  shown := id
  same := (· == ·)
  sameKey := (· == ·)
  keyless? _ := none

/-! ## Values of documents -/

namespace Json

/-- The text that a value is, or the kind of the value. -/
def asText : Json → Except Kind String
  | .text s => .ok s
  | v => .error v.kind

/-- The value as it is shown: a string without its quotes. -/
def shown : Json → String
  | .text s => s
  | v => v.quoted

/-- The kind of a value under which nothing can be kept: lists and objects. -/
def keyless? : Json → Option Kind
  | .list _ => some .list
  | .object _ => some .object
  | _ => none

end Json

/-- Values of documents can stand in the place of labels. -/
instance : Label Json where
  ofText := .text
  text := Json.asText
  text_ofText _ := rfl
  shown := Json.shown
  same := Json.same
  sameKey := Json.sameItem
  keyless? := Json.keyless?

end Symbolication
