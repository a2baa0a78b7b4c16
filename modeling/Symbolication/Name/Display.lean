import Symbolication.Name.Decoder
import Symbolication.Profile.Basic
import Symbolication.Profile.Label

/-!
# Symbolication.Name.Display

Giving the functions of a profile the names they are shown by. A function that
has such a name already keeps it, unless everything is to begin anew. If decoding
a name fails, or a reported name is no text, the functions before it have their
new names and the others do not.

* `system_resetName`: what is known of a function beyond its display name stays.
-/

namespace Symbolication

open Name

/-- What a style leaves out of decoded names. -/
def NameStyle.options : NameStyle → List NameOption
  | .simple => [.noParams, .noTemplateParams]
  | .templates => [.noParams]
  | .full => [.noClones]
  | .system => []

/-- The display name that follows from the decoder's answer: the answer itself if the reported name
was decoded, else the reported name as the style shows it. -/
def NameStyle.displayName (style : NameStyle) (systemName answer : String) : String :=
  if answer != systemName then answer else String.ofList (simplify style systemName.toList)

variable {τ : Type} [Label τ]

namespace FunctionOf

/-- The function with the name that the binary reports, if it has names at all. -/
def resetName (fn : FunctionOf τ) : FunctionOf τ :=
  if !Label.isEmpty fn.name && !Label.isEmpty fn.systemName then { fn with name := fn.systemName }
  else fn

/-- Whether the function has a display name that differs from the reported one. -/
def isNamed (fn : FunctionOf τ) : Bool :=
  !Label.isEmpty fn.name && !Label.same fn.systemName fn.name

/-- The function with another display name. -/
def withName (fn : FunctionOf τ) (name : String) : FunctionOf τ :=
  { fn with name := Label.ofText name }

/-- What is known of a function beyond its display name stays. -/
theorem system_resetName (fn : FunctionOf τ) :
    fn.resetName.id = fn.id ∧ fn.resetName.systemName = fn.systemName ∧
      fn.resetName.filename = fn.filename := by
  unfold resetName; split <;> simp

end FunctionOf

variable {ω : Type}

/-- Names functions one after another. Gives the functions, the number of names changed, and how
the work ended. A name counts as changed if it was decoded, too. -/
def nameFunctions (demangler : Demangler ω) (style : NameStyle) :
    List (FunctionOf τ) → Step ω (List (FunctionOf τ) × Except Fault Nat)
  | [] => return ([], .ok 0)
  | fn :: rest =>
    if fn.isNamed then do
      let (rest, ended) ← nameFunctions demangler style rest
      return (fn :: rest, ended)
    else
      match Label.text fn.systemName with
      | .error kind => return (fn :: rest, .error (.notName kind))
      | .ok systemName => do
        match ← (demangler systemName style.options).run with
        | .error fault => return (fn :: rest, .error fault)
        | .ok answer =>
          let (rest, ended) ← nameFunctions demangler style rest
          let name := style.displayName systemName answer
          let isSame := answer == systemName && Label.isText fn.name name
          return (fn.withName name :: rest, ended.map ((if isSame then 0 else 1) + ·))

/-- The profile with the reported names in place of display names. -/
def ProfileOf.resetNames (p : ProfileOf τ) : ProfileOf τ :=
  { p with functions := p.functions.map FunctionOf.resetName }

/-- Names the functions of a profile in a style. With `force` they are all named anew. -/
def ProfileOf.displayNames (demangler : Demangler ω) (force : Bool) (style : NameStyle)
    (p : ProfileOf τ) : Step ω (ProfileOf τ × Except Fault Unit) := do
  let p := if force then p.resetNames else p
  if style == .system then
    return (p, .ok ())
  else
    let (functions, ended) ← nameFunctions demangler style p.functions
    let p := { p with functions }
    match ended with
    | .error fault => return (p, .error fault)
    | .ok changed =>
      note (.namesDecoded changed functions.length style)
      return (p, .ok ())

end Symbolication
