/-!
# Symbolication.Profile.Basic

Profiles: sampled addresses, the regions of binaries they lie in, and the
functions found for them. Records refer to each other by position in the lists
of the profile, since ids, which come from outside, need not be unique.

Labels (file names, build ids, function names) are strings. A profile document may
hold other values in their place, so the records are stated for any type of
labels.

* `ProfileOf.WellFormed`: every reference names a record of the profile.
-/

namespace Symbolication

/-- One region of a binary that the profile refers to. The flags say what has been found for it so
far. -/
structure MappingOf (τ : Type) where
  id : Int
  start : Int := 0
  /-- The address after the region. -/
  limit : Int := 0
  offset : Int := 0
  file : τ
  buildId : τ
  hasFunctions : Bool := false
  hasFilenames : Bool := false
  hasLineNumbers : Bool := false
  /-- Inlined calls have been looked for. -/
  hasInlineFrames : Bool := false
deriving DecidableEq, Repr

/-- A function: the name to display, the name that the binary reports, possibly mangled, and the
file that defines it. -/
structure FunctionOf (τ : Type) where
  id : Int
  name : τ
  /-- The name that the binary reports. -/
  systemName : τ
  filename : τ
deriving DecidableEq, Repr

/-- A call at an address: the position of the function, and the source line, zero if unknown. -/
structure Line where
  /-- The position of the function in the profile. -/
  function : Nat
  line : Int := 0
deriving DecidableEq, Repr

/-- A sampled address. More than one line means inlined calls, the innermost first. -/
structure Location where
  id : Int
  address : Int := 0
  /-- The position of the mapping that the address lies in. -/
  mapping : Option Nat := none
  lines : List Line := []
deriving DecidableEq, Repr

/-- A profile. The order of its lists is that of its document. -/
structure ProfileOf (τ : Type) where
  mappings : List (MappingOf τ) := []
  functions : List (FunctionOf τ) := []
  locations : List Location := []
deriving DecidableEq, Repr

/-- A mapping whose labels are strings. -/
abbrev Mapping := MappingOf String

/-- A function whose labels are strings. -/
abbrev Function := FunctionOf String

/-- A profile whose labels are strings. -/
abbrev Profile := ProfileOf String

variable {τ : Type}

namespace ProfileOf

/-- Every reference of the profile names one of its records. -/
structure WellFormed (p : ProfileOf τ) : Prop where
  mapping_lt : ∀ l ∈ p.locations, ∀ i ∈ l.mapping, i < p.mappings.length
  function_lt : ∀ l ∈ p.locations, ∀ line ∈ l.lines, line.function < p.functions.length

/-- The mapping that a location lies in. -/
def mappingOf? (p : ProfileOf τ) (l : Location) : Option (MappingOf τ) := do
  p.mappings[← l.mapping]?

/-- Whether some location lies in the mapping at a position. -/
def refersTo (p : ProfileOf τ) (i : Nat) : Bool :=
  p.locations.any fun l => l.mapping == some i

/-- The number of mappings that some location lies in. -/
def referencedCount (p : ProfileOf τ) : Nat :=
  (List.range p.mappings.length).countP p.refersTo

end ProfileOf

end Symbolication
