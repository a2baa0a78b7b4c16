import Symbolication.Frame.Basic
import Symbolication.Profile.FunctionPool

/-!
# Symbolication.Profile.Resolve

Entering frames into a profile. The frames found are given as a list that goes
along with the locations: an empty stack means that nothing was found, and
locations beyond the end of the list have not been looked at.

* `map_id_resolve`: the locations of the profile stay the same, in their order,
  apart from their lines.
-/

namespace Symbolication

variable {τ : Type}

/-! ## Lines -/

/-- The lines for frames, whose functions are added to a pool. -/
def enterFrames (pool : FunctionPool τ) : List Frame → FunctionPool τ × List Line
  | [] => (pool, [])
  | f :: rest =>
    let (pool, function) := pool.intern ⟨f.func, f.func, f.file⟩
    let (pool, lines) := enterFrames pool rest
    (pool, { function, line := f.line } :: lines)

/-- The locations with lines for the frames found for them. -/
def enterStacks (pool : FunctionPool τ) :
    List Location → List (List Frame) → FunctionPool τ × List Location
  | l :: locations, frames :: rest =>
    if frames.isEmpty then
      let (pool, locations) := enterStacks pool locations rest
      (pool, l :: locations)
    else
      let (pool, lines) := enterFrames pool frames
      let (pool, locations) := enterStacks pool locations rest
      (pool, { l with lines } :: locations)
  | locations, _ => (pool, locations)

theorem map_id_enterStacks (pool : FunctionPool τ) (locations : List Location)
    (found : List (List Frame)) :
    (enterStacks pool locations found).2.map (fun l => (l.id, l.address, l.mapping)) =
      locations.map fun l => (l.id, l.address, l.mapping) := by
  induction locations generalizing pool found with
  | nil => simp [enterStacks]
  | cons l locations ih =>
    cases found with
    | nil => simp [enterStacks]
    | cons frames rest =>
      unfold enterStacks
      split <;> simp [ih]

/-! ## Flags -/

/-- The mapping with what the stacks of frames found in it show. -/
def MappingOf.withStacks (m : MappingOf τ) (found : List (List Frame)) : MappingOf τ :=
  { m with
    hasFunctions := m.hasFunctions || found.any (·.any (!·.func.isEmpty))
    hasFilenames := m.hasFilenames || found.any (·.any (!·.file.isEmpty))
    hasLineNumbers := m.hasLineNumbers || found.any (·.any (·.line != 0))
    hasInlineFrames := m.hasInlineFrames || !found.isEmpty }

namespace ProfileOf

/-- The stacks of frames found in the mapping at a position. -/
def stacksIn (p : ProfileOf τ) (found : List (List Frame)) (i : Nat) : List (List Frame) :=
  (p.locations.zip found).filterMap fun (l, frames) =>
    if l.mapping == some i && !frames.isEmpty then some frames else none

/-- The profile with the frames that were found for its locations. -/
def resolve [Label τ] (p : ProfileOf τ) (found : List (List Frame)) : ProfileOf τ :=
  let (pool, locations) := enterStacks { old := p.functions } p.locations found
  { mappings := p.mappings.mapIdx fun i m => m.withStacks (p.stacksIn found i)
    functions := pool.functions
    locations }

/-- The locations of the profile stay the same, in their order, apart from their lines. -/
theorem map_id_resolve [Label τ] (p : ProfileOf τ) (found : List (List Frame)) :
    (p.resolve found).locations.map (fun l => (l.id, l.address, l.mapping)) =
      p.locations.map fun l => (l.id, l.address, l.mapping) :=
  map_id_enterStacks _ _ _

end ProfileOf

end Symbolication
