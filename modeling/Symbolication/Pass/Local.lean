import Symbolication.Profile.Resolve
import Symbolication.SegmentTable

/-!
# Symbolication.Pass.Local

The local pass: segments are opened, all addresses are looked up, and the frames
found are entered into the profile. A lookup that fails leaves its location as it
is. Any other fault ends the pass, but what has been found before it is entered,
and the segments are closed in every case.
-/

namespace Symbolication

variable {ω η τ : Type}

namespace ProfileOf

/-- The addresses of the locations in the mapping at a position. -/
def addressesIn (p : ProfileOf τ) (i : Nat) : List Int :=
  (p.locations.filter (·.mapping == some i)).map (·.address)

/-- The positions of the mappings that have segments, in the order in which locations refer to
them. -/
def segmentOrder (p : ProfileOf τ) (t : SegmentTable η) : List Nat :=
  (p.locations.filterMap fun l => l.mapping.filter t.contains).eraseDups

end ProfileOf

namespace LocalPass

variable [Label τ]

/-- Lets segments look up their addresses in advance. A failing lookup does no harm. -/
def prefetchEach (inspector : Inspector ω η) (p : ProfileOf τ) (t : SegmentTable η) :
    List Nat → Act ω Unit
  | [] => return ()
  | i :: rest => do
    match (t.get? (some i)).bind inspector.prefetch? with
    | none => pure ()
    | some prefetch =>
      tryCatch (prefetch (p.addressesIn i)) fun
        | .lookup cause => Act.note (.batchFailed (p.fileAt i) (.lookup cause))
        | fault => throw fault
    prefetchEach inspector p t rest

/-- The frames of the address of a location; none if it lies in no open segment or the lookup
fails. -/
def lookup (inspector : Inspector ω η) (p : ProfileOf τ) (t : SegmentTable η) (l : Location) :
    Act ω (List Frame) :=
  match t.get? l.mapping with
  | none => return []
  | some segment =>
    tryCatch (inspector.lookup segment l.address) fun
      | .lookup cause => do
        Act.note (.lookupFailed l.address (p.fileAt (l.mapping.getD 0)) (.lookup cause))
        return []
      | fault => throw fault

/-- The frames of locations one after another, up to a fault. -/
def lookupEach (inspector : Inspector ω η) (p : ProfileOf τ) (t : SegmentTable η) :
    List Location → Step ω (List (List Frame) × Except Fault Unit)
  | [] => return ([], .ok ())
  | l :: rest => do
    match ← (lookup inspector p t l).run with
    | .error fault => return ([], .error fault)
    | .ok frames =>
      let (found, ended) ← lookupEach inspector p t rest
      return (frames :: found, ended)

/-- Everything that can be found while a table is open. -/
def gather (inspector : Inspector ω η) (p : ProfileOf τ) (t : SegmentTable η) :
    Step ω (List (List Frame) × Except Fault Unit) := do
  match ← (prefetchEach inspector p t (p.segmentOrder t)).run with
  | .error fault => return ([], .error fault)
  | .ok () => lookupEach inspector p t p.locations

/-- The pass, in the way the inspector is set to. -/
def run (inspector : Inspector ω η) (force : Bool) (p : ProfileOf τ) :
    Step ω (ProfileOf τ × Except Fault Unit) := do
  match ← (SegmentTable.ofProfile inspector force p).run with
  | .error fault => return (p, .error fault)
  | .ok t =>
    let (found, ended) ← gather inspector p t
    let (_, closing) ← t.close inspector p
    let resolved := p.resolve found
    let ended := closing.bind fun _ => ended
    if let .ok () := ended then
      let added := resolved.functions.length - p.functions.length
      note (.framesFound (found.countP (!·.isEmpty)) p.locations.length added)
    return (resolved, ended)

end LocalPass

/-- Finds the frames of a profile's locations in the binaries. With `fast` the inspector is
switched to its faster way, if it has one, for as long as the pass lasts. -/
def ProfileOf.symbolizeLocally [Label τ] (inspector : Inspector ω η) (force fast : Bool)
    (p : ProfileOf τ) : Step ω (ProfileOf τ × Except Fault Unit) :=
  match fast, inspector.fastSwitch? with
  | true, some switch => do
    let previous := switch.isOn (← get).world
    switch.set true
    let result ← LocalPass.run inspector force p
    switch.set previous
    return result
  | _, _ => LocalPass.run inspector force p

end Symbolication
