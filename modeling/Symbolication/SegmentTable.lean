import Symbolication.Inspector
import Symbolication.PathName
import Symbolication.Profile.Label
import Symbolication.Profile.Basic

/-!
# Symbolication.SegmentTable

The segments that are open during a pass: which mappings get one, how they are
opened, and how they are closed when the pass ends.

A mapping gets a segment if some location lies in it, it has no symbols yet or
everything is to begin anew, it has a file that is none of the system's own
pages, that file can be opened, and the build ids do not tell the file from the
one that was profiled. A file whose name is no text ends the opening. Closing
goes on past faults of the system; any other fault ends it.

* `standing_eq_candidate`: which mappings are opened.
-/

namespace Symbolication

/-! ## Which mappings are opened -/

variable {τ : Type}

namespace MappingOf

/-- Whether the mapping has symbols of some kind. -/
def isSymbolized (m : MappingOf τ) : Bool :=
  m.hasFunctions || m.hasFilenames || m.hasLineNumbers

/-- The part of a file that the mapping shows. -/
def region (m : MappingOf τ) (file : String) : Region :=
  ⟨file, m.start, m.limit, m.offset⟩

/-- Whether a build id tells the file of the mapping from the one that was profiled. -/
def isMismatch [Label τ] (m : MappingOf τ) (buildId : String) : Bool :=
  !Label.isEmpty m.buildId && !buildId.isEmpty && !Label.isText m.buildId buildId

end MappingOf

/-- How a mapping stands before a pass. -/
inductive Standing where
  | unreferenced
  /-- It has symbols already. -/
  | done
  | nameless
  | misnamed (kind : Json.Kind)
  /-- It shows pages of the system. -/
  | virtual
  | candidate (file : String)
deriving DecidableEq, Repr

namespace ProfileOf

variable [Label τ]

/-- How the mapping at a position stands. With `force` it does not count that it has symbols. -/
def standing (force : Bool) (p : ProfileOf τ) (i : Nat) (m : MappingOf τ) : Standing :=
  if !p.refersTo i then .unreferenced
  else if !force && m.isSymbolized then .done
  else
    match Label.text m.file with
    | .error kind => .misnamed kind
    | .ok file =>
      if file.isEmpty then .nameless
      else if PathName.isSystemPages file then .virtual
      else .candidate file

/-- Which mappings are opened. -/
theorem standing_eq_candidate (force : Bool) (p : ProfileOf τ) (i : Nat) (m : MappingOf τ)
    (file : String) :
    p.standing force i m = .candidate file ↔
      p.refersTo i = true ∧ (force = true ∨ m.isSymbolized = false) ∧
        Label.text m.file = .ok file ∧ file.isEmpty = false ∧
        PathName.isSystemPages file = false := by
  unfold standing
  cases p.refersTo i <;> cases force <;> cases m.isSymbolized <;>
    cases Label.text m.file <;> grind

/-- The file of the mapping at a position. -/
def fileAt (p : ProfileOf τ) (i : Nat) : String :=
  (p.mappings[i]?.map fun m => Label.shown m.file).getD ""

/-- Whether the file of a mapping other than the first is missing. -/
def lacksFiles (force : Bool) (p : ProfileOf τ) : Bool :=
  p.mappings.zipIdx.any fun (m, i) => 0 < i && p.standing force i m == .nameless

end ProfileOf

/-! ## Tables -/

/-- The open segments of a pass, by the positions of their mappings. -/
structure SegmentTable (η : Type) where
  entries : List (Nat × η) := []

namespace SegmentTable

variable {ω η : Type}

/-- The number of segments. -/
def size (t : SegmentTable η) : Nat :=
  t.entries.length

/-- The segment of a mapping, if it has one. -/
def get? (t : SegmentTable η) (mapping : Option Nat) : Option η :=
  mapping.bind fun i => t.entries.lookup i

/-- Whether the mapping at a position has a segment. -/
def contains (t : SegmentTable η) (i : Nat) : Bool :=
  (t.get? (some i)).isSome

/-- The table with a further segment. -/
def add (t : SegmentTable η) (i : Nat) (segment : η) : SegmentTable η :=
  { entries := t.entries ++ [(i, segment)] }

/-! ## Closing -/

variable [Label τ]

/-- Closes segments one after another, past faults of the system and up to any other. -/
def closeEach (inspector : Inspector ω η) (p : ProfileOf τ) :
    List (Nat × η) → Step ω (Except Fault Unit)
  | [] => return .ok ()
  | (i, segment) :: rest => do
    match ← (inspector.close segment).run with
    | .ok () => closeEach inspector p rest
    | .error fault =>
      if fault.isSystem then
        note (.closeFailed (p.fileAt i) fault)
        closeEach inspector p rest
      else
        return .error fault

/-- Closes a table. What is left is an empty one, whatever happens. -/
def close (inspector : Inspector ω η) (p : ProfileOf τ) (t : SegmentTable η) :
    Step ω (SegmentTable η × Except Fault Unit) := do
  let ended ← closeEach inspector p t.entries
  return ({}, ended)

/-! ## Opening -/

/-- Opens the segment of a mapping from its file. There is none if the file cannot be opened or is
not the one that was profiled. -/
def openMapping (inspector : Inspector ω η) (m : MappingOf τ) (file : String) :
    Act ω (Option η) := do
  let name := PathName.baseNameString file
  let segment? ← tryCatch (some <$> inspector.openRegion (m.region file)) fun
    | .objectOpen cause => do
      Act.note (.openFailed name (.objectOpen cause))
      return none
    | fault => throw fault
  match segment? with
  | none => return none
  | some segment =>
    if m.isMismatch (inspector.buildId segment) then
      Act.note (.buildIdMismatch name)
      inspector.close segment
      return none
    else
      return some segment

/-- Opens the segments of mappings one after another, in addition to those of a table. -/
def openEach (inspector : Inspector ω η) (force : Bool) (p : ProfileOf τ) (t : SegmentTable η) :
    List (MappingOf τ × Nat) → Step ω (SegmentTable η × Except Fault Unit)
  | [] => return (t, .ok ())
  | (m, i) :: rest => do
    match p.standing force i m with
    | .unreferenced | .virtual => openEach inspector force p t rest
    | .done =>
      note (.alreadySymbolized m.id)
      openEach inspector force p t rest
    | .nameless =>
      if i == 0 then
        note .mainBinaryUnnamed
      openEach inspector force p t rest
    | .misnamed kind => return (t, .error (.notText kind))
    | .candidate file =>
      match ← (openMapping inspector m file).run with
      | .error fault => return (t, .error fault)
      | .ok none => openEach inspector force p t rest
      | .ok (some segment) => openEach inspector force p (t.add i segment) rest

/-- Opens the segments for a pass. If that fails, those already open are closed. -/
def ofProfile (inspector : Inspector ω η) (force : Bool) (p : ProfileOf τ) :
    Act ω (SegmentTable η) :=
  ExceptT.mk do
    let (t, ended) ← openEach inspector force p {} p.mappings.zipIdx
    match ended with
    | .error fault =>
      let (_, closing) ← t.close inspector p
      return closing.bind fun _ => .error fault
    | .ok () =>
      if p.lacksFiles force then
        note .binariesUnnamed
      note (.opened t.size p.referencedCount)
      return .ok t

end SegmentTable

end Symbolication
