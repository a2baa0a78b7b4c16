import Symbolication.Profile.FunctionPool
import Symbolication.Remote.Answer
import Symbolication.Remote.Request
import Symbolication.SegmentTable
import Symbolication.Url.SymbolServer

/-!
# Symbolication.Pass.Remote

The remote pass: symbol servers are asked for the names of functions. For each
mapping that needs names the sources are tried one after another, up to the first
one that answers. A source may have seen the mapping at another address, so
addresses are shifted on their way there and back. The pass fails if names were
needed and no source answered. It breaks off where a label stands in the way: a
file whose name is no text, or a label under which no sources can be kept.
-/

namespace Symbolication

/-- A place that a profile, or one of its mappings, came from. -/
structure Source where
  /-- The URL; none if it was left out. -/
  url : Option String
  /-- The address at which the source saw the mapping. -/
  start : Int := 0
deriving DecidableEq, Repr

variable {τ : Type}

/-- Sources by labels: files and build ids. -/
abbrev SourcesOf (τ : Type) := List (τ × List Source)

/-- Sources by labels that are strings. -/
abbrev Sources := SourcesOf String

namespace SourcesOf

variable [Label τ]

/-- The sources with further ones for a label. -/
def extend (label : τ) (more : List Source) : SourcesOf τ → SourcesOf τ
  | [] => [(label, more)]
  | entry :: rest =>
    if Label.sameKey entry.1 label then (entry.1, entry.2 ++ more) :: rest
    else entry :: extend label more rest

/-- The table in which every URL is a source of every mapping. -/
def ofServers (p : ProfileOf τ) (urls : List (Option String)) : SourcesOf τ :=
  p.mappings.foldl (fun sources m => extend m.file (urls.map (⟨·, m.start⟩)) sources) []

/-- The sources for a label. -/
def get (sources : SourcesOf τ) (label : τ) : List Source :=
  ((sources.find? fun entry => Label.sameKey entry.1 label).map (·.2)).getD []

/-- The sources for a mapping: those of its file, and then those of its build id. -/
def forMapping (sources : SourcesOf τ) (m : MappingOf τ) : List Source :=
  sources.get m.file ++ if Label.isEmpty m.buildId then [] else sources.get m.buildId

end SourcesOf

namespace Source

/-- The URL at which the source is asked; none if the source is no web server. -/
def symbolUrl? (source : Source) : Except Fault (Option String) :=
  match source.url with
  | some url => (Url.symbolUrl? url).mapError Fault.url
  | none => .error (.leftOut .source)

/-- How far the source saw a mapping from where the profile has it. -/
def shift (source : Source) (m : MappingOf τ) : Int :=
  source.start - m.start

end Source

namespace ProfileOf

/-- Whether the mapping at a position needs names from a server. If it has none yet, or everything
is to begin anew, the name of its file has to be a text. -/
def needsNames [Label τ] (force : Bool) (p : ProfileOf τ) (i : Nat) (m : MappingOf τ) :
    Except Fault Bool :=
  if !force && m.hasFunctions then .ok false
  else
    match Label.text m.file with
    | .ok file => .ok (!PathName.isSystemPages file && p.refersTo i)
    | .error kind => .error (.notText kind)

/-- The addresses in the mapping at a position that nothing is known of. -/
def openAddresses (p : ProfileOf τ) (i : Nat) : List Int :=
  (p.locations.filter fun l => l.mapping == some i && l.address != 0 && l.lines.isEmpty).map
    (·.address)

/-- The profile with functions for addresses in the mapping at a position. -/
def enterNames (p : ProfileOf τ) (i : Nat) (functions : List (Int × Nat)) :
    ProfileOf τ :=
  { p with
    locations := p.locations.map fun l =>
      if l.mapping == some i then
        match functions.lookup l.address with
        | some function => { l with lines := [{ function }] }
        | none => l
      else l }

/-- The number of locations in the mapping at a position that functions are known for. -/
def countNamed (p : ProfileOf τ) (i : Nat) (functions : List (Int × Nat)) : Nat :=
  p.locations.countP fun l => l.mapping == some i && (functions.lookup l.address).isSome

/-- The profile with the mapping at a position marked as having names. -/
def markNamed (p : ProfileOf τ) (i : Nat) : ProfileOf τ :=
  { p with mappings := p.mappings.modify i fun m => { m with hasFunctions := true } }

end ProfileOf

/-- The functions for answers, which are added to a pool. Of several answers for an address the
last one comes first. -/
def enterAnswers (pool : FunctionPool τ) (shift : Int) :
    List (Nat × String) → FunctionPool τ × List (Int × Nat)
  | [] => (pool, [])
  | (address, name) :: rest =>
    let (pool, function) := pool.intern ⟨name, name, ""⟩
    let (pool, later) := enterAnswers pool shift rest
    (pool, later ++ [(address - shift, function)])

/-- How far a remote pass has come. -/
structure RemoteProgress (τ : Type) where
  profile : ProfileOf τ
  pool : FunctionPool τ
  /-- How many mappings needed names. -/
  needed : Nat := 0
  /-- For how many of them a source answered. -/
  answered : Nat := 0
  lastFault : Option Fault := none

namespace RemoteProgress

/-- The beginning of a pass. -/
def start (p : ProfileOf τ) : RemoteProgress τ :=
  { profile := p, pool := { old := p.functions } }

/-- The progress after an answer for the mapping at a position. Gives also the number of locations
that got names. -/
def enter [Label τ] (s : RemoteProgress τ) (i : Nat) (shift : Int)
    (answers : List (Nat × String)) : RemoteProgress τ × Nat :=
  let (pool, functions) := enterAnswers s.pool shift answers
  let profile := { s.profile.enterNames i functions with functions := pool.functions }
  ({ s with pool, profile }, s.profile.countNamed i functions)

/-- The progress after a source has answered for the mapping at a position. -/
def mark (s : RemoteProgress τ) (i : Nat) : RemoteProgress τ :=
  { s with profile := s.profile.markNamed i, answered := s.answered + 1 }

/-- How the pass ends. -/
def outcome (s : RemoteProgress τ) : Except Fault Unit :=
  if 0 < s.needed && s.answered == 0 then
    match s.lastFault with
    | some fault => .error (.serversFailed fault)
    | none => .error .noServers
  else
    .ok ()

end RemoteProgress

namespace RemotePass

variable {ω : Type} [Label τ]

/-- The answers of a server for the mapping at a position. There is nothing to ask if something is
known of every address. -/
def ask (post : Poster ω) (p : ProfileOf τ) (i : Nat) (shift : Int) (url : String) :
    Act ω (List (Nat × String)) := do
  match p.openAddresses i with
  | [] => return []
  | addresses => return Remote.answers (← post url (Remote.payload (addresses.map (· + shift))))

/-- Tries sources for the mapping at a position one after another, up to one that answers. -/
def tryEach (post : Poster ω) (i : Nat) (m : MappingOf τ) (s : RemoteProgress τ) :
    List Source → Step ω (RemoteProgress τ × Except Fault Unit)
  | [] => return (s, .ok ())
  | source :: rest =>
    match source.symbolUrl? with
    | .error fault => return (s, .error fault)
    | .ok none => tryEach post i m s rest
    | .ok (some url) => do
      match ← (ask post s.profile i (source.shift m) url).run with
      | .ok answers =>
        let (s, updated) := s.enter i (source.shift m) answers
        note (.serverAnswered updated (Label.shown m.file) url)
        return (s.mark i, .ok ())
      | .error fault =>
        if fault.isRemote || fault.isSystem then
          note (.serverFailed url fault)
          tryEach post i m { s with lastFault := some fault } rest
        else
          return (s, .error fault)

/-- Asks for the names of mappings one after another, up to a fault that no source is to blame
for. -/
def runEach (post : Poster ω) (sources : SourcesOf τ) (force : Bool) (s : RemoteProgress τ) :
    List (MappingOf τ × Nat) → Step ω (RemoteProgress τ × Except Fault Unit)
  | [] => return (s, .ok ())
  | (m, i) :: rest =>
    match s.profile.needsNames force i m, Label.keyless? m.buildId with
    | .error fault, _ => return (s, .error fault)
    | .ok false, _ => runEach post sources force s rest
    | .ok true, some kind => return (s, .error (.notKey kind))
    | .ok true, none => do
      let (s, ended) ← tryEach post i m { s with needed := s.needed + 1 } (sources.forMapping m)
      match ended with
      | .ok () => runEach post sources force s rest
      | .error fault => return (s, .error fault)

end RemotePass

/-- Asks symbol servers for the names of a profile's functions. -/
def ProfileOf.symbolizeRemotely {ω : Type} [Label τ] (post : Poster ω) (sources : SourcesOf τ)
    (force : Bool) (p : ProfileOf τ) : Step ω (ProfileOf τ × Except Fault Unit) := do
  let (s, ended) ← RemotePass.runEach post sources force (.start p) p.mappings.zipIdx
  return (s.profile, ended.bind fun _ => s.outcome)

end Symbolication
