import Symbolication.Name.Display
import Symbolication.Pass.Local
import Symbolication.Pass.Remote

/-!
# Symbolication.Pass.Symbolize

What a directive has done to a profile. Symbols are looked for in the binaries
first; servers are asked only if that is not wanted or fails as a whole. In the
end functions are given the names they are shown by.
-/

namespace Symbolication

/-- What symbolization works with. -/
structure Toolkit (ω η : Type) where
  inspector : Inspector ω η
  post : Poster ω
  demangler : Demangler ω

variable {ω η τ : Type}

/-- Reads a directive, and reports the words in it that are not understood. -/
def Directive.parseNoting (text : Option String) : Step ω Directive := do
  let (d, unknown) := Directive.parse text
  for word in unknown do
    note (.unknownWord word)
    note .directiveUsage
  return d

namespace Toolkit

variable [Label τ]

/-- The local pass of a directive, if it has one. Gives also whether servers are to be asked. -/
def runLocal (s : Toolkit ω η) (d : Directive) (p : ProfileOf τ) :
    Step ω (ProfileOf τ × Except Fault Bool) := do
  if !d.tryLocal then
    return (p, .ok d.tryRemote)
  else
    let (p, ended) ← p.symbolizeLocally s.inspector d.force d.fast
    match ended with
    | .ok () => return (p, .ok false)
    | .error fault =>
      if fault.endsPass then
        note (.localFailed fault)
        return (p, .ok d.tryRemote)
      else
        return (p, .error fault)

/-- The remote pass of a directive, if servers are to be asked. -/
def runRemote (s : Toolkit ω η) (d : Directive) (sources : SourcesOf τ) (wanted : Bool)
    (p : ProfileOf τ) : Step ω (ProfileOf τ × Except Fault Unit) :=
  if wanted then p.symbolizeRemotely s.post sources d.force else return (p, .ok ())

/-- Does what a directive asks for. -/
def apply (s : Toolkit ω η) (d : Directive) (sources : SourcesOf τ) (p : ProfileOf τ) :
    Step ω (ProfileOf τ × Except Fault Unit) := do
  if d.skip then
    return (p, .ok ())
  else
    let (p, wanted) ← s.runLocal d p
    match wanted with
    | .error fault => return (p, .error fault)
    | .ok wanted =>
      let (p, ended) ← s.runRemote d sources wanted p
      match ended with
      | .error fault => return (p, .error fault)
      | .ok () => p.displayNames s.demangler d.force d.style

/-- Does what the text of a directive asks for. -/
def symbolize (s : Toolkit ω η) (text : Option String) (sources : SourcesOf τ) (p : ProfileOf τ) :
    Step ω (ProfileOf τ × Except Fault Directive) := do
  let d ← Directive.parseNoting text
  let (p, ended) ← s.apply d sources p
  return (p, ended.map fun _ => d)

end Toolkit

end Symbolication
