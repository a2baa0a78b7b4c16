import Symbolication.Proofs.Pass.Changes

/-!
# Symbolication.Proofs.Pass.Session

A session works on one profile, call after call: passes, naming, and whole
directives, in any order and with other tools for each call.  A call that breaks
off leaves what it has done, and the session goes on from there.

* `becomes_run` — what single calls do;
* `sound_grows_runCalls` — a session keeps a profile sound, and what the profile was at
  the beginning is still there at the end.
-/

namespace Symbolication

variable {ω τ : Type} [Label τ]

/-! ## sessions -/

/-- A call that works on a profile, together with the tools it works with. -/
inductive Call (ω τ : Type) : Type 1 where
  /-- The local pass. -/
  | lookUp {η : Type} (inspector : Inspector ω η) (force fast : Bool)
  /-- The remote pass. -/
  | ask (post : Poster ω) (sources : SourcesOf τ) (force : Bool)
  /-- Naming. -/
  | display (demangler : Demangler ω) (force : Bool) (style : NameStyle)
  /-- Everything that the text of a directive asks for. -/
  | direct {η : Type} (toolkit : Toolkit ω η) (text : Option String) (sources : SourcesOf τ)

/-- What a call leaves of a profile, whether it breaks off or not. -/
def Call.run (p : ProfileOf τ) : Call ω τ → Step ω (ProfileOf τ)
  | lookUp inspector force fast => (·.1) <$> p.symbolizeLocally inspector force fast
  | ask post sources force => (·.1) <$> p.symbolizeRemotely post sources force
  | display demangler force style => (·.1) <$> p.displayNames demangler force style
  | direct toolkit text sources => (·.1) <$> toolkit.symbolize text sources p

/-- What calls leave of a profile, one after another. -/
def runCalls (p : ProfileOf τ) : List (Call ω τ) → Step ω (ProfileOf τ)
  | [] => return p
  | call :: rest => do runCalls (← call.run p) rest

/-- A profile becomes what a call makes of it. -/
theorem becomes_run (call : Call ω τ) (p : ProfileOf τ) :
    Step.Gives (call.run p) (fun q => p.Becomes q) := by
  cases call with
  | lookUp inspector force fast =>
      exact coversSteps_becomes.gives_symbolizeLocally inspector force fast p
  | ask post sources force =>
      exact coversSteps_becomes.gives_symbolizeRemotely post sources force p
  | display demangler force style => exact becomes_displayNames demangler force style p
  | direct toolkit text sources => exact coversSteps_becomes.gives_symbolize toolkit text sources p

/-- A profile becomes what any list of calls makes of it. -/
theorem becomes_runCalls (p : ProfileOf τ) (calls : List (Call ω τ)) :
    Step.Gives (runCalls p calls) (fun q => p.Becomes q) := by
  induction calls generalizing p with
  | nil => exact Step.gives_pure (.refl p)
  | cons call rest ih =>
      refine Step.gives_bind (becomes_run call p) fun q hq env => ?_
      exact hq.trans (ih q env)

/-- After any calls a sound profile is sound, and what it was before has been kept: its mappings
with at most more flags, its functions with at most other display names and more functions behind
them, its locations with at most other lines. -/
theorem sound_grows_runCalls {p : ProfileOf τ} (hp : p.Sound) (calls : List (Call ω τ))
    (env : Env ω) :
    (runCalls p calls env).1.Sound ∧ p.Grows (runCalls p calls env).1 := by
  obtain ⟨hgrows, hsound⟩ := becomes_runCalls p calls env
  exact ⟨hsound hp, hgrows⟩

/-- A profile with a function that has been found and an address that nothing is known of. -/
def halfKnown : Profile where
  mappings := [{ id := 1, start := 4096, limit := 8192, file := "/bin/app", buildId := "" }]
  functions := [{ id := 7, name := "f", systemName := "_Zf", filename := "" }]
  locations := [
    { id := 1, address := 4112, mapping := some 0, lines := [{ function := 0 }] },
    { id := 2, address := 4128, mapping := some 0 }]

/-- A server and a decoder of names, one after the other, leave `halfKnown` sound. -/
theorem sound_grows_runCalls_halfKnown :
    let calls : List (Call Unit String) :=
      [.ask (fun _ _ => pure "0x1020 _Zg".toUTF8.toList)
        (.ofServers halfKnown [some "http://host/debug"]) true,
        .display (fun _ _ => throw (.leftOut .source)) true .full]
    halfKnown.Sound ∧ (runCalls halfKnown calls ⟨(), []⟩).1.Sound ∧
      halfKnown.Grows (runCalls halfKnown calls ⟨(), []⟩).1 := by
  have hsound : halfKnown.Sound :=
    { mapping_lt := by decide, function_lt := by decide, ids_nodup := by decide }
  exact ⟨hsound, sound_grows_runCalls hsound _ _⟩

end Symbolication
