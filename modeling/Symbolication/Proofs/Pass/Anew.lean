import Symbolication.Proofs.Name.Settling
import Symbolication.Proofs.Pass.WorldInvariants
import Symbolication.Proofs.Pass.Session

/-!
# Symbolication.Proofs.Pass.Anew

Naming that begins anew.  A function with a reported name gets a name that depends on the
reported one and on the style alone, so it does not matter which names it had before:

* `Call.Displays` — a call that gives names;
* `origins_runCalls` — what is known of functions beyond their names stays;
* `ProfileOf.NamedAnew`, `displayed_anew` — names by what is known;
* `displayNames_runCalls` — earlier naming is forgotten.
-/

namespace Symbolication

variable {ω τ : Type} [Label τ] {P : ω → Prop}

/-! ## calls that give names -/

/-- The call gives names, and the assertion about the world is kept by the decoder of names. -/
def Call.Displays (P : ω → Prop) : Call ω τ → Prop
  | display demangler _ _ => ∀ name options, Act.Keeps P (demangler name options)
  | _ => False

/-- Naming functions leaves their origins. -/
theorem origins_displayNames (demangler : Demangler ω) (force : Bool) (style : NameStyle)
    (p : ProfileOf τ) :
    Step.Gives (p.displayNames demangler force style)
      (fun r => r.1.functions.map FunctionOf.origin = p.functions.map FunctionOf.origin) := by
  intro env
  obtain ⟨functions, hfunctions, hrenamed⟩ :=
    gives_renamed_displayNames demangler force style p env
  rw [hfunctions]
  refine (origins_of_renamed hrenamed).trans ?_
  cases force with
  | true => simp [ProfileOf.resetNames, origin_resetName]
  | false => rfl

/-- A call that gives names changes nothing else of functions. -/
theorem origins_run {call : Call ω τ} (h : call.Displays P) (p : ProfileOf τ) :
    Step.Meets P (call.run p)
      (fun q w => q.functions.map FunctionOf.origin = p.functions.map FunctionOf.origin ∧ P w) := by
  cases call with
  | display demangler force style =>
      exact Step.meets_of_gives (keeps_displayNames h force style p)
        (origins_displayNames demangler force style p)
  | _ => exact h.elim

/-- Calls that give names change nothing else of functions. -/
theorem origins_runCalls {calls : List (Call ω τ)} (h : ∀ call ∈ calls, call.Displays P)
    (p : ProfileOf τ) :
    Step.Meets P (runCalls p calls)
      (fun q w => q.functions.map FunctionOf.origin = p.functions.map FunctionOf.origin ∧ P w) := by
  induction calls generalizing p with
  | nil => exact Step.meets_pure fun w hw => ⟨rfl, hw⟩
  | cons call rest ih =>
      obtain ⟨hfirst, hrest⟩ := List.forall_mem_cons.mp h
      refine Step.meets_bind (origins_run hfirst p) fun q => Step.meets_and fun hq => ?_
      exact hq ▸ ih hrest q

/-! ## names that do not depend on names -/

variable {decode : String → List NameOption → Except Fault String} {style : NameStyle}

/-- The reported name of the function is a text, and the decoder has an answer for it. -/
def FunctionOf.IsKnown (decode : String → List NameOption → Except Fault String)
    (style : NameStyle) (fn : FunctionOf τ) : Prop :=
  ∃ systemName answer, Label.text fn.systemName = .ok systemName ∧
    decode systemName style.options = .ok answer

/-- Functions of one origin are the same once they have the same name. -/
theorem withName_of_origin {fn fn' : FunctionOf τ} (h : fn'.origin = fn.origin) (name : String) :
    fn'.withName name = fn.withName name := by
  simp_all [FunctionOf.origin, FunctionOf.withName]

omit [Label τ] in
/-- Functions of one origin have one system name. -/
theorem systemName_of_origin {fn fn' : FunctionOf τ} (h : fn'.origin = fn.origin) :
    fn'.systemName = fn.systemName :=
  congrArg (·.2.1) h

/-- Whether a function is known depends on its origin. -/
theorem isKnown_of_origins {fns fns' : List (FunctionOf τ)}
    (h : fns'.map FunctionOf.origin = fns.map FunctionOf.origin)
    (hknown : ∀ fn ∈ fns, fn.IsKnown decode style) : ∀ fn ∈ fns', fn.IsKnown decode style := by
  intro fn' hfn'
  have horigin : fn'.origin ∈ fns.map FunctionOf.origin := by
    rw [← h]
    exact List.mem_map_of_mem hfn'
  obtain ⟨fn, hfn, hsame⟩ := List.mem_map.mp horigin
  obtain ⟨systemName, answer, htext, hanswer⟩ := hknown fn hfn
  exact ⟨systemName, answer, systemName_of_origin hsame ▸ htext, hanswer⟩

/-- Functions of which the reported names are known can all be named. -/
theorem namedEach_of_isKnown {fns : List (FunctionOf τ)}
    (h : ∀ fn ∈ fns, fn.IsKnown decode style) :
    namedEach decode style fns =
      (fns.map fun fn => (fn.named decode style).toOption.getD fn, .ok ()) := by
  refine namedEach_of_ok fun fn hfn => ?_
  obtain ⟨systemName, answer, htext, hanswer⟩ := h fn hfn
  cases hnamed : fn.isNamed with
  | true => simp [named_of_isNamed hnamed, Except.toOption]
  | false => simp [named_of_text hnamed htext, hanswer, Except.map, Except.toOption]

/-- Where `p` has a function with a reported name, the later profile has it with the name that
follows from the reported one and the style. -/
def ProfileOf.NamedAnew (decode : String → List NameOption → Except Fault String)
    (style : NameStyle) (p q : ProfileOf τ) : Prop :=
  ∀ (i : Nat) (fn : FunctionOf τ) (systemName answer : String),
    p.functions[i]? = some fn → Label.text fn.systemName = .ok systemName → systemName ≠ "" →
    decode systemName style.options = .ok answer →
    q.functions[i]? = some (fn.withName (style.displayName systemName answer))

/-- Functions with the same origins get the same names if they are named anew. -/
theorem displayed_anew [LawfulLabel τ] (hstyle : style ≠ .system) {p q : ProfileOf τ}
    (horigins : q.functions.map FunctionOf.origin = p.functions.map FunctionOf.origin)
    (hknown : ∀ fn ∈ p.functions, fn.IsKnown decode style) :
    (q.displayed decode true style).2 = .ok () ∧
      p.NamedAnew decode style (q.displayed decode true style).1 := by
  have hreset : (q.functions.map FunctionOf.resetName).map FunctionOf.origin =
      p.functions.map FunctionOf.origin := by
    rw [← horigins]
    simp [origin_resetName]
  have heach := namedEach_of_isKnown (isKnown_of_origins hreset hknown)
  have hsystem : (style == .system) = false := by simpa using hstyle
  simp only [ProfileOf.displayed, hsystem, ProfileOf.resetNames, if_true, Bool.false_eq_true,
    if_false, heach]
  refine ⟨trivial, fun i fn systemName answer hfn htext hnonempty hanswer => ?_⟩
  have hi := congrArg (·[i]?) horigins
  simp only [List.getElem?_map, hfn, Option.map_some] at hi
  obtain ⟨fn₁, hfn₁, horigin⟩ := Option.map_eq_some_iff.mp hi
  have htext₁ : Label.text fn₁.systemName = .ok systemName := by
    rw [systemName_of_origin horigin, htext]
  have hempty : Label.isEmpty fn₁.systemName = false := by
    simpa [Label.isEmpty, htext₁] using hnonempty
  have hnamed := FunctionOf.named_resetName htext₁ hempty hanswer
  simp [hfn₁, hnamed, withName_of_origin horigin, Except.toOption]

/-- Naming anew forgets what names have been given before.  Whatever calls give names to a profile
and however they end, naming it anew in a style that decodes names leaves a function that has a
reported name with the same name as if there had been no calls, one that follows from the reported
name and the style. -/
theorem displayNames_runCalls [LawfulLabel τ] {demangler : Demangler ω}
    (h : demangler.Knows decode P) (hstyle : style ≠ .system) {p : ProfileOf τ}
    (hknown : ∀ fn ∈ p.functions, fn.IsKnown decode style) {calls : List (Call ω τ)}
    (hcalls : ∀ call ∈ calls, call.Displays P) (env : Env ω) (hworld : P env.world) :
    let past := runCalls p calls env
    let later := (past.1.displayNames demangler true style past.2).1
    let alone := (p.displayNames demangler true style env).1
    later.1.functions.map FunctionOf.origin = p.functions.map FunctionOf.origin ∧
      (later.2 = .ok () ∧ p.NamedAnew decode style later.1) ∧
      (alone.2 = .ok () ∧ p.NamedAnew decode style alone.1) := by
  intro past later alone
  obtain ⟨horigins, hpast⟩ := origins_runCalls hcalls p env hworld
  have hlater : later = past.1.displayed decode true style :=
    (meets_displayed h true style past.1 past.2 hpast).1
  have halone : alone = p.displayed decode true style :=
    (meets_displayed h true style p env hworld).1
  have hkept := (origins_displayNames demangler true style past.1 past.2).trans horigins
  rw [hlater, halone]
  exact ⟨hlater ▸ hkept, displayed_anew hstyle horigins hknown, displayed_anew hstyle rfl hknown⟩

/-- The names that calls have given to the functions of `oddNames`, among them none at all, are
forgotten. -/
theorem displayNames_runCalls_oddNames :
    let demangler : Demangler Unit := fun name options => ExceptT.mk (pure (decodeOdd name options))
    let calls : List (Call Unit String) := [.display demangler false .full,
      .display demangler true .system, .display demangler false .simple]
    let past := runCalls oddNames calls ⟨(), []⟩
    let later := (past.1.displayNames demangler true .templates past.2).1
    let alone := (oddNames.displayNames demangler true .templates ⟨(), []⟩).1
    past.1.functions.map (·.name) = ["f()", "f()", "", "", "ns::f", "own", ""] ∧
      (later.1.functions[3]?).map (·.name) = some "<module>" ∧
      (alone.1.functions[3]?).map (·.name) = some "<module>" := by
  intro demangler calls past later alone
  have hknows : demangler.Knows decodeOdd (fun _ : Unit => True) :=
    fun name options => Act.tells_result _ _
  have hcalls : ∀ call ∈ calls, call.Displays (fun _ : Unit => True) := by
    simp [calls, demangler, Call.Displays, Act.keeps_result]
  have hstyle : NameStyle.templates ≠ .system := by decide
  have hanswers : ∀ fn ∈ oddNames.functions, fn.IsKnown decodeOdd .templates :=
    fun fn _ => ⟨fn.systemName, _, rfl, rfl⟩
  obtain ⟨-, ⟨-, hlater⟩, -, halone⟩ :=
    displayNames_runCalls hknows hstyle hanswers hcalls ⟨(), []⟩ trivial
  have hname : NameStyle.displayName .templates "<module>" "<module>" = "<module>" := by
    decide +kernel
  refine ⟨by decide +kernel, ?_, ?_⟩
  · rw [hlater 3 _ "<module>" "<module>" rfl rfl (by decide) rfl, hname]
    rfl
  · rw [halone 3 _ "<module>" "<module>" rfl rfl (by decide) rfl, hname]
    rfl

end Symbolication
