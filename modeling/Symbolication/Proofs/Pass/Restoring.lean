import Symbolication.Profile.Document
import Symbolication.Proofs.Name.Naming
import Symbolication.Proofs.Pass.Stages
import Symbolication.Proofs.Pass.Session

/-!
# Symbolication.Proofs.Pass.Restoring

Reported names that come back.  Names that are shown as they are reported replace those
that functions had before, but not names that are empty: a function that has no name
does not get one.

* `ProfileOf.AddsPlain` — passes leave functions alone and add others, with one name each;
* `ProfileOf.Restores` — functions show their reported names, unless they had none before;
* `restores_resetNames` — it is enough to reset names behind the passes;
* `restores_reportedNames` — naming, and directives.
-/

namespace Symbolication

variable {ω η τ : Type} [Label τ]

/-! ## what passes do to functions -/

/-- The profile has the functions that it had, and behind them others that are shown by the names
that they are reported by. -/
def ProfileOf.AddsPlain (p q : ProfileOf τ) : Prop :=
  ∃ added, q.functions = p.functions ++ added ∧ ∀ fn ∈ added, fn.name = fn.systemName

/-- Passes change no names. -/
theorem coversPasses_addsPlain :
    CoversPasses (ProfileOf.AddsPlain : ProfileOf τ → ProfileOf τ → Prop) where
  refl p := ⟨[], (List.append_nil _).symm, List.forall_mem_nil _⟩
  trans := by
    rintro p q r ⟨added, hq, hadded⟩ ⟨more, hr, hmore⟩
    refine ⟨added ++ more, ?_, List.forall_mem_append.mpr ⟨hadded, hmore⟩⟩
    rw [hr, hq, List.append_assoc]
  resolve p found := by
    have hplain : FunctionPool.IsPlain { old := p.functions } := List.forall_mem_nil _
    obtain ⟨added, hfunctions, hadded⟩ :=
      (isPlain_enterStacks hplain p.locations found).exists_functions_eq
    rw [(extends_enterStacks _ p.locations found).old_eq] at hfunctions
    exact ⟨added, hfunctions, hadded⟩
  follows h := by
    obtain ⟨added, hfunctions, hadded⟩ := h.plain.exists_functions_eq
    rw [h.old_eq, ← h.functions_eq] at hfunctions
    exact ⟨added, hfunctions, hadded⟩

/-! ## reported names -/

/-- Functions of the later profile that have reported names show them, those apart that stand in
the place of functions without a name. -/
def ProfileOf.Restores (p q : ProfileOf τ) : Prop :=
  ∀ (i : Nat) (fn' : FunctionOf τ), q.functions[i]? = some fn' →
    Label.isEmpty fn'.systemName = false →
    (∀ fn, p.functions[i]? = some fn → Label.isEmpty fn.name = false) →
    fn'.name = fn'.systemName

/-- A function with its system name keeps it when reset. -/
theorem name_resetName_of_name {fn : FunctionOf τ} (h : fn.name = fn.systemName) :
    fn.resetName.name = fn.systemName := by
  unfold FunctionOf.resetName
  split
  · rfl
  · exact h

/-- Names are reset behind passes, which do not change them. -/
theorem restores_resetNames {p q : ProfileOf τ} (h : p.AddsPlain q) : p.Restores q.resetNames := by
  obtain ⟨added, hq, hadded⟩ := h
  intro i fn' hfn' hsystem hnamed
  rw [ProfileOf.resetNames, List.getElem?_map] at hfn'
  obtain ⟨fn, hfn, rfl⟩ := Option.map_eq_some_iff.mp hfn'
  rw [fn.system_resetName.2.1] at hsystem ⊢
  rw [hq] at hfn
  by_cases hi : i < p.functions.length
  · rw [List.getElem?_append_left hi] at hfn
    rw [FunctionOf.resetName_of_not_isEmpty (hnamed fn hfn) hsystem]
  · rw [List.getElem?_append_right (Nat.le_of_not_lt hi)] at hfn
    exact name_resetName_of_name (hadded fn (List.mem_of_getElem? hfn))

/-- A directive that asks for reported names leads to what naming makes of a profile with functions
added. -/
theorem restores_symbolize (s : Toolkit ω η) (sources : SourcesOf τ) (p : ProfileOf τ)
    {text : Option String} (hoff : ¬ Directive.IsCalledOff text)
    (hstyle : Directive.styleFor text = .system) {env : Env ω} {d : Directive}
    (h : (s.symbolize text sources p env).1.2 = .ok d) :
    p.Restores (s.symbolize text sources p env).1.1 := by
  have hreads := Directive.reads_parse hoff
  have hforce : (Directive.parse text).1.force = true := by
    rw [hreads.force]
    exact Directive.forces_of_styleFor (by rw [hstyle]; decide)
  obtain ⟨q, env', hq, ⟨fault, happly⟩ | happly⟩ := coversPasses_addsPlain.exists_apply s
    hreads.skip sources p (env.noting (Directive.complaints text))
  · rw [s.symbolize_apply, happly] at h
    cases h
  · rw [hreads.style, hstyle, hforce] at happly
    rw [s.symbolize_apply, happly]
    exact restores_resetNames hq

/-- Names that are shown as they are reported, in whatever way a profile has come about: naming
anew in this style does not fail, and gives functions that have a name their reported names; so does
a directive of which the last word about names asks for this style, unless it is called off or
fails, and functions that it adds have their reported names, too. -/
theorem restores_reportedNames (s : Toolkit ω η) (p : ProfileOf τ) (env : Env ω) :
    let named := (p.displayNames s.demangler true .system env).1
    (named.2 = .ok () ∧ p.Restores named.1) ∧
    ∀ (text : Option String) (sources : SourcesOf τ) (d : Directive),
      ¬ Directive.IsCalledOff text → Directive.styleFor text = .system →
      (s.symbolize text sources p env).1.2 = .ok d →
      p.Restores (s.symbolize text sources p env).1.1 := by
  refine ⟨⟨rfl, restores_resetNames (coversPasses_addsPlain.refl p)⟩, ?_⟩
  intro text sources d hoff hstyle h
  exact restores_symbolize s sources p hoff hstyle h

/-- A server that knows one name, and a decoder that is never asked. -/
def oneNameToolkit : Toolkit Unit Unit where
  inspector := {
    openRegion := fun _ => throw (.leftOut .source)
    buildId := fun _ => ""
    lookup := fun _ _ => pure []
    prefetch? := fun _ => none
    close := pure
    fastSwitch? := none }
  post _ _ := pure "0x1020 _Zg".toUTF8.toList
  demangler _ _ := throw (.leftOut .source)

theorem restores_reportedNames_halfKnown :
    let q := (oneNameToolkit.symbolize (some "remote:Demangle=full:demangle=NONE")
      (.ofServers halfKnown [some "http://host/debug"]) halfKnown ⟨(), []⟩).1
    halfKnown.Restores q.1 ∧ q.1.functions.map (fun fn => (fn.name, fn.systemName)) =
      [("_Zf", "_Zf"), ("_Zg", "_Zg")] := by
  intro q
  have hended : q.2.toOption = some { tryLocal := false, force := true, style := .system } := by
    decide +kernel
  have hoff : ¬ Directive.IsCalledOff (some "remote:Demangle=full:demangle=NONE") := by
    unfold Directive.IsCalledOff
    decide +kernel
  refine ⟨?_, by decide +kernel⟩
  exact (restores_reportedNames oneNameToolkit halfKnown ⟨(), []⟩).2 _ _ _ hoff
    (by decide +kernel) (eq_ok_of_toOption hended)

/-- A document with a function of whose name nothing is left when it is simplified. -/
def moduleDocument : Json :=
  .object [("functions", .list [
    .object [("id", .int 1), ("name", .text "<module>"), ("system_name", .text "<module>")]])]

/-- The function has no name any more when it has been named in the simple style, and does not get
its reported one back. -/
theorem not_restored_moduleDocument :
    let demangler : Demangler Unit := fun name _ => pure name
    let calls : List (Call Unit Json) := [.display demangler false .simple]
    ∃ p : RawProfile, Document.read moduleDocument = .ok p ∧
      let past := runCalls p calls ⟨(), []⟩
      let named := (past.1.displayNames demangler true .system past.2).1
      named.2 = .ok () ∧ named.1.functions.map (fun fn =>
        ((Label.text fn.name).toOption, (Label.text fn.systemName).toOption)) =
          [(some "", some "<module>")] := by
  intro demangler calls
  exact ⟨_, rfl, rfl, by decide +kernel⟩

end Symbolication
