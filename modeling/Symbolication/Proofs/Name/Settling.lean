import Symbolication.Proofs.Name.Naming

/-!
# Symbolication.Proofs.Name.Settling

Functions that have got their names.  Where the decoder of names gives answers that
depend on nothing but its questions, naming a function again changes nothing, whether
it was given the name before or had one of its own:

* `FunctionOf.IsSettled` — the function has the name that naming gives it;
* `meets_displayNames` — naming settles functions;
* `meets_displayNames_of_settled` — and keeps the names of those that are settled;
* `displayNames_displayNames` — naming a profile twice is naming it once.
-/

namespace Symbolication

variable {ω τ : Type} [Label τ]

/-! ## functions -/

/-- The function has the name that naming gives it. -/
def FunctionOf.IsSettled (decode : String → List NameOption → Except Fault String)
    (style : NameStyle) (fn : FunctionOf τ) : Prop :=
  fn.isNamed = true ∨ ∃ systemName answer, Label.text fn.systemName = .ok systemName ∧
    decode systemName style.options = .ok answer ∧
    fn.withName (style.displayName systemName answer) = fn

variable {demangler : Demangler ω} {decode : String → List NameOption → Except Fault String}
  {style : NameStyle} {P : ω → Prop}

theorem isSettled_iff {fn : FunctionOf τ} :
    fn.IsSettled decode style ↔ fn.named decode style = .ok fn := by
  rw [FunctionOf.named_eq_ok, FunctionOf.IsSettled]
  cases fn.isNamed <;> simp [eq_comm]

/-- Functions that have been named are settled. -/
theorem isSettled_of_namedEach {fns : List (FunctionOf τ)}
    (h : (namedEach decode style fns).2 = .ok ()) :
    ∀ fn ∈ (namedEach decode style fns).1, fn.IsSettled decode style := by
  induction fns with
  | nil => exact List.forall_mem_nil _
  | cons fn rest ih =>
      cases hnamed : fn.named decode style with
      | error fault =>
          rw [namedEach_cons_of_error hnamed] at h
          cases h
      | ok fn' =>
          rw [namedEach_cons_of_ok hnamed] at h ⊢
          have hfirst := isSettled_iff.mpr (FunctionOf.named_named hnamed)
          exact List.forall_mem_cons.mpr ⟨hfirst, ih h⟩

/-- Functions that are settled keep their names. -/
theorem namedEach_of_isSettled {fns : List (FunctionOf τ)}
    (h : ∀ fn ∈ fns, fn.IsSettled decode style) : namedEach decode style fns = (fns, .ok ()) := by
  rw [namedEach_of_ok (f := id) fun fn hfn => isSettled_iff.mp (h fn hfn), List.map_id]

/-! ## profiles -/

/-- The functions of the profile are settled, unless names stay as they are reported. -/
def ProfileOf.IsSettled (decode : String → List NameOption → Except Fault String)
    (style : NameStyle) (p : ProfileOf τ) : Prop :=
  style = .system ∨ ∀ fn ∈ p.functions, fn.IsSettled decode style

/-- Naming settles the functions of a profile, and changes nothing else. -/
theorem meets_displayNames (h : demangler.Knows decode P) (style : NameStyle)
    (p : ProfileOf τ) :
    Step.Meets P (p.displayNames demangler false style)
      (fun r => ending
        (fun _ w => ((∃ functions, r.1 = { p with functions }) ∧ r.1.IsSettled decode style) ∧ P w)
        (fun _ _ => True) r.2) := by
  refine Step.meets_mono (meets_displayed h false style p) (fun _ hw => hw) ?_
  rintro r w ⟨rfl, hw⟩
  unfold ProfileOf.displayed
  simp only [Bool.false_eq_true, if_false]
  split
  · rename_i hsystem
    exact ⟨⟨⟨p.functions, rfl⟩, .inl (eq_of_beq hsystem)⟩, hw⟩
  · cases hended : (namedEach decode style p.functions).2 with
    | error fault => trivial
    | ok _ => exact ⟨⟨⟨_, rfl⟩, .inr (isSettled_of_namedEach hended)⟩, hw⟩

/-- A profile whose functions are settled stays as it is. -/
theorem meets_displayNames_of_settled (h : demangler.Knows decode P) (style : NameStyle)
    {p : ProfileOf τ} (hsettled : p.IsSettled decode style) :
    Step.Meets P (p.displayNames demangler false style) (fun r w => r = (p, .ok ()) ∧ P w) := by
  refine Step.meets_mono (meets_displayed h false style p) (fun _ hw => hw) ?_
  rintro r w ⟨rfl, hw⟩
  refine ⟨?_, hw⟩
  unfold ProfileOf.displayed
  simp only [Bool.false_eq_true, if_false]
  split
  · rfl
  · rename_i hnot
    have hfns := hsettled.resolve_left fun heq => hnot (by rw [heq]; rfl)
    rw [namedEach_of_isSettled hfns]

/-- Naming a profile twice in the same way is naming it once, in any style and whether it begins
anew or not: functions get the names that are known, and get no others the second time.  This holds
of naming that breaks off, too. -/
theorem displayNames_displayNames [LawfulLabel τ] (h : demangler.Knows decode P) (force : Bool)
    (style : NameStyle) (p : ProfileOf τ) {env : Env ω} (hworld : P env.world) :
    let once := p.displayNames demangler force style env
    once.1 = p.displayed decode force style ∧
      (once.1.1.displayNames demangler force style once.2).1 = once.1 := by
  intro once
  obtain ⟨honce, hworld'⟩ : once.1 = p.displayed decode force style ∧ P once.2.world :=
    meets_displayed h force style p env hworld
  have htwice := (meets_displayed h force style once.1.1 once.2 hworld').1
  refine ⟨honce, ?_⟩
  calc (once.1.1.displayNames demangler force style once.2).1
      = once.1.1.displayed decode force style := htwice
    _ = p.displayed decode force style := by rw [honce, displayed_displayed]
    _ = once.1 := honce.symm

/-- Functions without names or without reported names, with names of their own, and with names of
which nothing is left when they are simplified. -/
def oddNames : Profile where
  functions := [
    { id := 1, name := "", systemName := "_Z1fv", filename := "" },
    { id := 2, name := "pretty", systemName := "_Z1fv", filename := "" },
    { id := 3, name := "_Z1gv", systemName := "_Z1gv", filename := "" },
    { id := 4, name := "<module>", systemName := "<module>", filename := "" },
    { id := 5, name := "", systemName := "ns::f<int>(int)", filename := "" },
    { id := 6, name := "own", systemName := "", filename := "" },
    { id := 7, name := "", systemName := "", filename := "" }]

/-- One name is decoded, another one to nothing at all, and the others are not decoded. -/
def decodeOdd (name : String) (_ : List NameOption) : Except Fault String :=
  .ok (if name = "_Z1fv" then "f()" else if name = "_Z1gv" then "" else name)

theorem displayNames_displayNames_oddNames :
    let demangler : Demangler Unit := fun name options => ExceptT.mk (pure (decodeOdd name options))
    let once := oddNames.displayNames demangler true .simple ⟨(), []⟩
    once.1.1.functions.map (·.name) = ["f()", "f()", "", "", "ns::f", "own", ""] ∧
      (once.1.1.displayNames demangler true .simple once.2).1 = once.1 := by
  intro demangler once
  have hknows : demangler.Knows decodeOdd (fun _ : Unit => True) :=
    fun name options => Act.tells_result _ _
  exact ⟨by decide +kernel, (displayNames_displayNames hknows true .simple oddNames trivial).2⟩

end Symbolication
