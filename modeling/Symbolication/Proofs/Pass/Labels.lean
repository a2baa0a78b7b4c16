import Symbolication.Proofs.Pass.Changes
import Symbolication.Proofs.Profile.Complaints

/-!
# Symbolication.Proofs.Pass.Labels

Labels that are texts.  What symbolization adds to a profile has names that are texts, and
what it changes are names to display; so if all labels of a profile are texts, they still
are in the end:

* `FunctionPool.hasTextLabels_functions` — functions that are added;
* `hasTextLabels_of_renamed` — functions that are named;
* `coversSteps_hasTextLabels` — all steps of symbolization.
-/

namespace Symbolication

/-- All labels of the function are texts. -/
def FunctionOf.HasTextLabels (fn : FunctionOf Json) : Prop :=
  fn.name.IsText ∧ fn.systemName.IsText ∧ fn.filename.IsText

/-! ## functions -/

theorem isText_ofText_json (s : String) : (Label.ofText s : Json).IsText :=
  ⟨s, rfl⟩

/-- A function made of an identity has texts for labels. -/
theorem hasTextLabels_withId (identity : FunctionIdentity) (id : Int) :
    (identity.withId id : FunctionOf Json).HasTextLabels :=
  ⟨isText_ofText_json _, isText_ofText_json _, isText_ofText_json _⟩

/-- Functions that are added have names that are texts. -/
theorem FunctionPool.hasTextLabels_functions {pool : FunctionPool Json}
    (h : ∀ fn ∈ pool.old, fn.HasTextLabels) : ∀ fn ∈ pool.functions, fn.HasTextLabels := by
  intro fn hfn
  rcases List.mem_append.mp hfn with hold | hadded
  · exact h fn hold
  · obtain ⟨i, hi, rfl⟩ := List.mem_mapIdx.mp hadded
    exact hasTextLabels_withId _ _

theorem hasTextLabels_resetName {fn : FunctionOf Json} (h : fn.HasTextLabels) :
    fn.resetName.HasTextLabels := by
  obtain ⟨hname, hsystem, hfile⟩ := h
  unfold FunctionOf.resetName
  split
  · exact ⟨hsystem, hsystem, hfile⟩
  · exact ⟨hname, hsystem, hfile⟩

/-- A renamed function has texts for labels if it had before. -/
theorem FunctionOf.Renamed.hasTextLabels {fn fn' : FunctionOf Json} (h : fn.Renamed fn')
    (hfn : fn.HasTextLabels) : fn'.HasTextLabels := by
  obtain rfl | ⟨name, rfl⟩ := h
  · exact hfn
  · exact ⟨isText_ofText_json _, hfn.2.1, hfn.2.2⟩

/-- Functions that are named have names that are texts. -/
theorem hasTextLabels_of_renamed {fns fns' : List (FunctionOf Json)}
    (h : List.Forall₂ FunctionOf.Renamed fns fns') (hfns : ∀ fn ∈ fns, fn.HasTextLabels) :
    ∀ fn ∈ fns', fn.HasTextLabels := by
  induction h with
  | nil => exact hfns
  | cons hfirst _ ih =>
      rw [List.forall_mem_cons] at hfns ⊢
      exact ⟨hfirst.hasTextLabels hfns.1, ih hfns.2⟩

/-! ## profiles -/

/-- Of a profile that has grown only the functions have to be looked at. -/
theorem ProfileOf.Grows.hasTextLabels {p q : RawProfile} (h : p.Grows q) (hp : p.HasTextLabels)
    (hfns : ∀ fn ∈ q.functions, fn.HasTextLabels) : q.HasTextLabels where
  mappings m' hm' := by
    obtain ⟨i, hi⟩ := List.mem_iff_getElem?.mp hm'
    obtain ⟨m, hm, hgains⟩ := h.exists_mapping hi
    have hlabels := hp.mappings m (List.mem_of_getElem? hm)
    rw [hgains.same]
    exact hlabels
  functions := hfns

/-- Symbolization leaves labels texts. -/
theorem coversSteps_hasTextLabels :
    CoversSteps fun p q : RawProfile => p.HasTextLabels → q.HasTextLabels where
  refl _ := id
  trans h h' := h' ∘ h
  resolve p found hp := by
    refine (becomes_resolve p found).1.hasTextLabels hp ?_
    have hold : (enterStacks { old := p.functions } p.locations found).1.old = p.functions :=
      (extends_enterStacks { old := p.functions } p.locations found).old_eq
    refine FunctionPool.hasTextLabels_functions ?_
    rw [hold]
    exact hp.functions
  follows {p s} hs hp := by
    refine hs.grows.hasTextLabels hp ?_
    rw [hs.functions_eq]
    refine FunctionPool.hasTextLabels_functions ?_
    rw [hs.old_eq]
    exact hp.functions
  displayNames demangler force style p env hp := by
    refine (becomes_displayNames demangler force style p env).1.hasTextLabels hp ?_
    obtain ⟨functions, hfunctions, hrenamed⟩ :=
      gives_renamed_displayNames demangler force style p env
    rw [hfunctions]
    refine hasTextLabels_of_renamed hrenamed ?_
    split
    · exact List.forall_mem_map.mpr fun fn hfn => hasTextLabels_resetName (hp.functions fn hfn)
    · exact hp.functions

end Symbolication
