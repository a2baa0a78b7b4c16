import Mathlib.Data.List.Forall2
import Symbolication.Name.Display
import Symbolication.Proofs.Action.Triple
import Symbolication.Proofs.Profile.Pool

/-!
# Symbolication.Proofs.Profile.Growth

What a pass may do to a profile.  It may find more for a mapping, append functions,
give functions other display names and locations other lines; everything else stays,
and references that named records of the profile still do:

* `ProfileOf.Sound` — references name records, and functions have different ids;
* `ProfileOf.Grows` — what is kept from one profile to a later one;
* `ProfileOf.Becomes` — a profile grows, and is sound if it was;
* `becomes_resolve`, `becomes_displayNames` — the two steps of the local pass and of
  naming that change a profile.
-/

namespace Symbolication

variable {ω τ : Type}

/-! ## growth -/

/-- More has been found for a mapping; flags are only ever set, and all else is kept. -/
structure MappingOf.Gains (m m' : MappingOf τ) : Prop where
  same : m' = { m with
    hasFunctions := m'.hasFunctions, hasFilenames := m'.hasFilenames
    hasLineNumbers := m'.hasLineNumbers, hasInlineFrames := m'.hasInlineFrames }
  hasFunctions : m.hasFunctions = true → m'.hasFunctions = true
  hasFilenames : m.hasFilenames = true → m'.hasFilenames = true
  hasLineNumbers : m.hasLineNumbers = true → m'.hasLineNumbers = true
  hasInlineFrames : m.hasInlineFrames = true → m'.hasInlineFrames = true

/-- A mapping gains nothing by standing as it is. -/
theorem MappingOf.Gains.refl (m : MappingOf τ) : m.Gains m :=
  ⟨rfl, fun h => h, fun h => h, fun h => h, fun h => h⟩

/-- What a mapping gains in two steps it gains in one. -/
theorem MappingOf.Gains.trans {a b c : MappingOf τ} (h : a.Gains b) (h' : b.Gains c) :
    a.Gains c where
  same := by rw [h'.same, h.same]
  hasFunctions := h'.hasFunctions ∘ h.hasFunctions
  hasFilenames := h'.hasFilenames ∘ h.hasFilenames
  hasLineNumbers := h'.hasLineNumbers ∘ h.hasLineNumbers
  hasInlineFrames := h'.hasInlineFrames ∘ h.hasInlineFrames

/-- What mappings gain in two steps they gain in one, each of them. -/
theorem gains_trans {as bs cs : List (MappingOf τ)} (h : List.Forall₂ MappingOf.Gains as bs)
    (h' : List.Forall₂ MappingOf.Gains bs cs) : List.Forall₂ MappingOf.Gains as cs := by
  induction h generalizing cs with
  | nil =>
      cases h'
      exact .nil
  | cons hm _ ih =>
      cases h' with
      | cons hm' hrest => exact .cons (hm.trans hm') (ih hrest)

/-- What is known of a function beyond its display name. -/
def FunctionOf.origin (fn : FunctionOf τ) : Int × τ × τ :=
  (fn.id, fn.systemName, fn.filename)

/-- What is known of a location beyond its lines. -/
def Location.place (l : Location) : Int × Int × Option Nat :=
  (l.id, l.address, l.mapping)

namespace ProfileOf

/-- What is kept from a profile to a later one. -/
structure Grows (p q : ProfileOf τ) : Prop where
  /-- The mappings are the same, and more may have been found for them. -/
  mappings : List.Forall₂ MappingOf.Gains p.mappings q.mappings
  /-- The functions stand in front, with other display names at most. -/
  functions : p.functions.map FunctionOf.origin <+: q.functions.map FunctionOf.origin
  /-- The locations are the same, with other lines at most. -/
  locations : q.locations.map Location.place = p.locations.map Location.place

/-- References name records of the profile, and no two functions have the same id. -/
structure Sound (p : ProfileOf τ) : Prop extends p.WellFormed where
  ids_nodup : (p.functions.map (·.id)).Nodup

/-- The profile grows into another, which is sound if the first one is. -/
def Becomes (p q : ProfileOf τ) : Prop :=
  p.Grows q ∧ (p.Sound → q.Sound)

/-- A profile grows, by nothing, to itself. -/
theorem Grows.refl (p : ProfileOf τ) : p.Grows p :=
  ⟨List.forall₂_same.mpr fun m _ => .refl m, List.prefix_rfl, rfl⟩

/-- A profile that grows twice grows. -/
theorem Grows.trans {a b c : ProfileOf τ} (h : a.Grows b) (h' : b.Grows c) : a.Grows c where
  mappings := gains_trans h.mappings h'.mappings
  functions := h.functions.trans h'.functions
  locations := h'.locations.trans h.locations

/-- A profile becomes itself. -/
theorem Becomes.refl (p : ProfileOf τ) : p.Becomes p :=
  ⟨.refl p, id⟩

/-- A profile that becomes one which becomes another becomes the other. -/
theorem Becomes.trans {a b c : ProfileOf τ} (h : a.Becomes b) (h' : b.Becomes c) : a.Becomes c :=
  ⟨h.1.trans h'.1, h'.2 ∘ h.2⟩

/-- Locations of a profile that has grown lie in its mappings, as they did before. -/
theorem Grows.mapping_lt {p q : ProfileOf τ} (h : p.Grows q) (hp : p.WellFormed) :
    ∀ l ∈ q.locations, ∀ i ∈ l.mapping, i < q.mappings.length := by
  intro l hl i hi
  have hplace : l.place ∈ p.locations.map Location.place := by
    rw [← h.locations]
    exact List.mem_map_of_mem hl
  obtain ⟨l', hl', heq⟩ := List.mem_map.mp hplace
  have hmapping : l'.mapping = l.mapping := congrArg (·.2.2) heq
  have hlt := hp.mapping_lt l' hl' i (by rw [hmapping]; exact hi)
  rwa [h.mappings.length_eq] at hlt

/-- Where locations are kept, the same mappings are referred to. -/
theorem refersTo_of_places {p q : ProfileOf τ}
    (h : q.locations.map Location.place = p.locations.map Location.place) (i : Nat) :
    q.refersTo i = p.refersTo i := by
  have hplaces (r : ProfileOf τ) :
      r.refersTo i = (r.locations.map Location.place).any (·.2.2 == some i) := by
    rw [List.any_map]
    rfl
  rw [hplaces, hplaces, h]

/-- Each location of the grown profile is one of the old, with its address and its mapping. -/
theorem Grows.exists_location {p q : ProfileOf τ} (h : p.Grows q) {l' : Location}
    (hl : l' ∈ q.locations) :
    ∃ l ∈ p.locations, l.address = l'.address ∧ l.mapping = l'.mapping := by
  have hplace : l'.place ∈ p.locations.map Location.place := by
    rw [← h.locations]
    exact List.mem_map_of_mem hl
  obtain ⟨l, hl, heq⟩ := List.mem_map.mp hplace
  exact ⟨l, hl, congrArg (·.2.1) heq, congrArg (·.2.2) heq⟩

/-- Each mapping of the grown profile is one of the old, with what it gained. -/
theorem Grows.exists_mapping {p q : ProfileOf τ} (h : p.Grows q) {i : Nat} {m' : MappingOf τ}
    (hm : q.mappings[i]? = some m') : ∃ m, p.mappings[i]? = some m ∧ m.Gains m' := by
  have hlt : i < q.mappings.length := (List.getElem?_eq_some_iff.mp hm).1
  have hlt' : i < p.mappings.length := by rwa [h.mappings.length_eq]
  have hgains := h.mappings.get hlt' hlt
  rw [List.getElem?_eq_getElem hlt, Option.some.injEq] at hm
  subst hm
  exact ⟨_, List.getElem?_eq_getElem hlt', hgains⟩

/-- A profile that only has other functions, with the same origins, has grown. -/
theorem becomes_of_origins {p : ProfileOf τ} {functions : List (FunctionOf τ)}
    (h : functions.map FunctionOf.origin = p.functions.map FunctionOf.origin) :
    p.Becomes { p with functions } := by
  have hlength : functions.length = p.functions.length := by
    simpa using congrArg List.length h
  have hids : functions.map (·.id) = p.functions.map (·.id) := by
    have := congrArg (List.map Prod.fst) h
    simpa [FunctionOf.origin, Function.comp_def] using this
  refine ⟨⟨List.forall₂_same.mpr fun m _ => .refl m, h ▸ List.prefix_rfl, rfl⟩, fun hp => ?_⟩
  refine ⟨⟨hp.mapping_lt, ?_⟩, by rw [hids]; exact hp.ids_nodup⟩
  intro l hl line hline
  have hlt := hp.function_lt l hl line hline
  rwa [← hlength] at hlt

end ProfileOf

/-! ## entering frames -/

/-- A mapping gains flags by the stacks found in it, and loses nothing. -/
theorem gains_withStacks (m : MappingOf τ) (found : List (List Frame)) :
    m.Gains (m.withStacks found) where
  same := rfl
  hasFunctions h := by simp [MappingOf.withStacks, h]
  hasFilenames h := by simp [MappingOf.withStacks, h]
  hasLineNumbers h := by simp [MappingOf.withStacks, h]
  hasInlineFrames h := by simp [MappingOf.withStacks, h]

variable [Label τ]

/-- What frames do to a profile. -/
theorem becomes_resolve (p : ProfileOf τ) (found : List (List Frame)) :
    p.Becomes (p.resolve found) := by
  have hext := extends_enterStacks { old := p.functions } p.locations found
  have hold : (enterStacks { old := p.functions } p.locations found).1.old = p.functions :=
    hext.old_eq
  have hgrows : p.Grows (p.resolve found) := by
    refine ⟨?_, ?_, p.map_id_resolve found⟩
    · change List.Forall₂ _ p.mappings
        (p.mappings.mapIdx fun i m => m.withStacks (p.stacksIn found i))
      rw [List.forall₂_iff_get]
      refine ⟨by simp, ?_⟩
      intro i hi hi'
      simpa using gains_withStacks _ _
    · have hprefix := (enterStacks { old := p.functions } p.locations found).1.old_prefix_functions
      rw [hold] at hprefix
      exact hprefix.map _
  refine ⟨hgrows, fun hp => ⟨⟨hgrows.mapping_lt hp.toWellFormed, ?_⟩, ?_⟩⟩
  · refine function_lt_enterStacks found ?_
    intro l hl line hline
    have hlt := hp.function_lt l hl line hline
    rw [FunctionPool.length_functions]
    exact Nat.lt_of_lt_of_le hlt (Nat.le_add_right _ _)
  · refine FunctionPool.nodup_ids_functions ?_
    rw [hold]
    exact hp.ids_nodup

/-! ## display names -/

/-- Resetting the name of a function leaves its origin. -/
theorem origin_resetName (fn : FunctionOf τ) : fn.resetName.origin = fn.origin := by
  obtain ⟨hid, hsystem, hfile⟩ := fn.system_resetName
  rw [FunctionOf.origin, hid, hsystem, hfile, FunctionOf.origin]

/-- The function as it was, or with another text to display. -/
def FunctionOf.Renamed (fn fn' : FunctionOf τ) : Prop :=
  fn' = fn ∨ ∃ name, fn' = fn.withName name

/-- A renamed function has the origin it had. -/
theorem FunctionOf.Renamed.origin_eq {fn fn' : FunctionOf τ} (h : fn.Renamed fn') :
    fn'.origin = fn.origin := by
  obtain rfl | ⟨name, rfl⟩ := h <;> rfl

/-- Renamed functions have the origins they had, in order. -/
theorem origins_of_renamed {fns fns' : List (FunctionOf τ)}
    (h : List.Forall₂ FunctionOf.Renamed fns fns') :
    fns'.map FunctionOf.origin = fns.map FunctionOf.origin := by
  induction h with
  | nil => rfl
  | cons h _ ih => rw [List.map_cons, List.map_cons, h.origin_eq, ih]

/-- Naming gives functions other texts to display, at most, also if it breaks off. -/
theorem gives_renamed_nameFunctions (demangler : Demangler ω) (style : NameStyle)
    (fns : List (FunctionOf τ)) :
    Step.Gives (nameFunctions demangler style fns)
      (fun r => List.Forall₂ FunctionOf.Renamed fns r.1) := by
  have hsame : ∀ fns : List (FunctionOf τ), List.Forall₂ FunctionOf.Renamed fns fns :=
    fun fns => List.forall₂_same.mpr fun _ _ => .inl rfl
  induction fns with
  | nil => exact Step.gives_pure .nil
  | cons fn rest ih =>
      unfold nameFunctions
      split
      · exact Step.gives_bind ih fun r hr => Step.gives_pure (.cons (.inl rfl) hr)
      · cases Label.text fn.systemName with
        | error kind => exact Step.gives_pure (hsame _)
        | ok systemName =>
            refine Step.gives_bind_of_forall ?_
            intro answer?
            cases answer? with
            | error fault => exact Step.gives_pure (hsame _)
            | ok answer =>
                refine Step.gives_bind ih fun r hr => Step.gives_pure ?_
                exact .cons (.inr ⟨_, rfl⟩) hr

/-- What naming leaves of a profile are its functions with other texts to display, at most, where
all of them had the reported names before if they are to be named anew. -/
theorem gives_renamed_displayNames (demangler : Demangler ω) (force : Bool) (style : NameStyle)
    (p : ProfileOf τ) :
    Step.Gives (p.displayNames demangler force style) (fun r =>
      ∃ functions, r.1 = { (if force then p.resetNames else p) with functions } ∧
        List.Forall₂ FunctionOf.Renamed (if force then p.resetNames else p).functions
          functions) := by
  unfold ProfileOf.displayNames
  generalize (if force then p.resetNames else p) = q
  simp only
  split
  · exact Step.gives_pure ⟨_, rfl, List.forall₂_same.mpr fun _ _ => .inl rfl⟩
  · refine Step.gives_bind (gives_renamed_nameFunctions demangler style q.functions) ?_
    intro r hrenamed
    obtain ⟨functions, ended⟩ := r
    cases ended with
    | error fault => exact Step.gives_pure ⟨_, rfl, hrenamed⟩
    | ok changed =>
        exact Step.gives_bind_of_forall fun _ => Step.gives_pure ⟨_, rfl, hrenamed⟩

/-- A profile becomes sound and grown, or stays so, when its names are reset. -/
theorem becomes_resetNames (p : ProfileOf τ) : p.Becomes p.resetNames := by
  refine ProfileOf.becomes_of_origins ?_
  rw [List.map_map]
  exact List.map_congr_left fun fn _ => origin_resetName fn

/-- What naming does to a profile. -/
theorem becomes_displayNames (demangler : Demangler ω) (force : Bool) (style : NameStyle)
    (p : ProfileOf τ) :
    Step.Gives (p.displayNames demangler force style) (fun r => p.Becomes r.1) := by
  intro env
  obtain ⟨functions, hfunctions, hrenamed⟩ :=
    gives_renamed_displayNames demangler force style p env
  have hreset : p.Becomes (if force then p.resetNames else p) := by
    split
    · exact becomes_resetNames p
    · exact .refl p
  rw [hfunctions]
  exact hreset.trans (ProfileOf.becomes_of_origins (origins_of_renamed hrenamed))

end Symbolication
