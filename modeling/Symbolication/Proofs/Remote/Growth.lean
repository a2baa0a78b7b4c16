import Symbolication.Pass.Remote
import Symbolication.Proofs.Profile.Growth

/-!
# Symbolication.Proofs.Remote.Growth

The remote pass grows a profile.  It enters answers one by one, so its invariant
ties the profile on the way to the pool on the way:

* `RemoteProgress.Follows` — the profile has the functions of the pool, the pool
  has the functions of the first profile, and lines name functions of the pool;
* `RemoteProgress.Follows.counting` — what is counted meanwhile does not matter;
* `follows_enter`, `follows_mark` — the steps that change the profile;
* `gives_follows_runEach` — the pass as a whole, however it ends.
-/

namespace Symbolication

variable {ω τ : Type}

/-! ## answers -/

theorem extends_enterAnswers (pool : FunctionPool τ) (shift : Int)
    (answers : List (Nat × String)) : pool.Extends (enterAnswers pool shift answers).1 := by
  induction answers generalizing pool with
  | nil => exact .refl pool
  | cons answer rest ih => exact (FunctionPool.extends_intern pool _).trans (ih _)

theorem isPlain_enterAnswers {pool : FunctionPool τ} (h : pool.IsPlain) (shift : Int)
    (answers : List (Nat × String)) : (enterAnswers pool shift answers).1.IsPlain := by
  induction answers generalizing pool with
  | nil => exact h
  | cons answer rest ih => exact ih (FunctionPool.isPlain_intern h rfl)

/-- A line is one that was there, or one for an answer. -/
theorem mem_lines_enterNames {p : ProfileOf τ} {i : Nat} {functions : List (Int × Nat)}
    {l : Location} (hl : l ∈ (p.enterNames i functions).locations) {line : Line}
    (hline : line ∈ l.lines) :
    (∃ l' ∈ p.locations, line ∈ l'.lines) ∨ ∃ e ∈ functions, line.function = e.2 := by
  obtain ⟨l', hl', rfl⟩ := List.mem_map.mp hl
  by_cases hi : l'.mapping == some i
  · rw [if_pos hi] at hline
    cases hlookup : functions.lookup l'.address with
    | none =>
        rw [hlookup] at hline
        exact Or.inl ⟨l', hl', hline⟩
    | some function =>
        rw [hlookup] at hline
        obtain ⟨before, after, rfl, -⟩ := List.lookup_eq_some_iff.mp hlookup
        refine Or.inr ⟨(l'.address, function), by simp, ?_⟩
        rw [List.mem_singleton.mp hline]
  · rw [if_neg hi] at hline
    exact Or.inl ⟨l', hl', hline⟩

theorem places_enterNames (p : ProfileOf τ) (i : Nat) (functions : List (Int × Nat)) :
    (p.enterNames i functions).locations.map Location.place =
      p.locations.map Location.place := by
  simp only [ProfileOf.enterNames, List.map_map]
  refine List.map_congr_left fun l _ => ?_
  simp only [Function.comp_apply]
  split
  · cases functions.lookup l.address with
    | none => rfl
    | some function => rfl
  · rfl

theorem gains_markNamed (p : ProfileOf τ) (i : Nat) :
    List.Forall₂ MappingOf.Gains p.mappings (p.markNamed i).mappings := by
  simp only [ProfileOf.markNamed]
  rw [List.forall₂_iff_get]
  refine ⟨by simp, ?_⟩
  intro j hj hj'
  simp only [List.get_eq_getElem, List.getElem_modify]
  split
  · exact ⟨rfl, fun _ => rfl, fun h => h, fun h => h, fun h => h⟩
  · exact .refl _

variable [Label τ]

/-- The positions given out for answers are those of functions of the pool. -/
theorem function_lt_enterAnswers (pool : FunctionPool τ) (shift : Int)
    (answers : List (Nat × String)) :
    ∀ e ∈ (enterAnswers pool shift answers).2,
      e.2 < (enterAnswers pool shift answers).1.functions.length := by
  induction answers generalizing pool with
  | nil => simp [enterAnswers]
  | cons answer rest ih =>
      intro e he
      simp only [enterAnswers] at he ⊢
      rcases List.mem_append.mp he with he | he
      · exact ih _ e he
      · rw [List.mem_singleton.mp he]
        exact Nat.lt_of_lt_of_le (FunctionPool.intern_lt pool _)
          (extends_enterAnswers _ shift rest).length_le

/-! ## the invariant -/

/-- How far a pass over a profile may have come. -/
structure RemoteProgress.Follows (p : ProfileOf τ) (s : RemoteProgress τ) : Prop where
  /-- The profile has grown. -/
  grows : p.Grows s.profile
  /-- The pass began with the functions of the profile. -/
  old_eq : s.pool.old = p.functions
  /-- The profile holds what the pool has. -/
  functions_eq : s.profile.functions = s.pool.functions
  /-- Lines name functions, if they did when the pass began. -/
  function_lt : p.WellFormed → ∀ l ∈ s.profile.locations, ∀ line ∈ l.lines,
    line.function < s.pool.functions.length
  /-- The functions that were added are shown by the names that they are reported by. -/
  plain : s.pool.IsPlain

namespace RemoteProgress

theorem follows_start (p : ProfileOf τ) : Follows p (start p) where
  grows := .refl p
  old_eq := rfl
  functions_eq := by simp [start, FunctionPool.functions]
  function_lt hp := by simpa [start, FunctionPool.functions] using hp.function_lt
  plain := List.forall_mem_nil _

/-- What has been counted, and the latest fault, do not matter. -/
theorem Follows.counting {p : ProfileOf τ} {s : RemoteProgress τ} (h : Follows p s)
    (needed answered : Nat) (lastFault : Option Fault) :
    Follows p { s with needed, answered, lastFault } :=
  ⟨h.grows, h.old_eq, h.functions_eq, h.function_lt, h.plain⟩

/-- What a pass has come to is the profile grown. -/
theorem Follows.becomes {p : ProfileOf τ} {s : RemoteProgress τ} (h : Follows p s) :
    p.Becomes s.profile := by
  refine ⟨h.grows, fun hp => ⟨⟨h.grows.mapping_lt hp.toWellFormed, ?_⟩, ?_⟩⟩
  · rw [h.functions_eq]
    exact h.function_lt hp.toWellFormed
  · rw [h.functions_eq]
    refine FunctionPool.nodup_ids_functions ?_
    rw [h.old_eq]
    exact hp.ids_nodup

theorem follows_enter {p : ProfileOf τ} {s : RemoteProgress τ} (h : Follows p s) (i : Nat)
    (shift : Int) (answers : List (Nat × String)) : Follows p (s.enter i shift answers).1 := by
  have hext := extends_enterAnswers s.pool shift answers
  have hold : (enterAnswers s.pool shift answers).1.old = p.functions :=
    hext.old_eq.trans h.old_eq
  refine ⟨⟨h.grows.mappings, ?_, ?_⟩, hold, rfl, ?_, isPlain_enterAnswers h.plain shift answers⟩
  · have hprefix := (enterAnswers s.pool shift answers).1.old_prefix_functions
    rw [hold] at hprefix
    exact hprefix.map _
  · exact (places_enterNames s.profile i _).trans h.grows.locations
  · intro hp l hl line hline
    rcases mem_lines_enterNames hl hline with ⟨l', hl', hline'⟩ | ⟨e, he, heq⟩
    · exact Nat.lt_of_lt_of_le (h.function_lt hp l' hl' line hline') hext.length_le
    · rw [heq]
      exact function_lt_enterAnswers s.pool shift answers e he

theorem follows_mark {p : ProfileOf τ} {s : RemoteProgress τ} (h : Follows p s) (i : Nat) :
    Follows p (s.mark i) where
  grows := {
    mappings := gains_trans h.grows.mappings (gains_markNamed s.profile i)
    functions := h.grows.functions
    locations := h.grows.locations }
  old_eq := h.old_eq
  functions_eq := h.functions_eq
  function_lt := h.function_lt
  plain := h.plain

end RemoteProgress

open RemoteProgress

/-! ## the pass -/

theorem gives_follows_tryEach {p : ProfileOf τ} (post : Poster ω) (i : Nat) (m : MappingOf τ)
    {s : RemoteProgress τ} (h : Follows p s) (sources : List Source) :
    Step.Gives (RemotePass.tryEach post i m s sources) (fun r => Follows p r.1) := by
  induction sources generalizing s with
  | nil => exact Step.gives_pure h
  | cons source rest ih =>
      simp only [RemotePass.tryEach]
      cases source.symbolUrl? with
      | error fault => exact Step.gives_pure h
      | ok url? =>
          cases url? with
          | none => exact ih h
          | some url =>
              refine Step.gives_bind_of_forall ?_
              intro r
              cases r with
              | ok answers =>
                  refine Step.gives_bind_of_forall fun _ => Step.gives_pure ?_
                  exact follows_mark (follows_enter h i _ answers) i
              | error fault =>
                  simp only
                  split
                  · -- the fault is noted down, which touches neither the profile nor the pool
                    exact Step.gives_bind_of_forall fun _ => ih (h.counting _ _ (some fault))
                  · exact Step.gives_pure h

theorem gives_follows_runEach {p : ProfileOf τ} (post : Poster ω) (sources : SourcesOf τ)
    (force : Bool) {s : RemoteProgress τ} (h : Follows p s)
    (entries : List (MappingOf τ × Nat)) :
    Step.Gives (RemotePass.runEach post sources force s entries) (fun r => Follows p r.1) := by
  induction entries generalizing s with
  | nil => exact Step.gives_pure h
  | cons entry rest ih =>
      obtain ⟨m, i⟩ := entry
      simp only [RemotePass.runEach]
      split
      · exact Step.gives_pure h
      · exact ih h
      · exact Step.gives_pure h
      · have hneeded : Follows p { s with needed := s.needed + 1 } :=
          h.counting (s.needed + 1) _ _
        refine Step.gives_bind (gives_follows_tryEach post i m hneeded _) ?_
        intro r hs'
        obtain ⟨s', ended⟩ := r
        cases ended with
        | ok _ => exact ih hs'
        | error fault => exact Step.gives_pure hs'

end Symbolication
