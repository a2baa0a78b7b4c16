import Mathlib.Data.List.Nodup
import Symbolication.Profile.Resolve

/-!
# Symbolication.Proofs.Profile.Pool

How the function pool of a pass grows.  Interning keeps the functions that were
there before and appends to those that were added, so positions given out once
stay valid:

* `extends_intern`, `extends_enterFrames`, `extends_enterStacks` — every way in
  which a pass uses its pool extends it;
* `nodup_ids_functions` — the functions of a pool have different ids if the old
  ones have;
* `function_lt_enterStacks` — lines name functions of the pool;
* `FunctionPool.IsPlain`, `isPlain_enterStacks` — functions that are added have one name.
-/

namespace Symbolication

variable {τ : Type}

namespace FunctionPool

/-! ## extension -/

/-- The second pool has the old functions of the first one, and added functions behind its. -/
structure Extends (pool pool' : FunctionPool τ) : Prop where
  old_eq : pool'.old = pool.old
  added_prefix : pool.added <+: pool'.added

/-- A pool extends itself. -/
theorem Extends.refl (pool : FunctionPool τ) : pool.Extends pool :=
  ⟨rfl, List.prefix_rfl⟩

/-- A pool that extends one which extends another extends the other. -/
theorem Extends.trans {a b c : FunctionPool τ} (h : a.Extends b) (h' : b.Extends c) :
    a.Extends c :=
  ⟨h'.old_eq.trans h.old_eq, h.added_prefix.trans h'.added_prefix⟩

/-- Interning a function extends the pool. -/
theorem extends_intern (pool : FunctionPool τ) (identity : FunctionIdentity) :
    pool.Extends (pool.intern identity).1 := by
  unfold intern
  split
  · exact Extends.refl pool
  · exact ⟨rfl, List.prefix_append ..⟩

variable [Label τ]

/-- A pool has its old functions and those added. -/
theorem length_functions (pool : FunctionPool τ) :
    pool.functions.length = pool.old.length + pool.added.length := by
  simp [functions]

/-- A pool has no more functions than one that extends it. -/
theorem Extends.length_le {pool pool' : FunctionPool τ} (h : pool.Extends pool') :
    pool.functions.length ≤ pool'.functions.length := by
  rw [length_functions, length_functions, h.old_eq]
  have := h.added_prefix.length_le
  omega

/-- The position that interning gives is one of the pool. -/
theorem intern_lt (pool : FunctionPool τ) (identity : FunctionIdentity) :
    (pool.intern identity).2 < (pool.intern identity).1.functions.length := by
  obtain ⟨id, hget⟩ := pool.getElem_intern identity
  exact (List.getElem?_eq_some_iff.mp hget).1

/-- The old functions stand at the front. -/
theorem old_prefix_functions (pool : FunctionPool τ) : pool.old <+: pool.functions :=
  List.prefix_append ..

/-! ## ids -/

/-- The ids of a pool are the old ones, then those given to what was added. -/
theorem map_id_functions (pool : FunctionPool τ) :
    pool.functions.map (·.id) =
      pool.old.map (·.id) ++ (List.range pool.added.length).map pool.idAt := by
  have hadded : (pool.added.mapIdx fun i identity =>
      (identity.withId (pool.idAt i) : FunctionOf τ)).map (·.id) =
        (List.range pool.added.length).map pool.idAt := by
    apply List.ext_getElem
    · simp
    · intro i hi hi'
      simp [FunctionIdentity.withId]
  rw [functions, List.map_append, hadded]

/-- New ids are above all old ones and differ from each other. -/
theorem nodup_ids_functions {pool : FunctionPool τ} (h : (pool.old.map (·.id)).Nodup) :
    (pool.functions.map (·.id)).Nodup := by
  rw [map_id_functions, List.nodup_append]
  refine ⟨h, ?_, ?_⟩
  · refine List.Nodup.map ?_ List.nodup_range
    intro i j hij
    simp only [idAt] at hij
    omega
  · intro a ha b hb
    obtain ⟨fn, hfn, rfl⟩ := List.mem_map.mp ha
    obtain ⟨i, -, rfl⟩ := List.mem_map.mp hb
    have hle := le_greatestId hfn
    simp only [idAt]
    omega

end FunctionPool

open FunctionPool

/-! ## names of added functions -/

/-- The functions that have been added are shown by the names that they are reported by. -/
def FunctionPool.IsPlain (pool : FunctionPool τ) : Prop :=
  ∀ identity ∈ pool.added, identity.name = identity.systemName

namespace FunctionPool

/-- A plain pool stays plain when a function with one name is interned. -/
theorem isPlain_intern {pool : FunctionPool τ} (h : pool.IsPlain) {identity : FunctionIdentity}
    (hidentity : identity.name = identity.systemName) : (pool.intern identity).1.IsPlain := by
  unfold intern
  split
  · exact h
  · refine List.forall_mem_append.mpr ⟨h, ?_⟩
    simpa using hidentity

/-- Behind the old functions stand added ones, each of which has one name. -/
theorem IsPlain.exists_functions_eq [Label τ] {pool : FunctionPool τ} (h : pool.IsPlain) :
    ∃ added, pool.functions = pool.old ++ added ∧ ∀ fn ∈ added, fn.name = fn.systemName := by
  refine ⟨_, rfl, fun fn hfn => ?_⟩
  obtain ⟨i, hi, rfl⟩ := List.mem_mapIdx.mp hfn
  exact congrArg Label.ofText (h _ (List.getElem_mem hi))

end FunctionPool

/-! ## entering frames -/

/-- A plain pool stays plain when frames are entered. -/
theorem isPlain_enterFrames {pool : FunctionPool τ} (h : pool.IsPlain) (frames : List Frame) :
    (enterFrames pool frames).1.IsPlain := by
  induction frames generalizing pool with
  | nil => exact h
  | cons f rest ih => exact ih (isPlain_intern h rfl)

/-- With no location nothing is entered. -/
theorem enterStacks_nil_left (pool : FunctionPool τ) (found : List (List Frame)) :
    enterStacks pool [] found = (pool, []) := by
  cases found <;> rfl

/-- With no stack left the locations are as they are. -/
theorem enterStacks_nil_right (pool : FunctionPool τ) (locations : List Location) :
    enterStacks pool locations [] = (pool, locations) := by
  cases locations <;> rfl

/-- A plain pool stays plain when stacks are entered. -/
theorem isPlain_enterStacks {pool : FunctionPool τ} (h : pool.IsPlain) (locations : List Location)
    (found : List (List Frame)) : (enterStacks pool locations found).1.IsPlain := by
  induction locations generalizing pool found with
  | nil =>
      rw [enterStacks_nil_left]
      exact h
  | cons l locations ih =>
      cases found with
      | nil =>
          rw [enterStacks_nil_right]
          exact h
      | cons frames rest =>
          unfold enterStacks
          split
          · exact ih h rest
          · exact ih (isPlain_enterFrames h frames) rest

/-- Entering frames extends the pool. -/
theorem extends_enterFrames (pool : FunctionPool τ) (frames : List Frame) :
    pool.Extends (enterFrames pool frames).1 := by
  induction frames generalizing pool with
  | nil => exact Extends.refl pool
  | cons f rest ih => exact (extends_intern pool _).trans (ih _)

/-- Entering stacks extends the pool. -/
theorem extends_enterStacks (pool : FunctionPool τ) (locations : List Location)
    (found : List (List Frame)) : pool.Extends (enterStacks pool locations found).1 := by
  induction locations generalizing pool found with
  | nil =>
      rw [enterStacks_nil_left]
      exact Extends.refl pool
  | cons l locations ih =>
      cases found with
      | nil =>
          rw [enterStacks_nil_right]
          exact Extends.refl pool
      | cons frames rest =>
          unfold enterStacks
          split
          · exact ih pool rest
          · exact (extends_enterFrames pool frames).trans (ih _ rest)

variable [Label τ]

/-- The lines for frames name functions of the pool. -/
theorem function_lt_enterFrames (pool : FunctionPool τ) (frames : List Frame) :
    ∀ line ∈ (enterFrames pool frames).2,
      line.function < (enterFrames pool frames).1.functions.length := by
  induction frames generalizing pool with
  | nil => simp [enterFrames]
  | cons f rest ih =>
      intro line hline
      simp only [enterFrames] at hline ⊢
      rcases List.mem_cons.mp hline with rfl | hline
      · exact Nat.lt_of_lt_of_le (intern_lt pool _) (extends_enterFrames _ rest).length_le
      · exact ih _ line hline

/-- Lines that named functions of the pool before name functions of it afterwards, and so do those
that are new. -/
theorem function_lt_enterStacks {pool : FunctionPool τ} {locations : List Location}
    (found : List (List Frame))
    (h : ∀ l ∈ locations, ∀ line ∈ l.lines, line.function < pool.functions.length) :
    ∀ l ∈ (enterStacks pool locations found).2, ∀ line ∈ l.lines,
      line.function < (enterStacks pool locations found).1.functions.length := by
  induction locations generalizing pool found with
  | nil =>
      rw [enterStacks_nil_left]
      exact h
  | cons l locations ih =>
      cases found with
      | nil =>
          rw [enterStacks_nil_right]
          exact h
      | cons frames rest =>
          have hrest : ∀ l ∈ locations, ∀ line ∈ l.lines,
              line.function < pool.functions.length :=
            fun l hl => h l (List.mem_cons_of_mem _ hl)
          unfold enterStacks
          split
          · intro l' hl' line hline
            rcases List.mem_cons.mp hl' with rfl | hl'
            · exact Nat.lt_of_lt_of_le (h l' List.mem_cons_self line hline)
                (extends_enterStacks pool locations rest).length_le
            · exact ih rest hrest l' hl' line hline
          · have hext := extends_enterFrames pool frames
            intro l' hl' line hline
            rcases List.mem_cons.mp hl' with rfl | hl'
            · exact Nat.lt_of_lt_of_le (function_lt_enterFrames pool frames line hline)
                (extends_enterStacks _ locations rest).length_le
            · exact ih rest (fun l hl line hline =>
                Nat.lt_of_lt_of_le (hrest l hl line hline) hext.length_le) l' hl' line hline

end Symbolication
