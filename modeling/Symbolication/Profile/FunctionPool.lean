import Symbolication.Profile.Basic
import Symbolication.Profile.Label

/-!
# Symbolication.Profile.FunctionPool

The functions that a pass adds to a profile. Each combination of name, system
name and file gets one record; functions that were there before the pass are not
consulted. New records get consecutive ids above all old ones.

* `functions_intern`: interning appends at most one function;
* `getElem_intern`: the record at the position returned is the one asked for;
* `le_greatestId`: no function has an id above the greatest one.
-/

namespace Symbolication

/-- What tells functions apart in a pass. -/
structure FunctionIdentity where
  name : String
  systemName : String
  filename : String
deriving DecidableEq, Repr

variable {τ : Type}

/-- The function with an identity and an id. -/
def FunctionIdentity.withId [Label τ] (identity : FunctionIdentity) (id : Int) : FunctionOf τ where
  id
  name := Label.ofText identity.name
  systemName := Label.ofText identity.systemName
  filename := Label.ofText identity.filename

/-! ## Ids -/

/-- The greatest id of functions, zero if there are none. -/
def greatestId : List (FunctionOf τ) → Int
  | [] => 0
  | [fn] => fn.id
  | fn :: next :: rest => max fn.id (greatestId (next :: rest))

/-- No function has an id above the greatest one. -/
theorem le_greatestId {fn : FunctionOf τ} {fns : List (FunctionOf τ)} (h : fn ∈ fns) :
    fn.id ≤ greatestId fns := by
  induction fns with
  | nil => simp at h
  | cons f rest ih =>
    cases rest with
    | nil =>
      obtain rfl := List.mem_singleton.mp h
      exact Int.le_refl _
    | cons g rest =>
      rw [greatestId]
      rcases List.mem_cons.mp h with rfl | h
      · exact Int.le_max_left _ _
      · exact Int.le_trans (ih h) (Int.le_max_right _ _)

/-! ## The pool -/

/-- The functions of a profile during a pass: those it had, and those added. -/
structure FunctionPool (τ : Type) where
  old : List (FunctionOf τ)
  /-- The functions added, in the order in which they were first asked for. -/
  added : List FunctionIdentity := []
deriving DecidableEq, Repr

namespace FunctionPool

/-- The number of functions added. -/
def size (pool : FunctionPool τ) : Nat :=
  pool.added.length

/-- The id of the function added at a position. -/
def idAt (pool : FunctionPool τ) (i : Nat) : Int :=
  greatestId pool.old + 1 + i

/-- The position of the function with an identity, which is added unless the pass has added it
before. -/
def intern (pool : FunctionPool τ) (identity : FunctionIdentity) : FunctionPool τ × Nat :=
  match pool.added.findIdx? (· == identity) with
  | some i => (pool, pool.old.length + i)
  | none =>
    ({ pool with added := pool.added ++ [identity] }, pool.old.length + pool.added.length)

variable [Label τ]

/-- All functions of the pool, as the profile holds them. -/
def functions (pool : FunctionPool τ) : List (FunctionOf τ) :=
  pool.old ++ pool.added.mapIdx fun i identity => identity.withId (pool.idAt i)

/-- Interning appends at most one function. -/
theorem functions_intern (pool : FunctionPool τ) (identity : FunctionIdentity) :
    (pool.intern identity).1 = pool ∨
      (pool.intern identity).1.functions =
        pool.functions ++ [identity.withId (pool.idAt pool.size)] := by
  unfold intern
  split
  · exact Or.inl rfl
  · exact Or.inr (by simp [functions, idAt, size])

/-- The record at the position returned is the one asked for. -/
theorem getElem_intern (pool : FunctionPool τ) (identity : FunctionIdentity) :
    ∃ id, (pool.intern identity).1.functions[(pool.intern identity).2]? =
      some (identity.withId id) := by
  unfold intern
  split
  · rename_i i hi
    obtain ⟨hlt, hid, -⟩ := List.findIdx?_eq_some_iff_getElem.mp hi
    exact ⟨pool.idAt i, by simp_all [functions]⟩
  · exact ⟨greatestId pool.old + 1 + pool.added.length, by simp [functions, idAt]⟩

end FunctionPool

end Symbolication
