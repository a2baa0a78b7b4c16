import Mathlib.Data.Finset.Card
import Mathlib.Data.List.Forall2
import Symbolication.Proofs.Profile.Interning

/-!
# Symbolication.Proofs.Profile.Sharing

The law of a function pool, whatever it is asked for and whatever functions were there
before.  A request adds a record or is answered with one that was added before, and no
later request takes back what an earlier one got:

* `FunctionPool.internEach_append`, `FunctionPool.functions_prefix_internEach` — what was
  given and what was added stay;
* `FunctionPool.nodup_internAll` — a pool keeps what it adds once;
* `FunctionPool.Shares` — the law, in terms of requests, answers and functions;
* `FunctionPool.shares_internEach` — it holds after any requests.
-/

namespace Symbolication

variable {τ : Type}

/-! ## ids -/

/-- The greatest id is that of a function, unless there is none. -/
theorem exists_id_eq_greatestId {fns : List (FunctionOf τ)} (h : fns ≠ []) :
    ∃ fn ∈ fns, fn.id = greatestId fns := by
  have hne : fns.map (·.id) ≠ [] := by simpa using h
  obtain ⟨id, hid⟩ := Option.isSome_iff_exists.mp (List.isSome_max?_of_ne_nil hne)
  obtain ⟨fn, hfn, heq⟩ := List.mem_map.mp (List.max?_mem hid)
  exact ⟨fn, hfn, by rw [greatestId_eq_max?, hid, heq, Option.getD_some]⟩

namespace FunctionPool

/-! ## what is added -/

/-- No identity is added twice by interning one more. -/
theorem nodup_intern {pool : FunctionPool τ} (h : pool.added.Nodup)
    (identity : FunctionIdentity) : (pool.intern identity).1.added.Nodup := by
  by_cases hmem : identity ∈ pool.added
  · rw [intern_of_mem hmem]
    exact h
  · rw [intern_of_notMem hmem, ← List.concat_eq_append]
    exact h.concat hmem

/-- A pool keeps what it adds once. -/
theorem nodup_internAll {pool : FunctionPool τ} (h : pool.added.Nodup)
    (identities : List FunctionIdentity) : (pool.internAll identities).added.Nodup := by
  induction identities generalizing pool with
  | nil => exact h
  | cons identity rest ih => exact ih (nodup_intern h identity)

/-- A pass that begins with nothing added adds as many functions as there are different
identities. -/
theorem size_internAll_old (old : List (FunctionOf τ)) (identities : List FunctionIdentity) :
    (internAll { old } identities).size = identities.toFinset.card := by
  have hmem : ∀ identity, identity ∈ (internAll { old } identities).added ↔
      identity ∈ identities := by
    intro identity
    rw [added_internAll_old, List.mem_eraseDups]
  have hnone : ({ old } : FunctionPool τ).added.Nodup := List.nodup_nil
  have hnodup := nodup_internAll hnone identities
  rw [size, ← List.toFinset_card_of_nodup hnodup, List.toFinset.ext hmem]

/-! ## what was given -/

/-- Later requests are answered behind earlier ones, whose answers stay. -/
theorem internEach_append (pool : FunctionPool τ) (a b : List FunctionIdentity) :
    pool.internEach (a ++ b) =
      (((pool.internEach a).1.internEach b).1,
        (pool.internEach a).2 ++ ((pool.internEach a).1.internEach b).2) := by
  induction a generalizing pool with
  | nil => rfl
  | cons identity rest ih =>
      rw [List.cons_append, internEach_cons, internEach_cons, ih]
      rfl

variable [Label τ]

/-- Requests append functions, if they change any. -/
theorem functions_prefix_internEach (pool : FunctionPool τ) (asked : List FunctionIdentity) :
    pool.functions <+: (pool.internEach asked).1.functions := by
  induction asked generalizing pool with
  | nil => exact List.prefix_rfl
  | cons identity rest ih =>
      rw [internEach_cons]
      refine List.IsPrefix.trans ?_ (ih _)
      obtain heq | happend := pool.functions_intern identity
      · rw [heq]
      · rw [happend]
        exact List.prefix_append ..

/-! ## the law -/

/-- What requests for functions lead to, where a pass begins with the functions `old`: the
positions `given` in answer to the requests `asked`, and the pool that is left. -/
structure Shares (old : List (FunctionOf τ)) (asked : List FunctionIdentity)
    (pool : FunctionPool τ) (given : List Nat) : Prop where
  /-- Each request is answered with a record of what was asked for, which is none of the old
  ones. -/
  answered : List.Forall₂ (fun identity n => old.length ≤ n ∧
    ∃ id, pool.functions[n]? = some (identity.withId id)) asked given
  /-- Two requests are answered with the same record exactly if they ask for the same. -/
  shared : ∀ (i j : Nat) (a b : FunctionIdentity) (m n : Nat), asked[i]? = some a →
    asked[j]? = some b → given[i]? = some m → given[j]? = some n → (m = n ↔ a = b)
  /-- What the first requests have led to stays what it is. -/
  kept : ∀ first, first <+: asked →
    (internEach { old } first).1.functions <+: pool.functions ∧
      (internEach { old } first).2 <+: given
  /-- Behind the old functions stands one for each identity, in the order of the first requests
  for them.  Their ids go on one by one from the greatest old one, or from zero if there is none. -/
  functions : ∃ id : Int, (∀ fn ∈ old, fn.id < id) ∧
    ((∃ fn ∈ old, id = fn.id + 1) ∨ (old = [] ∧ id = 1)) ∧
    pool.functions = old ++ asked.eraseDups.mapIdx fun n identity => identity.withId (id + n)
  /-- As many functions have been added as different ones have been asked for. -/
  size : pool.size = asked.toFinset.card

/-- Behind the old functions stand those of a pass that begins with nothing added, in the order of
the first requests, with ids from behind the greatest one. -/
theorem functions_internEach_old (old : List (FunctionOf τ)) (asked : List FunctionIdentity) :
    ∃ id : Int, (∀ fn ∈ old, fn.id < id) ∧
      ((∃ fn ∈ old, id = fn.id + 1) ∨ (old = [] ∧ id = 1)) ∧
      (internEach { old } asked).1.functions =
        old ++ asked.eraseDups.mapIdx fun n identity => identity.withId (id + n) := by
  refine ⟨greatestId old + 1, fun fn hfn => Int.lt_add_one_of_le (le_greatestId hfn), ?_, ?_⟩
  · by_cases hold : old = []
    · exact .inr ⟨hold, by rw [hold]; rfl⟩
    · obtain ⟨fn, hfn, heq⟩ := exists_id_eq_greatestId hold
      exact .inl ⟨fn, hfn, by rw [heq]⟩
  · rw [internEach_fst, functions_internAll_old, greatestId_eq_max?]

/-- Whatever a new pool is asked for, requests share records exactly as they ask for the same. -/
theorem shares_internEach (p : ProfileOf τ) (asked : List FunctionIdentity) :
    Shares p.functions asked (internEach { old := p.functions } asked).1
      (internEach { old := p.functions } asked).2 where
  answered := by
    have hold : (internAll { old := p.functions } asked).old = p.functions :=
      (extends_internAll _ _).old_eq
    rw [internEach_fst, internEach_snd (.refl _), List.forall₂_map_right_iff, List.forall₂_same]
    intro identity hidentity
    refine ⟨?_, _, getElem?_positionOf (mem_added_internAll _ hidentity)⟩
    rw [positionOf, hold]
    exact Nat.le_add_right ..
  shared := by
    intro i j a b m n ha hb hm hn
    rw [internEach_snd (.refl _), List.getElem?_map] at hm hn
    rw [ha, Option.map_some, Option.some.injEq] at hm
    rw [hb, Option.map_some, Option.some.injEq] at hn
    rw [← hm, ← hn]
    exact positionOf_inj (mem_added_internAll _ (List.mem_of_getElem? ha))
  kept := by
    rintro first ⟨rest, rfl⟩
    rw [internEach_append]
    exact ⟨functions_prefix_internEach _ rest, List.prefix_append ..⟩
  functions := functions_internEach_old p.functions asked
  size := by rw [internEach_fst, size_internAll_old]

/-- Old ids may have gaps and be negative or the same, and an old function is not shared. -/
example :
    let old : List Function := [⟨7, "f", "f", "a.c"⟩, ⟨-2, "g", "g", ""⟩, ⟨7, "h", "h", ""⟩]
    let asked := [⟨"f", "f", "a.c"⟩, ⟨"f", "_Z1fv", "a.c"⟩, ⟨"f", "f", "a.c"⟩]
    let (pool, given) := internEach { old } asked
    given = [3, 4, 3] ∧
      pool.functions.drop 3 = [⟨8, "f", "f", "a.c"⟩, ⟨9, "f", "_Z1fv", "a.c"⟩] := by
  decide

end FunctionPool

end Symbolication
