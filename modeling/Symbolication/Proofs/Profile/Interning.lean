import Symbolication.Proofs.Profile.Pool

/-!
# Symbolication.Proofs.Profile.Interning

Interning identities one after another.  A pool keeps each of them once, in the order
in which they were first asked for, and the position given for an identity is the same
at every request:

* `FunctionPool.added_internAll` — what a pool has added after any number of requests;
* `FunctionPool.positionOf` — where an identity stands, whatever is asked for later;
* `FunctionPool.internEach_snd` — the answers to requests;
* `enterFrames_eq`, `enterStacks_eq` — the lines of a location say where the identities
  of its frames stand.
-/

namespace Symbolication

variable {τ : Type}

/-- What tells the function of a call apart: its name, as both names, and its file. -/
def Frame.identity (f : Frame) : FunctionIdentity :=
  ⟨f.func, f.func, f.file⟩

/-- Frames have one identity just if they have the same function and the same file. -/
theorem Frame.identity_inj {f g : Frame} :
    f.identity = g.identity ↔ f.func = g.func ∧ f.file = g.file := by
  simp [identity]

/-! ## ids -/

/-- The greatest id is the maximum of the ids, or zero if there is none. -/
theorem greatestId_eq_max? (fns : List (FunctionOf τ)) :
    greatestId fns = (fns.map (·.id)).max?.getD 0 := by
  induction fns with
  | nil => rfl
  | cons fn rest ih =>
      cases rest with
      | nil => simp [greatestId]
      | cons next rest =>
          rw [greatestId, ih]
          simp [List.max?_cons]

namespace FunctionPool

/-! ## positions -/

/-- The position of an identity among the functions of a pool that has added it. -/
def positionOf (pool : FunctionPool τ) (identity : FunctionIdentity) : Nat :=
  pool.old.length + pool.added.idxOf identity

/-- An identity that has been added is only looked up. -/
theorem intern_of_mem {pool : FunctionPool τ} {identity : FunctionIdentity}
    (h : identity ∈ pool.added) : pool.intern identity = (pool, pool.positionOf identity) := by
  have hfind : pool.added.findIdx? (· == identity) = some (pool.added.idxOf identity) := by
    rw [List.findIdx?_eq_some_iff_findIdx_eq]
    exact ⟨List.idxOf_lt_length_of_mem h, rfl⟩
  unfold intern
  rw [hfind]
  rfl

/-- An identity that is new goes to the end. -/
theorem intern_of_notMem {pool : FunctionPool τ} {identity : FunctionIdentity}
    (h : identity ∉ pool.added) :
    pool.intern identity =
      ({ pool with added := pool.added ++ [identity] }, pool.old.length + pool.added.length) := by
  have hfind : pool.added.findIdx? (· == identity) = none := by
    rw [List.findIdx?_eq_none_iff]
    intro other hother
    have hne : other ≠ identity := fun heq => h (heq ▸ hother)
    simpa using hne
  unfold intern
  rw [hfind]

/-- An interned identity is among those added. -/
theorem mem_added_intern (pool : FunctionPool τ) (identity : FunctionIdentity) :
    identity ∈ (pool.intern identity).1.added := by
  by_cases h : identity ∈ pool.added
  · rw [intern_of_mem h]
    exact h
  · rw [intern_of_notMem h]
    simp

/-- The position that interning gives is where the identity stands. -/
theorem snd_intern (pool : FunctionPool τ) (identity : FunctionIdentity) :
    (pool.intern identity).2 = (pool.intern identity).1.positionOf identity := by
  by_cases h : identity ∈ pool.added
  · rw [intern_of_mem h]
  · rw [intern_of_notMem h]
    simp [positionOf, List.idxOf_append, h]

/-- Identities that have been added stay where they are. -/
theorem Extends.positionOf_eq {pool pool' : FunctionPool τ} (h : pool.Extends pool')
    {identity : FunctionIdentity} (hmem : identity ∈ pool.added) :
    pool'.positionOf identity = pool.positionOf identity := by
  obtain ⟨more, hmore⟩ := h.added_prefix
  rw [positionOf, positionOf, h.old_eq, ← hmore, List.idxOf_append_of_mem hmem]

/-- What was added to a pool is still there in one that extends it. -/
theorem Extends.mem_added {pool pool' : FunctionPool τ} (h : pool.Extends pool')
    {identity : FunctionIdentity} (hmem : identity ∈ pool.added) : identity ∈ pool'.added :=
  h.added_prefix.subset hmem

/-- The position that interning gives is where the identity stands in every later pool. -/
theorem snd_intern_of_extends {pool pool' : FunctionPool τ} {identity : FunctionIdentity}
    (h : (pool.intern identity).1.Extends pool') :
    (pool.intern identity).2 = pool'.positionOf identity := by
  rw [snd_intern, h.positionOf_eq (mem_added_intern pool identity)]

/-- Different identities stand at different positions. -/
theorem positionOf_inj {pool : FunctionPool τ} {a b : FunctionIdentity} (ha : a ∈ pool.added) :
    pool.positionOf a = pool.positionOf b ↔ a = b := by
  rw [positionOf, positionOf, Nat.add_left_cancel_iff]
  exact List.idxOf_inj ha

/-- At the position of an identity stands its function. -/
theorem getElem?_positionOf [Label τ] {pool : FunctionPool τ} {identity : FunctionIdentity}
    (h : identity ∈ pool.added) :
    pool.functions[pool.positionOf identity]? =
      some (identity.withId (pool.idAt (pool.added.idxOf identity))) := by
  have hget : pool.added[pool.added.idxOf identity]? = some identity := List.getElem?_idxOf h
  rw [functions, positionOf, List.getElem?_append_right (Nat.le_add_right ..),
    Nat.add_sub_cancel_left, List.getElem?_mapIdx, hget]
  rfl

/-! ## many requests -/

/-- The pool after requests for identities, one after another. -/
def internAll (pool : FunctionPool τ) (identities : List FunctionIdentity) : FunctionPool τ :=
  identities.foldl (fun pool identity => (pool.intern identity).1) pool

theorem internAll_cons (pool : FunctionPool τ) (identity : FunctionIdentity)
    (rest : List FunctionIdentity) :
    pool.internAll (identity :: rest) = (pool.intern identity).1.internAll rest :=
  rfl

theorem internAll_append (pool : FunctionPool τ) (a b : List FunctionIdentity) :
    pool.internAll (a ++ b) = (pool.internAll a).internAll b :=
  List.foldl_append ..

/-- The pool after requests for identities, and the positions given, in the order of the
requests. -/
def internEach (pool : FunctionPool τ) : List FunctionIdentity → FunctionPool τ × List Nat
  | [] => (pool, [])
  | identity :: rest =>
    let (pool, i) := pool.intern identity
    let (pool, given) := pool.internEach rest
    (pool, i :: given)

theorem internEach_cons (pool : FunctionPool τ) (identity : FunctionIdentity)
    (rest : List FunctionIdentity) :
    pool.internEach (identity :: rest) =
      (((pool.intern identity).1.internEach rest).1,
        (pool.intern identity).2 :: ((pool.intern identity).1.internEach rest).2) :=
  rfl

/-- Interning identities one by one leaves the pool that interning all of them does. -/
theorem internEach_fst (pool : FunctionPool τ) (identities : List FunctionIdentity) :
    (pool.internEach identities).1 = pool.internAll identities := by
  induction identities generalizing pool with
  | nil => rfl
  | cons identity rest ih => exact ih _

/-- Interning identities extends the pool. -/
theorem extends_internAll (pool : FunctionPool τ) (identities : List FunctionIdentity) :
    pool.Extends (pool.internAll identities) := by
  induction identities generalizing pool with
  | nil => exact .refl pool
  | cons identity rest ih => exact (extends_intern pool identity).trans (ih _)

/-- The positions given say where the identities stand, in the pool as it is then and in every later
one. -/
theorem internEach_snd {pool pool' : FunctionPool τ} {identities : List FunctionIdentity}
    (h : (pool.internAll identities).Extends pool') :
    (pool.internEach identities).2 = identities.map pool'.positionOf := by
  induction identities generalizing pool with
  | nil => rfl
  | cons identity rest ih =>
      have hrest : (pool.intern identity).1.Extends pool' := (extends_internAll _ rest).trans h
      rw [internEach_cons, List.map_cons, snd_intern_of_extends hrest]
      exact congrArg _ (ih h)

/-- Each of the identities interned is among those added. -/
theorem mem_added_internAll (pool : FunctionPool τ) {identities : List FunctionIdentity}
    {identity : FunctionIdentity} (h : identity ∈ identities) :
    identity ∈ (pool.internAll identities).added := by
  induction identities generalizing pool with
  | nil => simp at h
  | cons first rest ih =>
      rw [internAll_cons]
      rcases List.mem_cons.mp h with rfl | h
      · exact (extends_internAll _ rest).mem_added (mem_added_intern pool identity)
      · exact ih _ h

/-- Behind what a pool has added before stand the identities asked for, each once, in the order in
which they first appear. -/
theorem added_internAll (pool : FunctionPool τ) (identities : List FunctionIdentity) :
    (pool.internAll identities).added =
      pool.added ++ (identities.removeAll pool.added).eraseDups := by
  induction identities generalizing pool with
  | nil => simp [internAll, List.removeAll]
  | cons identity rest ih =>
      rw [internAll_cons, ih]
      by_cases h : identity ∈ pool.added
      · rw [intern_of_mem h]
        simp [List.removeAll, h]
      · rw [intern_of_notMem h]
        have hrest : rest.removeAll (pool.added ++ [identity]) =
            (rest.removeAll pool.added).filter fun b => !b == identity := by
          simp only [List.removeAll, List.filter_filter]
          refine List.filter_congr fun b _ => ?_
          rw [Bool.and_comm]
          simp [← beq_eq_decide]
        rw [hrest]
        simp [List.removeAll, h, List.eraseDups_cons]

/-- A pass that begins with nothing added adds the identities asked for, each once. -/
theorem added_internAll_old (old : List (FunctionOf τ)) (identities : List FunctionIdentity) :
    (internAll { old } identities).added = identities.eraseDups := by
  rw [added_internAll]
  simp [List.removeAll]

/-- The functions of such a pass: those for the identities stand behind the old ones, in the order
in which they were first asked for, and their ids go on from the greatest one. -/
theorem functions_internAll_old [Label τ] (old : List (FunctionOf τ))
    (identities : List FunctionIdentity) :
    (internAll { old } identities).functions =
      old ++ identities.eraseDups.mapIdx fun n identity =>
        identity.withId ((old.map (·.id)).max?.getD 0 + 1 + n) := by
  have hold : (internAll { old } identities).old = old := (extends_internAll _ _).old_eq
  rw [functions, added_internAll_old, hold]
  simp only [idAt, hold, greatestId_eq_max?]

end FunctionPool

open FunctionPool

/-! ## entering frames -/

/-- The line for a call, with the function where it stands in a pool. -/
def FunctionPool.lineOf (pool : FunctionPool τ) (f : Frame) : Line :=
  { function := pool.positionOf f.identity, line := f.line }

/-- The location with lines for a stack of frames, if there are any. -/
def Location.withFrames (l : Location) (pool : FunctionPool τ) (frames : List Frame) : Location :=
  if frames.isEmpty then l else { l with lines := frames.map pool.lineOf }

theorem enterFrames_cons (pool : FunctionPool τ) (f : Frame) (rest : List Frame) :
    enterFrames pool (f :: rest) =
      ((enterFrames (pool.intern f.identity).1 rest).1,
        { function := (pool.intern f.identity).2, line := f.line } ::
          (enterFrames (pool.intern f.identity).1 rest).2) :=
  rfl

/-- Entering frames is a request for each, and the lines take in the answers. -/
theorem enterFrames_eq_internEach (pool : FunctionPool τ) (frames : List Frame) :
    enterFrames pool frames =
      ((pool.internEach (frames.map Frame.identity)).1,
        List.zipWith (fun (f : Frame) function => { function, line := f.line }) frames
          (pool.internEach (frames.map Frame.identity)).2) := by
  induction frames generalizing pool with
  | nil => rfl
  | cons f rest ih =>
      rw [enterFrames_cons, ih, List.map_cons, internEach_cons, List.zipWith_cons_cons]

/-- Entering frames leaves the pool that interning their identities does. -/
theorem enterFrames_fst (pool : FunctionPool τ) (frames : List Frame) :
    (enterFrames pool frames).1 = pool.internAll (frames.map Frame.identity) := by
  rw [enterFrames_eq_internEach, internEach_fst]

/-- The lines for frames say where the identities stand, in the pool as it is then and in every
later one. -/
theorem enterFrames_eq {pool pool' : FunctionPool τ} {frames : List Frame}
    (h : (enterFrames pool frames).1.Extends pool') :
    (enterFrames pool frames).2 = frames.map pool'.lineOf := by
  rw [enterFrames_fst] at h
  rw [enterFrames_eq_internEach, internEach_snd h, List.map_map, List.zipWith_map_right,
    List.zipWith_self]
  rfl

theorem enterStacks_cons_nil (pool : FunctionPool τ) (l : Location) (locations : List Location)
    (rest : List (List Frame)) :
    enterStacks pool (l :: locations) ([] :: rest) =
      ((enterStacks pool locations rest).1, l :: (enterStacks pool locations rest).2) :=
  rfl

theorem enterStacks_cons {frames : List Frame} (h : frames ≠ []) (pool : FunctionPool τ)
    (l : Location) (locations : List Location) (rest : List (List Frame)) :
    enterStacks pool (l :: locations) (frames :: rest) =
      ((enterStacks (enterFrames pool frames).1 locations rest).1,
        { l with lines := (enterFrames pool frames).2 } ::
          (enterStacks (enterFrames pool frames).1 locations rest).2) := by
  have hempty : ¬ frames.isEmpty = true := by simpa using h
  rw [enterStacks, if_neg hempty]

/-- Entering stacks leaves the pool that interning the identities of all their frames does. -/
theorem enterStacks_fst (pool : FunctionPool τ) {locations : List Location}
    {found : List (List Frame)} (hlength : found.length = locations.length) :
    (enterStacks pool locations found).1 =
      pool.internAll (found.flatten.map Frame.identity) := by
  induction locations generalizing pool found with
  | nil =>
      rw [List.eq_nil_of_length_eq_zero hlength, enterStacks_nil_left]
      rfl
  | cons l locations ih =>
      cases found with
      | nil => simp at hlength
      | cons frames rest =>
          have hrest : rest.length = locations.length := by simpa using hlength
          by_cases hempty : frames = []
          · rw [hempty, enterStacks_cons_nil, List.flatten_cons, List.nil_append]
            exact ih pool hrest
          · rw [enterStacks_cons hempty, List.flatten_cons, List.map_append, internAll_append,
              ← enterFrames_fst pool frames]
            exact ih _ hrest

/-- Each location has lines for the frames found for it, and they say where the identities stand in
the pool as it is in the end. -/
theorem enterStacks_eq {pool pool' : FunctionPool τ} {locations : List Location}
    {found : List (List Frame)} (hlength : found.length = locations.length)
    (h : (enterStacks pool locations found).1.Extends pool') :
    (enterStacks pool locations found).2 =
      List.zipWith (fun l frames => l.withFrames pool' frames) locations found := by
  induction locations generalizing pool found with
  | nil =>
      rw [List.eq_nil_of_length_eq_zero hlength, enterStacks_nil_left]
      rfl
  | cons l locations ih =>
      cases found with
      | nil => simp at hlength
      | cons frames rest =>
          have hrest : rest.length = locations.length := by simpa using hlength
          rw [List.zipWith_cons_cons, Location.withFrames]
          by_cases hempty : frames = []
          · rw [hempty, enterStacks_cons_nil] at h ⊢
            rw [ih hrest h]
            rfl
          · rw [enterStacks_cons hempty] at h ⊢
            have hframes : (enterFrames pool frames).1.Extends pool' :=
              (extends_enterStacks _ locations rest).trans h
            have hnot : ¬ frames.isEmpty = true := by simpa using hempty
            rw [if_neg hnot, ih hrest h, enterFrames_eq hframes]

end Symbolication
