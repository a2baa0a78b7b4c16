import Mathlib.Logic.Function.Basic
import Symbolication.Proofs.Profile.Interning
import Symbolication.Proofs.Remote.Answer
import Symbolication.Proofs.Remote.Exchanges

/-!
# Symbolication.Proofs.Remote.Naming

What a remote pass does to the locations of a profile, in terms of what servers were
asked and what they answered.  Addresses are shifted on the way there and back, and the
last of several answers counts:

* `enterAnswers_fst`, `lookup_enterAnswers` — entering answers, in closed form;
* `Accounts` — what the exchanges for a mapping do to the locations in it;
* `Tries.accounts`, `Runs.accounts` — one mapping, and all of them;
* `accounted_symbolizeRemotely` — a whole pass.
-/

namespace Symbolication

open Text

variable {ω τ : Type}

/-! ## answers -/

/-- What tells the function of a name apart: the name, as both names, and no file. -/
def Remote.identityOf (name : String) : FunctionIdentity :=
  ⟨name, name, ""⟩

/-- What tells the functions of answers apart, in the order of the answers. -/
def Remote.identities (answers : List (Nat × String)) : List FunctionIdentity :=
  answers.map fun answer => identityOf answer.2

theorem enterAnswers_cons (pool : FunctionPool τ) (shift : Int) (answer : Nat × String)
    (rest : List (Nat × String)) :
    enterAnswers pool shift (answer :: rest) =
      ((enterAnswers (pool.intern (Remote.identityOf answer.2)).1 shift rest).1,
        (enterAnswers (pool.intern (Remote.identityOf answer.2)).1 shift rest).2 ++
          [((answer.1 : Int) - shift, (pool.intern (Remote.identityOf answer.2)).2)]) :=
  rfl

/-- Entering answers is a request for each name, and the last one comes first. -/
theorem enterAnswers_eq_internEach (pool : FunctionPool τ) (shift : Int)
    (answers : List (Nat × String)) :
    enterAnswers pool shift answers =
      ((pool.internEach (Remote.identities answers)).1,
        (List.zipWith (fun answer function => ((answer.1 : Int) - shift, function)) answers
          (pool.internEach (Remote.identities answers)).2).reverse) := by
  induction answers generalizing pool with
  | nil => rfl
  | cons answer rest ih =>
      have hidentities : Remote.identities (answer :: rest) =
          Remote.identityOf answer.2 :: Remote.identities rest := rfl
      rw [enterAnswers_cons, ih, hidentities, FunctionPool.internEach_cons,
        List.zipWith_cons_cons, List.reverse_cons]

/-- The functions that answers name are requested one after another. -/
theorem enterAnswers_fst (pool : FunctionPool τ) (shift : Int) (answers : List (Nat × String)) :
    (enterAnswers pool shift answers).1 = pool.internAll (Remote.identities answers) := by
  rw [enterAnswers_eq_internEach, FunctionPool.internEach_fst]

/-- The positions for answers say where the functions stand, in the pool as it is then and in every
later one. -/
theorem enterAnswers_snd {pool pool' : FunctionPool τ} {shift : Int}
    {answers : List (Nat × String)} (h : (enterAnswers pool shift answers).1.Extends pool') :
    (enterAnswers pool shift answers).2 =
      (answers.map fun answer =>
        ((answer.1 : Int) - shift, pool'.positionOf (Remote.identityOf answer.2))).reverse := by
  rw [enterAnswers_fst] at h
  rw [enterAnswers_eq_internEach, FunctionPool.internEach_snd h, Remote.identities, List.map_map,
    List.zipWith_map_right, List.zipWith_self]
  rfl

/-- The function for an address is that of the last answer for the shifted address. -/
theorem lookup_enterAnswers {pool pool' : FunctionPool τ} {shift : Int}
    {answers : List (Nat × String)} (h : (enterAnswers pool shift answers).1.Extends pool')
    (address : Int) :
    (enterAnswers pool shift answers).2.lookup address =
      (Remote.lastName? answers (address + shift)).map fun name =>
        pool'.positionOf (Remote.identityOf name) := by
  rw [enterAnswers_snd h, Remote.lastName?, ← List.map_reverse]
  induction answers.reverse with
  | nil => rfl
  | cons answer rest ih =>
      have hback :
          (address == (answer.1 : Int) - shift) = ((answer.1 : Int) == address + shift) := by
        rw [Bool.eq_iff_iff, beq_iff_eq, beq_iff_eq]
        omega
      rw [List.map_cons, List.lookup_cons, List.find?_cons, hback]
      cases (answer.1 : Int) == address + shift with
      | true => rfl
      | false => exact ih

/-! ## locations -/

/-- The location with the name that answers give its shifted address. -/
def Location.withAnswers (pool : FunctionPool τ) (shift : Int) (answers : List (Nat × String))
    (l : Location) : Location :=
  match Remote.lastName? answers (l.address + shift) with
  | some name => { l with lines := [{ function := pool.positionOf (Remote.identityOf name) }] }
  | none => l

theorem lastName?_mem {answers : List (Nat × String)} {address : Int} {name : String}
    (h : Remote.lastName? answers address = some name) :
    Remote.identityOf name ∈ Remote.identities answers := by
  rw [Remote.lastName?, Option.map_eq_some_iff] at h
  obtain ⟨answer, hfind, rfl⟩ := h
  exact List.mem_map.mpr ⟨answer, List.mem_reverse.mp (List.mem_of_find?_eq_some hfind), rfl⟩

/-- Nothing else of the location is touched. -/
theorem place_withAnswers (pool : FunctionPool τ) (shift : Int) (answers : List (Nat × String))
    (l : Location) : (l.withAnswers pool shift answers).place = l.place := by
  unfold Location.withAnswers
  split <;> rfl

/-- A location whose shifted address a line says something of has one line, for the last name. -/
theorem withAnswers_of_named {body : List UInt8} {l : Location} {shift : Int}
    (h : Remote.Says (splitLines (Utf8.decodeLossy body)) (l.address + shift))
    (pool : FunctionPool τ) :
    ∃ name, Remote.LastSays (splitLines (Utf8.decodeLossy body)) (l.address + shift) name ∧
      l.withAnswers pool shift (Remote.answers body) =
        { l with lines := [{ function := pool.positionOf (Remote.identityOf name) }] } := by
  cases hname : Remote.lastName? (Remote.answers body) (l.address + shift) with
  | none => exact absurd h (Remote.lastName?_eq_none_iff.mp hname)
  | some name =>
      refine ⟨name, Remote.lastName?_eq_some_iff.mp hname, ?_⟩
      rw [Location.withAnswers, hname]

/-- Any other location is what it was. -/
theorem withAnswers_of_unnamed {body : List UInt8} {l : Location} {shift : Int}
    (h : ¬ Remote.Says (splitLines (Utf8.decodeLossy body)) (l.address + shift))
    (pool : FunctionPool τ) : l.withAnswers pool shift (Remote.answers body) = l := by
  rw [Location.withAnswers, Remote.lastName?_eq_none_iff.mpr h]

/-- A pool that has the names already gives the same lines when it has grown. -/
theorem withAnswers_extend {pool pool' : FunctionPool τ} (h : pool.Extends pool')
    {answers : List (Nat × String)}
    (hmem : ∀ identity ∈ Remote.identities answers, identity ∈ pool.added) (shift : Int) :
    Location.withAnswers pool' shift answers = Location.withAnswers pool shift answers := by
  funext l
  unfold Location.withAnswers
  split
  · rename_i name hname
    rw [h.positionOf_eq (hmem _ (lastName?_mem hname))]
  · rfl

/-! ## changes of locations -/

/-- The location after the change for its mapping. -/
def Location.changeBy (changes : Nat → Location → Location) (l : Location) : Location :=
  match l.mapping with
  | some i => changes i l
  | none => l

/-- No mapping changes its locations. -/
def unchanged : Nat → Location → Location :=
  fun _ => id

theorem changeBy_unchanged : Location.changeBy unchanged = id := by
  funext l
  unfold Location.changeBy
  cases l.mapping <;> rfl

theorem changeBy_update (i : Nat) (change : Location → Location) :
    Location.changeBy (Function.update unchanged i change) =
      fun l => if l.mapping = some i then change l else l := by
  funext l
  unfold Location.changeBy
  cases hl : l.mapping with
  | none => simp
  | some j =>
      by_cases hj : j = i
      · rw [hj]
        simp
      · simp [unchanged, hj]

/-- Changes of other mappings, after the change of one. -/
theorem changeBy_comp_update {changes : Nat → Location → Location} {i : Nat}
    (hi : changes i = id) {change : Location → Location}
    (hplace : ∀ l, (change l).place = l.place) :
    Location.changeBy changes ∘ Location.changeBy (Function.update unchanged i change) =
      Location.changeBy (Function.update changes i change) := by
  rw [changeBy_update]
  funext l
  simp only [Function.comp_apply]
  by_cases hl : l.mapping = some i
  · have hmapping : (change l).mapping = some i := by
      rw [← hl]
      exact congrArg (·.2.2) (hplace l)
    rw [if_pos hl]
    simp [Location.changeBy, hmapping, hi, hl]
  · rw [if_neg hl]
    unfold Location.changeBy
    cases hj : l.mapping with
    | none => rfl
    | some j =>
        have hne : j ≠ i := by
          rintro rfl
          exact hl hj
        simp [Function.update_of_ne hne]

/-- Entering answers for a mapping gives the locations in it their names. -/
theorem locations_enter [Label τ] (s : RemoteProgress τ) (i : Nat) (shift : Int)
    (answers : List (Nat × String)) :
    (s.enter i shift answers).1.profile.locations =
      s.profile.locations.map (Location.changeBy (Function.update unchanged i
        (Location.withAnswers (s.enter i shift answers).1.pool shift answers))) := by
  rw [changeBy_update]
  simp only [RemoteProgress.enter, ProfileOf.enterNames]
  refine List.map_congr_left fun l _ => ?_
  simp only [beq_iff_eq, Location.withAnswers, lookup_enterAnswers (.refl _)]
  split
  · cases Remote.lastName? answers (l.address + shift) <;> rfl
  · rfl

/-! ## exchanges -/

/-- What tells the functions of an answer apart; a request that failed names none. -/
def Exchange.identities (e : Exchange) : List FunctionIdentity :=
  match e.reply with
  | .ok body => Remote.identities (Remote.answers body)
  | .error _ => []

namespace RemotePass

/-- The last of the exchanges for a mapping is the answer of a source, with a body; the ones before
it failed. -/
def AnsweredBy (addresses : List Int) (m : MappingOf τ) (sources : List Source)
    (told : List Exchange) (source : Source) (body : List UInt8) : Prop :=
  addresses ≠ [] ∧ source ∈ sources ∧ ∃ failed url, source.symbolUrl? = .ok (some url) ∧
    (∀ e ∈ failed, ¬ e.IsAnswered) ∧ told = failed ++
      [⟨⟨url, Remote.payload (addresses.map (· + source.shift m))⟩, .ok body⟩]

/-- What the exchanges for a mapping do to a location in it. -/
inductive Accounts (addresses : List Int) (m : MappingOf τ) (sources : List Source)
    (told : List Exchange) (pool : FunctionPool τ) : (Location → Location) → Prop where
  /-- No server has answered. -/
  | unanswered (hfailed : ∀ e ∈ told, ¬ e.IsAnswered) : Accounts addresses m sources told pool id
  /-- A server has answered, and the pool has the names. -/
  | answered {source : Source} {body : List UInt8}
      (hanswered : AnsweredBy addresses m sources told source body)
      (hpool : ∀ identity ∈ Remote.identities (Remote.answers body), identity ∈ pool.added) :
      Accounts addresses m sources told pool
        (Location.withAnswers pool (source.shift m) (Remote.answers body))

section

variable {addresses : List Int} {m : MappingOf τ} {sources : List Source} {told : List Exchange}
  {pool : FunctionPool τ} {change : Location → Location}

theorem not_isAnswered_error (r : Posted) (fault : Fault) :
    ¬ (⟨r, .error fault⟩ : Exchange).IsAnswered := by
  rintro ⟨body, hbody⟩
  cases hbody

/-- A source that has given no answer may stand before the others, and have been asked. -/
theorem AnsweredBy.behind {source : Source} {body : List UInt8}
    (h : AnsweredBy addresses m sources told source body) (first : Source)
    (before : List Exchange) (hbefore : ∀ e ∈ before, ¬ e.IsAnswered) :
    AnsweredBy addresses m (first :: sources) (before ++ told) source body := by
  obtain ⟨hopen, hmem, failed, url, hurl, hfailed, rfl⟩ := h
  refine ⟨hopen, List.mem_cons_of_mem _ hmem, before ++ failed, url, hurl, ?_,
    (List.append_assoc ..).symm⟩
  intro e he
  rcases List.mem_append.mp he with he | he
  · exact hbefore e he
  · exact hfailed e he

namespace Accounts

theorem place (h : Accounts addresses m sources told pool change) (l : Location) :
    (change l).place = l.place := by
  cases h with
  | unanswered _ => rfl
  | answered _ _ => exact place_withAnswers _ _ _ l

theorem extend {pool' : FunctionPool τ} (h : Accounts addresses m sources told pool change)
    (hpool : pool.Extends pool') : Accounts addresses m sources told pool' change := by
  cases h with
  | unanswered hfailed => exact .unanswered hfailed
  | answered hanswered hmem =>
      rw [← withAnswers_extend hpool hmem]
      exact .answered hanswered fun identity h => hpool.mem_added (hmem identity h)

theorem behind (h : Accounts addresses m sources told pool change) (first : Source)
    (before : List Exchange) (hbefore : ∀ e ∈ before, ¬ e.IsAnswered) :
    Accounts addresses m (first :: sources) (before ++ told) pool change := by
  cases h with
  | unanswered hfailed =>
      refine .unanswered fun e he => ?_
      rcases List.mem_append.mp he with he | he
      · exact hbefore e he
      · exact hfailed e he
  | answered hanswered hmem => exact .answered (hanswered.behind first before hbefore) hmem

end Accounts

end

variable [Label τ]

/-! ## one mapping -/

section

variable {addresses : List Int} {i : Nat} {m : MappingOf τ} {s s' : RemoteProgress τ}
  {sources : List Source} {told : List Exchange} {ended : Except Fault Unit}

/-- The pool has what it had and what the exchanges name. -/
theorem Tries.pool_eq (h : Tries addresses i m s sources told s' ended) :
    s'.pool = s.pool.internAll (told.flatMap Exchange.identities) := by
  induction h with
  | out => rfl
  | flawed _ => rfl
  | passed _ _ ih => exact ih
  | idle _ _ => rfl
  | answered _ _ =>
      rw [List.flatMap_singleton]
      exact enterAnswers_fst _ _ _
  | failed _ _ _ _ ih => exact ih
  | broken _ _ _ => rfl

/-- The exchanges for a mapping account for what becomes of the locations in it. -/
theorem Tries.accounts (h : Tries addresses i m s sources told s' ended) :
    ∃ change, Accounts addresses m sources told s'.pool change ∧
      s'.profile.locations =
        s.profile.locations.map (Location.changeBy (Function.update unchanged i change)) := by
  have hsame : ∀ s : RemoteProgress τ, s.profile.locations =
      s.profile.locations.map (Location.changeBy (Function.update unchanged i id)) := by
    intro s
    have hid : Function.update unchanged i id = unchanged := Function.update_eq_self i unchanged
    rw [hid, changeBy_unchanged, List.map_id]
  induction h with
  | out => exact ⟨id, .unanswered (by simp), hsame _⟩
  | flawed _ => exact ⟨id, .unanswered (by simp), hsame _⟩
  | passed _ _ ih =>
      obtain ⟨change, haccounts, hlocations⟩ := ih
      exact ⟨change, haccounts.behind _ [] (by simp), hlocations⟩
  | @idle s source _ _ _ _ =>
      exact ⟨id, .unanswered (by simp), locations_enter s i (source.shift m) []⟩
  | answered hurl hopen =>
      refine ⟨_, .answered ⟨hopen, List.mem_cons_self, [], _, hurl, by simp, rfl⟩ ?_,
        locations_enter _ i _ _⟩
      intro identity h
      simp only [RemoteProgress.mark, RemoteProgress.enter, enterAnswers_fst]
      exact FunctionPool.mem_added_internAll _ h
  | failed hurl hopen hblame _ ih =>
      obtain ⟨change, haccounts, hlocations⟩ := ih
      refine ⟨change, haccounts.behind _ [_] ?_, hlocations⟩
      intro e he
      rw [List.mem_singleton.mp he]
      exact not_isAnswered_error _ _
  | broken _ _ _ =>
      refine ⟨id, .unanswered ?_, hsame _⟩
      intro e he
      rw [List.mem_singleton.mp he]
      exact not_isAnswered_error _ _

end

/-! ## all mappings -/

section

variable {p : ProfileOf τ} {sources : SourcesOf τ} {force : Bool} {s s' : RemoteProgress τ}
  {entries : List (MappingOf τ × Nat)} {parts : List (List Exchange)} {ended : Except Fault Unit}

theorem Runs.length_eq (h : Runs p sources force s entries parts s' ended) :
    parts.length = entries.length := by
  induction h with
  | done => rfl
  | unreadable _ => simp
  | spared _ _ ih => simp [ih]
  | keyless _ _ => simp
  | tried _ _ _ ih => simp [ih]
  | broken _ _ => simp

/-- The pool has what it had and what the exchanges name. -/
theorem Runs.pool_eq (h : Runs p sources force s entries parts s' ended) :
    s'.pool = s.pool.internAll (parts.flatten.flatMap Exchange.identities) := by
  have hnone : ∀ rest : List (MappingOf τ × Nat),
      (rest.map fun _ => ([] : List Exchange)).flatten = [] := by simp
  induction h with
  | done => rfl
  | unreadable _ => rw [List.flatten_cons, hnone]; rfl
  | spared _ _ ih => exact ih
  | keyless _ _ => rw [List.flatten_cons, hnone]; rfl
  | tried _ htries _ ih =>
      rw [List.flatten_cons, List.flatMap_append, FunctionPool.internAll_append, ih,
        htries.pool_eq]
  | broken _ htries => rw [List.flatten_cons, hnone, List.append_nil, htries.pool_eq]

theorem Runs.extends (h : Runs p sources force s entries parts s' ended) :
    s.pool.Extends s'.pool := by
  rw [h.pool_eq]
  exact FunctionPool.extends_internAll _ _

/-- What the exchanges for mappings do to the locations in them; no other location changes. -/
def AccountsEach (p : ProfileOf τ) (sources : SourcesOf τ) (entries : List (MappingOf τ × Nat))
    (parts : List (List Exchange)) (pool : FunctionPool τ)
    (changes : Nat → Location → Location) : Prop :=
  (∀ i, i ∉ entries.map (·.2) → changes i = id) ∧
    ∀ e ∈ entries.zip parts, Accounts (p.openAddresses e.1.2) e.1.1 (sources.forMapping e.1.1)
      e.2 pool (changes e.1.2)

theorem accountsEach_none (p : ProfileOf τ) (sources : SourcesOf τ)
    (entries : List (MappingOf τ × Nat)) (pool : FunctionPool τ) :
    AccountsEach p sources entries (entries.map fun _ => []) pool unchanged := by
  refine ⟨fun _ _ => rfl, fun e he => ?_⟩
  rw [eq_nil_of_mem_zip he]
  exact .unanswered (by simp)

theorem AccountsEach.cons {pool : FunctionPool τ} {changes : Nat → Location → Location}
    (h : AccountsEach p sources entries parts pool changes) {m : MappingOf τ} {i : Nat}
    (hi : i ∉ entries.map (·.2)) {told : List Exchange} {change : Location → Location}
    (hhead : Accounts (p.openAddresses i) m (sources.forMapping m) told pool change) :
    AccountsEach p sources ((m, i) :: entries) (told :: parts) pool
      (Function.update changes i change) := by
  constructor
  · intro j hj
    rw [List.map_cons, List.mem_cons, not_or] at hj
    rw [Function.update_of_ne hj.1]
    exact h.1 j hj.2
  · intro e he
    rw [List.zip_cons_cons, List.mem_cons] at he
    rcases he with rfl | he
    · simpa using hhead
    · have hne : e.1.2 ≠ i := by
        rintro rfl
        exact hi (List.mem_map_of_mem (List.of_mem_zip he).1)
      rw [Function.update_of_ne hne]
      exact h.2 e he

/-- Nothing is done for the mapping in front. -/
theorem AccountsEach.skip {pool : FunctionPool τ} {changes : Nat → Location → Location}
    (h : AccountsEach p sources entries parts pool changes) {m : MappingOf τ} {i : Nat}
    (hi : i ∉ entries.map (·.2)) :
    AccountsEach p sources ((m, i) :: entries) ([] :: parts) pool changes := by
  have hhead : Accounts (p.openAddresses i) m (sources.forMapping m) [] pool id :=
    .unanswered (by simp)
  have hcons := h.cons hi hhead
  rwa [← h.1 i hi, Function.update_eq_self] at hcons

/-- The exchanges for mappings account for what becomes of the locations. -/
theorem Runs.accounts (hnodup : (entries.map (·.2)).Nodup)
    (h : Runs p sources force s entries parts s' ended) :
    ∃ changes : Nat → Location → Location,
      AccountsEach p sources entries parts s'.pool changes ∧
        s'.profile.locations = s.profile.locations.map (Location.changeBy changes) := by
  have hsame : ∀ s : RemoteProgress τ,
      s.profile.locations = s.profile.locations.map (Location.changeBy unchanged) := by
    intro s
    rw [changeBy_unchanged, List.map_id]
  induction h with
  | done => exact ⟨unchanged, accountsEach_none p sources [] _, hsame _⟩
  | unreadable _ => exact ⟨unchanged, accountsEach_none p sources (_ :: _) _, hsame _⟩
  | keyless _ _ => exact ⟨unchanged, accountsEach_none p sources (_ :: _) _, hsame _⟩
  | spared _ _ ih =>
      rw [List.map_cons, List.nodup_cons] at hnodup
      obtain ⟨changes, heach, hlocations⟩ := ih hnodup.2
      exact ⟨changes, heach.skip hnodup.1, hlocations⟩
  | tried _ htries hruns ih =>
      rw [List.map_cons, List.nodup_cons] at hnodup
      obtain ⟨changes, heach, hlocations⟩ := ih hnodup.2
      obtain ⟨change, hhead, hfirst⟩ := htries.accounts
      refine ⟨_, heach.cons hnodup.1 (hhead.extend hruns.extends), ?_⟩
      rw [hlocations, hfirst, List.map_map,
        changeBy_comp_update (heach.1 _ hnodup.1) hhead.place]
  | broken _ htries =>
      rw [List.map_cons, List.nodup_cons] at hnodup
      obtain ⟨change, hhead, hlocations⟩ := htries.accounts
      exact ⟨_, (accountsEach_none p sources _ _).cons hnodup.1 hhead, hlocations⟩

omit [Label τ] in
/-- The mapping at a position of a profile stands beside its exchanges. -/
theorem mem_zip_zipIdx {mappings : List (MappingOf τ)} {i : Nat} {m : MappingOf τ}
    {part : List Exchange} (hm : mappings[i]? = some m) (hpart : parts[i]? = some part) :
    ((m, i), part) ∈ mappings.zipIdx.zip parts := by
  have hentry : mappings.zipIdx[i]? = some (m, i) := by simp [hm]
  exact List.mem_of_getElem? (List.getElem?_zip_eq_some.mpr ⟨hentry, hpart⟩)

/-- The exchanges for the mapping at a position. -/
theorem AccountsEach.getElem {pool : FunctionPool τ} {changes : Nat → Location → Location}
    (h : AccountsEach p sources p.mappings.zipIdx parts pool changes) {i : Nat} {m : MappingOf τ}
    {part : List Exchange} (hm : p.mappings[i]? = some m) (hpart : parts[i]? = some part) :
    Accounts (p.openAddresses i) m (sources.forMapping m) part pool (changes i) :=
  h.2 _ (mem_zip_zipIdx hm hpart)

/-- There are exchanges for mappings of the profile only. -/
theorem AccountsEach.outside {pool : FunctionPool τ} {changes : Nat → Location → Location}
    (h : AccountsEach p sources p.mappings.zipIdx parts pool changes) {i : Nat}
    (hi : p.mappings.length ≤ i) : changes i = id := by
  refine h.1 i ?_
  rw [List.zipIdx_map_snd, List.mem_range'_1]
  omega

end

/-! ## a whole pass -/

/-- The exchanges for the mappings of `p` account for the profile `q`: for its functions, which are
those of a pool, and for its locations, which have been changed mapping by mapping. -/
structure Accounted (p : ProfileOf τ) (sources : SourcesOf τ) (force : Bool)
    (parts : List (List Exchange)) (pool : FunctionPool τ) (changes : Nat → Location → Location)
    (q : ProfileOf τ) : Prop where
  length_parts : parts.length = p.mappings.length
  asked : ∀ x ∈ p.mappings.zipIdx.zip parts, ∀ e ∈ x.2,
    p.needsNames force x.1.2 x.1.1 = .ok true ∧
      e.toPosted.AsksFor (p.openAddresses x.1.2) x.1.1 (sources.forMapping x.1.1)
  pool_eq : pool = .internAll { old := p.functions } (parts.flatten.flatMap Exchange.identities)
  functions : q.functions = pool.functions
  locations : q.locations = p.locations.map (Location.changeBy changes)
  each : AccountsEach p sources p.mappings.zipIdx parts pool changes

namespace Accounted

variable {p q : ProfileOf τ} {sources : SourcesOf τ} {force : Bool}
  {parts : List (List Exchange)} {pool : FunctionPool τ} {changes : Nat → Location → Location}

theorem old_eq (h : Accounted p sources force parts pool changes q) : pool.old = p.functions := by
  rw [h.pool_eq]
  exact (FunctionPool.extends_internAll _ _).old_eq

theorem getElem?_locations (h : Accounted p sources force parts pool changes q) {k : Nat}
    {l : Location} (hl : p.locations[k]? = some l) :
    q.locations[k]? = some (l.changeBy changes) := by
  rw [h.locations, List.getElem?_map, hl]
  rfl

/-- The mapping at a position of the profile has its exchanges. -/
theorem exists_part (h : Accounted p sources force parts pool changes q) {i : Nat}
    (hi : i < p.mappings.length) :
    ∃ m part, p.mappings[i]? = some m ∧ parts[i]? = some part ∧
      Accounts (p.openAddresses i) m (sources.forMapping m) part pool (changes i) := by
  have hm := List.getElem?_eq_getElem hi
  have hpart := List.getElem?_eq_getElem (h.length_parts ▸ hi : i < parts.length)
  exact ⟨_, _, hm, hpart, h.each.getElem hm hpart⟩

end Accounted

/-- The exchanges of a run through all mappings account for the profile that it comes to. -/
theorem Runs.accounted {p : ProfileOf τ} {sources : SourcesOf τ} {force : Bool}
    {parts : List (List Exchange)} {s : RemoteProgress τ} {ended : Except Fault Unit}
    (h : Runs p sources force (.start p) p.mappings.zipIdx parts s ended) (hs : s.Follows p) :
    ∃ changes, Accounted p sources force parts s.pool changes s.profile := by
  obtain ⟨changes, heach, hlocations⟩ := h.accounts (List.nodup_zipIdx_map_snd _)
  exact ⟨changes,
    { length_parts := by rw [h.length_eq, List.length_zipIdx]
      asked := h.asksFor
      pool_eq := h.pool_eq
      functions := hs.functions_eq
      locations := hlocations
      each := heach }⟩

/-- The exchanges of a pass that is transcribed say how it goes on, and account for its profile. -/
theorem runs_accounted_symbolizeRemotely (post : Poster ω) (sources : SourcesOf τ) (force : Bool)
    (p : ProfileOf τ) (env : Env ω) :
    let run := p.symbolizeRemotely post.transcribed sources force (env.watchedFrom [])
    ∃ parts s ended changes, run.2.world.seen = parts.flatten ∧
      run.1 = (s.profile, ended.bind fun _ => s.outcome) ∧
      Runs p sources force (.start p) p.mappings.zipIdx parts s ended ∧
      Accounted p sources force parts s.pool changes s.profile := by
  intro run
  obtain ⟨parts, s, ended, -, hseen, hresult, hfollows, hruns⟩ :=
    runs_symbolizeRemotely post sources force p env
  obtain ⟨changes, haccounted⟩ := hruns.accounted hfollows
  exact ⟨parts, s, ended, changes, hseen, hresult, hruns, haccounted⟩

/-- A pass that is transcribed does what the plain one does, and the exchanges account for it. -/
theorem accounted_symbolizeRemotely (post : Poster ω) (sources : SourcesOf τ) (force : Bool)
    (p : ProfileOf τ) (env : Env ω) :
    let run := p.symbolizeRemotely post.transcribed sources force (env.watchedFrom [])
    p.symbolizeRemotely post sources force env = (run.1, run.2.plain) ∧
    ∃ parts pool changes, run.2.world.seen = parts.flatten ∧
      Accounted p sources force parts pool changes run.1.1 := by
  intro run
  have hplain := post.mirrors_transcribed.symbolizeRemotely sources force p (env.watchedFrom [])
  obtain ⟨parts, s, ended, changes, hseen, hresult, -, haccounted⟩ :=
    runs_accounted_symbolizeRemotely post sources force p env
  have hprofile : run.1.1 = s.profile := congrArg Prod.fst hresult
  rw [← hprofile] at haccounted
  exact ⟨hplain, parts, s.pool, changes, hseen, haccounted⟩

end RemotePass

end Symbolication
