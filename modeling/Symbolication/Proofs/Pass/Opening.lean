import Mathlib.Data.List.Sigma
import Symbolication.Proofs.Action.Triple
import Symbolication.SegmentTable

/-!
# Symbolication.Proofs.Pass.Opening

How segments are opened.  The mappings of a profile have their turns one after
another, each in the world that the one before has left; a mapping is passed over,
or its file is opened, and then the segment is kept or given back:

* `SegmentTable.Gets` — the turn of one mapping;
* `SegmentTable.Opens` — the turns of mappings one after another;
* `opens_iff` — the program does the same;
* `Opens.getElem` — in the table every mapping has what it got at its turn.
-/

namespace Symbolication

variable {ω η τ : Type}

/-! ## mappings that are passed over -/

/-- Mappings that stand so get no segment. -/
def Standing.IsPassed : Standing → Prop
  | unreferenced | done | nameless | «virtual» => True
  | misnamed _ | candidate _ => False

/-- The notices about a mapping that is passed over. -/
def Standing.noticesFor (m : MappingOf τ) (i : Nat) : Standing → List Notice
  | done => [.alreadySymbolized m.id]
  | nameless => if i == 0 then [.mainBinaryUnnamed] else []
  | _ => []

namespace SegmentTable

/-! ## tables -/

/-- The table with the segment of a mapping, if the mapping got one. -/
def addSome (t : SegmentTable η) (i : Nat) : Option η → SegmentTable η
  | some segment => t.add i segment
  | none => t

/-- A segment that is added comes behind those that are there. -/
theorem get?_addSome (t : SegmentTable η) (i j : Nat) (segment? : Option η) :
    (t.addSome i segment?).get? (some j) =
      (t.get? (some j)).or (if j = i then segment? else none) := by
  cases segment? with
  | none => simp [addSome]
  | some segment =>
      simp only [get?, addSome, add, Option.bind_some, List.lookup_append, List.lookup_cons]
      by_cases h : j = i
      · simp [h]
      · have hb : (j == i) = false := by simpa using h
        simp [h, hb]

variable [Label τ]

/-! ## one mapping -/

/-- The mapping at a position has its turn: it gets a segment or none, from a world to another. -/
inductive Gets (inspector : Inspector ω η) (force : Bool) (p : ProfileOf τ) (m : MappingOf τ)
    (i : Nat) : Env ω → Option η → Env ω → Prop where
  /-- The mapping is passed over. -/
  | passed {env : Env ω} (hpassed : (p.standing force i m).IsPassed) :
      Gets inspector force p m i env none
        (env.noting ((p.standing force i m).noticesFor m i))
  /-- Its file cannot be opened. -/
  | refused {env opened : Env ω} {file : String} {cause : OpenFault}
      (hcandidate : p.standing force i m = .candidate file)
      (hopen : (inspector.openRegion (m.region file)).run env =
        (.error (.objectOpen cause), opened)) :
      Gets inspector force p m i env none
        (opened.noting [.openFailed (PathName.baseNameString file) (.objectOpen cause)])
  /-- Its file is not the one that was profiled, and is given back. -/
  | mismatched {env opened closed : Env ω} {file : String} {segment : η}
      (hcandidate : p.standing force i m = .candidate file)
      (hopen : (inspector.openRegion (m.region file)).run env = (.ok segment, opened))
      (hmismatch : m.isMismatch (inspector.buildId segment) = true)
      (hclose : (inspector.close segment).run
        (opened.noting [.buildIdMismatch (PathName.baseNameString file)]) = (.ok (), closed)) :
      Gets inspector force p m i env none closed
  /-- Its file is the one that was profiled, as far as build ids tell. -/
  | opened {env opened : Env ω} {file : String} {segment : η}
      (hcandidate : p.standing force i m = .candidate file)
      (hopen : (inspector.openRegion (m.region file)).run env = (.ok segment, opened))
      (hmatch : m.isMismatch (inspector.buildId segment) = false) :
      Gets inspector force p m i env (some segment) opened

/-- The turns of mappings one after another, from a world and a table to others. -/
inductive Opens (inspector : Inspector ω η) (force : Bool) (p : ProfileOf τ) :
    Env ω → SegmentTable η → List (MappingOf τ × Nat) → SegmentTable η → Env ω → Prop where
  /-- No mapping is left. -/
  | nil {env : Env ω} {t : SegmentTable η} : Opens inspector force p env t [] t env
  /-- The first mapping has its turn, and then the others. -/
  | cons {env env' env'' : Env ω} {t t' : SegmentTable η} {m : MappingOf τ} {i : Nat}
      {rest : List (MappingOf τ × Nat)} {segment? : Option η}
      (hfirst : Gets inspector force p m i env segment? env')
      (hrest : Opens inspector force p env' (t.addSome i segment?) rest t' env'') :
      Opens inspector force p env t ((m, i) :: rest) t' env''

/-! ## the program -/

variable {inspector : Inspector ω η} {force : Bool} {p : ProfileOf τ}

/-- A mapping is opened, checked against its build id, and closed again if that does not match. -/
theorem openMapping_run (inspector : Inspector ω η) (m : MappingOf τ) (file : String)
    (env : Env ω) :
    (openMapping inspector m file).run env =
      match (inspector.openRegion (m.region file)).run env with
      | (.error (.objectOpen cause), opened) =>
        (.ok none,
          opened.noting [.openFailed (PathName.baseNameString file) (.objectOpen cause)])
      | (.error fault, opened) => (.error fault, opened)
      | (.ok segment, opened) =>
        if m.isMismatch (inspector.buildId segment) then
          match (inspector.close segment).run
              (opened.noting [.buildIdMismatch (PathName.baseNameString file)]) with
          | (.ok _, closed) => (.ok none, closed)
          | (.error fault, closed) => (.error fault, closed)
        else (.ok (some segment), opened) := by
  unfold openMapping
  rw [Act.run_bind_apply, Act.run_tryCatch_apply, Act.run_map_apply]
  cases (inspector.openRegion (m.region file)).run env with
  | mk r opened =>
      cases r with
      | error fault => cases fault <;> rfl
      | ok segment =>
          simp only
          by_cases hmismatch : m.isMismatch (inspector.buildId segment) = true
          · rw [if_pos hmismatch, if_pos hmismatch]
            simp only [Act.run_bind_apply, Act.run_note_apply]
            cases (inspector.close segment).run _ with
            | mk r closed => cases r <;> rfl
          · rw [if_neg hmismatch, if_neg hmismatch]
            rfl

/-- A mapping that is passed over is only noted. -/
theorem openEach_of_passed {t : SegmentTable η} {m : MappingOf τ} {i : Nat}
    {rest : List (MappingOf τ × Nat)} {env : Env ω} (h : (p.standing force i m).IsPassed) :
    openEach inspector force p t ((m, i) :: rest) env =
      openEach inspector force p t rest
        (env.noting ((p.standing force i m).noticesFor m i)) := by
  rw [openEach]
  cases hstanding : p.standing force i m with
  | unreferenced => rw [Standing.noticesFor, noting_nil] <;> simp
  | «virtual» => rw [Standing.noticesFor, noting_nil] <;> simp
  | done => rfl
  | nameless =>
      simp only [Standing.noticesFor]
      by_cases hfirst : (i == 0) = true
      · rw [if_pos hfirst, if_pos hfirst]
        rfl
      · rw [if_neg hfirst, if_neg hfirst, noting_nil]
  | misnamed kind =>
      rw [hstanding] at h
      exact h.elim
  | candidate file =>
      rw [hstanding] at h
      exact h.elim

/-- A candidate is opened before the mappings that follow it. -/
theorem openEach_of_candidate {t : SegmentTable η} {m : MappingOf τ} {i : Nat}
    {rest : List (MappingOf τ × Nat)} {env : Env ω} {file : String}
    (h : p.standing force i m = .candidate file) :
    openEach inspector force p t ((m, i) :: rest) env =
      match (openMapping inspector m file).run env with
      | (.error fault, env') => ((t, .error fault), env')
      | (.ok segment?, env') => openEach inspector force p (t.addSome i segment?) rest env' := by
  rw [openEach, h]
  simp only
  rw [Step.bind_apply]
  cases (openMapping inspector m file).run env with
  | mk r env' =>
      cases r with
      | error fault => rfl
      | ok segment? => cases segment? <;> rfl

/-- After the turn of a mapping come those of the others. -/
theorem Gets.openEach_eq {m : MappingOf τ} {i : Nat} {env env' : Env ω} {segment? : Option η}
    (h : Gets inspector force p m i env segment? env') (t : SegmentTable η)
    (rest : List (MappingOf τ × Nat)) :
    openEach inspector force p t ((m, i) :: rest) env =
      openEach inspector force p (t.addSome i segment?) rest env' := by
  cases h with
  | passed hpassed => exact openEach_of_passed hpassed
  | refused hcandidate hopen =>
      rw [openEach_of_candidate hcandidate, openMapping_run, hopen]
  | mismatched hcandidate hopen hmismatch hclose =>
      rw [openEach_of_candidate hcandidate, openMapping_run, hopen]
      simp only [if_pos hmismatch, hclose]
  | opened hcandidate hopen hmatch =>
      rw [openEach_of_candidate hcandidate, openMapping_run, hopen]
      simp only [hmatch, Bool.false_eq_true, if_false]

/-- A mapping has its turn unless the opening ends with it. -/
theorem gets_of_openEach {t : SegmentTable η} {m : MappingOf τ} {i : Nat}
    {rest : List (MappingOf τ × Nat)} {env : Env ω}
    (h : (openEach inspector force p t ((m, i) :: rest) env).1.2 = .ok ()) :
    ∃ segment? env', Gets inspector force p m i env segment? env' := by
  cases hstanding : p.standing force i m with
  | candidate file =>
      rw [openEach_of_candidate hstanding, openMapping_run] at h
      cases hopen : (inspector.openRegion (m.region file)).run env with
      | mk r opened =>
          rw [hopen] at h
          cases r with
          | error fault =>
              cases fault <;> first | cases h | exact ⟨_, _, .refused hstanding hopen⟩
          | ok segment =>
              cases hmismatch : m.isMismatch (inspector.buildId segment) with
              | false => exact ⟨_, _, .opened hstanding hopen hmismatch⟩
              | true =>
                  simp only [hmismatch, if_true] at h
                  cases hclose : (inspector.close segment).run (opened.noting
                      [.buildIdMismatch (PathName.baseNameString file)]) with
                  | mk r closed =>
                      rw [hclose] at h
                      cases r with
                      | error fault => cases h
                      | ok _ => exact ⟨_, _, .mismatched hstanding hopen hmismatch hclose⟩
  | misnamed kind =>
      rw [openEach, hstanding] at h
      cases h
  | unreferenced => exact ⟨_, _, .passed (by rw [hstanding]; trivial)⟩
  | done => exact ⟨_, _, .passed (by rw [hstanding]; trivial)⟩
  | nameless => exact ⟨_, _, .passed (by rw [hstanding]; trivial)⟩
  | «virtual» => exact ⟨_, _, .passed (by rw [hstanding]; trivial)⟩

/-- Opening that is not broken off gives every mapping its turn, and does nothing else. -/
theorem opens_iff {t t' : SegmentTable η} {rest : List (MappingOf τ × Nat)} {env env' : Env ω} :
    Opens inspector force p env t rest t' env' ↔
      openEach inspector force p t rest env = ((t', .ok ()), env') := by
  constructor
  · intro h
    induction h with
    | nil => rfl
    | cons hfirst _ ih => rw [hfirst.openEach_eq, ih]
  · intro h
    induction rest generalizing t env with
    | nil =>
        cases h
        exact .nil
    | cons entry rest ih =>
        obtain ⟨m, i⟩ := entry
        obtain ⟨segment?, env₁, hfirst⟩ := gets_of_openEach (congrArg (·.1.2) h)
        rw [hfirst.openEach_eq] at h
        exact .cons hfirst (ih h)

/-! ## the table -/

/-- What is not among the mappings is in the table as it was. -/
theorem Opens.get?_of_notMem {env env' : Env ω} {t t' : SegmentTable η}
    {rest : List (MappingOf τ × Nat)} (h : Opens inspector force p env t rest t' env') {j : Nat}
    (hj : j ∉ rest.map (·.2)) : t'.get? (some j) = t.get? (some j) := by
  induction h with
  | nil => rfl
  | @cons _ _ _ t _ m i rest segment? _ _ ih =>
      simp only [List.map_cons, List.mem_cons, not_or] at hj
      rw [ih hj.2, get?_addSome, if_neg hj.1, Option.or_none]

/-- Every mapping has in the table what it got at its turn. -/
theorem Opens.gets {env env' : Env ω} {t t' : SegmentTable η} {rest : List (MappingOf τ × Nat)}
    (h : Opens inspector force p env t rest t' env') (hnodup : (rest.map (·.2)).Nodup)
    (hnew : ∀ i ∈ rest.map (·.2), t.get? (some i) = none) {m : MappingOf τ} {i : Nat}
    (hmem : (m, i) ∈ rest) :
    ∃ before after, Gets inspector force p m i before (t'.get? (some i)) after := by
  induction h with
  | nil => cases hmem
  | @cons _ _ _ t _ m' i' rest segment? hfirst hrest ih =>
      rw [List.map_cons, List.nodup_cons] at hnodup
      have hnone := hnew i' List.mem_cons_self
      rcases List.mem_cons.mp hmem with heq | hmem
      · cases heq
        rw [hrest.get?_of_notMem hnodup.1, get?_addSome, hnone, if_pos rfl, Option.none_or]
        exact ⟨_, _, hfirst⟩
      · refine ih hnodup.2 (fun j hj => ?_) hmem
        have hne : j ≠ i' := fun heq => hnodup.1 (heq ▸ hj)
        rw [get?_addSome, if_neg hne, Option.or_none]
        exact hnew j (List.mem_cons_of_mem _ hj)

/-- The mapping at a position of the profile has in the table what it got at its turn. -/
theorem Opens.getElem {env env' : Env ω} {t : SegmentTable η}
    (h : Opens inspector force p env {} p.mappings.zipIdx t env') {i : Nat} {m : MappingOf τ}
    (hm : p.mappings[i]? = some m) :
    ∃ before after, Gets inspector force p m i before (t.get? (some i)) after := by
  exact h.gets (List.nodup_zipIdx_map_snd _) (fun _ _ => rfl)
    (List.mk_mem_zipIdx_iff_getElem?.mpr hm)

/-- The notices about a table that is complete. -/
def noticesAbout (force : Bool) (p : ProfileOf τ) (t : SegmentTable η) : List Notice :=
  (if p.lacksFiles force then [.binariesUnnamed] else []) ++ [.opened t.size p.referencedCount]

/-- When all mappings have had their turns the table is complete. -/
theorem run_ofProfile_of_opens {t : SegmentTable η} {env env' : Env ω}
    (h : Opens inspector force p env {} p.mappings.zipIdx t env') :
    (ofProfile inspector force p).run env = (.ok t, env'.noting (t.noticesAbout force p)) := by
  rw [ofProfile, ExceptT.run_mk, Step.bind_apply, opens_iff.mp h, noticesAbout, ← noting_append]
  simp only
  split
  · rfl
  · rw [noting_nil]
    rfl

/-- A table for a pass comes from the turns of all mappings of the profile, and after these there is
nothing but notices. -/
theorem opens_noting_of_ofProfile {t : SegmentTable η} {env opened : Env ω}
    (h : (ofProfile inspector force p).run env = (.ok t, opened)) :
    ∃ env', Opens inspector force p env {} p.mappings.zipIdx t env' ∧
      opened = env'.noting (t.noticesAbout force p) := by
  cases hended : openEach inspector force p {} p.mappings.zipIdx env with
  | mk r env' =>
      obtain ⟨t', ended⟩ := r
      cases ended with
      | ok _ =>
          have hopens := opens_iff.mpr hended
          rw [run_ofProfile_of_opens hopens] at h
          cases h
          exact ⟨env', hopens, rfl⟩
      | error fault =>
          -- the table is closed, and the fault is not lost by that
          rw [ofProfile, ExceptT.run_mk, Step.bind_apply, hended] at h
          change ((t'.close inspector p env').1.2.bind fun _ => .error fault,
            (t'.close inspector p env').2) = _ at h
          cases hclose : (t'.close inspector p env').1.2 with
          | ok _ => rw [hclose] at h; cases h
          | error _ => rw [hclose] at h; cases h

/-- Nothing happens in the world after the turns. -/
theorem opens_world_of_ofProfile {t : SegmentTable η} {env opened : Env ω}
    (h : (ofProfile inspector force p).run env = (.ok t, opened)) :
    ∃ env', Opens inspector force p env {} p.mappings.zipIdx t env' ∧
      opened.world = env'.world := by
  obtain ⟨env', hopens, rfl⟩ := opens_noting_of_ofProfile h
  exact ⟨env', hopens, rfl⟩

/-- A table that is returned is what opening the mappings in turn leaves. -/
theorem opens_of_ofProfile {t : SegmentTable η} {env opened : Env ω}
    (h : (ofProfile inspector force p).run env = (.ok t, opened)) :
    ∃ env', Opens inspector force p env {} p.mappings.zipIdx t env' := by
  obtain ⟨env', hopens, -⟩ := opens_noting_of_ofProfile h
  exact ⟨env', hopens⟩

end SegmentTable

end Symbolication
