import Symbolication.Pass.Local
import Symbolication.Proofs.Action.Triple
import Symbolication.Proofs.Profile.Resolution

/-!
# Symbolication.Proofs.Pass.Finding

What the local pass finds, and what the profile is when it returns.  The segments are
those that opening gives; then the locations are looked up one after another, each in
the world that the one before has left:

* `LocalPass.Finds` — the stacks found for locations, an empty one where there is no
  segment or the lookup fails;
* `LocalPass.Completed` — how a pass went that was not broken off;
* `resolved_symbolizeLocally` — the profile in the end, in terms of what was found.
-/

namespace Symbolication

variable {ω η τ : Type} [Label τ]

namespace LocalPass

/-- The stacks of frames that are found for locations one after another, from a world on. -/
inductive Finds (inspector : Inspector ω η) (p : ProfileOf τ) (t : SegmentTable η) :
    Env ω → List Location → List (List Frame) → Prop where
  /-- No location is left. -/
  | nil {env : Env ω} : Finds inspector p t env [] []
  /-- The mapping of the location has no segment. -/
  | closed {env : Env ω} {l : Location} {rest : List Location} {found : List (List Frame)}
      (hclosed : t.get? l.mapping = none) (hrest : Finds inspector p t env rest found) :
      Finds inspector p t env (l :: rest) ([] :: found)
  /-- The lookup gives a stack. -/
  | answered {env env' : Env ω} {l : Location} {segment : η} {frames : List Frame}
      {rest : List Location} {found : List (List Frame)} (hopen : t.get? l.mapping = some segment)
      (hlookup : (inspector.lookup segment l.address).run env = (.ok frames, env'))
      (hrest : Finds inspector p t env' rest found) :
      Finds inspector p t env (l :: rest) (frames :: found)
  /-- The lookup fails, which is noted. -/
  | failed {env env' : Env ω} {l : Location} {segment : η} {cause : LookupFault}
      {rest : List Location} {found : List (List Frame)} (hopen : t.get? l.mapping = some segment)
      (hlookup : (inspector.lookup segment l.address).run env = (.error (.lookup cause), env'))
      (hrest : Finds inspector p t
        (note (.lookupFailed l.address (p.fileAt (l.mapping.getD 0)) (.lookup cause)) env').2
        rest found) :
      Finds inspector p t env (l :: rest) ([] :: found)

/-- A pass that begins in a world has opened the segments of `t`, let them look up in advance, and
found the stacks of `found` for the locations of the profile. -/
def Completed (inspector : Inspector ω η) (force : Bool) (p : ProfileOf τ) (env : Env ω)
    (t : SegmentTable η) (found : List (List Frame)) : Prop :=
  ∃ opened ready : Env ω,
    (SegmentTable.ofProfile inspector force p).run env = (.ok t, opened) ∧
      (prefetchEach inspector p t (p.segmentOrder t)).run opened = (.ok (), ready) ∧
        Finds inspector p t ready p.locations found

/-! ## looking up -/

/-- Frames are found for each location. -/
theorem Finds.length_eq {inspector : Inspector ω η} {p : ProfileOf τ} {t : SegmentTable η}
    {env : Env ω} {locations : List Location} {found : List (List Frame)}
    (h : Finds inspector p t env locations found) : found.length = locations.length := by
  induction h with
  | nil => rfl
  | closed _ _ ih => simp [ih]
  | answered _ _ _ ih => simp [ih]
  | failed _ _ _ ih => simp [ih]

/-- A lookup whose fault is of another kind breaks the pass off. -/
theorem lookupEach_of_error {inspector : Inspector ω η} {p : ProfileOf τ} {t : SegmentTable η}
    {l : Location} {rest : List Location} {env env' : Env ω} {fault : Fault}
    (h : (lookup inspector p t l).run env = (.error fault, env')) :
    lookupEach inspector p t (l :: rest) env = (([], .error fault), env') := by
  rw [lookupEach, Step.bind_apply, h]
  rfl

/-- A location whose lookup returns is followed by the rest. -/
theorem lookupEach_of_ok {inspector : Inspector ω η} {p : ProfileOf τ} {t : SegmentTable η}
    {l : Location} {rest : List Location} {env env' : Env ω} {frames : List Frame}
    (h : (lookup inspector p t l).run env = (.ok frames, env')) :
    lookupEach inspector p t (l :: rest) env =
      let r := lookupEach inspector p t rest env'
      ((frames :: r.1.1, r.1.2), r.2) := by
  rw [lookupEach, Step.bind_apply, h]
  rfl

/-- The lookup of a location that has a segment. -/
theorem lookup_of_open {inspector : Inspector ω η} {p : ProfileOf τ} {t : SegmentTable η}
    {l : Location} {segment : η} (h : t.get? l.mapping = some segment) (env : Env ω) :
    (lookup inspector p t l).run env =
      match (inspector.lookup segment l.address).run env with
      | (.ok frames, env') => (.ok frames, env')
      | (.error (.lookup cause), env') =>
        (.ok [], (note (.lookupFailed l.address (p.fileAt (l.mapping.getD 0)) (.lookup cause)) env').2)
      | (.error fault, env') => (.error fault, env') := by
  rw [lookup, h]
  simp only
  rw [ExceptT.run_tryCatch, Step.bind_apply]
  cases (inspector.lookup segment l.address).run env with
  | mk r env' =>
      cases r with
      | ok frames => rfl
      | error fault => cases fault <;> rfl

/-- A fault is noted, and leaves the world as it is. -/
theorem lookup_world_of_open {inspector : Inspector ω η} {p : ProfileOf τ} {t : SegmentTable η}
    {l : Location} {segment : η} (h : t.get? l.mapping = some segment) (env : Env ω) :
    ((lookup inspector p t l).run env).2.world =
      ((inspector.lookup segment l.address).run env).2.world := by
  rw [lookup_of_open h]
  cases (inspector.lookup segment l.address).run env with
  | mk r env' =>
      cases r with
      | ok frames => rfl
      | error fault => cases fault <;> rfl

/-- The lookups of a pass that is not broken off. -/
theorem finds_lookupEach {inspector : Inspector ω η} {p : ProfileOf τ} {t : SegmentTable η}
    {locations : List Location} {env : Env ω}
    (h : (lookupEach inspector p t locations env).1.2 = .ok ()) :
    Finds inspector p t env locations (lookupEach inspector p t locations env).1.1 := by
  induction locations generalizing env with
  | nil => exact .nil
  | cons l rest ih =>
      cases hlookup : (lookup inspector p t l).run env with
      | mk r env' =>
          cases r with
          | error fault =>
              rw [lookupEach_of_error hlookup] at h
              cases h
          | ok frames =>
              rw [lookupEach_of_ok hlookup] at h ⊢
              cases hget : t.get? l.mapping with
              | none =>
                  have hnone : (lookup inspector p t l).run env = (.ok [], env) := by
                    rw [lookup, hget]
                    rfl
                  rw [hnone] at hlookup
                  cases hlookup
                  exact .closed hget (ih h)
              | some segment =>
                  rw [lookup_of_open hget] at hlookup
                  split at hlookup
                  · rename_i hanswer
                    cases hlookup
                    exact .answered hget hanswer (ih h)
                  · rename_i hanswer
                    cases hlookup
                    exact .failed hget hanswer (ih h)
                  · cases hlookup

/-! ## the pass -/

/-- A pass whose table fails to open leaves the profile and fails. -/
theorem run_of_error {inspector : Inspector ω η} {force : Bool} {p : ProfileOf τ}
    {env opened : Env ω} {fault : Fault}
    (h : (SegmentTable.ofProfile inspector force p).run env = (.error fault, opened)) :
    (run inspector force p env).1 = (p, .error fault) := by
  rw [run, Step.bind_apply, h]
  rfl

/-- Without a table nothing follows. -/
theorem run_snd_of_error {inspector : Inspector ω η} {force : Bool} {p : ProfileOf τ}
    {env opened : Env ω} {fault : Fault}
    (h : (SegmentTable.ofProfile inspector force p).run env = (.error fault, opened)) :
    (run inspector force p env).2 = opened := by
  rw [run, Step.bind_apply, h]
  rfl

/-- A pass that has a table enters what it finds, ends as looking up and closing do, and leaves the
world as they do. -/
theorem run_and_world_of_ok {inspector : Inspector ω η} {force : Bool} {p : ProfileOf τ}
    {env opened : Env ω} {t : SegmentTable η}
    (h : (SegmentTable.ofProfile inspector force p).run env = (.ok t, opened)) :
    let gathered := gather inspector p t opened
    let closed := t.close inspector p gathered.2
    (run inspector force p env).1 =
      (p.resolve gathered.1.1, closed.1.2.bind fun _ => gathered.1.2) ∧
    (run inspector force p env).2.world = closed.2.world := by
  rw [run, Step.bind_apply, h]
  simp only
  rw [Step.bind_apply]
  cases hgather : gather inspector p t opened with
  | mk r ready =>
      obtain ⟨found, ended⟩ := r
      simp only
      rw [Step.bind_apply]
      cases hclose : t.close inspector p ready with
      | mk r closed =>
          obtain ⟨_, closing⟩ := r
          simp only
          cases closing with
          | error fault => exact ⟨rfl, rfl⟩
          | ok _ => cases ended <;> exact ⟨rfl, rfl⟩

/-- A pass that has a table leaves the world as looking up and closing do. -/
theorem run_world_of_ok {inspector : Inspector ω η} {force : Bool} {p : ProfileOf τ}
    {env opened : Env ω} {t : SegmentTable η}
    (h : (SegmentTable.ofProfile inspector force p).run env = (.ok t, opened)) :
    (run inspector force p env).2.world =
      (t.close inspector p (gather inspector p t opened).2).2.world :=
  (run_and_world_of_ok h).2

/-- A pass that has a table enters what it finds, and ends as looking up and closing do. -/
theorem run_of_ok {inspector : Inspector ω η} {force : Bool} {p : ProfileOf τ}
    {env opened : Env ω} {t : SegmentTable η}
    (h : (SegmentTable.ofProfile inspector force p).run env = (.ok t, opened)) :
    (run inspector force p env).1 =
      (p.resolve (gather inspector p t opened).1.1,
        (t.close inspector p (gather inspector p t opened).2).1.2.bind
          fun _ => (gather inspector p t opened).1.2) :=
  (run_and_world_of_ok h).1

/-- What is gathered before anything breaks the pass off. -/
theorem finds_gather {inspector : Inspector ω η} {p : ProfileOf τ} {t : SegmentTable η}
    {opened : Env ω} (h : (gather inspector p t opened).1.2 = .ok ()) :
    ∃ ready, (prefetchEach inspector p t (p.segmentOrder t)).run opened = (.ok (), ready) ∧
      Finds inspector p t ready p.locations (gather inspector p t opened).1.1 := by
  rw [gather, Step.bind_apply] at h ⊢
  cases hprefetch : (prefetchEach inspector p t (p.segmentOrder t)).run opened with
  | mk r ready =>
      rw [hprefetch] at h
      cases r with
      | error fault => cases h
      | ok _ => exact ⟨ready, rfl, finds_lookupEach h⟩

/-- A pass that returns has gathered all that there is. -/
theorem gather_ended_of_run {inspector : Inspector ω η} {force : Bool} {p : ProfileOf τ}
    {env opened : Env ω} {t : SegmentTable η}
    (hopen : (SegmentTable.ofProfile inspector force p).run env = (.ok t, opened))
    (h : (run inspector force p env).1.2 = .ok ()) :
    (gather inspector p t opened).1.2 = .ok () := by
  rw [run_of_ok hopen] at h
  cases hclosing : (t.close inspector p (gather inspector p t opened).2).1.2 with
  | error fault =>
      rw [hclosing] at h
      cases h
  | ok _ =>
      rw [hclosing] at h
      exact h

/-- A pass that returns has not been broken off, and has entered what it found. -/
theorem completed_run {inspector : Inspector ω η} {force : Bool} {p : ProfileOf τ} {env : Env ω}
    (h : (run inspector force p env).1.2 = .ok ()) :
    ∃ t found, Completed inspector force p env t found ∧
      (run inspector force p env).1.1 = p.resolve found := by
  cases hopen : (SegmentTable.ofProfile inspector force p).run env with
  | mk table? opened =>
      cases table? with
      | error fault =>
          rw [run_of_error hopen] at h
          cases h
      | ok t =>
          have hended := gather_ended_of_run hopen h
          rw [run_of_ok hopen]
          obtain ⟨ready, hprefetch, hfinds⟩ := finds_gather hended
          exact ⟨t, _, ⟨opened, ready, hopen, hprefetch, hfinds⟩, rfl⟩

/-- A pass that returns leaves the profile with the stacks that were found. -/
theorem resolved_run {inspector : Inspector ω η} {force : Bool} {p : ProfileOf τ} {env : Env ω}
    (h : (run inspector force p env).1.2 = .ok ()) :
    ∃ t found, Completed inspector force p env t found ∧
      p.Resolved found (run inspector force p env).1.1 := by
  obtain ⟨t, found, hcompleted, hprofile⟩ := completed_run h
  obtain ⟨_, _, -, -, hfinds⟩ := id hcompleted
  rw [hprofile]
  exact ⟨t, found, hcompleted, resolved_resolve p hfinds.length_eq⟩

end LocalPass

/-- The world in which a pass begins, the switch to the faster way turned if it is to be. -/
def Inspector.entry (inspector : Inspector ω η) (fast : Bool) (env : Env ω) : Env ω :=
  match fast, inspector.fastSwitch? with
  | true, some switch => (switch.set true env).2
  | _, _ => env

/-- What the local pass returns is what its run returns from where it enters. -/
theorem symbolizeLocally_fst (inspector : Inspector ω η) (force fast : Bool) (p : ProfileOf τ)
    (env : Env ω) :
    (p.symbolizeLocally inspector force fast env).1 =
      (LocalPass.run inspector force p (inspector.entry fast env)).1 := by
  unfold ProfileOf.symbolizeLocally Inspector.entry
  cases fast with
  | false => cases inspector.fastSwitch? <;> rfl
  | true => cases inspector.fastSwitch? <;> rfl

/-- What the switch leaves alone is as it is without it. -/
theorem symbolizeLocally_world {inspector : Inspector ω η} {P : ω → Prop}
    (hswitch : ∀ switch, inspector.fastSwitch? = some switch → ∀ on, Step.Keeps P (switch.set on))
    {force fast : Bool} {p : ProfileOf τ} {env : Env ω}
    (h : P (LocalPass.run inspector force p (inspector.entry fast env)).2.world) :
    P (p.symbolizeLocally inspector force fast env).2.world := by
  unfold ProfileOf.symbolizeLocally
  unfold Inspector.entry at h
  cases fast with
  | false => cases hsome : inspector.fastSwitch? <;> rw [hsome] at h <;> exact h
  | true =>
      cases hsome : inspector.fastSwitch? with
      | none =>
          rw [hsome] at h
          exact h
      | some switch =>
          rw [hsome] at h
          exact hswitch switch hsome (switch.isOn env.world) _ h

/-- When the local pass returns, the profile is what it was with the stacks that were found: of the
segments that were opened, and of the locations in them, looked up in their order. -/
theorem resolved_symbolizeLocally {inspector : Inspector ω η} {force fast : Bool}
    {p : ProfileOf τ} {env : Env ω}
    (h : (p.symbolizeLocally inspector force fast env).1.2 = .ok ()) :
    ∃ t found, LocalPass.Completed inspector force p (inspector.entry fast env) t found ∧
      p.Resolved found (p.symbolizeLocally inspector force fast env).1.1 := by
  rw [symbolizeLocally_fst] at h ⊢
  exact LocalPass.resolved_run h

/-- An inspector that opens every file, and knows two places where one call stands in another. -/
def knownCalls : Inspector Unit Unit where
  openRegion _ := return ()
  buildId _ := ""
  lookup _ address :=
    match address with
    | 0x10 => return [{ func := "inner", file := "a.c", line := 3 }, { func := "main", line := 9 }]
    | 0x20 => throw (.lookup (.closed "/bin/a"))
    | 0x30 => return [{ func := "main", line := 12 }]
    | _ => return []
  prefetch? _ := none
  close _ := return ()
  fastSwitch? := none

/-- A profile of one binary, with a function from before. -/
def threeCalls : Profile where
  mappings := [{ id := 1, file := "/bin/a", buildId := "" }]
  functions := [{ id := 6, name := "main", systemName := "main", filename := "" }]
  locations :=
    [{ id := 1, address := 0x10, mapping := some 0 },
      { id := 2, address := 0x20, mapping := some 0, lines := [{ function := 0 }] },
      { id := 3, address := 0x30, mapping := some 0 }]

/-- Two of the calls are found, and the second one names a function that the first one has added. -/
theorem resolved_symbolizeLocally_threeCalls :
    let result := (threeCalls.symbolizeLocally knownCalls false false { world := () }).1
    result.2 = .ok () ∧ result.1.locations.map (·.lines) =
      [[⟨1, 3⟩, ⟨2, 9⟩], [⟨0, 0⟩], [⟨2, 12⟩]] ∧
      ∃ t found, LocalPass.Completed knownCalls false threeCalls { world := () } t found ∧
        threeCalls.Resolved found result.1 := by
  intro result
  have hreturns : result.2 = .ok () := by rfl
  have hlines : result.1.locations.map (·.lines) =
      [[⟨1, 3⟩, ⟨2, 9⟩], [⟨0, 0⟩], [⟨2, 12⟩]] := by decide +kernel
  exact ⟨hreturns, hlines, resolved_symbolizeLocally hreturns⟩

end Symbolication
