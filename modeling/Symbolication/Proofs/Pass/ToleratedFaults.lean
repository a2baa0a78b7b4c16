import Symbolication.Proofs.Pass.Breaking
import Symbolication.Proofs.Pass.Opening

/-!
# Symbolication.Proofs.Pass.ToleratedFaults

What the local pass goes on past.  An inspector may fail to open a file, to look up
addresses, in advance or one by one, and to close a segment; none of this ends the
pass, except in one place: a segment that is given back because its file is not the
one that was profiled has to be closed without a fault.

* `Inspector.FailsSoftly` — the faults that an inspector may have;
* `LocalPass.BreaksOff` — a segment that cannot be given back;
* `fails_symbolizeLocally_iff` — the pass fails exactly by that, and finds otherwise
  what there is to be found.
-/

namespace Symbolication

variable {ω η τ : Type}

/-! ## inspectors that fail softly -/

/-- A file cannot be opened. -/
def Fault.IsOpen (fault : Fault) : Prop :=
  ∃ cause, fault = .objectOpen cause

/-- Files may resist being opened, addresses being looked up, and segments being closed; nothing
else goes wrong. -/
structure Inspector.FailsSoftly (inspector : Inspector ω η) : Prop where
  openRegion : ∀ region, (inspector.openRegion region).FailsOnly Fault.IsOpen
  lookup : ∀ segment address, (inspector.lookup segment address).FailsOnly Fault.IsLookup
  prefetch : ∀ segment, ∀ prefetch ∈ inspector.prefetch? segment, ∀ addresses,
    (prefetch addresses).FailsOnly Fault.IsLookup
  close : ∀ segment, (inspector.close segment).FailsOnly fun fault => fault.isSystem = true

variable [Label τ] {inspector : Inspector ω η} {force : Bool}

theorem Inspector.FailsSoftly.closes (h : inspector.FailsSoftly) : inspector.Closes :=
  Inspector.closes_iff.mpr h.close

/-- Once there is a table nothing goes wrong but lookups. -/
theorem LocalPass.ok_gather (h : inspector.FailsSoftly) (p : ProfileOf τ) (t : SegmentTable η)
    (env : Env ω) : (gather inspector p t env).1.2 = .ok () :=
  gather_eq_ok_iff.mpr {
    prefetch := fun _ _ _ _ segment _ prefetch hprefetch =>
      h.prefetch segment prefetch hprefetch _ _
    lookup := fun _ _ _ _ _ _ segment _ => h.lookup segment _ _ }

/-! ## opening -/

namespace SegmentTable

/-- The mapping at a position gets a segment that is not of its file, and the segment cannot be
given back. -/
def Loses (inspector : Inspector ω η) (force : Bool) (p : ProfileOf τ) (m : MappingOf τ) (i : Nat)
    (env : Env ω) (fault : Fault) : Prop :=
  ∃ file segment opened closed, p.standing force i m = .candidate file ∧
    (inspector.openRegion (m.region file)).run env = (.ok segment, opened) ∧
    m.isMismatch (inspector.buildId segment) = true ∧
    (inspector.close segment).run
      (opened.noting [.buildIdMismatch (PathName.baseNameString file)]) = (.error fault, closed)

variable {p : ProfileOf τ}

/-- Opening ends with a segment that cannot be given back. -/
theorem Loses.openEach_eq {m : MappingOf τ} {i : Nat} {env : Env ω} {fault : Fault}
    (h : Loses inspector force p m i env fault) (t : SegmentTable η)
    (rest : List (MappingOf τ × Nat)) :
    (openEach inspector force p t ((m, i) :: rest) env).1 = (t, .error fault) := by
  obtain ⟨file, segment, opened, closed, hcandidate, hopen, hmismatch, hclose⟩ := h
  rw [openEach_of_candidate hcandidate, openMapping_run, hopen]
  simp only [if_pos hmismatch, hclose]

/-- Where files have names that are texts, a mapping is passed over or its file may be opened. -/
theorem passed_or_candidate (force : Bool) (p : Profile) (i : Nat) (m : Mapping) :
    (p.standing force i m).IsPassed ∨ ∃ file, p.standing force i m = .candidate file := by
  have htext : Label.text m.file = .ok m.file := rfl
  cases hstanding : p.standing force i m with
  | candidate file => exact .inr ⟨file, rfl⟩
  | misnamed kind =>
      rw [ProfileOf.standing, htext] at hstanding
      grind
  | unreferenced => exact .inl trivial
  | done => exact .inl trivial
  | nameless => exact .inl trivial
  | «virtual» => exact .inl trivial

/-- The turn of a mapping goes wrong only by a segment that cannot be given back. -/
theorem gets_or_loses (h : inspector.FailsSoftly) (force : Bool) (p : Profile) (m : Mapping)
    (i : Nat) (env : Env ω) :
    (∃ segment? env', Gets inspector force p m i env segment? env') ∨
      ∃ fault, Loses inspector force p m i env fault := by
  rcases passed_or_candidate force p i m with hpassed | ⟨file, hcandidate⟩
  · exact .inl ⟨_, _, .passed hpassed⟩
  · have hfails := h.openRegion (m.region file) env
    cases hopen : (inspector.openRegion (m.region file)).run env with
    | mk r opened =>
        rw [hopen] at hfails
        cases r with
        | error fault =>
            obtain ⟨cause, rfl⟩ := hfails fault rfl
            exact .inl ⟨_, _, .refused hcandidate hopen⟩
        | ok segment =>
            cases hmismatch : m.isMismatch (inspector.buildId segment) with
            | false => exact .inl ⟨_, _, .opened hcandidate hopen hmismatch⟩
            | true =>
                cases hclose : (inspector.close segment).run
                    (opened.noting [.buildIdMismatch (PathName.baseNameString file)]) with
                | mk r closed =>
                    cases r with
                    | ok _ => exact .inl ⟨_, _, .mismatched hcandidate hopen hmismatch hclose⟩
                    | error fault =>
                        exact .inr ⟨fault, file, segment, opened, closed, hcandidate, hopen,
                          hmismatch, hclose⟩

/-- Opening ends with a fault exactly if mappings have had their turns up to one whose segment
cannot be given back. -/
theorem error_openEach_iff (h : inspector.FailsSoftly) {p : Profile} {t : SegmentTable η}
    {entries : List (Mapping × Nat)} {env : Env ω} {fault : Fault} :
    (openEach inspector force p t entries env).1.2 = .error fault ↔
      ∃ before m i after t' env', entries = before ++ (m, i) :: after ∧
        Opens inspector force p env t before t' env' ∧
          Loses inspector force p m i env' fault := by
  constructor
  · intro hended
    induction entries generalizing t env with
    | nil => cases hended
    | cons entry rest ih =>
        obtain ⟨m, i⟩ := entry
        rcases gets_or_loses h force p m i env with ⟨segment?, env₁, hgets⟩ | ⟨fault', hloses⟩
        · rw [hgets.openEach_eq] at hended
          obtain ⟨before, m', i', after, t', env', rfl, hopens, hloses⟩ := ih hended
          exact ⟨(m, i) :: before, m', i', after, t', env', rfl, .cons hgets hopens, hloses⟩
        · rw [hloses.openEach_eq] at hended
          cases hended
          exact ⟨[], m, i, rest, t, env, rfl, .nil, hloses⟩
  · rintro ⟨before, m, i, after, t', env', rfl, hopens, hloses⟩
    induction hopens with
    | nil => rw [List.nil_append, hloses.openEach_eq]
    | cons hfirst _ ih =>
        rw [List.cons_append, hfirst.openEach_eq]
        exact ih hloses

/-- The segments are those that opening gives, unless it ends with a fault. -/
theorem ofProfile_run (h : inspector.FailsSoftly) (force : Bool) (p : ProfileOf τ)
    (env : Env ω) :
    ((ofProfile inspector force p).run env).1 =
      match (openEach inspector force p {} p.mappings.zipIdx env).1 with
      | (t, .ok _) => .ok t
      | (_, .error fault) => .error fault := by
  unfold ofProfile
  rw [ExceptT.run_mk, Step.bind_apply]
  cases openEach inspector force p {} p.mappings.zipIdx env with
  | mk r env' =>
      obtain ⟨t, ended⟩ := r
      cases ended with
      | error fault =>
          have hclose : (t.close inspector p env').1.2 = .ok () := gives_ok_close h.closes p t env'
          change (t.close inspector p env').1.2.bind (fun _ => .error fault) = _
          rw [hclose]
          rfl
      | ok _ =>
          simp only
          split <;> rfl

end SegmentTable

/-! ## the pass -/

/-- The pass breaks off: mappings have had their turns up to one whose segment cannot be given
back. -/
def LocalPass.BreaksOff (inspector : Inspector ω η) (force : Bool) (p : ProfileOf τ)
    (env : Env ω) (fault : Fault) : Prop :=
  ∃ before m i after t env', p.mappings.zipIdx = before ++ (m, i) :: after ∧
    SegmentTable.Opens inspector force p env {} before t env' ∧
      SegmentTable.Loses inspector force p m i env' fault

/-- Once there is a table nothing ends the pass. -/
theorem LocalPass.run_snd (h : inspector.FailsSoftly) (force : Bool) (p : ProfileOf τ)
    (env : Env ω) :
    (run inspector force p env).1.2 =
      (SegmentTable.openEach inspector force p {} p.mappings.zipIdx env).1.2 := by
  have htable := SegmentTable.ofProfile_run h force p env
  cases hopen : (SegmentTable.ofProfile inspector force p).run env with
  | mk r opened =>
      rw [hopen] at htable
      cases hended : (SegmentTable.openEach inspector force p {} p.mappings.zipIdx env).1 with
      | mk t ended =>
          rw [hended] at htable
          cases ended with
          | error fault =>
              simp only at htable
              rw [htable] at hopen
              rw [run_of_error hopen]
          | ok _ =>
              simp only at htable
              rw [htable] at hopen
              rw [run_of_ok hopen, ok_gather h p t opened,
                SegmentTable.gives_ok_close h.closes p t (gather inspector p t opened).2]
              rfl

/-- A pass that fails has found nothing. -/
theorem LocalPass.run_fst_of_error (h : inspector.FailsSoftly) {p : ProfileOf τ} {env : Env ω}
    {fault : Fault} (hfault : (run inspector force p env).1.2 = .error fault) :
    (run inspector force p env).1.1 = p := by
  cases hopen : (SegmentTable.ofProfile inspector force p).run env with
  | mk r opened =>
      cases r with
      | error fault => rw [run_of_error hopen]
      | ok t =>
          rw [run_of_ok hopen, ok_gather h p t opened,
            SegmentTable.gives_ok_close h.closes p t (gather inspector p t opened).2] at hfault
          cases hfault

/-- The local pass of an inspector that fails softly fails exactly if it breaks off, and leaves the
profile as it was then. Otherwise every mapping has had its turn, the locations in those that got a
segment have been looked up, and those for which frames were found have them. -/
theorem fails_symbolizeLocally_iff (h : inspector.FailsSoftly) (force fast : Bool) (p : Profile)
    (env : Env ω) :
    let result := (p.symbolizeLocally inspector force fast env).1
    (∀ fault, result.2 = .error fault ↔
      LocalPass.BreaksOff inspector force p (inspector.entry fast env) fault) ∧
    (∀ fault, result.2 = .error fault → result.1 = p) ∧
    (result.2 = .ok () → ∃ t found,
      LocalPass.Completed inspector force p (inspector.entry fast env) t found ∧
      (∀ i m, p.mappings[i]? = some m → ∃ before after,
        SegmentTable.Gets inspector force p m i before (t.get? (some i)) after) ∧
      p.Resolved found result.1) := by
  intro result
  have hrun : result = (LocalPass.run inspector force p (inspector.entry fast env)).1 :=
    symbolizeLocally_fst inspector force fast p env
  refine ⟨fun fault => ?_, fun fault hfault => ?_, fun hreturns => ?_⟩
  · rw [hrun, LocalPass.run_snd h]
    exact SegmentTable.error_openEach_iff h
  · rw [hrun] at hfault ⊢
    exact LocalPass.run_fst_of_error h hfault
  · rw [hrun] at hreturns ⊢
    obtain ⟨t, found, hcompleted, hresolved⟩ := LocalPass.resolved_run hreturns
    obtain ⟨opened, _, htable, -⟩ := id hcompleted
    obtain ⟨_, hopens⟩ := SegmentTable.opens_of_ofProfile htable
    exact ⟨t, found, hcompleted, fun i m hm => hopens.getElem hm, hresolved⟩

/-! ## two binaries -/

/-- An inspector of an application and a library, of which the first one has a build id. Addresses
are not looked up in advance, one address of the library is not known, and no segment can be
closed. -/
def unclosable : Inspector Unit String where
  openRegion region :=
    if region.path == "/bin/gone" then throw (.objectOpen (.other "no such file"))
    else return region.path
  buildId path := if path == "/bin/app" then "beef" else ""
  lookup _ address :=
    if address == 0x3020 then throw (.lookup (.other "unknown"))
    else return [{ func := "f", file := "l.c", line := 5 }]
  prefetch? _ := some fun _ => throw (.lookup (.other "too many"))
  close path := throw (.system (.other (path ++ " is busy")))
  fastSwitch? := none

theorem failsSoftly_unclosable : unclosable.FailsSoftly where
  openRegion region := by
    intro env fault hfault
    simp only [unclosable] at hfault
    split at hfault
    · cases hfault
      exact ⟨_, rfl⟩
    · cases hfault
  lookup segment address := by
    intro env fault hfault
    simp only [unclosable] at hfault
    split at hfault
    · cases hfault
      exact ⟨_, rfl⟩
    · cases hfault
  prefetch segment prefetch hprefetch addresses := by
    intro env fault hfault
    rw [← Option.some.inj hprefetch] at hfault
    cases hfault
    exact ⟨_, rfl⟩
  close segment := by
    intro env fault hfault
    cases hfault
    rfl

/-- A profile of an application with a build id, a library, and a file that is gone. -/
def profiledAs (buildId : String) : Profile where
  mappings :=
    [{ id := 1, file := "/bin/app", buildId }, { id := 2, file := "/lib/l.so", buildId := "" },
      { id := 3, file := "/bin/gone", buildId := "" }]
  locations :=
    [{ id := 1, address := 0x1010, mapping := some 0 },
      { id := 2, address := 0x3010, mapping := some 1 },
      { id := 3, address := 0x3020, mapping := some 1 },
      { id := 4, address := 0x5010, mapping := some 2 }]

/-- With the application that was profiled the pass returns, and has found what there is. -/
theorem fails_symbolizeLocally_sameBinary :
    unclosable.FailsSoftly ∧
    let result := ((profiledAs "beef").symbolizeLocally unclosable false false { world := () }).1
    result.2 = .ok () ∧ result.1.locations.map (·.lines) = [[⟨0, 5⟩], [⟨0, 5⟩], [], []] ∧
      ∃ t found, LocalPass.Completed unclosable false (profiledAs "beef") { world := () } t found ∧
        (profiledAs "beef").Resolved found result.1 := by
  refine ⟨failsSoftly_unclosable, ?_⟩
  intro result
  have hreturns : result.2 = .ok () := by rfl
  have hlines : result.1.locations.map (·.lines) = [[⟨0, 5⟩], [⟨0, 5⟩], [], []] := by
    decide +kernel
  obtain ⟨-, -, hresolved⟩ := fails_symbolizeLocally_iff failsSoftly_unclosable false false
    (profiledAs "beef") { world := () }
  obtain ⟨t, found, hcompleted, -, hresolved⟩ := hresolved hreturns
  exact ⟨hreturns, hlines, t, found, hcompleted, hresolved⟩

/-- With another one the pass fails, since the application cannot be given back, and the library is
not looked at. -/
theorem breaksOff_otherBinary :
    ¬ ∀ (inspector : Inspector Unit String) (force fast : Bool) (p : Profile) (env : Env Unit),
      inspector.FailsSoftly → (p.symbolizeLocally inspector force fast env).1.2 = .ok () := by
  intro h
  have hreturns := h unclosable false false (profiledAs "cafe") { world := () }
    failsSoftly_unclosable
  revert hreturns
  have hfails : ((profiledAs "cafe").symbolizeLocally unclosable false false
      { world := () }).1.2 = .error (.system (.other "/bin/app is busy")) := by rfl
  rw [hfails]
  exact nofun

end Symbolication
