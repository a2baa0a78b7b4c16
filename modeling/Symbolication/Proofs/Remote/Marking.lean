import Symbolication.Proofs.Remote.Attempts

/-!
# Symbolication.Proofs.Remote.Marking

Which mappings a remote pass marks as having names, and whether they have any.  A mapping
is marked for every answer, also for one that says nothing of its locations, and for none
if there is nothing to ask.  What it then has in the way of names is what it had before
and what the lines of answers give its locations:

* `ProfileOf.Credited`, `Runs.marks` — which mappings are marked;
* `ProfileOf.HasNameIn`, `Accounted.hasNameIn_iff` — which mappings have names;
* `marked_symbolizeRemotely` — both, for a whole pass.
-/

namespace Symbolication

open Text

variable {ω τ : Type}

/-! ## marks -/

/-- The mapping as having names. -/
def MappingOf.marked (m : MappingOf τ) : MappingOf τ :=
  { m with hasFunctions := true }

theorem getElem?_markNamed (p : ProfileOf τ) (i : Nat) :
    (p.markNamed i).mappings[i]? = p.mappings[i]?.map MappingOf.marked := by
  rw [ProfileOf.markNamed, List.getElem?_modify_eq]
  rfl

theorem getElem?_markNamed_of_ne (p : ProfileOf τ) {i j : Nat} (h : j ≠ i) :
    (p.markNamed i).mappings[j]? = p.mappings[j]? := by
  simp [ProfileOf.markNamed, Ne.symm h]

/-- A server is given credit for the mapping at a position: it has answered, or there is nothing to
ask and the mapping has a server. -/
def ProfileOf.Credited (p : ProfileOf τ) (i : Nat) (servers : List (Source × String))
    (told : List Exchange) : Prop :=
  (∃ e ∈ told, e.IsAnswered) ∨ p.openAddresses i = [] ∧ servers ≠ []

namespace RemotePass

variable [Label τ]

/-- The mapping is marked if a server is given credit for it, and only then. -/
theorem Tries.marks {addresses : List Int} {i : Nat} {m : MappingOf τ} {s s' : RemoteProgress τ}
    {sources : List Source} {told : List Exchange} {ended : Except Fault Unit}
    (h : Tries addresses i m s sources told s' ended) :
    (s'.profile.mappings = s.profile.mappings ∧ (∀ e ∈ told, ¬ e.IsAnswered) ∧
        (ended = .ok () → addresses = [] → servers sources = [])) ∨
      (s'.profile.mappings = (s.profile.markNamed i).mappings ∧
        ((∃ e ∈ told, e.IsAnswered) ∨ addresses = [] ∧ servers sources ≠ [])) := by
  induction h with
  | out => exact .inl ⟨rfl, by simp, fun _ _ => rfl⟩
  | flawed _ => exact .inl ⟨rfl, by simp, fun hended => by cases hended⟩
  | passed hurl _ ih =>
      rw [servers_cons_of_none hurl]
      exact ih
  | idle hurl hopen =>
      rw [servers_cons_of_some hurl]
      exact .inr ⟨rfl, .inr ⟨hopen, List.cons_ne_nil _ _⟩⟩
  | answered _ _ => exact .inr ⟨rfl, .inl ⟨_, List.mem_singleton_self _, _, rfl⟩⟩
  | failed _ hopen _ _ ih =>
      rcases ih with ⟨hsame, hfailed, -⟩ | ⟨hmarked, ⟨e, he, hanswered⟩ | ⟨hidle, -⟩⟩
      · refine .inl ⟨hsame, ?_, fun _ hidle => absurd hidle hopen⟩
        exact List.forall_mem_cons.mpr ⟨not_isAnswered_error _ _, hfailed⟩
      · exact .inr ⟨hmarked, .inl ⟨e, List.mem_cons_of_mem _ he, hanswered⟩⟩
      · exact absurd hidle hopen
  | broken _ _ _ =>
      refine .inl ⟨rfl, fun e he => ?_, fun hended => by cases hended⟩
      rw [List.mem_singleton.mp he]
      exact not_isAnswered_error _ _

/-- What becomes of a mapping, which is `before?` and then `after?`: it is marked, with credit for
it, or it stays what it is.  Where a pass is not broken off, this is without credit. -/
def Marks (p : ProfileOf τ) (sources : SourcesOf τ) (force : Bool) (ended : Except Fault Unit)
    (m : MappingOf τ) (i : Nat) (told : List Exchange) (before? after? : Option (MappingOf τ)) :
    Prop :=
  (after? = before? ∧ (∀ e ∈ told, ¬ e.IsAnswered) ∧
      (ended = .ok () → p.needsNames force i m = .ok true →
        ¬ p.Credited i (servers (sources.forMapping m)) told)) ∨
    (after? = before?.map MappingOf.marked ∧ p.needsNames force i m = .ok true ∧
      p.Credited i (servers (sources.forMapping m)) told)

section

variable {p : ProfileOf τ} {sources : SourcesOf τ} {force : Bool} {ended : Except Fault Unit}

/-- A mapping that a pass does not come to is not marked. -/
theorem marks_of_error (fault : Fault) (m : MappingOf τ) (i : Nat)
    (before? : Option (MappingOf τ)) :
    Marks p sources force (.error fault) m i [] before? before? :=
  .inl ⟨rfl, by simp, fun hended => by cases hended⟩

/-- A mapping that has had its turn stays as it is then, however the pass ends. -/
theorem Marks.of_ok {m : MappingOf τ} {i : Nat} {told : List Exchange}
    {before? after? : Option (MappingOf τ)}
    (h : Marks p sources force (.ok ()) m i told before? after?) :
    Marks p sources force ended m i told before? after? := by
  rcases h with ⟨hsame, hfailed, huncredited⟩ | hmarked
  · exact .inl ⟨hsame, hfailed, fun _ => huncredited rfl⟩
  · exact .inr hmarked

/-- What becomes of a mapping whose sources are tried. -/
theorem Tries.marks_self {i : Nat} {m : MappingOf τ} {s s' : RemoteProgress τ}
    {told : List Exchange} (hneeds : p.needsNames force i m = .ok true)
    (h : Tries (p.openAddresses i) i m s (sources.forMapping m) told s' ended) :
    Marks p sources force ended m i told s.profile.mappings[i]? s'.profile.mappings[i]? := by
  rcases h.marks with ⟨hsame, hfailed, hsilent⟩ | ⟨hmarked, hcredit⟩
  · refine .inl ⟨by rw [hsame], hfailed, fun hended _ hcredit => ?_⟩
    rcases hcredit with ⟨e, he, hanswered⟩ | ⟨hidle, hserver⟩
    · exact hfailed e he hanswered
    · exact hserver (hsilent hended hidle)
  · exact .inr ⟨by rw [hmarked, getElem?_markNamed], hneeds, hcredit⟩

/-- Meanwhile nothing becomes of the others. -/
theorem Tries.mappings_of_ne {addresses : List Int} {i j : Nat} {m : MappingOf τ}
    {s s' : RemoteProgress τ} {list : List Source} {told : List Exchange}
    (h : Tries addresses i m s list told s' ended) (hj : j ≠ i) :
    s'.profile.mappings[j]? = s.profile.mappings[j]? := by
  rcases h.marks with ⟨hsame, -⟩ | ⟨hmarked, -⟩
  · rw [hsame]
  · rw [hmarked, getElem?_markNamed_of_ne _ hj]

omit [Label τ] in
/-- The mapping in front is none of those that come after it. -/
theorem ne_of_mem_zip {rest : List (MappingOf τ × Nat)} {i : Nat} (hi : i ∉ rest.map (·.2))
    {parts : List (List Exchange)} {x : (MappingOf τ × Nat) × List Exchange}
    (hx : x ∈ rest.zip parts) : x.1.2 ≠ i := by
  rintro rfl
  exact hi (List.mem_map_of_mem (List.of_mem_zip hx).1)

/-- Which mappings are marked in the course of a run. -/
theorem Runs.marks {s s' : RemoteProgress τ} {entries : List (MappingOf τ × Nat)}
    {parts : List (List Exchange)} (h : Runs p sources force s entries parts s' ended)
    (hnodup : (entries.map (·.2)).Nodup) :
    (∀ i, i ∉ entries.map (·.2) → s'.profile.mappings[i]? = s.profile.mappings[i]?) ∧
      ∀ x ∈ entries.zip parts, Marks p sources force ended x.1.1 x.1.2 x.2
        s.profile.mappings[x.1.2]? s'.profile.mappings[x.1.2]? := by
  induction h with
  | done => simp
  | @unreadable s m i rest fault _ =>
      refine ⟨fun _ _ => rfl, fun x hx => ?_⟩
      have hnone : x.2 = [] := eq_nil_of_mem_zip hx
      rw [hnone]
      exact marks_of_error fault _ _ _
  | @keyless s m i rest _ _ _ =>
      refine ⟨fun _ _ => rfl, fun x hx => ?_⟩
      have hnone : x.2 = [] := eq_nil_of_mem_zip hx
      rw [hnone]
      exact marks_of_error _ _ _ _
  | @spared s s' m i rest parts ended hneeds _ ih =>
      rw [List.map_cons, List.nodup_cons] at hnodup
      obtain ⟨hother, hmarks⟩ := ih hnodup.2
      constructor
      · intro j hj
        rw [List.map_cons, List.mem_cons, not_or] at hj
        exact hother j hj.2
      · rw [List.zip_cons_cons, List.forall_mem_cons]
        refine ⟨.inl ⟨hother i hnodup.1, by simp, fun _ hnot => ?_⟩, hmarks⟩
        rw [hneeds] at hnot
        cases hnot
  | @tried s s' s'' m i rest told parts ended hneeds htries _ ih =>
      rw [List.map_cons, List.nodup_cons] at hnodup
      obtain ⟨hother, hmarks⟩ := ih hnodup.2
      have hself : Marks p sources force ended m i told _ _ := (htries.marks_self hneeds).of_ok
      constructor
      · intro j hj
        rw [List.map_cons, List.mem_cons, not_or] at hj
        rw [hother j hj.2, htries.mappings_of_ne hj.1]
      · rw [List.zip_cons_cons, List.forall_mem_cons, hother i hnodup.1]
        refine ⟨hself, fun x hx => ?_⟩
        rw [← htries.mappings_of_ne (ne_of_mem_zip hnodup.1 hx)]
        exact hmarks x hx
  | @broken s s' m i rest told fault hneeds htries =>
      rw [List.map_cons, List.nodup_cons] at hnodup
      have hself := htries.marks_self hneeds
      constructor
      · intro j hj
        rw [List.map_cons, List.mem_cons, not_or] at hj
        exact htries.mappings_of_ne hj.1
      · rw [List.zip_cons_cons, List.forall_mem_cons]
        refine ⟨hself, fun x hx => ?_⟩
        rw [eq_nil_of_mem_zip hx, htries.mappings_of_ne (ne_of_mem_zip hnodup.1 hx)]
        exact marks_of_error fault _ _ _

end

end RemotePass

/-! ## names -/

/-- Some location in the mapping at a position has a line with a function that has a name. -/
def ProfileOf.HasNameIn [Label τ] (p : ProfileOf τ) (i : Nat) : Prop :=
  ∃ l ∈ p.locations, l.mapping = some i ∧ ∃ line ∈ l.lines, ∃ fn,
    p.functions[line.function]? = some fn ∧ Label.isEmpty fn.name = false

open RemotePass

namespace RemotePass.Accounted

variable [Label τ] {p q : ProfileOf τ} {sources : SourcesOf τ} {force : Bool}
  {parts : List (List Exchange)} {pool : FunctionPool τ} {changes : Nat → Location → Location}

/-- A location that was answered for has a line with a function that has a name. -/
theorem exists_name_of_answeredAt (h : Accounted p sources force parts pool changes q)
    {l : Location} (hanswered : p.AnsweredAt sources parts l) :
    ∃ line ∈ (l.changeBy changes).lines, ∃ fn, q.functions[line.function]? = some fn ∧
      Label.isEmpty fn.name = false := by
  obtain ⟨i, m, part, source, body, hi, hm, hpart, hanswered, hsays⟩ := hanswered
  obtain ⟨name, ⟨a, earlier, line, later, -, hlines, hanswer, -⟩, heq⟩ :=
    withAnswers_of_named hsays pool
  obtain ⟨e, he, hbody, -⟩ := hanswered.exists_reply
  have hmem : e ∈ parts.flatten := List.mem_flatten_of_mem (List.mem_of_getElem? hpart) he
  have hline : line ∈ splitLines (Utf8.decodeLossy body) := by
    rw [hlines]
    simp
  obtain ⟨fn, hfn, hname, -⟩ := h.records hmem hbody hline hanswer
  obtain ⟨-, -, -, -, -, -, -, hne, -⟩ := hanswer
  rw [changeBy_of_mapping hi, (h.each.getElem hm hpart).eq_withAnswers hanswered, heq]
  refine ⟨_, List.mem_singleton_self _, fn, hfn, ?_⟩
  rw [hname, Label.isEmpty_ofText]
  simpa using hne

/-- Functions of the profile stay where they are. -/
theorem getElem?_functions (h : Accounted p sources force parts pool changes q) {n : Nat}
    (hn : n < p.functions.length) : q.functions[n]? = p.functions[n]? := by
  rw [h.functions, FunctionPool.functions, h.old_eq, List.getElem?_append_left hn]

/-- A mapping has names in the end if it had some before or some location in it was answered for. -/
theorem hasNameIn_iff (h : Accounted p sources force parts pool changes q) (hp : p.WellFormed)
    {i : Nat} : q.HasNameIn i ↔
      p.HasNameIn i ∨ ∃ l ∈ p.locations, l.mapping = some i ∧ p.AnsweredAt sources parts l := by
  have hmapping (l : Location) (hanswered : p.AnsweredAt sources parts l) :
      (l.changeBy changes).mapping = l.mapping := by
    obtain ⟨function, -, heq⟩ := h.changeBy_of_answeredAt hanswered
    rw [heq]
  have hanswer (l : Location) (hl : l ∈ p.locations) (hi : l.mapping = some i)
      (hanswered : p.AnsweredAt sources parts l) : q.HasNameIn i := by
    refine ⟨l.changeBy changes, ?_, (hmapping l hanswered).trans hi,
      h.exists_name_of_answeredAt hanswered⟩
    rw [h.locations]
    exact List.mem_map_of_mem hl
  constructor
  · rintro ⟨l', hl', hi, line, hline, fn, hfn, hname⟩
    rw [h.locations] at hl'
    obtain ⟨l, hl, rfl⟩ := List.mem_map.mp hl'
    by_cases hanswered : p.AnsweredAt sources parts l
    · exact .inr ⟨l, hl, (hmapping l hanswered).symm.trans hi, hanswered⟩
    · rw [h.changeBy_of_not_answeredAt hanswered] at hi hline
      rw [h.getElem?_functions (hp.function_lt l hl line hline)] at hfn
      exact .inl ⟨l, hl, hi, line, hline, fn, hfn, hname⟩
  · rintro (⟨l, hl, hi, line, hline, fn, hfn, hname⟩ | ⟨l, hl, hi, hanswered⟩)
    · by_cases hanswered : p.AnsweredAt sources parts l
      · exact hanswer l hl hi hanswered
      · refine ⟨l, ?_, hi, line, hline, fn, ?_, hname⟩
        · rw [h.locations, ← h.changeBy_of_not_answeredAt hanswered]
          exact List.mem_map_of_mem hl
        · rw [h.getElem?_functions (hp.function_lt l hl line hline), hfn]
    · exact hanswer l hl hi hanswered

end RemotePass.Accounted

/-! ## the pass -/

/-- Which mappings a remote pass marks as having names, and which of them have any.  One that was
not marked is marked if a server is given credit for it, for an answer or for none, and it has names
in the end if it had some before or if an answer says something of a location in it. -/
theorem marked_symbolizeRemotely [Label τ] (post : Poster ω) (sources : SourcesOf τ)
    (force : Bool) {p : ProfileOf τ} (hp : p.WellFormed) (env : Env ω) :
    let run := p.symbolizeRemotely post.transcribed sources force (env.watchedFrom [])
    p.symbolizeRemotely post sources force env = (run.1, run.2.plain) ∧
    ∃ parts : List (List Exchange), run.2.world.seen = parts.flatten ∧
      ∀ (i : Nat) (m : MappingOf τ), p.mappings[i]? = some m → m.hasFunctions = false →
        ∃ m' part, run.1.1.mappings[i]? = some m' ∧ parts[i]? = some part ∧
          (m'.hasFunctions = true → p.needsNames force i m = .ok true ∧
            p.Credited i (servers (sources.forMapping m)) part) ∧
          ((∃ e ∈ part, e.IsAnswered) → m'.hasFunctions = true) ∧
          (run.1.2 = .ok () → p.needsNames force i m = .ok true →
            p.Credited i (servers (sources.forMapping m)) part → m'.hasFunctions = true) ∧
          (run.1.1.HasNameIn i ↔ p.HasNameIn i ∨
            ∃ l ∈ p.locations, l.mapping = some i ∧ p.AnsweredAt sources parts l) := by
  intro run
  have hplain := post.mirrors_transcribed.symbolizeRemotely sources force p (env.watchedFrom [])
  obtain ⟨parts, s, ended, changes, hseen, hresult, hruns, haccounted⟩ :=
    runs_accounted_symbolizeRemotely post sources force p env
  have hprofile : run.1.1 = s.profile := congrArg Prod.fst hresult
  have hended : run.1.2 = .ok () → ended = .ok () := by
    intro hreturns
    rw [congrArg Prod.snd hresult] at hreturns
    cases ended with
    | ok _ => rfl
    | error fault => cases hreturns
  -- every mapping has one turn, so that what becomes of it then is what becomes of it
  have hnodup := List.nodup_zipIdx_map_snd p.mappings
  refine ⟨hplain, parts, hseen, fun i m hm hflag => ?_⟩
  have hlt := (List.getElem?_eq_some_iff.mp hm).1
  have hpart := List.getElem?_eq_getElem (haccounted.length_parts ▸ hlt : i < parts.length)
  have hmarks := (hruns.marks hnodup).2 _ (mem_zip_zipIdx hm hpart)
  rw [hprofile]
  simp only [RemoteProgress.start, hm] at hmarks
  rcases hmarks with ⟨hsame, hfailed, huncredited⟩ | ⟨hmarked, hneeds, hcredited⟩
  · refine ⟨m, _, hsame, hpart, ?_, ?_, ?_, haccounted.hasNameIn_iff hp⟩
    · intro hflag'
      rw [hflag] at hflag'
      cases hflag'
    · rintro ⟨e, he, hanswered⟩
      exact absurd hanswered (hfailed e he)
    · intro hreturns hneeds hcredited
      exact absurd hcredited (huncredited (hended hreturns) hneeds)
  · exact ⟨m.marked, _, hmarked, hpart, fun _ => ⟨hneeds, hcredited⟩, fun _ => rfl,
      fun _ _ _ => rfl, haccounted.hasNameIn_iff hp⟩

theorem wellFormed_movedBinary : movedBinary.WellFormed := by
  constructor
  · decide
  · decide

theorem lines_movedBinary : ∀ l ∈ movedBinary.locations, l.lines = [] := by
  decide

/-- The binary is marked, and the answer has a name for a location in it. -/
theorem marked_symbolizeRemotely_moved :
    movedBinary.WellFormed ∧ ∃ (m' : Mapping) (parts : List (List Exchange)),
      (movedBinary.symbolizeRemotely movedServer.transcribed movedSources false
        (Env.watchedFrom [] { world := () })).1.1.mappings[0]? = some m' ∧
      m'.hasFunctions = true ∧
      (movedBinary.symbolizeRemotely movedServer.transcribed movedSources false
        (Env.watchedFrom [] { world := () })).2.world.seen = parts.flatten ∧
      ∃ l ∈ movedBinary.locations, l.mapping = some 0 ∧
        movedBinary.AnsweredAt movedSources parts l := by
  obtain ⟨-, parts, hseen, hmappings⟩ := marked_symbolizeRemotely movedServer movedSources false
    wellFormed_movedBinary { world := () }
  obtain ⟨m', part, hm', -, -, -, -, hnames⟩ := hmappings 0 _ rfl rfl
  have hmarked : (movedBinary.symbolizeRemotely movedServer.transcribed movedSources false
      (Env.watchedFrom [] { world := () })).1.1.mappings.map (·.hasFunctions) = [true] := by
    decide +kernel
  have hflag : m'.hasFunctions = true := by
    have hget := congrArg (·[0]?) hmarked
    simp only [List.getElem?_map, hm'] at hget
    exact Option.some.inj hget
  have hlocation : (movedBinary.symbolizeRemotely movedServer.transcribed movedSources false
      (Env.watchedFrom [] { world := () })).1.1.locations[0]? =
      some { id := 1, address := 0x400010, mapping := some 0, lines := [⟨2, 0⟩] } := by
    decide +kernel
  have hfunction : (movedBinary.symbolizeRemotely movedServer.transcribed movedSources false
      (Env.watchedFrom [] { world := () })).1.1.functions[2]?.map (·.name) = some "main (a)" := by
    decide +kernel
  obtain ⟨fn, hfn, hname⟩ := Option.map_eq_some_iff.mp hfunction
  have hnamed := hnames.mp ⟨_, List.mem_of_getElem? hlocation, rfl, _, List.mem_singleton_self _,
    fn, hfn, by rw [hname]; decide⟩
  have hnone : ¬ movedBinary.HasNameIn 0 := by
    rintro ⟨l, hl, -, line, hline, -⟩
    rw [lines_movedBinary l hl] at hline
    cases hline
  exact ⟨wellFormed_movedBinary, m', parts, hm', hflag, hseen, hnamed.resolve_left hnone⟩

/-- A server that answers with nothing. -/
def silentServer : Poster Unit := fun _ _ =>
  pure []

/-- With an empty answer the binary is marked, and has no names. -/
theorem marked_unnamed_movedBinary :
    ¬ ∀ (p : Profile), p.WellFormed → ∀ (post : Poster Unit) (sources : Sources) (force : Bool)
      (env : Env Unit) (i : Nat) (m m' : Mapping), p.mappings[i]? = some m →
      (p.symbolizeRemotely post sources force env).1.1.mappings[i]? = some m' →
      m.hasFunctions = false → m'.hasFunctions = true →
      (p.symbolizeRemotely post sources force env).1.1.HasNameIn i := by
  intro h
  have hlocations : (movedBinary.symbolizeRemotely silentServer movedSources false
      { world := () }).1.1.locations = movedBinary.locations := by
    decide +kernel
  have hmarked : (movedBinary.symbolizeRemotely silentServer movedSources false
      { world := () }).1.1.mappings[0]? =
      some { id := 1, start := 0x400000, limit := 0x500000, file := "/bin/app", buildId := "",
             hasFunctions := true } := by
    decide +kernel
  obtain ⟨l, hl, -, line, hline, -⟩ := h movedBinary wellFormed_movedBinary silentServer
    movedSources false { world := () } 0 _ _ rfl hmarked rfl rfl
  rw [hlocations] at hl
  rw [lines_movedBinary l hl] at hline
  cases hline

end Symbolication
