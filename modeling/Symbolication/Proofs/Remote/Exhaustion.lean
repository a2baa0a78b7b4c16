import Symbolication.Proofs.Remote.Resolution

/-!
# Symbolication.Proofs.Remote.Exhaustion

When a remote pass fails.  Two counters sum up its course: how many mappings needed
names, and for how many of them a source is taken to have answered.  A mapping counts as
needing names also if there is nothing to ask for in it, and its first web server is
then taken to have answered without being asked:

* `ProfileOf.Eligible`, `Exhausted` — the mappings that count, and when no source
  has succeeded for any of them;
* `Tries.answered_eq_iff`, `Runs.counters` — the counters in terms of the exchanges;
* `fails_symbolizeRemotely_iff` — when the pass fails.
-/

namespace Symbolication

variable {ω τ : Type}

/-- Servers are to blame for all faults of the poster. -/
def Poster.BlamesServers (post : Poster ω) : Prop :=
  ∀ url payload, Step.Gives (post url payload).run fun reply =>
    ∀ fault, reply = .error fault → fault.isRemote || fault.isSystem

/-- The URL at which a source is asked can be derived, or it is found to be no web server. -/
def Source.HasSymbolUrl (source : Source) : Prop :=
  ∃ url?, source.symbolUrl? = .ok url?

instance : DecidablePred Source.HasSymbolUrl := fun source =>
  match h : source.symbolUrl? with
  | .ok url? => isTrue ⟨url?, h⟩
  | .error _ => isFalse fun ⟨_, hurl⟩ => by rw [h] at hurl; cases hurl

/-- The source is no web server. -/
def Source.IsSilent (source : Source) : Prop :=
  source.symbolUrl? = .ok none

/-! ## the mappings that count -/

/-- Names are asked for in the mapping at a position: it has none yet or everything begins anew, it
is none of the pages of the system, and locations lie in it. -/
def ProfileOf.Eligible (force : Bool) (p : Profile) (i : Nat) (m : Mapping) : Prop :=
  p.mappings[i]? = some m ∧ (force = true ∨ m.hasFunctions = false) ∧
    PathName.isSystemPages m.file = false ∧ ∃ l ∈ p.locations, l.mapping = some i

/-- A file whose name is a text can be looked at. -/
theorem needsNames_text (force : Bool) (p : Profile) (i : Nat) (m : Mapping) :
    p.needsNames force i m =
      .ok ((force || !m.hasFunctions) && (!PathName.isSystemPages m.file && p.refersTo i)) := by
  cases force <;> cases h : m.hasFunctions <;> simp [ProfileOf.needsNames, Label.text, h]

theorem eligible_iff {force : Bool} {p : Profile} {i : Nat} {m : Mapping} :
    p.Eligible force i m ↔ p.mappings[i]? = some m ∧ p.needsNames force i m = .ok true := by
  simp [ProfileOf.Eligible, needsNames_text, ProfileOf.refersTo]

/-- What holds of all mappings that need names holds of those that count. -/
theorem forall_eligible_iff {force : Bool} {p : Profile} {C : Nat → Mapping → Prop} :
    (∀ entry ∈ p.mappings.zipIdx, p.needsNames force entry.2 entry.1 = .ok true →
      C entry.2 entry.1) ↔ ∀ i m, p.Eligible force i m → C i m := by
  simp only [eligible_iff]
  constructor
  · intro h i m hm
    exact h (m, i) (List.mem_zipIdx_iff_getElem?.mpr hm.1) hm.2
  · intro h entry hentry hneeds
    exact h entry.2 entry.1 ⟨List.mem_zipIdx_iff_getElem?.mp hentry, hneeds⟩

/-- The sources of a mapping stand in the table. -/
theorem exists_of_mem_forMapping [Label τ] {sources : SourcesOf τ} {m : MappingOf τ}
    {source : Source} (h : source ∈ sources.forMapping m) :
    ∃ entry ∈ sources, source ∈ entry.2 := by
  have hget : ∀ label, source ∈ sources.get label → ∃ entry ∈ sources, source ∈ entry.2 := by
    intro label hmem
    unfold SourcesOf.get at hmem
    cases hfind : sources.find? fun entry => Label.sameKey entry.1 label with
    | none => simp [hfind] at hmem
    | some entry =>
        rw [hfind] at hmem
        exact ⟨entry, List.mem_of_find?_eq_some hfind, hmem⟩
  rcases List.mem_append.mp h with h | h
  · exact hget _ h
  · split at h
    · cases h
    · exact hget _ h

namespace RemotePass

/-! ## the counters -/

/-- No candidate succeeds for a mapping: none has answered, and if there was nothing to ask, none is
a web server. -/
def NoCandidateSucceeds (addresses : List Int) (sources : List Source) (told : List Exchange) :
    Prop :=
  (∀ e ∈ told, ¬ e.IsAnswered) ∧ (addresses = [] → ∀ source ∈ sources, source.IsSilent)

variable [Label τ]

/-- A mapping is counted as answered for unless no candidate succeeds for it. -/
theorem Tries.answered_eq_iff {addresses : List Int} {i : Nat} {m : MappingOf τ}
    {s s' : RemoteProgress τ} {sources : List Source} {told : List Exchange}
    {ended : Except Fault Unit} (h : Tries addresses i m s sources told s' ended)
    (hended : ended = .ok ()) :
    s'.needed = s.needed ∧ s.answered ≤ s'.answered ∧
      (s'.answered = s.answered ↔ NoCandidateSucceeds addresses sources told) := by
  induction h with
  | out => simp [NoCandidateSucceeds]
  | flawed _ => cases hended
  | passed hurl _ ih =>
      obtain ⟨hneeded, hle, hiff⟩ := ih hended
      refine ⟨hneeded, hle, hiff.trans ?_⟩
      simp [NoCandidateSucceeds, Source.IsSilent, hurl]
  | idle hurl hopen =>
      simp [NoCandidateSucceeds, Source.IsSilent, RemoteProgress.mark, RemoteProgress.enter, hurl,
        hopen]
  | answered _ _ =>
      simp [NoCandidateSucceeds, Exchange.IsAnswered, RemoteProgress.mark, RemoteProgress.enter]
  | failed hurl hopen _ _ ih =>
      obtain ⟨hneeded, hle, hiff⟩ := ih hended
      refine ⟨hneeded, hle, hiff.trans ?_⟩
      simp [NoCandidateSucceeds, Exchange.IsAnswered, hopen]
  | broken _ _ _ => cases hended

/-- No candidate succeeds for any of the mappings that need names. -/
def NoMappingSucceeds (p : ProfileOf τ) (sources : SourcesOf τ) (force : Bool)
    (entries : List (MappingOf τ × Nat)) (parts : List (List Exchange)) : Prop :=
  (∀ e ∈ parts.flatten, ¬ e.IsAnswered) ∧
    ∀ entry ∈ entries, p.needsNames force entry.2 entry.1 = .ok true →
      p.openAddresses entry.2 = [] → ∀ source ∈ sources.forMapping entry.1, source.IsSilent

section

variable {p : ProfileOf τ} {sources : SourcesOf τ} {force : Bool}
  {entries : List (MappingOf τ × Nat)} {parts : List (List Exchange)} {m : MappingOf τ} {i : Nat}

theorem noMappingSucceeds_spared (h : p.needsNames force i m = .ok false) :
    NoMappingSucceeds p sources force ((m, i) :: entries) ([] :: parts) ↔
      NoMappingSucceeds p sources force entries parts := by
  simp [NoMappingSucceeds, h]

theorem noMappingSucceeds_tried (h : p.needsNames force i m = .ok true) {told : List Exchange} :
    NoMappingSucceeds p sources force ((m, i) :: entries) (told :: parts) ↔
      NoCandidateSucceeds (p.openAddresses i) (sources.forMapping m) told ∧
        NoMappingSucceeds p sources force entries parts := by
  rw [NoMappingSucceeds, NoCandidateSucceeds, NoMappingSucceeds, List.flatten_cons,
    List.forall_mem_append, List.forall_mem_cons]
  simp only [h, forall_const]
  exact and_and_and_comm

/-- The counters of a run that is not broken off. -/
theorem Runs.counters {s s' : RemoteProgress τ} {ended : Except Fault Unit}
    (h : Runs p sources force s entries parts s' ended) (hended : ended = .ok ()) :
    s.needed ≤ s'.needed ∧ s.answered ≤ s'.answered ∧
      (s'.needed = s.needed ↔ ∀ entry ∈ entries, p.needsNames force entry.2 entry.1 ≠ .ok true) ∧
      (s'.answered = s.answered ↔ NoMappingSucceeds p sources force entries parts) := by
  induction h with
  | done => simp [NoMappingSucceeds]
  | unreadable _ => cases hended
  | keyless _ _ => cases hended
  | broken _ _ => cases hended
  | spared hneeds _ ih =>
      rw [noMappingSucceeds_spared hneeds]
      simpa [hneeds] using ih hended
  | tried hneeds htries _ ih =>
      obtain ⟨hneeded, hanswered, hsucceeds⟩ := htries.answered_eq_iff rfl
      obtain ⟨hneeded', hanswered', -, hsucceeds'⟩ := ih hended
      simp only at hneeded hanswered hsucceeds
      refine ⟨by omega, by omega, ?_, ?_⟩
      · constructor
        · intro hsame
          omega
        · intro hnone
          exact absurd hneeds (hnone _ List.mem_cons_self)
      · rw [noMappingSucceeds_tried hneeds, ← hsucceeds, ← hsucceeds']
        omega

end

/-! ## runs that are not broken off -/

omit [Label τ] in
theorem gives_ask {post : Poster ω} (hpost : post.BlamesServers) (p : ProfileOf τ) (i : Nat)
    (shift : Int) (url : String) :
    Step.Gives (ask post p i shift url).run
      (fun r => ∀ fault, r = .error fault → fault.isRemote || fault.isSystem) := by
  unfold ask
  cases p.openAddresses i with
  | nil => exact Step.gives_pure fun fault hfault => by cases hfault
  | cons a rest =>
      rw [ExceptT.run_bind]
      refine Step.gives_bind (hpost url _) ?_
      intro reply hreply
      cases reply with
      | ok body => exact Step.gives_pure fun fault hfault => by cases hfault
      | error fault =>
          refine Step.gives_pure fun fault' hfault => ?_
          cases hfault
          exact hreply fault rfl

/-- Sources whose URLs can be derived do not break a pass off if servers are to blame. -/
theorem gives_ok_tryEach {post : Poster ω} (hpost : post.BlamesServers) (i : Nat)
    (m : MappingOf τ) (s : RemoteProgress τ) {sources : List Source}
    (hsources : ∀ source ∈ sources, source.HasSymbolUrl) :
    Step.Gives (tryEach post i m s sources) (fun r => r.2 = .ok ()) := by
  induction sources generalizing s with
  | nil => exact Step.gives_pure rfl
  | cons source rest ih =>
      rw [List.forall_mem_cons] at hsources
      obtain ⟨⟨url?, hurl⟩, hrest⟩ := hsources
      simp only [tryEach, hurl]
      cases url? with
      | none => exact ih s hrest
      | some url =>
          refine Step.gives_bind (gives_ask hpost s.profile i (source.shift m) url) ?_
          intro r hr
          cases r with
          | ok answers => exact Step.gives_bind_of_forall fun _ => Step.gives_pure rfl
          | error fault =>
              simp only
              rw [if_pos (hr fault rfl)]
              exact Step.gives_bind_of_forall fun _ => ih _ hrest

/-- A pass over a profile whose labels are strings is not broken off for any other reason. -/
theorem gives_ok_runEach {post : Poster ω} (hpost : post.BlamesServers) {sources : Sources}
    (hsources : ∀ entry ∈ sources, ∀ source ∈ entry.2, source.HasSymbolUrl) (force : Bool)
    (s : RemoteProgress String) (entries : List (Mapping × Nat)) :
    Step.Gives (runEach post sources force s entries) (fun r => r.2 = .ok ()) := by
  induction entries generalizing s with
  | nil => exact Step.gives_pure rfl
  | cons entry rest ih =>
      obtain ⟨m, i⟩ := entry
      have hkey : Label.keyless? m.buildId = none := rfl
      have hmapping : ∀ source ∈ sources.forMapping m, source.HasSymbolUrl := by
        intro source hsource
        obtain ⟨entry, hentry, hmem⟩ := exists_of_mem_forMapping hsource
        exact hsources entry hentry source hmem
      simp only [runEach, needsNames_text, hkey]
      split
      · contradiction
      · exact ih s
      · contradiction
      · refine Step.gives_bind (gives_ok_tryEach hpost i m _ hmapping) ?_
        rintro ⟨s', ended⟩ rfl
        exact ih s'

end RemotePass

/-! ## the pass -/

theorem Poster.BlamesServers.transcribed {post : Poster ω} (h : post.BlamesServers) :
    post.transcribed.BlamesServers :=
  fun url payload => Act.gives_reported _ (h url payload)

/-- The pass fails on account of servers. -/
def FailsRemotely (r : Except Fault Unit) : Prop :=
  ∃ fault, r = .error fault ∧ fault.isRemote = true

instance : DecidablePred FailsRemotely := fun r =>
  match r with
  | .ok _ => isFalse fun ⟨_, hfault, _⟩ => by cases hfault
  | .error fault =>
    if h : fault.isRemote = true then isTrue ⟨fault, rfl, h⟩
    else isFalse fun ⟨_, hfault, hremote⟩ => by cases hfault; exact h hremote

/-- How a pass ends that nothing has broken off. -/
theorem outcome_cases {τ : Type} (s : RemoteProgress τ) :
    s.outcome = .ok () ∧ ¬ (0 < s.needed ∧ s.answered = 0) ∨
      FailsRemotely s.outcome ∧ 0 < s.needed ∧ s.answered = 0 := by
  unfold RemoteProgress.outcome
  by_cases h : 0 < s.needed ∧ s.answered = 0
  · right
    rw [if_pos (by simpa using h)]
    cases s.lastFault with
    | none => exact ⟨⟨_, rfl, rfl⟩, h⟩
    | some fault => exact ⟨⟨_, rfl, rfl⟩, h⟩
  · left
    rw [if_neg (by simpa using h)]
    exact ⟨rfl, h⟩

theorem openAddresses_eq_nil_iff {τ : Type} {p : ProfileOf τ} {i : Nat} :
    p.openAddresses i = [] ↔ ∀ l ∈ p.locations, ¬ l.OpenIn i := by
  rw [List.eq_nil_iff_forall_not_mem]
  simp only [mem_openAddresses]
  constructor
  · exact fun h l hl hopen => h l.address ⟨l, hl, hopen, rfl⟩
  · rintro h _ ⟨l, hl, hopen, -⟩
    exact h l hl hopen

theorem failsRemotely_outcome_iff {τ : Type} (s : RemoteProgress τ) :
    FailsRemotely s.outcome ↔ 0 < s.needed ∧ s.answered = 0 := by
  rcases outcome_cases s with ⟨hreturns, hnot⟩ | ⟨hfails, hcounters⟩
  · rw [hreturns]
    refine ⟨?_, fun h => absurd h hnot⟩
    rintro ⟨fault, hfault, -⟩
    cases hfault
  · exact ⟨fun _ => hcounters, fun _ => hfails⟩

/-- No server has answered in the course of a pass, and no mapping with nothing to ask for has a web
server among its sources. -/
def Exhausted (p : Profile) (sources : Sources) (force : Bool) (told : List Exchange) : Prop :=
  (∀ e ∈ told, ¬ e.IsAnswered) ∧
    ∀ i m, p.Eligible force i m → (∀ l ∈ p.locations, ¬ l.OpenIn i) →
      ∀ source ∈ sources.forMapping m, source.IsSilent

open RemotePass

theorem noMappingSucceeds_iff {p : Profile} {sources : Sources} {force : Bool}
    {parts : List (List Exchange)} :
    NoMappingSucceeds p sources force p.mappings.zipIdx parts ↔
      Exhausted p sources force parts.flatten := by
  simp only [Exhausted, ← openAddresses_eq_nil_iff]
  rw [← forall_eligible_iff (C := fun i m => p.openAddresses i = [] →
    ∀ source ∈ sources.forMapping m, source.IsSilent)]
  exact Iff.rfl

/-- How a run ends that nothing has broken off. -/
theorem RemotePass.Runs.failsRemotely_iff {p : Profile} {sources : Sources} {force : Bool}
    {parts : List (List Exchange)} {s : RemoteProgress String}
    (h : Runs p sources force (.start p) p.mappings.zipIdx parts s (.ok ())) :
    FailsRemotely s.outcome ↔
      (∃ i m, p.Eligible force i m) ∧ Exhausted p sources force parts.flatten := by
  obtain ⟨-, -, hnone, hunsuccessful⟩ := h.counters rfl
  have hneeded : 0 < s.needed ↔ ∃ i m, p.Eligible force i m := by
    have hstart : s.needed = 0 ↔ ∀ i m, p.Eligible force i m → False :=
      hnone.trans (forall_eligible_iff (C := fun _ _ => False))
    rw [Nat.pos_iff_ne_zero, ne_eq, hstart]
    simp
  have hanswered : s.answered = 0 ↔ Exhausted p sources force parts.flatten :=
    hunsuccessful.trans noMappingSucceeds_iff
  rw [failsRemotely_outcome_iff, hneeded, hanswered]

/-- With servers that are to blame for every failure, and sources whose URLs can be had, nothing
breaks a pass off, so that it is accounted for up to its end. -/
theorem runs_of_blamesServers {post : Poster ω} (hpost : post.BlamesServers) {sources : Sources}
    (hsources : ∀ entry ∈ sources, ∀ source ∈ entry.2, source.HasSymbolUrl) (force : Bool)
    (p : Profile) (env : Env ω) :
    let run := p.symbolizeRemotely post.transcribed sources force (env.watchedFrom [])
    p.symbolizeRemotely post sources force env = (run.1, run.2.plain) ∧
    ∃ parts s, run.2.world.seen = parts.flatten ∧ run.1 = (s.profile, s.outcome) ∧
      Runs p sources force (.start p) p.mappings.zipIdx parts s (.ok ()) := by
  intro run
  have hplain := post.mirrors_transcribed.symbolizeRemotely sources force p (env.watchedFrom [])
  obtain ⟨parts, s, ended, hended, hseen, hresult, -, hruns⟩ :=
    runs_symbolizeRemotely post sources force p env
  have hok : ended = .ok () := by
    have hgives := gives_ok_runEach hpost.transcribed hsources force (.start p) p.mappings.zipIdx
      (env.watchedFrom [])
    rwa [hended] at hgives
  subst hok
  exact ⟨hplain, parts, s, hseen, hresult, hruns⟩

/-- A remote pass fails exactly if there are mappings that count and the sources are exhausted. If
every mapping that counts has something to ask for, this is to say that there is something to ask
for and no server has answered. -/
theorem fails_symbolizeRemotely_iff {post : Poster ω} (hpost : post.BlamesServers)
    {sources : Sources}
    (hsources : ∀ entry ∈ sources, ∀ source ∈ entry.2, source.HasSymbolUrl) (force : Bool)
    (p : Profile) (env : Env ω) :
    let run := p.symbolizeRemotely post.transcribed sources force (env.watchedFrom [])
    p.symbolizeRemotely post sources force env = (run.1, run.2.plain) ∧
    (run.1.2 = .ok () ∨ FailsRemotely run.1.2) ∧
    (FailsRemotely run.1.2 ↔
      (∃ i m, p.Eligible force i m) ∧ Exhausted p sources force run.2.world.seen) ∧
    ((∀ i m, p.Eligible force i m → ∃ l ∈ p.locations, l.OpenIn i) →
      (FailsRemotely run.1.2 ↔
        (∃ i m, p.Eligible force i m ∧ ∃ l ∈ p.locations, l.OpenIn i) ∧
        ∀ e ∈ run.2.world.seen, ¬ e.IsAnswered)) := by
  intro run
  obtain ⟨hplain, parts, s, hseen, hresult, hruns⟩ :=
    runs_of_blamesServers hpost hsources force p env
  have hrun : run.1.2 = s.outcome := congrArg Prod.snd hresult
  have hiff := hruns.failsRemotely_iff
  rw [← hrun, ← hseen] at hiff
  refine ⟨hplain, ?_, hiff, ?_⟩
  · rw [hrun]
    exact (outcome_cases s).imp And.left And.left
  · intro hopen
    rw [hiff]
    constructor
    · rintro ⟨⟨i, m, heligible⟩, hnot, -⟩
      exact ⟨⟨i, m, heligible, hopen i m heligible⟩, hnot⟩
    · rintro ⟨⟨i, m, heligible, -⟩, hnot⟩
      refine ⟨⟨i, m, heligible⟩, hnot, ?_⟩
      intro i m heligible hidle
      obtain ⟨l, hl, hlopen⟩ := hopen i m heligible
      exact absurd hlopen (hidle l hl)

/-- A server that never answers. -/
def downServer : Poster Unit := fun _ _ =>
  throw (.remote "server down")

theorem blamesServers_downServer : downServer.BlamesServers := by
  intro url payload env fault hfault
  cases hfault
  rfl

/-- Two binaries, of which the first one is known and the second one is not. -/
def oneKnown : Profile where
  mappings :=
    [{ id := 1, start := 0x1000, limit := 0x2000, file := "/bin/a", buildId := "" },
      { id := 2, start := 0x3000, limit := 0x4000, file := "/bin/b", buildId := "" }]
  functions := [{ id := 1, name := "known", systemName := "known", filename := "a.c" }]
  locations :=
    [{ id := 1, address := 0x1010, mapping := some 0, lines := [{ function := 0, line := 7 }] },
      { id := 2, address := 0x3010, mapping := some 1 }]

/-- The server as a source of one binary or of both. -/
def serverOf (files : List String) : Sources :=
  files.map (·, [⟨some "http://host", 0x1000⟩])

/-- Nothing of the second binary is known, and with the server as its source the pass fails. -/
theorem fails_symbolizeRemotely_oneKnown :
    downServer.BlamesServers ∧
    (∀ entry ∈ serverOf ["/bin/b"], ∀ source ∈ entry.2, source.HasSymbolUrl) ∧
    FailsRemotely (oneKnown.symbolizeRemotely downServer.transcribed (serverOf ["/bin/b"]) false
      (Env.watchedFrom [] { world := () })).1.2 ∧
    ∃ i m, oneKnown.Eligible false i m := by
  have hsources : ∀ entry ∈ serverOf ["/bin/b"], ∀ source ∈ entry.2, source.HasSymbolUrl := by
    decide +kernel
  have hfails : FailsRemotely (oneKnown.symbolizeRemotely downServer.transcribed
      (serverOf ["/bin/b"]) false (Env.watchedFrom [] { world := () })).1.2 := by decide +kernel
  obtain ⟨-, -, hiff, -⟩ := fails_symbolizeRemotely_iff blamesServers_downServer hsources false
    oneKnown { world := () }
  exact ⟨blamesServers_downServer, hsources, hfails, (hiff.mp hfails).1⟩

/-- With the server as a source of both binaries the same failure goes unnoticed: the pass returns,
though there was something to ask for and nothing has been answered. -/
theorem returns_oneKnown :
    ¬ ∀ (post : Poster Unit) (sources : Sources) (force : Bool) (p : Profile) (env : Env Unit),
      post.BlamesServers →
      (∀ entry ∈ sources, ∀ source ∈ entry.2, source.HasSymbolUrl) →
      let run := p.symbolizeRemotely post.transcribed sources force (env.watchedFrom [])
      (FailsRemotely run.1.2 ↔
        (∃ i m, p.Eligible force i m ∧ ∃ l ∈ p.locations, l.OpenIn i) ∧
        ∀ e ∈ run.2.world.seen, ¬ e.IsAnswered) := by
  intro h
  have hiff := h downServer (serverOf ["/bin/a", "/bin/b"]) false oneKnown { world := () }
    blamesServers_downServer (by decide +kernel)
  have hopen : ∃ i m, oneKnown.Eligible false i m ∧ ∃ l ∈ oneKnown.locations, l.OpenIn i :=
    ⟨1, _, ⟨rfl, .inr rfl, by decide, _, List.mem_cons_of_mem _ List.mem_cons_self, rfl⟩,
      _, List.mem_cons_of_mem _ List.mem_cons_self, rfl, by decide, rfl⟩
  have hfails := hiff.mpr ⟨hopen, by decide +kernel⟩
  revert hfails
  decide +kernel

end Symbolication
