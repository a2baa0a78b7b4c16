import Symbolication.Proofs.Remote.Requests

/-!
# Symbolication.Proofs.Remote.Servers

The table in which every symbol server is a source of every mapping.  A server is
entered once for each mapping, with the start of that mapping, but under the file:
mappings of one file share an entry, and each of them finds the starts of all.

* `get_ofServers` — what the table holds under a file;
* `candidates_start_iff` — a mapping finds its own start only, exactly if
  the mappings of its file agree on it (or there are no servers); what is asked of
  the servers is then unshifted.
-/

namespace Symbolication

namespace SourcesOf

/-! ## the table -/

theorem get_cons (entry : String × List Source) (rest : Sources) (label : String) :
    get (entry :: rest : Sources) label = if entry.1 = label then entry.2 else get rest label := by
  by_cases h : entry.1 = label
  · simp [get, Label.sameKey, h]
  · simp [get, Label.sameKey, h]

/-- Further sources for a label are found behind those it had; other labels keep theirs. -/
theorem get_extend (sources : Sources) (label other : String) (more : List Source) :
    get (extend label more sources) other =
      if label = other then get sources other ++ more else get sources other := by
  induction sources with
  | nil =>
      rw [extend, get_cons]
      rfl
  | cons entry rest ih =>
      by_cases hl : entry.1 = label
      · have hext : extend label more (entry :: rest) = (entry.1, entry.2 ++ more) :: rest := by
          simp [extend, Label.sameKey, hl]
        rw [hext, get_cons, get_cons]
        subst hl
        split <;> rfl
      · have hext : extend label more (entry :: rest) = entry :: extend label more rest := by
          simp [extend, Label.sameKey, hl]
        rw [hext, get_cons, get_cons, ih]
        by_cases ho : entry.1 = other
        · have hne : label ≠ other := fun h => hl (ho.trans h.symm)
          simp only [if_pos ho, if_neg hne]
        · simp only [if_neg ho]

/-- Under a file the table holds each server once for each mapping of that file. -/
theorem get_ofServers (p : Profile) (urls : List (Option String)) (file : String) :
    get (ofServers p urls) file =
      (p.mappings.filter (·.file = file)).flatMap fun m => urls.map (⟨·, m.start⟩) := by
  have hfold : ∀ (ms : List Mapping) (sources : Sources),
      get (ms.foldl (fun sources m => extend m.file (urls.map (⟨·, m.start⟩)) sources) sources)
          file =
        get sources file ++
          (ms.filter (·.file = file)).flatMap fun m => urls.map (⟨·, m.start⟩) := by
    intro ms
    induction ms with
    | nil => simp
    | cons m ms ih =>
        intro sources
        rw [List.foldl_cons, ih, get_extend]
        by_cases h : m.file = file
        · simp [h]
        · simp [h]
  rw [ofServers, hfold]
  rfl

/-- Servers are found under the files of mappings only. -/
theorem get_ofServers_eq_nil {p : Profile} {label : String} (urls : List (Option String))
    (h : ∀ m ∈ p.mappings, m.file ≠ label) : get (ofServers p urls) label = [] := by
  rw [get_ofServers]
  have hnone : p.mappings.filter (·.file = label) = [] := by
    rw [List.filter_eq_nil_iff]
    intro m hm
    simpa using h m hm
  rw [hnone]
  rfl

end SourcesOf

open SourcesOf

variable {ω : Type}

/-! ## candidates -/

namespace ProfileOf

/-- No build id of the profile is also the name of a file of it. -/
def BuildIdsApart (p : Profile) : Prop :=
  ∀ m ∈ p.mappings, ∀ m' ∈ p.mappings, m.buildId ≠ "" → m'.file ≠ m.buildId

/-- The mappings that show the same file as `m` begin where `m` begins. -/
def StartsAgree (p : Profile) (m : Mapping) : Prop :=
  ∀ m' ∈ p.mappings, m'.file = m.file → m'.start = m.start

end ProfileOf

/-- The candidates for a mapping are those under its file. -/
theorem forMapping_ofServers {p : Profile} (hids : p.BuildIdsApart) (urls : List (Option String))
    {m : Mapping} (hm : m ∈ p.mappings) :
    (ofServers p urls).forMapping m = (ofServers p urls).get m.file := by
  unfold forMapping
  by_cases hid : m.buildId = ""
  · have hempty : Label.isEmpty m.buildId = true := by rw [hid]; rfl
    rw [if_pos hempty, List.append_nil]
  · have hempty : ¬ Label.isEmpty m.buildId = true := by
      simpa [Label.isEmpty, Label.text] using hid
    rw [if_neg hempty, get_ofServers_eq_nil urls fun m' hm' => hids m hm m' hm' hid,
      List.append_nil]

/-- A candidate has the start of a mapping of the same file. -/
theorem mem_candidates {p : Profile} (hids : p.BuildIdsApart) {urls : List (Option String)}
    {m : Mapping} (hm : m ∈ p.mappings) {source : Source} :
    source ∈ (ofServers p urls).forMapping m ↔
      source.url ∈ urls ∧ ∃ m' ∈ p.mappings, m'.file = m.file ∧ m'.start = source.start := by
  rw [forMapping_ofServers hids urls hm, get_ofServers, List.mem_flatMap]
  constructor
  · intro r
    obtain ⟨m', hm', hs⟩ := r
    obtain ⟨url, hurl, rfl⟩ := List.mem_map.mp hs
    rw [List.mem_filter] at hm'
    exact ⟨hurl, m', hm'.1, by simpa using hm'.2, rfl⟩
  · intro hw
    obtain ⟨hurl, m', hm', hfile, hstart⟩ := hw
    refine ⟨m', List.mem_filter.mpr ⟨hm', by simpa using hfile⟩, List.mem_map.mpr ?_⟩
    exact ⟨source.url, hurl, by rw [hstart]⟩

/-- The candidates for a mapping have its own start exactly if the mappings of its file agree. -/
theorem candidates_start_iff {p : Profile} (hids : p.BuildIdsApart) (urls : List (Option String))
    {m : Mapping} (hm : m ∈ p.mappings) :
    (∀ source ∈ (ofServers p urls).forMapping m, source.start = m.start) ↔
      urls = [] ∨ p.StartsAgree m := by
  constructor
  · intro h
    cases urls with
    | nil => exact .inl rfl
    | cons url urls =>
        right
        intro m' hm' hfile
        exact h ⟨url, m'.start⟩ ((mem_candidates hids hm).mpr
          ⟨List.mem_cons_self, m', hm', hfile, rfl⟩)
  · intro h source hs
    obtain ⟨hurl, m', hm', hfile, hstart⟩ := (mem_candidates hids hm).mp hs
    rcases h with rfl | h
    · exact absurd hurl List.not_mem_nil
    · rw [← hstart, h m' hm' hfile]

/-! ## what servers are asked -/

/-- A mapping that agrees with all others of its file asks for the addresses of its own unresolved
locations as they are. -/
theorem payload_of_startsAgree {p : Profile} (hids : p.BuildIdsApart) {urls : List (Option String)}
    {m : Mapping} (hm : m ∈ p.mappings) (hagree : p.StartsAgree m) {addresses : List Int}
    {r : Posted} (h : r.AsksFor addresses m ((ofServers p urls).forMapping m)) :
    r.payload = Remote.payload addresses := by
  obtain ⟨-, source, hs, -, hpayload⟩ := h
  have hstart := (candidates_start_iff hids urls hm).mpr (.inr hagree) source hs
  have hshift : ∀ a : Int, a + source.shift m = a := by
    intro a
    simp [Source.shift, hstart]
  rw [hpayload]
  simp only [hshift, List.map_id']

/-- The requests of a remote pass that has the servers as its sources fall into one part for each
mapping. A mapping has candidates with its own start only exactly if the mappings of its file agree
(or there are no servers); every request for it is shifted by the distance to a mapping of its file,
and not at all if these agree. -/
theorem requests_of_servers (p : Profile) (urls : List (Option String)) (hids : p.BuildIdsApart)
    (post : Poster ω) (force : Bool) (env : Env ω) :
    let run := p.symbolizeRemotely post.watched (ofServers p urls) force (env.watchedFrom [])
    p.symbolizeRemotely post (ofServers p urls) force env = (run.1, run.2.plain) ∧
    ∃ parts : List (List Posted), run.2.world.seen = parts.flatten ∧
      parts.length = p.mappings.length ∧
      ∀ (i : Nat) (m : Mapping) (part : List Posted), p.mappings[i]? = some m →
        parts[i]? = some part →
        ((∀ source ∈ (ofServers p urls).forMapping m, source.start = m.start) ↔
          urls = [] ∨ p.StartsAgree m) ∧
        (∀ r ∈ part, ∃ m' ∈ p.mappings, m'.file = m.file ∧
          r.payload = Remote.payload ((p.openAddresses i).map (· + (m'.start - m.start)))) ∧
        (p.StartsAgree m → ∀ r ∈ part, r.payload = Remote.payload (p.openAddresses i)) := by
  intro run
  have hplain := mirrors_symbolizeRemotely post (ofServers p urls) force p (env.watchedFrom [])
  obtain ⟨parts, hseen, hlength, hparts⟩ :=
    exists_requests_symbolizeRemotely post (ofServers p urls) force p env
  refine ⟨hplain, parts, hseen, hlength, ?_⟩
  intro i m part hm hpart
  have hmem : m ∈ p.mappings := List.mem_of_getElem? hm
  refine ⟨candidates_start_iff hids urls hmem, ?_, ?_⟩
  · intro r hr
    obtain ⟨-, source, hs, -, hpayload⟩ := hparts i m part hm hpart r hr
    obtain ⟨-, m', hm', hfile, hstart⟩ := (mem_candidates hids hmem).mp hs
    exact ⟨m', hm', hfile, by rw [hpayload, hstart, Source.shift]⟩
  · intro hagree r hr
    exact payload_of_startsAgree hids hmem hagree (hparts i m part hm hpart r hr)

/-- Two regions of one binary, with an unresolved location in each. -/
def twoRegions : Profile where
  mappings :=
    [{ id := 1, start := 0x1000, limit := 0x2000, file := "/bin/app", buildId := "" },
      { id := 2, start := 0x5000, limit := 0x6000, file := "/bin/app", buildId := "" }]
  locations :=
    [{ id := 1, address := 0x1010, mapping := some 0 },
      { id := 2, address := 0x5010, mapping := some 1 }]

theorem buildIdsApart_twoRegions : twoRegions.BuildIdsApart := by
  unfold ProfileOf.BuildIdsApart
  decide

/-- For the second region a server that never answers is asked at the right address or at the one
that the first region has there. -/
theorem requests_of_servers_twoRegions :
    twoRegions.BuildIdsApart ∧ ∃ parts : List (List Posted),
      (twoRegions.symbolizeRemotely (Poster.watched fun _ _ => throw .noServers)
        (ofServers twoRegions [some "http://host"]) false
        (Env.watchedFrom [] { world := () })).2.world.seen = parts.flatten ∧
      ∀ part, parts[1]? = some part → ∀ r ∈ part, r.payload = "0x1010" ∨ r.payload = "0x5010" := by
  refine ⟨buildIdsApart_twoRegions, ?_⟩
  obtain ⟨-, parts, hseen, -, hparts⟩ := requests_of_servers twoRegions [some "http://host"]
    buildIdsApart_twoRegions (fun _ _ => throw .noServers) false { world := () }
  refine ⟨parts, hseen, ?_⟩
  intro part hpart r hr
  obtain ⟨m', hm', -, hpayload⟩ := (hparts 1 _ part rfl hpart).2.1 r hr
  rcases List.mem_cons.mp hm' with rfl | hm'
  · left
    rw [hpayload]
    decide
  · right
    rw [hpayload, List.mem_singleton.mp hm']
    decide

/-- Not every candidate has the start of its mapping: the second region finds that of the first. -/
theorem candidates_twoRegions_shifted :
    ¬ ∀ (p : Profile) (urls : List (Option String)), p.BuildIdsApart → ∀ m ∈ p.mappings,
      ∀ source ∈ (ofServers p urls).forMapping m, source.start = m.start := by
  intro h
  have hstart := h twoRegions [some "http://host"] buildIdsApart_twoRegions
  revert hstart
  decide

end Symbolication
