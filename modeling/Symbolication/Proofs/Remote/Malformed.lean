import Symbolication.Proofs.Remote.Attempts
import Symbolication.Proofs.Url.Refusal

/-!
# Symbolication.Proofs.Remote.Malformed

Sources of a remote pass that are no servers.  A source that is found to be no web server is
passed over, and the pass is the same without it.  A source whose URL is refused brings the
pass to its end once the pass comes to it, which it does if the servers before it have been
asked in vain; neither the sources behind it nor the mappings behind are dealt with:

* `SourcesOf.withoutSilent` — the sources without those that are passed over;
* `Halts` — what brings a pass to its end at a mapping;
* `halts_symbolizeRemotely_iff` — sources that are passed over do not matter, and how a pass
  ends that is broken off.
-/

namespace Symbolication

variable {ω τ : Type}

/-! ## sources that are passed over -/

instance : DecidablePred Source.IsSilent := fun source =>
  match h : source.symbolUrl? with
  | .ok none => isTrue h
  | .ok (some _) => isFalse fun hsilent => by rw [Source.IsSilent, h] at hsilent; cases hsilent
  | .error _ => isFalse fun hsilent => by rw [Source.IsSilent, h] at hsilent; cases hsilent

namespace SourcesOf

/-- The sources without those that are found to be no web servers. -/
def withoutSilent (sources : SourcesOf τ) : SourcesOf τ :=
  sources.map fun entry => (entry.1, entry.2.filter (¬ ·.IsSilent))

variable [Label τ]

theorem get_withoutSilent (sources : SourcesOf τ) (label : τ) :
    sources.withoutSilent.get label = (sources.get label).filter (¬ ·.IsSilent) := by
  simp only [get, withoutSilent, List.find?_map, Function.comp_def, Option.map_map]
  cases sources.find? fun entry => Label.sameKey entry.1 label <;> rfl

theorem forMapping_withoutSilent (sources : SourcesOf τ) (m : MappingOf τ) :
    sources.withoutSilent.forMapping m = (sources.forMapping m).filter (¬ ·.IsSilent) := by
  simp only [forMapping, List.filter_append, get_withoutSilent]
  split <;> rfl

end SourcesOf

namespace RemotePass

variable [Label τ]

theorem tryEach_withoutSilent (post : Poster ω) (i : Nat) (m : MappingOf τ) (s : RemoteProgress τ)
    (sources : List Source) :
    tryEach post i m s (sources.filter (¬ ·.IsSilent)) = tryEach post i m s sources := by
  induction sources generalizing s with
  | nil => rfl
  | cons source rest ih =>
      cases hurl : source.symbolUrl? with
      | error fault =>
          have hkept : ¬ source.IsSilent := by simp [Source.IsSilent, hurl]
          rw [List.filter_cons_of_pos (by simpa using hkept)]
          simp only [tryEach, hurl]
      | ok url? =>
          cases url? with
          | none =>
              have hsilent : source.IsSilent := hurl
              rw [List.filter_cons_of_neg (by simpa using hsilent), ih]
              simp only [tryEach, hurl]
          | some url =>
              have hkept : ¬ source.IsSilent := by simp [Source.IsSilent, hurl]
              rw [List.filter_cons_of_pos (by simpa using hkept)]
              simp only [tryEach, hurl, ih]

theorem runEach_withoutSilent (post : Poster ω) (sources : SourcesOf τ) (force : Bool)
    (s : RemoteProgress τ) (entries : List (MappingOf τ × Nat)) :
    runEach post sources.withoutSilent force s entries = runEach post sources force s entries := by
  induction entries generalizing s with
  | nil => rfl
  | cons entry rest ih =>
      simp only [runEach, SourcesOf.forMapping_withoutSilent, tryEach_withoutSilent, ih]

end RemotePass

/-- A pass is the same without the sources that are found to be no web servers. -/
theorem symbolizeRemotely_withoutSilent [Label τ] (post : Poster ω) (sources : SourcesOf τ)
    (force : Bool) (p : ProfileOf τ) :
    p.symbolizeRemotely post sources.withoutSilent force =
      p.symbolizeRemotely post sources force := by
  simp only [ProfileOf.symbolizeRemotely, RemotePass.runEach_withoutSilent]

/-! ## sources that are refused -/

/-- The exchange failed in a way that its server is not to blame for. -/
def Exchange.Breaks (e : Exchange) (fault : Fault) : Prop :=
  e.reply = .error fault ∧ (fault.isRemote || fault.isSystem) = false

/-- All servers have been asked, if there are any, and are to blame for not answering. -/
inductive InVain (addresses : List Int) (m : MappingOf τ) :
    List (Source × String) → List Exchange → Prop where
  /-- There are no servers. -/
  | none : InVain addresses m [] []
  /-- The first server fails, and so do the others. -/
  | failed {server : Source × String} {rest : List (Source × String)} {fault : Fault}
      {told : List Exchange} (hopen : addresses ≠ [])
      (hblame : (fault.isRemote || fault.isSystem) = true) (hrest : InVain addresses m rest told) :
      InVain addresses m (server :: rest) (⟨.to addresses m server, .error fault⟩ :: told)

/-- What brings a pass to its end while sources are tried. -/
inductive Halts (addresses : List Int) (m : MappingOf τ) (sources : List Source)
    (told : List Exchange) (fault : Fault) : Prop where
  /-- A source is refused, and the servers before it have been asked in vain. -/
  | malformed (before : List Source) (source : Source) (after : List Source)
      (hsources : sources = before ++ source :: after) (hbefore : ∀ s ∈ before, s.HasSymbolUrl)
      (hfault : source.symbolUrl? = .error fault)
      (hvain : InVain addresses m (servers before) told) : Halts addresses m sources told fault
  /-- A request has failed in a way that no server is to blame for. -/
  | broken (e : Exchange) (he : e ∈ told) (hbreaks : e.Breaks fault) :
      Halts addresses m sources told fault

section

variable {addresses : List Int} {m : MappingOf τ} {source : Source} {rest : List Source}
  {told : List Exchange} {fault : Fault}

/-- What halts sources is the first of them, or it is behind that one, or it is a request. -/
theorem Halts.cons_cases (h : Halts addresses m (source :: rest) told fault) :
    (source.symbolUrl? = .error fault ∧ told = []) ∨
      (source.symbolUrl? = .ok none ∧ Halts addresses m rest told fault) ∨
      (∃ url failure later, source.symbolUrl? = .ok (some url) ∧
        (failure.isRemote || failure.isSystem) = true ∧
        told = ⟨.to addresses m (source, url), .error failure⟩ :: later ∧
        Halts addresses m rest later fault) ∨
      ∃ e ∈ told, e.Breaks fault := by
  obtain ⟨before, source', after, hsources, hbefore, hfault, hvain⟩ | ⟨e, he, hbreaks⟩ := h
  · cases before with
    | nil =>
        obtain ⟨rfl, -⟩ := List.cons.inj hsources
        cases hvain
        exact .inl ⟨hfault, rfl⟩
    | cons first before =>
        obtain ⟨rfl, rfl⟩ := List.cons.inj hsources
        obtain ⟨⟨url?, hurl⟩, hbefore⟩ := List.forall_mem_cons.mp hbefore
        cases url? with
        | none =>
            rw [servers_cons_of_none hurl] at hvain
            exact .inr (.inl ⟨hurl, .malformed before source' after rfl hbefore hfault hvain⟩)
        | some url =>
            rw [servers_cons_of_some hurl] at hvain
            cases hvain with
            | failed _ hblame hrest =>
                exact .inr (.inr (.inl ⟨url, _, _, hurl, hblame, rfl,
                  .malformed before source' after rfl hbefore hfault hrest⟩))
  · exact .inr (.inr (.inr ⟨e, he, hbreaks⟩))

theorem halts_cons_of_error {flaw : Fault} (hurl : source.symbolUrl? = .error flaw) :
    Halts addresses m (source :: rest) [] fault ↔ fault = flaw := by
  constructor
  · intro h
    obtain ⟨hfault, -⟩ | ⟨hnone, -⟩ | ⟨url, failure, later, hsome, -⟩ | ⟨e, he, -⟩ := h.cons_cases
    · exact Except.error.inj (hfault.symm.trans hurl)
    · cases hurl.symm.trans hnone
    · cases hurl.symm.trans hsome
    · cases he
  · rintro rfl
    exact .malformed [] source rest rfl (List.forall_mem_nil _) hurl .none

theorem halts_cons_of_none (hurl : source.symbolUrl? = .ok none) :
    Halts addresses m (source :: rest) told fault ↔ Halts addresses m rest told fault := by
  constructor
  · intro h
    obtain ⟨hfault, -⟩ | ⟨-, hrest⟩ | ⟨url, failure, later, hsome, -⟩ | ⟨e, he, hbreaks⟩ :=
      h.cons_cases
    · cases hurl.symm.trans hfault
    · exact hrest
    · cases hurl.symm.trans hsome
    · exact .broken e he hbreaks
  · rintro (⟨before, source', after, rfl, hbefore, hfault, hvain⟩ | ⟨e, he, hbreaks⟩)
    · refine .malformed (source :: before) source' after rfl
        (List.forall_mem_cons.mpr ⟨⟨_, hurl⟩, hbefore⟩) hfault ?_
      rw [servers_cons_of_none hurl]
      exact hvain
    · exact .broken e he hbreaks

section

variable {url : String}

/-- A server that answers, or with which there is nothing to ask, is no reason to come to an end. -/
theorem not_halts_cons_of_some (hurl : source.symbolUrl? = .ok (some url))
    (htold : ∀ e ∈ told, ∃ body, e.reply = .ok body) :
    ¬ Halts addresses m (source :: rest) told fault := by
  intro h
  obtain ⟨hfault, -⟩ | ⟨hnone, -⟩ | ⟨url, failure, later, -, -, rfl, -⟩ | ⟨e, he, hreply, -⟩ :=
    h.cons_cases
  · cases hurl.symm.trans hfault
  · cases hurl.symm.trans hnone
  · obtain ⟨body, hreply⟩ := htold _ List.mem_cons_self
    cases hreply
  · obtain ⟨body, hbody⟩ := htold e he
    cases hreply.symm.trans hbody

/-- A server that fails is left behind. -/
theorem halts_cons_of_failed (hurl : source.symbolUrl? = .ok (some url)) (hopen : addresses ≠ [])
    {failure : Fault} (hblame : (failure.isRemote || failure.isSystem) = true) :
    Halts addresses m (source :: rest)
      (⟨.to addresses m (source, url), .error failure⟩ :: told) fault ↔
        Halts addresses m rest told fault := by
  constructor
  · intro h
    obtain ⟨hfault, -⟩ | ⟨hnone, -⟩ | ⟨_, _, later, -, -, htold, hrest⟩ | ⟨e, he, hbreaks⟩ :=
      h.cons_cases
    · cases hurl.symm.trans hfault
    · cases hurl.symm.trans hnone
    · obtain ⟨-, rfl⟩ := List.cons.inj htold
      exact hrest
    · obtain rfl | he := List.mem_cons.mp he
      · obtain ⟨hreply, hnot⟩ := hbreaks
        cases hreply
        rw [hblame] at hnot
        cases hnot
      · exact .broken e he hbreaks
  · rintro (⟨before, source', after, rfl, hbefore, hfault, hvain⟩ | ⟨e, he, hbreaks⟩)
    · refine .malformed (source :: before) source' after rfl
        (List.forall_mem_cons.mpr ⟨⟨_, hurl⟩, hbefore⟩) hfault ?_
      rw [servers_cons_of_some hurl]
      exact .failed hopen hblame hvain
    · exact .broken e (List.mem_cons_of_mem _ he) hbreaks

/-- A request that breaks the pass off is the last one, and no source behind it is come to. -/
theorem halts_cons_of_broken (hurl : source.symbolUrl? = .ok (some url)) {failure : Fault}
    (hblame : ¬ (failure.isRemote || failure.isSystem) = true) :
    Halts addresses m (source :: rest) [⟨.to addresses m (source, url), .error failure⟩] fault ↔
      fault = failure := by
  constructor
  · intro h
    obtain ⟨hfault, -⟩ | ⟨hnone, -⟩ | ⟨_, _, _, -, hremote, htold, -⟩ | ⟨e, he, hbreaks⟩ :=
      h.cons_cases
    · cases hurl.symm.trans hfault
    · cases hurl.symm.trans hnone
    · cases htold
      exact absurd hremote hblame
    · rw [List.mem_singleton.mp he] at hbreaks
      exact (Except.error.inj hbreaks.1).symm
  · rintro rfl
    exact .broken _ List.mem_cons_self ⟨rfl, Bool.eq_false_iff.mpr hblame⟩

end

/-- Trying sources ends with a fault exactly if something halts it. -/
theorem RemotePass.Tries.halts_iff [Label τ] {i : Nat} {s s' : RemoteProgress τ}
    {sources : List Source} {ended : Except Fault Unit}
    (h : Tries addresses i m s sources told s' ended) :
    ended = .error fault ↔ Halts addresses m sources told fault := by
  induction h with
  | out =>
      refine ⟨nofun, ?_⟩
      rintro (⟨before, source, after, hsources, -, -, -⟩ | ⟨e, he, -⟩)
      · simp at hsources
      · cases he
  | flawed hurl =>
      rw [halts_cons_of_error hurl, Except.error.injEq]
      exact eq_comm
  | passed hurl _ ih => rw [halts_cons_of_none hurl, ih]
  | idle hurl hopen =>
      exact ⟨nofun, fun h => absurd h (not_halts_cons_of_some hurl (List.forall_mem_nil _))⟩
  | answered hurl hopen =>
      refine ⟨nofun, fun h => absurd h (not_halts_cons_of_some hurl fun e he => ?_)⟩
      rw [List.mem_singleton.mp he]
      exact ⟨_, rfl⟩
  | failed hurl hopen hblame _ ih =>
      exact ih.trans (halts_cons_of_failed hurl hopen hblame).symm
  | broken hurl hopen hblame =>
      rw [Except.error.injEq]
      exact eq_comm.trans (halts_cons_of_broken hurl hblame).symm

end

/-! ## all mappings -/

/-- What brings a pass to its end at a mapping that names are asked for in. -/
def HaltsAt (p : Profile) (sources : Sources) (force : Bool) (fault : Fault)
    (x : (Mapping × Nat) × List Exchange) : Prop :=
  p.Eligible force x.1.2 x.1.1 ∧
    Halts (p.openAddresses x.1.2) x.1.1 (sources.forMapping x.1.1) x.2 fault

/-- The first mapping that brings a pass to its end does so with the fault, and there are no
exchanges for the mappings behind it. -/
def HaltsFirst (p : Profile) (sources : Sources) (force : Bool) (fault : Fault)
    (dealt : List ((Mapping × Nat) × List Exchange)) : Prop :=
  ∃ earlier x later, dealt = earlier ++ x :: later ∧
    (∀ y ∈ earlier, ∀ other, ¬ HaltsAt p sources force other y) ∧
    HaltsAt p sources force fault x ∧ ∀ y ∈ later, y.2 = []

section

variable {p : Profile} {sources : Sources} {force : Bool} {fault : Fault}
  {x : (Mapping × Nat) × List Exchange} {dealt : List ((Mapping × Nat) × List Exchange)}

theorem haltsFirst_cons_of_not (h : ∀ other, ¬ HaltsAt p sources force other x) :
    HaltsFirst p sources force fault (x :: dealt) ↔ HaltsFirst p sources force fault dealt := by
  constructor
  · rintro ⟨earlier, y, later, hsplit, hearlier, hy, hlater⟩
    cases earlier with
    | nil =>
        obtain ⟨rfl, -⟩ := List.cons.inj hsplit
        exact absurd hy (h fault)
    | cons _ earlier =>
        obtain ⟨rfl, rfl⟩ := List.cons.inj hsplit
        exact ⟨earlier, y, later, rfl, (List.forall_mem_cons.mp hearlier).2, hy, hlater⟩
  · rintro ⟨earlier, y, later, rfl, hearlier, hy, hlater⟩
    exact ⟨x :: earlier, y, later, rfl, List.forall_mem_cons.mpr ⟨h, hearlier⟩, hy, hlater⟩

theorem haltsFirst_cons_of_haltsAt {other : Fault} (h : HaltsAt p sources force other x)
    (hlater : ∀ y ∈ dealt, y.2 = []) :
    HaltsFirst p sources force fault (x :: dealt) ↔ HaltsAt p sources force fault x := by
  constructor
  · rintro ⟨earlier, y, later, hsplit, hearlier, hy, -⟩
    cases earlier with
    | nil =>
        obtain ⟨rfl, -⟩ := List.cons.inj hsplit
        exact hy
    | cons _ earlier =>
        obtain ⟨rfl, -⟩ := List.cons.inj hsplit
        exact absurd h (hearlier _ List.mem_cons_self other)
  · exact fun hx => ⟨[], x, dealt, rfl, List.forall_mem_nil _, hx, hlater⟩

/-- Dealing with mappings ends with a fault exactly if one of them halts it. -/
theorem RemotePass.Runs.halts_iff {s s' : RemoteProgress String} {entries : List (Mapping × Nat)}
    {parts : List (List Exchange)} {ended : Except Fault Unit}
    (h : Runs p sources force s entries parts s' ended)
    (hentries : ∀ e ∈ entries, p.mappings[e.2]? = some e.1) :
    ended = .error fault ↔ HaltsFirst p sources force fault (entries.zip parts) := by
  have heligible {m : Mapping} {i : Nat} {rest : List (Mapping × Nat)}
      (hentries : ∀ e ∈ (m, i) :: rest, p.mappings[e.2]? = some e.1) :
      p.Eligible force i m ↔ p.needsNames force i m = .ok true := by
    rw [eligible_iff, and_iff_right (hentries _ List.mem_cons_self)]
  induction h with
  | done =>
      refine ⟨nofun, ?_⟩
      rintro ⟨earlier, x, later, hsplit, -⟩
      simp at hsplit
  | unreadable hneeds =>
      rw [needsNames_text] at hneeds
      cases hneeds
  | keyless _ hkey => cases hkey
  | spared hneeds _ ih =>
      refine (ih (List.forall_mem_cons.mp hentries).2).trans (haltsFirst_cons_of_not ?_).symm
      rintro other ⟨hat, -⟩
      rw [heligible hentries, hneeds] at hat
      cases hat
  | tried _ htries _ ih =>
      refine (ih (List.forall_mem_cons.mp hentries).2).trans (haltsFirst_cons_of_not ?_).symm
      rintro other ⟨-, hhalts⟩
      cases htries.halts_iff.mpr hhalts
  | @broken _ _ m i rest told failure hneeds htries =>
      have hat : HaltsAt p sources force failure ((m, i), told) :=
        ⟨(heligible hentries).mpr hneeds, htries.halts_iff.mp rfl⟩
      rw [List.zip_cons_cons, haltsFirst_cons_of_haltsAt hat fun y => eq_nil_of_mem_zip]
      rw [htries.halts_iff]
      exact ⟨fun hhalts => ⟨hat.1, hhalts⟩, fun hhalts => hhalts.2⟩

end

/-! ## the pass -/

/-- Servers have no part in the fault of a source that is refused. -/
theorem isRemote_of_symbolUrl? {source : Source} {fault : Fault}
    (h : source.symbolUrl? = .error fault) : fault.isRemote = false := by
  unfold Source.symbolUrl? at h
  split at h
  · rename_i url _
    cases hurl : Url.symbolUrl? url with
    | ok _ =>
        rw [hurl] at h
        cases h
    | error flaw =>
        rw [hurl] at h
        cases h
        rfl
  · cases h
    rfl

theorem Halts.isRemote_eq_false {addresses : List Int} {m : MappingOf τ} {sources : List Source}
    {told : List Exchange} {fault : Fault} (h : Halts addresses m sources told fault) :
    fault.isRemote = false := by
  obtain ⟨_, _, _, -, -, hfault, -⟩ | ⟨_, -, -, hblame⟩ := h
  · exact isRemote_of_symbolUrl? hfault
  · exact (Bool.or_eq_false_iff.mp hblame).1

open RemotePass

/-- A source is refused exactly if its authority is not proper, and passed over exactly if it is
accepted and no web server.  A pass is the same without the sources that are passed over; it is
broken off exactly if some mapping halts it, because the pass comes to a source there that is
refused, or because of a request that fails in a way that no server is to blame for. -/
theorem halts_symbolizeRemotely_iff (post : Poster ω) (sources : Sources) (force : Bool)
    (p : Profile) (env : Env ω) :
    let run := p.symbolizeRemotely post.transcribed sources force (env.watchedFrom [])
    p.symbolizeRemotely post sources force env = (run.1, run.2.plain) ∧
    (∀ source : String, let u := Url.partsOf source.toList
      ((∃ url?, Url.symbolUrl? source = .ok url?) ↔ Url.IsProper u.authority) ∧
      (Url.symbolUrl? source = .ok none ↔ Url.IsProper u.authority ∧
        ¬ ((u.scheme = "http".toList ∨ u.scheme = "https".toList) ∧ u.authority ≠ []))) ∧
    p.symbolizeRemotely post sources.withoutSilent force =
      p.symbolizeRemotely post sources force ∧
    ∃ parts : List (List Exchange), run.2.world.seen = parts.flatten ∧
      parts.length = p.mappings.length ∧
      ∀ fault, run.1.2 = .error fault ∧ fault.isRemote = false ↔
        HaltsFirst p sources force fault (p.mappings.zipIdx.zip parts) := by
  intro run
  have hplain := post.mirrors_transcribed.symbolizeRemotely sources force p (env.watchedFrom [])
  obtain ⟨parts, s, ended, -, hseen, hresult, -, hruns⟩ :=
    runs_symbolizeRemotely post sources force p env
  refine ⟨hplain, fun source => ⟨?_, ?_⟩, symbolizeRemotely_withoutSilent post sources force p,
    parts, hseen, ?_, fun fault => ?_⟩
  · simp [Url.symbolUrl?_eq_ok_iff]
  · rw [Url.symbolUrl?_eq_ok_iff, ← Url.isWeb_iff]
    split <;> simp_all
  · rw [hruns.length_eq, List.length_zipIdx]
  · have hhalts : ended = .error fault ↔
        HaltsFirst p sources force fault (p.mappings.zipIdx.zip parts) :=
      hruns.halts_iff fun e he => List.mem_zipIdx_iff_getElem?.mp he
    rw [← hhalts]
    have hrun : run.1.2 = ended.bind fun _ => s.outcome := congrArg Prod.snd hresult
    rw [hrun]
    cases ended with
    | error failure =>
        have hsame : (Except.error failure : Except Fault Unit).bind (fun _ => s.outcome) =
          .error failure := rfl
        rw [hsame, Except.error.injEq]
        refine ⟨And.left, fun h => ⟨h, ?_⟩⟩
        obtain ⟨_, _, _, -, -, ⟨-, hat⟩, -⟩ := hhalts.mp (congrArg _ h)
        exact hat.isRemote_eq_false
    | ok _ =>
        refine ⟨?_, nofun⟩
        rintro ⟨hfault, hremote⟩
        obtain ⟨hok, -⟩ | ⟨⟨failure, hfailure, hfails⟩, -⟩ := outcome_cases s
        · rw [hok] at hfault
          cases hfault
        · rw [hfailure] at hfault
          cases hfault
          rw [hfails] at hremote
          cases hremote

/-- A server whose host has an opening bracket without its counterpart, in front of a proper one. -/
def unclosedServer : Sources :=
  [("/bin/b", [⟨some "http://[::1", 0x3000⟩, ⟨some "http://host", 0x3000⟩])]

/-- The URL with the bracket is refused, so that a pass over a profile with one unknown mapping is
broken off, and the proper server behind it is never asked. -/
theorem halts_unclosedServer :
    (¬ ∀ source : String, ∃ url?, Url.symbolUrl? source = .ok url?) ∧
    let run := oneKnown.symbolizeRemotely secondServer.transcribed unclosedServer false
      (Env.watchedFrom [] { world := () })
    run.1.2 = .error (.url .misplacedBracket) ∧ run.2.world.seen = [] := by
  refine ⟨fun h => ?_, rfl, rfl⟩
  obtain ⟨url?, hurl⟩ := h "http://[::1"
  have hrefused : Url.symbolUrl? "http://[::1" = .error .misplacedBracket := rfl
  rw [hrefused] at hurl
  cases hurl

end Symbolication
