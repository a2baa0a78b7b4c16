import Symbolication.Proofs.Remote.Exhaustion

/-!
# Symbolication.Proofs.Remote.Attempts

Which servers a remote pass asks and in what order, and what is left of an attempt that
fails: nothing.  The profile in the end is made of the answers alone, as if no other
request had been sent:

* `servers`, `Posted.to` — the servers among sources, and what each of them is asked;
* `Attempts` — requests one after another, up to and including the first one that is
  answered;
* `ProfileOf.withAnswers` — the profile that answers alone make;
* `RemotePass.Lists` — the payload of a request says which locations are open;
* `dealt_symbolizeRemotely` — the requests of a whole pass, and what it makes of the
  profile.
-/

namespace Symbolication

variable {ω τ : Type}

/-! ## servers -/

/-- The source with the URL at which it is asked, if it is a web server. -/
def Source.server? (source : Source) : Option (Source × String) :=
  match source.symbolUrl? with
  | .ok (some url) => some (source, url)
  | _ => none

/-- The servers among sources, in their order. -/
def servers (sources : List Source) : List (Source × String) :=
  sources.filterMap Source.server?

theorem servers_cons_of_none {source : Source} (h : source.symbolUrl? = .ok none)
    (rest : List Source) : servers (source :: rest) = servers rest :=
  List.filterMap_cons_none (by rw [Source.server?, h])

theorem servers_cons_of_some {source : Source} {url : String}
    (h : source.symbolUrl? = .ok (some url)) (rest : List Source) :
    servers (source :: rest) = (source, url) :: servers rest :=
  List.filterMap_cons_some (by rw [Source.server?, h])

/-- The request to a server about addresses in a mapping, which are shifted to where the server has
seen the mapping. -/
def Posted.to (addresses : List Int) (m : MappingOf τ) (server : Source × String) : Posted :=
  ⟨server.2, Remote.payload (addresses.map (· + server.1.shift m))⟩

/-! ## answers -/

/-- What a server has answered for a mapping. -/
structure MappingAnswers where
  /-- The position of the mapping. -/
  mapping : Nat
  /-- How far the server saw the mapping from where the profile has it. -/
  shift : Int
  /-- The answers. -/
  answers : List (Nat × String)

namespace RemoteProgress

variable [Label τ]

/-- The progress after a server has answered. -/
def takeAnswers (s : RemoteProgress τ) (a : MappingAnswers) : RemoteProgress τ :=
  (s.enter a.mapping a.shift a.answers).1.mark a.mapping

/-- The profile is the same, and so are the functions that stand ready with their ids. -/
def SameProfile (s s' : RemoteProgress τ) : Prop :=
  s.profile = s'.profile ∧ s.pool = s'.pool

omit [Label τ] in
theorem SameProfile.refl (s : RemoteProgress τ) : s.SameProfile s :=
  ⟨rfl, rfl⟩

omit [Label τ] in
theorem SameProfile.trans {s s' s'' : RemoteProgress τ} (h : s.SameProfile s')
    (h' : s'.SameProfile s'') : s.SameProfile s'' :=
  ⟨h.1.trans h'.1, h.2.trans h'.2⟩

/-- What answers make of a profile depends on nothing else. -/
theorem SameProfile.foldl_takeAnswers {s s' : RemoteProgress τ} (h : s.SameProfile s')
    (taken : List MappingAnswers) :
    (taken.foldl takeAnswers s).SameProfile (taken.foldl takeAnswers s') := by
  induction taken generalizing s s' with
  | nil => exact h
  | cons first rest ih =>
      refine ih ?_
      obtain ⟨hprofile, hpool⟩ := h
      simp only [SameProfile, takeAnswers, mark, enter, hprofile, hpool, and_self]

end RemoteProgress

/-- The profile after answers have been taken one after another, and nothing else has happened. -/
def ProfileOf.withAnswers [Label τ] (p : ProfileOf τ) (taken : List MappingAnswers) : ProfileOf τ :=
  (taken.foldl RemoteProgress.takeAnswers (.start p)).profile

/-! ## one mapping -/

/-- Servers are asked for the addresses in the mapping at a position one after another, up to and
including the first one that answers; all are asked if none does. -/
inductive Attempts (addresses : List Int) (i : Nat) (m : MappingOf τ) :
    List (Source × String) → List Exchange → Option MappingAnswers → Prop where
  /-- No server is left. -/
  | out : Attempts addresses i m [] [] none
  /-- The server answers, and the rest are not asked. -/
  | answered {server : Source × String} {rest : List (Source × String)} {body : List UInt8} :
      Attempts addresses i m (server :: rest) [⟨.to addresses m server, .ok body⟩]
        (some ⟨i, server.1.shift m, Remote.answers body⟩)
  /-- The server fails, and the next one is asked. -/
  | failed {server : Source × String} {rest : List (Source × String)} {fault : Fault}
      {told : List Exchange} {taken? : Option MappingAnswers}
      (hrest : Attempts addresses i m rest told taken?) :
      Attempts addresses i m (server :: rest)
        (⟨.to addresses m server, .error fault⟩ :: told) taken?

/-- Every attempt is one of the requests to the servers. -/
theorem Attempts.mem {addresses : List Int} {i : Nat} {m : MappingOf τ}
    {candidates : List (Source × String)} {told : List Exchange} {taken? : Option MappingAnswers}
    (h : Attempts addresses i m candidates told taken?) :
    ∀ e ∈ told, ∃ server ∈ candidates, e.toPosted = .to addresses m server := by
  induction h with
  | out => exact List.forall_mem_nil _
  | answered =>
      rw [List.forall_mem_singleton]
      exact ⟨_, List.mem_cons_self, rfl⟩
  | failed _ ih =>
      rw [List.forall_mem_cons]
      refine ⟨⟨_, List.mem_cons_self, rfl⟩, fun e he => ?_⟩
      obtain ⟨server, hserver, hposted⟩ := ih e he
      exact ⟨server, List.mem_cons_of_mem _ hserver, hposted⟩

namespace RemotePass

section

variable [Label τ] {addresses : List Int} {i : Nat} {m : MappingOf τ} {s s' : RemoteProgress τ}
  {sources : List Source} {told : List Exchange} {ended : Except Fault Unit}

/-- If there is nothing to ask, nothing is asked, and the first server counts as one that has given
an empty answer. -/
theorem Tries.of_idle (h : Tries addresses i m s sources told s' ended) (hended : ended = .ok ())
    (hopen : addresses = []) :
    told = [] ∧ RemoteProgress.SameProfile
      (((servers sources).head?.map fun server => ⟨i, server.1.shift m, []⟩).toList.foldl
        RemoteProgress.takeAnswers s) s' := by
  induction h with
  | out => exact ⟨rfl, .refl _⟩
  | flawed _ => cases hended
  | passed hurl _ ih =>
      rw [servers_cons_of_none hurl]
      exact ih hended
  | idle hurl _ =>
      rw [servers_cons_of_some hurl]
      exact ⟨rfl, .refl _⟩
  | answered _ hnot => exact absurd hopen hnot
  | failed _ hnot _ _ _ => exact absurd hopen hnot
  | broken _ hnot _ => exact absurd hopen hnot

/-- If there is something to ask, servers are asked up to the first answer, and what the others
have said comes to nothing. -/
theorem Tries.attempts (h : Tries addresses i m s sources told s' ended)
    (hended : ended = .ok ()) (hopen : addresses ≠ []) :
    ∃ taken?, Attempts addresses i m (servers sources) told taken? ∧
      RemoteProgress.SameProfile (taken?.toList.foldl RemoteProgress.takeAnswers s) s' := by
  induction h with
  | out => exact ⟨none, .out, .refl _⟩
  | flawed _ => cases hended
  | passed hurl _ ih =>
      rw [servers_cons_of_none hurl]
      exact ih hended
  | idle _ hnil => exact absurd hnil hopen
  | answered hurl _ =>
      rw [servers_cons_of_some hurl]
      exact ⟨_, .answered, .refl _⟩
  | @failed s _ _ _ _ fault _ _ hurl _ _ _ ih =>
      rw [servers_cons_of_some hurl]
      obtain ⟨taken?, hattempts, hsame⟩ := ih hended
      -- nothing but the fault has been noted
      have hnoted : s.SameProfile { s with lastFault := some fault } := ⟨rfl, rfl⟩
      exact ⟨taken?, .failed hattempts, (hnoted.foldl_takeAnswers _).trans hsame⟩
  | broken _ _ _ => cases hended

end

/-! ## all mappings -/

/-- How the mapping at a position is dealt with: the requests that are made, with their replies, and
the answers that are taken. -/
inductive Dealt (p : Profile) (sources : Sources) (force : Bool) :
    Mapping × Nat → List Exchange × Option MappingAnswers → Prop where
  /-- No names are asked for in the mapping. -/
  | spared {m : Mapping} {i : Nat} (hspared : ¬ p.Eligible force i m) :
      Dealt p sources force (m, i) ([], none)
  /-- There is nothing to ask, which counts as an empty answer of the first server. -/
  | idle {m : Mapping} {i : Nat} (heligible : p.Eligible force i m)
      (hopen : p.openAddresses i = []) :
      Dealt p sources force (m, i)
        ([], (servers (sources.forMapping m)).head?.map fun server =>
          ⟨i, server.1.shift m, []⟩)
  /-- Servers are asked, for the addresses of which nothing is known in the profile. -/
  | asked {m : Mapping} {i : Nat} {told : List Exchange} {taken? : Option MappingAnswers}
      (heligible : p.Eligible force i m) (hopen : p.openAddresses i ≠ [])
      (hattempts : Attempts (p.openAddresses i) i m (servers (sources.forMapping m)) told taken?) :
      Dealt p sources force (m, i) (told, taken?)

/-- The payload asks for the open locations in the mapping: it has one piece for each of them, in
their order, and the piece is the address at which the server has seen the location. -/
def Lists (p : Profile) (m : Mapping) (i : Nat) (source : Source) (payload : String) : Prop :=
  List.Forall₂ (fun piece l => Remote.SpellsAddress piece (l.address - m.start + source.start))
    (payload.toList.splitOn '+') (p.locations.filter (·.OpenIn i))

theorem lists_payload {p : Profile} {m : Mapping} {i : Nat} (source : Source)
    (hopen : p.openAddresses i ≠ []) :
    Lists p m i source (Remote.payload ((p.openAddresses i).map (· + source.shift m))) := by
  unfold Lists
  rw [openAddresses_eq] at hopen ⊢
  have hne : ((p.locations.filter (·.OpenIn i)).map (·.address)).map (· + source.shift m) ≠ [] := by
    simpa using hopen
  have hpieces := Remote.forall₂_payload hne
  rw [List.forall₂_map_right_iff, List.forall₂_map_right_iff] at hpieces
  refine hpieces.imp fun piece l h => ?_
  have hseen : l.address - m.start + source.start = l.address + source.shift m := by
    rw [Source.shift]
    omega
  rwa [hseen]

/-- The requests for a mapping go to its servers and ask for its open locations. -/
theorem Dealt.lists {p : Profile} {sources : Sources} {force : Bool} {entry : Mapping × Nat}
    {dealt : List Exchange × Option MappingAnswers} (h : Dealt p sources force entry dealt) :
    ∀ e ∈ dealt.1, ∃ server ∈ servers (sources.forMapping entry.1), e.url = server.2 ∧
      Lists p entry.1 entry.2 server.1 e.payload := by
  cases h with
  | spared _ => exact List.forall_mem_nil _
  | idle _ _ => exact List.forall_mem_nil _
  | asked _ hopen hattempts =>
      intro e he
      obtain ⟨server, hserver, hposted⟩ := hattempts.mem e he
      refine ⟨server, hserver, congrArg Posted.url hposted, ?_⟩
      rw [congrArg Posted.payload hposted]
      exact lists_payload server.1 hopen

/-- Mappings are dealt with one after another, and nothing but the answers goes into the profile. -/
theorem Runs.dealt {p : Profile} {sources : Sources} {force : Bool} {s s' : RemoteProgress String}
    {entries : List (Mapping × Nat)} {parts : List (List Exchange)} {ended : Except Fault Unit}
    (h : Runs p sources force s entries parts s' ended) (hended : ended = .ok ())
    (hentries : ∀ e ∈ entries, p.mappings[e.2]? = some e.1) :
    ∃ dealt, List.Forall₂ (Dealt p sources force) entries dealt ∧ parts = dealt.map (·.1) ∧
      RemoteProgress.SameProfile ((dealt.filterMap (·.2)).foldl RemoteProgress.takeAnswers s)
        s' := by
  induction h with
  | done => exact ⟨[], .nil, rfl, .refl _⟩
  | unreadable _ => cases hended
  | keyless _ _ => cases hended
  | broken _ _ => cases hended
  | @spared _ _ m i _ _ _ hneeds _ ih =>
      rw [List.forall_mem_cons] at hentries
      obtain ⟨dealt, hdealt, rfl, hsame⟩ := ih hended hentries.2
      have hspared : ¬ p.Eligible force i m := by
        rw [eligible_iff, hneeds]
        rintro ⟨-, hneeds⟩
        cases hneeds
      exact ⟨([], none) :: dealt, .cons (.spared hspared) hdealt, rfl, hsame⟩
  | @tried s _ _ m i _ told _ _ hneeds htries _ ih =>
      rw [List.forall_mem_cons] at hentries
      obtain ⟨dealt, hdealt, rfl, hsame⟩ := ih hended hentries.2
      have heligible : p.Eligible force i m := eligible_iff.mpr ⟨hentries.1, hneeds⟩
      obtain ⟨taken?, hfirst, htaken⟩ : ∃ taken?, Dealt p sources force (m, i) (told, taken?) ∧
          RemoteProgress.SameProfile (taken?.toList.foldl RemoteProgress.takeAnswers
            { s with needed := s.needed + 1 }) _ := by
        by_cases hopen : p.openAddresses i = []
        · obtain ⟨rfl, hsame⟩ := htries.of_idle rfl hopen
          exact ⟨_, .idle heligible hopen, hsame⟩
        · obtain ⟨taken?, hattempts, hsame⟩ := htries.attempts rfl hopen
          exact ⟨taken?, .asked heligible hopen hattempts, hsame⟩
      refine ⟨(told, taken?) :: dealt, .cons hfirst hdealt, rfl, ?_⟩
      have hcons : ((told, taken?) :: dealt).filterMap (·.2) =
          taken?.toList ++ dealt.filterMap (·.2) := by
        cases taken? <;> rfl
      have hneeded : s.SameProfile { s with needed := s.needed + 1 } := ⟨rfl, rfl⟩
      rw [hcons, List.foldl_append]
      exact (((hneeded.foldl_takeAnswers _).trans htaken).foldl_takeAnswers _).trans hsame

end RemotePass

open RemotePass

/-- The requests of a pass are those for its mappings in their order: for each that counts and has
something to ask for, its servers are asked up to the first answer, and what they are asked for are
the addresses of its open locations, each where the server has seen it.  In the end the profile is
what the answers alone make of it, so that an attempt that fails leaves nothing behind. -/
theorem dealt_symbolizeRemotely {post : Poster ω} (hpost : post.BlamesServers) {sources : Sources}
    (hsources : ∀ entry ∈ sources, ∀ source ∈ entry.2, source.HasSymbolUrl) (force : Bool)
    (p : Profile) (env : Env ω) :
    let run := p.symbolizeRemotely post.transcribed sources force (env.watchedFrom [])
    p.symbolizeRemotely post sources force env = (run.1, run.2.plain) ∧
    ∃ dealt, List.Forall₂ (Dealt p sources force) p.mappings.zipIdx dealt ∧
      List.Forall₂ (fun entry d => ∀ e ∈ d.1, ∃ server ∈ servers (sources.forMapping entry.1),
        e.url = server.2 ∧ Lists p entry.1 entry.2 server.1 e.payload) p.mappings.zipIdx dealt ∧
      run.2.world.seen = dealt.flatMap (·.1) ∧
      run.1.1 = p.withAnswers (dealt.filterMap (·.2)) := by
  intro run
  obtain ⟨hplain, parts, s, hseen, hresult, hruns⟩ :=
    runs_of_blamesServers hpost hsources force p env
  obtain ⟨dealt, hdealt, rfl, hsame⟩ := hruns.dealt rfl fun e he =>
    List.mem_zipIdx_iff_getElem?.mp he
  refine ⟨hplain, dealt, hdealt, hdealt.imp fun _ _ h => h.lists, ?_, ?_⟩
  · rw [hseen, List.flatMap_def]
  · rw [hresult]
    exact hsame.1.symm

/-- Of two servers the first one is down, and the second one knows a name. -/
def secondServer : Poster Unit := fun url _ =>
  if url = "http://down/symbolz" then throw (.system (.unreachable "refused"))
  else pure (Text.Utf8.encode "0x3010 main".toList)

theorem blamesServers_secondServer : secondServer.BlamesServers := by
  intro url payload env fault hfault
  unfold secondServer at hfault
  split at hfault
  · cases hfault
    rfl
  · cases hfault

/-- Both servers as sources of the second binary. -/
def twoServers : Sources :=
  [("/bin/b", [⟨some "http://down", 0x3000⟩, ⟨some "http://host", 0x3000⟩])]

/-- The pass with both servers. -/
def askBoth : Step (Watched Unit (List Exchange)) (ProfileOf String × Except Fault Unit) :=
  oneKnown.symbolizeRemotely secondServer.transcribed twoServers false

/-- Both servers are asked for the one location that is open; the new function has the id that comes
next, as if the first server had not been asked. -/
theorem dealt_symbolizeRemotely_oneKnown :
    let start : Env Unit := { world := () }
    (askBoth (start.watchedFrom [])).2.world.seen.map (fun e => (e.url, e.payload)) =
      [("http://down/symbolz", "0x3010"), ("http://host/symbolz", "0x3010")] ∧
    (askBoth (start.watchedFrom [])).1.1.functions.map (fun fn => (fn.id, fn.name)) =
      [(1, "known"), (2, "main")] ∧
    ∃ dealt, List.Forall₂ (Dealt oneKnown twoServers false) oneKnown.mappings.zipIdx dealt ∧
      List.Forall₂ (fun entry d => ∀ e ∈ d.1, ∃ server ∈ servers (twoServers.forMapping entry.1),
        e.url = server.2 ∧ Lists oneKnown entry.1 entry.2 server.1 e.payload)
        oneKnown.mappings.zipIdx dealt ∧
      (askBoth (start.watchedFrom [])).2.world.seen = dealt.flatMap (·.1) ∧
      (askBoth (start.watchedFrom [])).1.1 = oneKnown.withAnswers (dealt.filterMap (·.2)) := by
  intro start
  have hsources : ∀ entry ∈ twoServers, ∀ source ∈ entry.2, source.HasSymbolUrl := by
    decide +kernel
  unfold askBoth
  refine ⟨by decide +kernel, by decide +kernel, ?_⟩
  obtain ⟨-, hdealt⟩ := dealt_symbolizeRemotely blamesServers_secondServer hsources false oneKnown
    start
  exact hdealt

end Symbolication
