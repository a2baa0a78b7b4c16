import Symbolication.Proofs.Remote.Naming

/-!
# Symbolication.Proofs.Remote.Resolution

The profile behind a remote pass, said without the pass: what servers were asked, and
what their answers made of the locations.  The pass undoes its own shift of addresses.
It asks only for locations that nothing is known of, but it enters an answer for every
location at the address, asked for or not:

* `ProfileOf.NamedBy` — the profile in terms of the exchanges;
* `named_symbolizeRemotely` — a pass leads to it;
* `changed_symbolizeRemotely` — which locations change, and when these are only
  locations that were asked for.
-/

namespace Symbolication

open Text

variable {ω τ : Type}

/-- Nothing is known of the location, which lies in the mapping at a position. -/
def Location.OpenIn (i : Nat) (l : Location) : Prop :=
  l.mapping = some i ∧ l.address ≠ 0 ∧ l.lines = []

instance Location.decidableOpenIn (i : Nat) (l : Location) : Decidable (l.OpenIn i) :=
  inferInstanceAs (Decidable (_ ∧ _ ∧ _))

/-- The open addresses are those of the open locations, in their order. -/
theorem openAddresses_eq (p : ProfileOf τ) (i : Nat) :
    p.openAddresses i = (p.locations.filter (·.OpenIn i)).map (·.address) := by
  refine congrArg _ (List.filter_congr fun l _ => ?_)
  rw [Bool.eq_iff_iff, decide_eq_true_iff]
  simp [Location.OpenIn, and_assoc]

theorem mem_openAddresses {p : ProfileOf τ} {i : Nat} {address : Int} :
    address ∈ p.openAddresses i ↔ ∃ l ∈ p.locations, l.OpenIn i ∧ l.address = address := by
  simp [openAddresses_eq, and_assoc]

theorem RemotePass.AnsweredBy.exists_reply {addresses : List Int} {m : MappingOf τ}
    {sources : List Source} {told : List Exchange} {source : Source} {body : List UInt8}
    (h : AnsweredBy addresses m sources told source body) : ∃ e ∈ told, e.reply = .ok body ∧
      e.payload = Remote.payload (addresses.map (· + source.shift m)) := by
  obtain ⟨-, -, failed, url, -, -, rfl⟩ := h
  exact ⟨_, List.mem_append_right _ (List.mem_singleton_self _), rfl, rfl⟩

/-- The payload for open addresses, shifted the way the source wants them, can be read again. -/
theorem RemotePass.AnsweredBy.forall₂_payload {addresses : List Int} {m : MappingOf τ}
    {sources : List Source} {told : List Exchange} {source : Source} {body : List UInt8}
    (h : AnsweredBy addresses m sources told source body)
    (hnonneg : ∀ a ∈ addresses, 0 ≤ a + source.shift m) :
    ∃ e ∈ told, e.reply = .ok body ∧ List.Forall₂
      (fun piece a => Remote.IsAddress piece (a + source.shift m).toNat)
      (e.payload.toList.splitOn '+') addresses := by
  obtain ⟨e, he, hreply, hpayload⟩ := h.exists_reply
  refine ⟨e, he, hreply, ?_⟩
  have hne : addresses.map (· + source.shift m) ≠ [] := by simpa using h.1
  have hpieces := Remote.forall₂_payload hne
  rw [List.forall₂_map_right_iff] at hpieces
  rw [hpayload]
  exact List.forall₂_iff_get.mpr ⟨hpieces.length_eq, fun k hk hk' =>
    (hpieces.get hk hk').isAddress (hnonneg _ (List.getElem_mem hk'))⟩

/-- What a server has answered for a mapping, and how far it saw it from where it is. -/
theorem RemotePass.AnsweredBy.unique {addresses : List Int} {m : MappingOf τ}
    {sources : List Source} {told : List Exchange} {source source' : Source}
    {body body' : List UInt8} (h : AnsweredBy addresses m sources told source body)
    (h' : AnsweredBy addresses m sources told source' body') :
    body = body' ∧ source.shift m = source'.shift m := by
  obtain ⟨hopen, -, failed, url, -, -, rfl⟩ := h
  obtain ⟨-, -, failed', url', -, -, htold⟩ := h'
  obtain ⟨-, hlast⟩ := List.append_inj' htold rfl
  simp only [List.cons.injEq, Exchange.mk.injEq, Posted.mk.injEq, Except.ok.injEq, and_true]
    at hlast
  obtain ⟨⟨-, hpayload⟩, hbody⟩ := hlast
  refine ⟨hbody, ?_⟩
  have hshifted := Remote.payload_inj (by simpa using hopen) (by simpa using hopen) hpayload
  obtain ⟨a, rest, rfl⟩ := List.exists_cons_of_ne_nil hopen
  have hfirst : a + source.shift m = a + source'.shift m := by
    rw [List.map_cons, List.map_cons, List.cons.injEq] at hshifted
    exact hshifted.1
  omega

namespace ProfileOf

variable [Label τ]

/-- At a position of its functions the profile has one for a name: both its names are the name, and
it has no file. -/
def Records (q : ProfileOf τ) (position : Nat) (name : String) : Prop :=
  ∃ fn, q.functions[position]? = some fn ∧ fn.name = Label.ofText name ∧
    fn.systemName = Label.ofText name ∧ fn.filename = Label.ofText ""

/-- The profile `q` is `p` with the names that servers have given. The exchanges with them have one
part for each mapping, and `record` is where the function for a name stands. -/
structure NamedBy (p : ProfileOf τ) (sources : SourcesOf τ) (force : Bool)
    (parts : List (List Exchange)) (record : String → Nat) (q : ProfileOf τ) : Prop where
  /-- Each mapping has its part. -/
  length_parts : parts.length = p.mappings.length
  /-- Behind the functions of `p` stand those for the names in the answers, each once, in the order
  in which they first appear; their ids go on from the greatest one, or from zero if there is
  none. -/
  functions : q.functions = p.functions ++
    (parts.flatten.flatMap Exchange.identities).eraseDups.mapIdx fun n identity =>
      identity.withId ((p.functions.map (·.id)).max?.getD 0 + 1 + n)
  /-- A name that stands on a line of an answer has its function there. -/
  recorded : ∀ e ∈ parts.flatten, ∀ body, e.reply = .ok body →
    ∀ line ∈ splitLines (Utf8.decodeLossy body), ∀ (a : Nat) (name : String),
      Remote.IsAnswer line a name.toList →
        p.functions.length ≤ record name ∧ q.Records (record name) name
  /-- There are no other locations. -/
  length_locations : q.locations.length = p.locations.length
  /-- A location outside of all mappings is what it was. -/
  outside : ∀ (k : Nat) (l : Location), p.locations[k]? = some l →
    (∀ i ∈ l.mapping, p.mappings.length ≤ i) → q.locations[k]? = some l
  /-- So is a location in a mapping for which no server has answered. -/
  unanswered : ∀ (i : Nat) (part : List Exchange), parts[i]? = some part →
    (∀ e ∈ part, ¬ e.IsAnswered) → ∀ (k : Nat) (l : Location), p.locations[k]? = some l →
      l.mapping = some i → q.locations[k]? = some l
  /-- Sources of a mapping are asked if it needs names, and for nothing but its open addresses. -/
  asked : ∀ (i : Nat) (m : MappingOf τ) (part : List Exchange), p.mappings[i]? = some m →
    parts[i]? = some part → ∀ e ∈ part, p.needsNames force i m = .ok true ∧
      e.toPosted.AsksFor (p.openAddresses i) m (sources.forMapping m)
  /-- An answer for a mapping is that of a source which was asked for the open addresses in it. -/
  answered : ∀ (i : Nat) (m : MappingOf τ) (part : List Exchange), p.mappings[i]? = some m →
    parts[i]? = some part → (∃ e ∈ part, e.IsAnswered) → ∃ source body,
      RemotePass.AnsweredBy (p.openAddresses i) m (sources.forMapping m) part source body
  /-- The addresses that it was asked for can be read off the payload, if none is negative. -/
  readable : ∀ (i : Nat) (m : MappingOf τ) (part : List Exchange) (source : Source)
    (body : List UInt8), p.mappings[i]? = some m → parts[i]? = some part →
    RemotePass.AnsweredBy (p.openAddresses i) m (sources.forMapping m) part source body →
    (∀ a ∈ p.openAddresses i, 0 ≤ a + source.shift m) →
    ∃ e ∈ part, e.reply = .ok body ∧ List.Forall₂
      (fun piece a => Remote.IsAddress piece (a + source.shift m).toNat)
      (e.payload.toList.splitOn '+') (p.openAddresses i)
  /-- A text in answer to a source names the open locations in the mapping whose shifted address
  stands on a line of it, each by the last such line, and leaves the others as they were. -/
  named : ∀ (i : Nat) (m : MappingOf τ) (part : List Exchange) (source : Source)
    (text : List Char), p.mappings[i]? = some m → parts[i]? = some part →
    RemotePass.AnsweredBy (p.openAddresses i) m (sources.forMapping m) part source
      (Utf8.encode text) →
    ∀ (k : Nat) (l : Location), p.locations[k]? = some l → l.OpenIn i →
      (Remote.Says (splitLines text) (l.address + source.shift m) → ∃ name,
        Remote.LastSays (splitLines text) (l.address + source.shift m) name ∧
          q.locations[k]? = some { l with lines := [{ function := record name, line := 0 }] }) ∧
      (¬ Remote.Says (splitLines text) (l.address + source.shift m) → q.locations[k]? = some l)

/-- A server has answered for the mapping of the location, and a line of the answer says something
of its shifted address. -/
def AnsweredAt (p : ProfileOf τ) (sources : SourcesOf τ) (parts : List (List Exchange))
    (l : Location) : Prop :=
  ∃ i m part source body, l.mapping = some i ∧ p.mappings[i]? = some m ∧ parts[i]? = some part ∧
    RemotePass.AnsweredBy (p.openAddresses i) m (sources.forMapping m) part source body ∧
    Remote.Says (splitLines (Utf8.decodeLossy body)) (l.address + source.shift m)

end ProfileOf

open RemotePass

namespace RemotePass.Accounts

variable {addresses : List Int} {m : MappingOf τ} {sources : List Source} {told : List Exchange}
  {pool : FunctionPool τ} {change : Location → Location}

theorem eq_id (h : Accounts addresses m sources told pool change)
    (hfailed : ∀ e ∈ told, ¬ e.IsAnswered) : change = id := by
  cases h with
  | unanswered _ => rfl
  | answered hanswered _ =>
      obtain ⟨e, he, hbody, -⟩ := hanswered.exists_reply
      exact absurd ⟨_, hbody⟩ (hfailed e he)

theorem exists_answeredBy (h : Accounts addresses m sources told pool change)
    (hanswered : ∃ e ∈ told, e.IsAnswered) :
    ∃ source body, AnsweredBy addresses m sources told source body := by
  cases h with
  | unanswered hfailed =>
      obtain ⟨e, he, hbody⟩ := hanswered
      exact absurd hbody (hfailed e he)
  | answered hanswered' _ => exact ⟨_, _, hanswered'⟩

/-- What an answer does to the locations in its mapping. -/
theorem eq_withAnswers {source : Source} {body : List UInt8}
    (h : Accounts addresses m sources told pool change)
    (hanswered : AnsweredBy addresses m sources told source body) :
    change = Location.withAnswers pool (source.shift m) (Remote.answers body) := by
  cases h with
  | unanswered hfailed =>
      obtain ⟨e, he, hbody, -⟩ := hanswered.exists_reply
      exact absurd ⟨_, hbody⟩ (hfailed e he)
  | answered hanswered' _ =>
      obtain ⟨hbody, hshift⟩ := hanswered'.unique hanswered
      rw [hbody, hshift]

end RemotePass.Accounts

theorem changeBy_of_mapping {changes : Nat → Location → Location} {l : Location} {i : Nat}
    (hl : l.mapping = some i) : l.changeBy changes = changes i l := by
  rw [Location.changeBy, hl]

namespace RemotePass.Accounted

variable [Label τ] {p q : ProfileOf τ} {sources : SourcesOf τ} {force : Bool}
  {parts : List (List Exchange)} {pool : FunctionPool τ} {changes : Nat → Location → Location}

/-- A name that stands on a line of an answer has its function in the profile. -/
theorem records (h : Accounted p sources force parts pool changes q) {e : Exchange}
    (he : e ∈ parts.flatten) {body : List UInt8} (hbody : e.reply = .ok body) {line : List Char}
    (hline : line ∈ splitLines (Utf8.decodeLossy body)) {a : Nat} {name : String}
    (hanswer : Remote.IsAnswer line a name.toList) :
    q.Records (pool.positionOf (Remote.identityOf name)) name := by
  have hmem : Remote.identityOf name ∈ pool.added := by
    rw [h.pool_eq]
    refine FunctionPool.mem_added_internAll _ (List.mem_flatMap.mpr ⟨e, he, ?_⟩)
    rw [Exchange.identities, hbody]
    exact List.mem_map.mpr ⟨_, Remote.mem_answers.mpr ⟨line, hline, hanswer⟩, rfl⟩
  have hrecord := FunctionPool.getElem?_positionOf hmem
  rw [← h.functions] at hrecord
  exact ⟨_, hrecord, rfl, rfl, rfl⟩

/-- The functions of the pass stand behind those that the profile had. -/
theorem length_le_positionOf (h : Accounted p sources force parts pool changes q)
    (identity : FunctionIdentity) : p.functions.length ≤ pool.positionOf identity := by
  rw [FunctionPool.positionOf, h.old_eq]
  exact Nat.le_add_right ..

/-- What the exchanges account for, said without the pool. -/
theorem namedBy (h : Accounted p sources force parts pool changes q) :
    p.NamedBy sources force parts (fun name => pool.positionOf (Remote.identityOf name)) q where
  length_parts := h.length_parts
  functions := by rw [h.functions, h.pool_eq, FunctionPool.functions_internAll_old]
  recorded := by
    intro e he body hbody line hline a name hanswer
    exact ⟨h.length_le_positionOf _, h.records he hbody hline hanswer⟩
  length_locations := by rw [h.locations, List.length_map]
  outside := by
    intro k l hl hmapping
    rw [h.getElem?_locations hl]
    cases hi : l.mapping with
    | none => rw [Location.changeBy, hi]
    | some i => rw [changeBy_of_mapping hi, h.each.outside (hmapping i hi), id]
  unanswered := by
    intro i part hpart hfailed k l hl hi
    have hlt := (List.getElem?_eq_some_iff.mp hpart).1
    obtain ⟨m, part', -, hpart', haccounts⟩ := h.exists_part (h.length_parts ▸ hlt)
    rw [hpart, Option.some.injEq] at hpart'
    rw [← hpart'] at haccounts
    rw [h.getElem?_locations hl, changeBy_of_mapping hi, haccounts.eq_id hfailed, id]
  asked := fun _ _ _ hm hpart => h.asked _ (mem_zip_zipIdx hm hpart)
  answered := fun _ _ _ hm hpart => (h.each.getElem hm hpart).exists_answeredBy
  readable := fun _ _ _ _ _ _ _ hanswered => hanswered.forall₂_payload
  named := by
    intro i m part source text hm hpart hanswered k l hl hopen
    have hl' := h.getElem?_locations hl
    rw [changeBy_of_mapping hopen.1, (h.each.getElem hm hpart).eq_withAnswers hanswered] at hl'
    constructor
    · intro hsays
      rw [← Utf8.decodeLossy_encode text] at hsays ⊢
      obtain ⟨name, hname, heq⟩ := withAnswers_of_named hsays pool
      rw [heq] at hl'
      exact ⟨name, hname, hl'⟩
    · intro hnot
      rw [← Utf8.decodeLossy_encode text] at hnot
      rwa [withAnswers_of_unnamed hnot] at hl'

/-- A location that was answered for has one line, for a function that the pass has added. -/
theorem changeBy_of_answeredAt (h : Accounted p sources force parts pool changes q)
    {l : Location} (hanswered : p.AnsweredAt sources parts l) :
    ∃ function, p.functions.length ≤ function ∧
      l.changeBy changes = { l with lines := [{ function }] } := by
  obtain ⟨i, m, part, source, body, hi, hm, hpart, hanswered, hsays⟩ := hanswered
  obtain ⟨name, -, heq⟩ := withAnswers_of_named hsays pool
  refine ⟨_, h.length_le_positionOf (Remote.identityOf name), ?_⟩
  rw [changeBy_of_mapping hi, (h.each.getElem hm hpart).eq_withAnswers hanswered, heq]

/-- Any other location is what it was. -/
theorem changeBy_of_not_answeredAt
    (h : Accounted p sources force parts pool changes q) {l : Location}
    (hnot : ¬ p.AnsweredAt sources parts l) : l.changeBy changes = l := by
  cases hi : l.mapping with
  | none => rw [Location.changeBy, hi]
  | some i =>
      rw [changeBy_of_mapping hi]
      by_cases hlt : i < p.mappings.length
      · obtain ⟨m, part, hm, hpart, haccounts⟩ := h.exists_part hlt
        generalize changes i = change at haccounts
        cases haccounts with
        | unanswered _ => rfl
        | answered hanswered _ =>
            refine withAnswers_of_unnamed (fun hsays => ?_) pool
            exact hnot ⟨i, m, part, _, _, hi, hm, hpart, hanswered, hsays⟩
      · rw [h.each.outside (Nat.not_lt.mp hlt), id]

/-- The lines of a location of a well-formed profile change exactly if it was answered for. -/
theorem lines_ne_iff (h : Accounted p sources force parts pool changes q)
    (hp : p.WellFormed) {l : Location} (hl : l ∈ p.locations) :
    (l.changeBy changes).lines ≠ l.lines ↔ p.AnsweredAt sources parts l := by
  constructor
  · intro hne
    by_contra hnot
    rw [h.changeBy_of_not_answeredAt hnot] at hne
    exact hne rfl
  · intro hanswered hlines
    obtain ⟨function, hle, heq⟩ := h.changeBy_of_answeredAt hanswered
    have hline : ({ function } : Line) ∈ l.lines := by
      rw [← hlines, heq]
      exact List.mem_singleton_self _
    have hlt := hp.function_lt l hl _ hline
    exact absurd hlt (Nat.not_lt.mpr hle)

end RemotePass.Accounted

/-- What servers are asked in a remote pass, and what their answers lead to. -/
theorem named_symbolizeRemotely [Label τ] (post : Poster ω) (sources : SourcesOf τ) (force : Bool)
    (p : ProfileOf τ) (env : Env ω) :
    let run := p.symbolizeRemotely post.transcribed sources force (env.watchedFrom [])
    p.symbolizeRemotely post sources force env = (run.1, run.2.plain) ∧
    ∃ (parts : List (List Exchange)) (record : String → Nat),
      run.2.world.seen = parts.flatten ∧ p.NamedBy sources force parts record run.1.1 := by
  intro run
  obtain ⟨hplain, parts, pool, changes, hseen, haccounted⟩ :=
    accounted_symbolizeRemotely post sources force p env
  exact ⟨hplain, parts, _, hseen, haccounted.namedBy⟩

/-- A server that has the binary elsewhere, and answers with more than it was asked for. -/
def movedServer : Poster Unit := fun _ _ =>
  pure (Utf8.encode
    "symbols: 1\n0x10000010 old\n  0x000010000010\u00a0main (a)  \r\n0X10000010 not\n0x20 f".toList)

/-- A profile with two open locations, one of which the server knows. -/
def movedBinary : Profile where
  mappings := [{ id := 1, start := 0x400000, limit := 0x500000, file := "/bin/app", buildId := "" }]
  functions := [{ id := 3, name := "main (a)", systemName := "main (a)", filename := "" }]
  locations :=
    [{ id := 1, address := 0x400010, mapping := some 0 },
      { id := 2, address := 0x400030, mapping := some 0 }]

/-- The sources of the binary. -/
def movedSources : Sources :=
  [("/bin/app", [⟨some "http://host", 0x10000000⟩])]

/-- The first location is named by the last line for it, and the second one is left open. -/
theorem named_symbolizeRemotely_moved :
    let run := movedBinary.symbolizeRemotely movedServer.transcribed movedSources false
      (Env.watchedFrom [] { world := () })
    run.2.world.seen.map (·.payload) = ["0x10000010+0x10000030"] ∧
    run.1.1.locations.map (·.lines) = [[⟨2, 0⟩], []] ∧
    ∃ (parts : List (List Exchange)) (record : String → Nat), run.2.world.seen = parts.flatten ∧
      movedBinary.NamedBy movedSources false parts record run.1.1 := by
  obtain ⟨-, hnamed⟩ :=
    named_symbolizeRemotely movedServer movedSources false movedBinary { world := () }
  exact ⟨by decide +kernel, by decide +kernel, hnamed⟩

/-- Behind a remote pass a location has another line exactly if it was answered for, whether
anything was known of it or not. So no more than the locations that were asked for change exactly if
no others are answered for. -/
theorem changed_symbolizeRemotely [Label τ] (post : Poster ω) (sources : SourcesOf τ)
    (force : Bool) (p : ProfileOf τ) (env : Env ω) :
    let run := p.symbolizeRemotely post.transcribed sources force (env.watchedFrom [])
    p.symbolizeRemotely post sources force env = (run.1, run.2.plain) ∧
    ∃ parts : List (List Exchange), run.2.world.seen = parts.flatten ∧
      (∀ (k : Nat) (l : Location), p.locations[k]? = some l → ¬ p.AnsweredAt sources parts l →
        run.1.1.locations[k]? = some l) ∧
      (∀ (k : Nat) (l : Location), p.locations[k]? = some l → p.AnsweredAt sources parts l →
        ∃ function, p.functions.length ≤ function ∧
          run.1.1.locations[k]? = some { l with lines := [{ function }] }) ∧
      (p.WellFormed →
        ((∀ (k : Nat) (l l' : Location), p.locations[k]? = some l →
            run.1.1.locations[k]? = some l' → l'.lines ≠ l.lines → ∃ i, l.OpenIn i) ↔
          ∀ l ∈ p.locations, p.AnsweredAt sources parts l → ∃ i, l.OpenIn i)) := by
  intro run
  obtain ⟨hplain, parts, pool, changes, hseen, haccounted⟩ :=
    accounted_symbolizeRemotely post sources force p env
  have hget : ∀ (k : Nat) (l : Location), p.locations[k]? = some l →
      run.1.1.locations[k]? = some (l.changeBy changes) :=
    fun k l hl => haccounted.getElem?_locations hl
  refine ⟨hplain, parts, hseen, ?_, ?_, fun hp => ?_⟩
  · intro k l hl hnot
    rw [hget k l hl, haccounted.changeBy_of_not_answeredAt hnot]
  · intro k l hl hanswered
    obtain ⟨function, hle, heq⟩ := haccounted.changeBy_of_answeredAt hanswered
    exact ⟨function, hle, by rw [hget k l hl, heq]⟩
  · constructor
    · intro h l hl hanswered
      obtain ⟨k, hk⟩ := List.mem_iff_getElem?.mp hl
      exact h k l _ hk (hget k l hk) ((haccounted.lines_ne_iff hp hl).mpr hanswered)
    · intro h k l l' hl hl' hne
      rw [hget k l hl, Option.some.injEq] at hl'
      rw [← hl'] at hne
      have hmem := List.mem_of_getElem? hl
      exact h l hmem ((haccounted.lines_ne_iff hp hmem).mp hne)

/-- Two samples at one address, one of which is known. -/
def sharedAddress : Profile where
  mappings := [{ id := 1, start := 0x1000, limit := 0x2000, file := "/bin/app", buildId := "" }]
  functions := [{ id := 1, name := "known", systemName := "known", filename := "a.c" }]
  locations :=
    [{ id := 1, address := 0x1010, mapping := some 0, lines := [{ function := 0, line := 7 }] },
      { id := 2, address := 0x1010, mapping := some 0 }]

/-- The server has the binary at the same address. -/
def sharedSources : Sources :=
  [("/bin/app", [⟨some "http://host", 0x1000⟩])]

/-- The server answers exactly what it is asked. -/
def sharedServer : Poster Unit := fun _ _ =>
  pure (Utf8.encode "0x1010 main".toList)

theorem wellFormed_sharedAddress : sharedAddress.WellFormed := by
  constructor
  · decide
  · decide

theorem locations_sharedAddress :
    (sharedAddress.symbolizeRemotely sharedServer.transcribed sharedSources false
      (Env.watchedFrom [] { world := () })).1.1.locations =
      sharedAddress.locations.map fun l => { l with lines := [{ function := 1 }] } := by
  decide +kernel

/-- Both samples have been answered for, though one of them was not asked for. -/
theorem changed_symbolizeRemotely_shared :
    ∃ parts : List (List Exchange),
      (sharedAddress.symbolizeRemotely sharedServer.transcribed sharedSources false
        (Env.watchedFrom [] { world := () })).2.world.seen = parts.flatten ∧
      ∀ l ∈ sharedAddress.locations, sharedAddress.AnsweredAt sharedSources parts l := by
  obtain ⟨-, parts, hseen, hkept, -, -⟩ := changed_symbolizeRemotely sharedServer sharedSources
    false sharedAddress { world := () }
  have hother : ∀ l ∈ sharedAddress.locations, l.lines ≠ [{ function := 1 }] := by decide
  refine ⟨parts, hseen, ?_⟩
  intro l hl
  by_contra hnot
  obtain ⟨k, hk⟩ := List.mem_iff_getElem?.mp hl
  have hsame := hkept k l hk hnot
  rw [locations_sharedAddress, List.getElem?_map, hk, Option.map_some, Option.some.injEq] at hsame
  exact hother l hl (congrArg (·.lines) hsame).symm

/-- Locations that were not asked for change, too. -/
theorem lines_changed_sharedAddress :
    ¬ ∀ (p : Profile), p.WellFormed → ∀ (post : Poster Unit) (sources : Sources) (force : Bool)
      (env : Env Unit) (k : Nat) (l l' : Location), p.locations[k]? = some l →
      (p.symbolizeRemotely post sources force env).1.1.locations[k]? = some l' →
      l'.lines ≠ l.lines → ∃ i, l.OpenIn i := by
  intro h
  obtain ⟨i, -, -, hlines⟩ := h sharedAddress wellFormed_sharedAddress sharedServer sharedSources
    false { world := () } 0 { id := 1, address := 0x1010, mapping := some 0, lines := [⟨0, 7⟩] }
    { id := 1, address := 0x1010, mapping := some 0, lines := [⟨1, 0⟩] } rfl (by decide +kernel)
    (by decide)
  cases hlines

end Symbolication
