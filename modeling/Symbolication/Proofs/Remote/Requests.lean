import Mathlib.Data.List.Forall2
import Mathlib.Data.List.Sigma
import Symbolication.Pass.Remote
import Symbolication.Proofs.Action.Watched

/-!
# Symbolication.Proofs.Remote.Requests

The requests that a remote pass makes.  A poster is watched: every URL and payload
that it is given goes into a record.  The record of a pass falls into one part for
each mapping, in their order, and each part asks for nothing but the addresses of
that mapping which the profile knew nothing of when the pass began:

* `mirrors_symbolizeRemotely` — watching the poster does not change the pass;
* `keeps_tryEach`, `meets_runEach` — what one mapping, and what all of them, add to
  the record;
* `exists_requests_symbolizeRemotely` — the record of a whole pass.
-/

namespace Symbolication

variable {ω τ : Type}

/-- What a server is sent. -/
structure Posted where
  /-- The URL. -/
  url : String
  /-- What is asked. -/
  payload : String
deriving DecidableEq, Repr

/-- The poster that also records what it is given. -/
def Poster.watched (post : Poster ω) : Poster (Watched ω (List Posted)) := fun url payload =>
  Act.recorded (· ++ [⟨url, payload⟩]) (post url payload)

/-- Whether a request asks for addresses of a mapping, shifted the way one of the sources wants
them. -/
def Posted.AsksFor (addresses : List Int) (m : MappingOf τ) (sources : List Source)
    (r : Posted) : Prop :=
  addresses ≠ [] ∧ ∃ source ∈ sources, source.symbolUrl? = .ok (some r.url) ∧
    r.payload = Remote.payload (addresses.map (· + source.shift m))

/-! ## watching a poster changes nothing -/

/-- The watching poster does what the plain one does. -/
def Poster.Mirrors {γ : Type} (watching : Poster (Watched ω γ)) (post : Poster ω) : Prop :=
  ∀ url payload, Act.Mirrors id (watching url payload) (post url payload)

theorem Poster.mirrors_watched (post : Poster ω) : post.watched.Mirrors post :=
  fun _ _ => Act.mirrors_recorded _ _

variable {γ : Type} {watching : Poster (Watched ω γ)} {post : Poster ω}

theorem mirrors_ask (h : watching.Mirrors post) (p : ProfileOf τ) (i : Nat) (shift : Int)
    (url : String) :
    Act.Mirrors id (RemotePass.ask watching p i shift url) (RemotePass.ask post p i shift url) := by
  unfold RemotePass.ask
  cases p.openAddresses i with
  | nil => exact Act.mirrors_pure rfl
  | cons a rest =>
      exact Act.mirrors_bind (h _ _) fun body => Act.mirrors_pure rfl

variable [Label τ]

theorem mirrors_tryEach (h : watching.Mirrors post) (i : Nat) (m : MappingOf τ)
    (s : RemoteProgress τ) (sources : List Source) :
    Step.Mirrors id (RemotePass.tryEach watching i m s sources)
      (RemotePass.tryEach post i m s sources) := by
  induction sources generalizing s with
  | nil => exact Step.mirrors_pure rfl
  | cons source rest ih =>
      simp only [RemotePass.tryEach]
      cases source.symbolUrl? with
      | error fault => exact Step.mirrors_pure rfl
      | ok url? =>
          cases url? with
          | none => exact ih s
          | some url =>
              refine Step.mirrors_bind (mirrors_ask h s.profile i (source.shift m) url) ?_
              intro r
              cases r with
              | ok answers =>
                  exact Step.mirrors_bind (Step.mirrors_note _) fun _ =>
                    Step.mirrors_pure rfl
              | error fault =>
                  simp only [Except.map]
                  split
                  · exact Step.mirrors_bind (Step.mirrors_note _) fun _ => ih _
                  · exact Step.mirrors_pure rfl

theorem mirrors_runEach (h : watching.Mirrors post) (sources : SourcesOf τ) (force : Bool)
    (s : RemoteProgress τ) (rest : List (MappingOf τ × Nat)) :
    Step.Mirrors id (RemotePass.runEach watching sources force s rest)
      (RemotePass.runEach post sources force s rest) := by
  induction rest generalizing s with
  | nil => exact Step.mirrors_pure rfl
  | cons entry rest ih =>
      obtain ⟨m, i⟩ := entry
      simp only [RemotePass.runEach]
      split
      · exact Step.mirrors_pure rfl
      · exact ih s
      · exact Step.mirrors_pure rfl
      · refine Step.mirrors_bind (mirrors_tryEach h i m _ _) ?_
        intro r
        obtain ⟨s', ended⟩ := r
        cases ended with
        | ok _ => exact ih s'
        | error fault => exact Step.mirrors_pure rfl

/-- A pass with a watching poster does what the plain one does. -/
theorem Poster.Mirrors.symbolizeRemotely (h : watching.Mirrors post) (sources : SourcesOf τ)
    (force : Bool) (p : ProfileOf τ) :
    Step.Mirrors id (p.symbolizeRemotely watching sources force)
      (p.symbolizeRemotely post sources force) :=
  Step.mirrors_bind (mirrors_runEach h sources force _ _) fun _ => Step.mirrors_pure rfl

/-- A watched pass does what the plain one does. -/
theorem mirrors_symbolizeRemotely (post : Poster ω) (sources : SourcesOf τ) (force : Bool)
    (p : ProfileOf τ) :
    Step.Mirrors id (p.symbolizeRemotely post.watched sources force)
      (p.symbolizeRemotely post sources force) :=
  post.mirrors_watched.symbolizeRemotely sources force p

/-! ## what a mapping asks for -/

omit [Label τ] in
/-- Entering names for one mapping leaves open what is open in another. -/
theorem openAddresses_enterNames {i j : Nat} (h : j ≠ i) (p : ProfileOf τ)
    (functions : List (Int × Nat)) :
    (p.enterNames i functions).openAddresses j = p.openAddresses j := by
  simp only [ProfileOf.openAddresses, ProfileOf.enterNames]
  induction p.locations with
  | nil => rfl
  | cons l rest ih =>
      rw [List.map_cons]
      by_cases hl : l.mapping = some i
      · -- the location lies in the other mapping, before and after
        have hne : (l.mapping == some j) = false := by
          rw [hl]
          simpa using Ne.symm h
        have hi : (l.mapping == some i) = true := by simpa using hl
        rw [if_pos hi]
        cases functions.lookup l.address with
        | none => simpa [hne] using ih
        | some function => simpa [hne] using ih
      · have hi : ¬ (l.mapping == some i) = true := by simpa using hl
        rw [if_neg hi, List.filter_cons, List.filter_cons]
        split
        · rw [List.map_cons, List.map_cons, ih]
        · exact ih

omit [Label τ] in
/-- What is open in the mappings still to come does not change while others are dealt with. -/
theorem openAddresses_of_others {p q r : ProfileOf τ} {i : Nat} {rest : List (MappingOf τ × Nat)}
    (hi : i ∉ rest.map (·.2)) (hother : ∀ j, j ≠ i → r.openAddresses j = q.openAddresses j)
    (hrest : ∀ entry ∈ rest, q.openAddresses entry.2 = p.openAddresses entry.2) :
    ∀ entry ∈ rest, r.openAddresses entry.2 = p.openAddresses entry.2 := by
  intro entry h
  have hne : entry.2 ≠ i := by
    rintro rfl
    exact hi (List.mem_map_of_mem h)
  rw [hother entry.2 hne, hrest entry h]

/-- Asking for the names of one mapping leaves open what is open in another. -/
theorem gives_openAddresses_tryEach (post : Poster ω) (i : Nat) (m : MappingOf τ)
    (s : RemoteProgress τ) (sources : List Source) :
    Step.Gives (RemotePass.tryEach post i m s sources)
      (fun r => ∀ j, j ≠ i → r.1.profile.openAddresses j = s.profile.openAddresses j) := by
  induction sources generalizing s with
  | nil => exact Step.gives_pure fun _ _ => rfl
  | cons source rest ih =>
      simp only [RemotePass.tryEach]
      cases source.symbolUrl? with
      | error fault => exact Step.gives_pure fun _ _ => rfl
      | ok url? =>
          cases url? with
          | none => exact ih s
          | some url =>
              refine Step.gives_bind_of_forall ?_
              intro r
              cases r with
              | ok answers =>
                  refine Step.gives_bind_of_forall fun _ => Step.gives_pure ?_
                  exact fun j hj => openAddresses_enterNames hj s.profile _
              | error fault =>
                  simp only
                  split
                  · exact Step.gives_bind_of_forall fun _ => ih _
                  · exact Step.gives_pure fun _ _ => rfl

/-! ## the record -/

/-- The record is what it was, followed by requests for a mapping. -/
def RecordedFor (log : List Posted) (addresses : List Int) (m : MappingOf τ)
    (sources : List Source) (seen : List Posted) : Prop :=
  ∃ asked, seen = log ++ asked ∧ ∀ r ∈ asked, r.AsksFor addresses m sources

omit [Label τ] in
theorem RecordedFor.concat {log seen : List Posted} {addresses : List Int} {m : MappingOf τ}
    {sources : List Source} {r : Posted} (h : RecordedFor log addresses m sources seen)
    (hr : r.AsksFor addresses m sources) :
    RecordedFor log addresses m sources (seen ++ [r]) := by
  obtain ⟨asked, rfl, hall⟩ := h
  refine ⟨asked ++ [r], List.append_assoc .., ?_⟩
  intro r' hr'
  rcases List.mem_append.mp hr' with hr' | hr'
  · exact hall r' hr'
  · rw [List.mem_singleton.mp hr']
    exact hr

omit [Label τ] in
theorem keeps_ask {post : Poster ω} {p : ProfileOf τ} {i : Nat} {m : MappingOf τ}
    {source : Source} {sources : List Source} {url : String} {log : List Posted}
    (hs : source ∈ sources) (hurl : source.symbolUrl? = .ok (some url)) :
    Act.Keeps (fun w => RecordedFor log (p.openAddresses i) m sources w.seen)
      (RemotePass.ask post.watched p i (source.shift m) url) := by
  unfold RemotePass.ask
  cases ho : p.openAddresses i with
  | nil => exact Act.keeps_pure _
  | cons a rest =>
      have hasks : Posted.AsksFor (a :: rest) m sources
          ⟨url, Remote.payload ((a :: rest).map (· + source.shift m))⟩ :=
        ⟨List.cons_ne_nil a rest, source, hs, hurl, rfl⟩
      refine Act.keeps_bind ?_ fun _ => Act.keeps_pure _
      refine Act.meets_mono (Act.meets_recorded (R := RecordedFor log (a :: rest) m sources)
        (Act.meets_true _)) ?_ (fun _ _ hw => hw.2) fun _ _ hw => hw.2
      exact fun w hw => ⟨trivial, hw.concat hasks⟩

/-- While one mapping is dealt with, nothing but requests for it is recorded. -/
theorem keeps_tryEach {post : Poster ω} {i : Nat} {m : MappingOf τ} {p : ProfileOf τ}
    {s : RemoteProgress τ} {sources rest : List Source} {log : List Posted}
    (hs : s.profile = p) (hrest : rest ⊆ sources) :
    Step.Keeps (fun w => RecordedFor log (p.openAddresses i) m sources w.seen)
      (RemotePass.tryEach post.watched i m s rest) := by
  induction rest generalizing s with
  | nil => exact Step.keeps_pure _
  | cons source rest ih =>
      have hsource : source ∈ sources := hrest List.mem_cons_self
      have hrest' : rest ⊆ sources := fun _ h => hrest (List.mem_cons_of_mem _ h)
      simp only [RemotePass.tryEach]
      cases hurl : source.symbolUrl? with
      | error fault => exact Step.keeps_pure _
      | ok url? =>
          cases url? with
          | none => exact ih hs hrest'
          | some url =>
              subst hs
              refine Step.keeps_bind (Act.keeps_run (keeps_ask hsource hurl)) ?_
              intro r
              cases r with
              | ok answers => exact Step.keeps_bind (Step.keeps_note _) fun _ => Step.keeps_pure _
              | error fault =>
                  simp only
                  split
                  · exact Step.keeps_bind (Step.keeps_note _) fun _ => ih rfl hrest'
                  · exact Step.keeps_pure _

/-- What several mappings add to a record: for each of them, in their order, requests for the
addresses that a profile has open in it. -/
def RecordedForEach (log : List Posted) (p : ProfileOf τ) (sources : SourcesOf τ)
    (entries : List (MappingOf τ × Nat)) (seen : List Posted) : Prop :=
  ∃ parts : List (List Posted), seen = log ++ parts.flatten ∧
    List.Forall₂ (fun entry part => ∀ r ∈ part,
      r.AsksFor (p.openAddresses entry.2) entry.1 (sources.forMapping entry.1)) entries parts

theorem RecordedForEach.of_eq (log : List Posted) (p : ProfileOf τ) (sources : SourcesOf τ)
    (entries : List (MappingOf τ × Nat)) : RecordedForEach log p sources entries log := by
  refine ⟨entries.map fun _ => [], by simp, ?_⟩
  rw [List.forall₂_map_right_iff]
  exact List.forall₂_same.mpr fun _ _ r hr => absurd hr List.not_mem_nil

theorem RecordedForEach.skip {log seen : List Posted} {p : ProfileOf τ} {sources : SourcesOf τ}
    {entries : List (MappingOf τ × Nat)} (entry : MappingOf τ × Nat)
    (h : RecordedForEach log p sources entries seen) :
    RecordedForEach log p sources (entry :: entries) seen := by
  obtain ⟨parts, hseen, hparts⟩ := h
  exact ⟨[] :: parts, hseen, .cons (fun _ hr => absurd hr List.not_mem_nil) hparts⟩

theorem RecordedForEach.cons {log seen seen' : List Posted} {p : ProfileOf τ}
    {sources : SourcesOf τ} {entries : List (MappingOf τ × Nat)} {m : MappingOf τ} {i : Nat}
    (h : RecordedFor log (p.openAddresses i) m (sources.forMapping m) seen)
    (hrest : RecordedForEach seen p sources entries seen') :
    RecordedForEach log p sources ((m, i) :: entries) seen' := by
  obtain ⟨asked, rfl, hasked⟩ := h
  obtain ⟨parts, rfl, hparts⟩ := hrest
  exact ⟨asked :: parts, by simp, .cons hasked hparts⟩

/-- The record of mappings that have different positions, each of them as open as in `p`. -/
theorem meets_runEach {post : Poster ω} {sources : SourcesOf τ} {force : Bool} {p : ProfileOf τ}
    {s : RemoteProgress τ} {entries : List (MappingOf τ × Nat)} {log : List Posted}
    (hnodup : (entries.map (·.2)).Nodup)
    (hopen : ∀ entry ∈ entries, s.profile.openAddresses entry.2 = p.openAddresses entry.2) :
    Step.Meets (fun w => w.seen = log) (RemotePass.runEach post.watched sources force s entries)
      (fun _ w => RecordedForEach log p sources entries w.seen) := by
  induction entries generalizing s log with
  | nil => exact Step.meets_pure fun w hw => hw ▸ .of_eq log p sources []
  | cons entry rest ih =>
      obtain ⟨m, i⟩ := entry
      rw [List.map_cons, List.nodup_cons] at hnodup
      have hrest : ∀ entry ∈ rest, s.profile.openAddresses entry.2 = p.openAddresses entry.2 :=
        fun entry h => hopen entry (List.mem_cons_of_mem _ h)
      simp only [RemotePass.runEach]
      split
      · exact Step.meets_pure fun w hw => hw ▸ .of_eq log p sources _
      · exact Step.meets_mono (ih hnodup.2 hrest) (fun _ hw => hw) fun _ _ hw => hw.skip _
      · exact Step.meets_pure fun w hw => hw ▸ .of_eq log p sources _
      · have hi : s.profile.openAddresses i = p.openAddresses i := hopen (m, i) List.mem_cons_self
        have hkeeps : Step.Keeps
            (fun w => RecordedFor log (s.profile.openAddresses i) m (sources.forMapping m) w.seen)
            (RemotePass.tryEach post.watched i m { s with needed := s.needed + 1 }
              (sources.forMapping m)) := keeps_tryEach rfl (List.Subset.refl _)
        have htry := Step.meets_of_gives hkeeps (gives_openAddresses_tryEach post.watched i m _ _)
        refine Step.meets_bind (Step.meets_mono htry ?_ fun _ _ h => h) ?_
        · rintro w rfl
          exact ⟨[], by simp, fun _ hr => absurd hr List.not_mem_nil⟩
        · intro r env hw
          obtain ⟨s', ended⟩ := r
          obtain ⟨hother, hrecorded⟩ := hw
          rw [hi] at hrecorded
          cases ended with
          | error fault => exact .cons hrecorded (.of_eq _ p sources rest)
          | ok _ =>
              have hrest' := openAddresses_of_others hnodup.1 hother hrest
              exact .cons hrecorded (ih hnodup.2 hrest' env rfl)

/-- The requests of a whole pass: one part for each mapping, and in it nothing but requests about
the addresses that were open in the mapping when the pass began. -/
theorem exists_requests_symbolizeRemotely (post : Poster ω) (sources : SourcesOf τ) (force : Bool)
    (p : ProfileOf τ) (env : Env ω) :
    ∃ parts : List (List Posted),
      (p.symbolizeRemotely post.watched sources force (env.watchedFrom [])).2.world.seen =
        parts.flatten ∧
      parts.length = p.mappings.length ∧
      ∀ (i : Nat) (m : MappingOf τ) (part : List Posted), p.mappings[i]? = some m →
        parts[i]? = some part →
        ∀ r ∈ part, r.AsksFor (p.openAddresses i) m (sources.forMapping m) := by
  have hrun : Step.Meets (fun w => w.seen = [])
      (RemotePass.runEach post.watched sources force (.start p) p.mappings.zipIdx)
      (fun _ w => RecordedForEach [] p sources p.mappings.zipIdx w.seen) :=
    meets_runEach (List.nodup_zipIdx_map_snd _) fun _ _ => rfl
  obtain ⟨parts, hseen, hparts⟩ := hrun (env.watchedFrom []) rfl
  refine ⟨parts, hseen, by simpa using hparts.length_eq.symm, ?_⟩
  intro i m part hm hpart
  obtain ⟨hi, rfl⟩ := List.getElem?_eq_some_iff.mp hpart
  have hlt : i < p.mappings.zipIdx.length := by rw [hparts.length_eq]; exact hi
  have hget := List.forall₂_iff_get.mp hparts
  have hr := hget.2 i hlt hi
  have hentry : p.mappings.zipIdx[i] = (m, i) := by
    obtain ⟨hi', rfl⟩ := List.getElem?_eq_some_iff.mp hm
    simp
  simpa [List.get_eq_getElem, hentry] using hr

end Symbolication
