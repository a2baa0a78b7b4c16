import Symbolication.Proofs.Remote.Growth
import Symbolication.Proofs.Remote.Requests

/-!
# Symbolication.Proofs.Remote.Exchanges

A remote pass as what goes back and forth.  A poster is transcribed: every request goes
into a record together with the reply.  The pass is then a relation between the record
and the progress, with one case for each way in which a source or a mapping is dealt
with, and with no reference to the world:

* `RemotePass.Tries`, `RemotePass.Runs` — the sources of one mapping, and all mappings;
* `tries_tryEach`, `runs_runEach` — the program does what the relations say;
* `runs_symbolizeRemotely` — the same for a whole pass;
* `Runs.asksFor` — on whose behalf sources are asked, and for what.
-/

namespace Symbolication

variable {ω τ : Type}

/-- A request and what became of it. -/
structure Exchange extends Posted where
  /-- The body of the answer, or the fault. -/
  reply : Except Fault (List UInt8)

/-- The server gave an answer. -/
def Exchange.IsAnswered (e : Exchange) : Prop :=
  ∃ body, e.reply = .ok body

instance : DecidablePred Exchange.IsAnswered := fun e =>
  match h : e.reply with
  | .ok body => isTrue ⟨body, h⟩
  | .error _ => isFalse fun ⟨_, hbody⟩ => by rw [h] at hbody; cases hbody

/-- The poster that also records what it is given and what comes back. -/
def Poster.transcribed (post : Poster ω) : Poster (Watched ω (List Exchange)) :=
  fun url payload =>
    Act.reported (fun reply told => told ++ [⟨⟨url, payload⟩, reply⟩]) (post url payload)

theorem Poster.mirrors_transcribed (post : Poster ω) : post.transcribed.Mirrors post :=
  fun _ _ => Act.mirrors_reported _ _

open RemoteProgress

namespace RemotePass

variable [Label τ]

/-! ## the relations -/

/-- The sources of the mapping at a position are tried one after another for its open addresses:
from one progress to another, with exchanges on the way. -/
inductive Tries (addresses : List Int) (i : Nat) (m : MappingOf τ) :
    RemoteProgress τ → List Source → List Exchange → RemoteProgress τ → Except Fault Unit →
      Prop where
  /-- No source is left. -/
  | out {s : RemoteProgress τ} : Tries addresses i m s [] [] s (.ok ())
  /-- The URL of the source has a flaw. -/
  | flawed {s : RemoteProgress τ} {source : Source} {rest : List Source} {fault : Fault}
      (hurl : source.symbolUrl? = .error fault) :
      Tries addresses i m s (source :: rest) [] s (.error fault)
  /-- The source is no web server. -/
  | passed {s s' : RemoteProgress τ} {source : Source} {rest : List Source} {told : List Exchange}
      {ended : Except Fault Unit} (hurl : source.symbolUrl? = .ok none)
      (hrest : Tries addresses i m s rest told s' ended) :
      Tries addresses i m s (source :: rest) told s' ended
  /-- There is nothing to ask. -/
  | idle {s : RemoteProgress τ} {source : Source} {rest : List Source} {url : String}
      (hurl : source.symbolUrl? = .ok (some url)) (hopen : addresses = []) :
      Tries addresses i m s (source :: rest) []
        ((s.enter i (source.shift m) []).1.mark i) (.ok ())
  /-- The server answers. -/
  | answered {s : RemoteProgress τ} {source : Source} {rest : List Source} {url : String}
      {body : List UInt8} (hurl : source.symbolUrl? = .ok (some url)) (hopen : addresses ≠ []) :
      Tries addresses i m s (source :: rest)
        [⟨⟨url, Remote.payload (addresses.map (· + source.shift m))⟩, .ok body⟩]
        ((s.enter i (source.shift m) (Remote.answers body)).1.mark i) (.ok ())
  /-- The server fails, which is noted, and the next source is tried. -/
  | failed {s s' : RemoteProgress τ} {source : Source} {rest : List Source} {url : String}
      {fault : Fault} {told : List Exchange} {ended : Except Fault Unit}
      (hurl : source.symbolUrl? = .ok (some url)) (hopen : addresses ≠ [])
      (hblame : fault.isRemote || fault.isSystem)
      (hrest : Tries addresses i m { s with lastFault := some fault } rest told s' ended) :
      Tries addresses i m s (source :: rest)
        (⟨⟨url, Remote.payload (addresses.map (· + source.shift m))⟩, .error fault⟩ :: told)
        s' ended
  /-- A fault of another kind breaks the pass off. -/
  | broken {s : RemoteProgress τ} {source : Source} {rest : List Source} {url : String}
      {fault : Fault} (hurl : source.symbolUrl? = .ok (some url)) (hopen : addresses ≠ [])
      (hblame : ¬ (fault.isRemote || fault.isSystem)) :
      Tries addresses i m s (source :: rest)
        [⟨⟨url, Remote.payload (addresses.map (· + source.shift m))⟩, .error fault⟩]
        s (.error fault)

/-- The mappings of the profile `p` are dealt with one after another, with a part of the exchanges
for each of them. -/
inductive Runs (p : ProfileOf τ) (sources : SourcesOf τ) (force : Bool) :
    RemoteProgress τ → List (MappingOf τ × Nat) → List (List Exchange) → RemoteProgress τ →
      Except Fault Unit → Prop where
  /-- No mapping is left. -/
  | done {s : RemoteProgress τ} : Runs p sources force s [] [] s (.ok ())
  /-- The name of the file is no text. -/
  | unreadable {s : RemoteProgress τ} {m : MappingOf τ} {i : Nat}
      {rest : List (MappingOf τ × Nat)} {fault : Fault}
      (hneeds : p.needsNames force i m = .error fault) :
      Runs p sources force s ((m, i) :: rest) ([] :: rest.map fun _ => []) s (.error fault)
  /-- The mapping needs no names. -/
  | spared {s s' : RemoteProgress τ} {m : MappingOf τ} {i : Nat} {rest : List (MappingOf τ × Nat)}
      {parts : List (List Exchange)} {ended : Except Fault Unit}
      (hneeds : p.needsNames force i m = .ok false)
      (hrest : Runs p sources force s rest parts s' ended) :
      Runs p sources force s ((m, i) :: rest) ([] :: parts) s' ended
  /-- No sources can be kept under the build id. -/
  | keyless {s : RemoteProgress τ} {m : MappingOf τ} {i : Nat} {rest : List (MappingOf τ × Nat)}
      {kind : Json.Kind} (hneeds : p.needsNames force i m = .ok true)
      (hkey : Label.keyless? m.buildId = some kind) :
      Runs p sources force s ((m, i) :: rest) ([] :: rest.map fun _ => []) s
        (.error (.notKey kind))
  /-- The sources of the mapping are tried. -/
  | tried {s s' s'' : RemoteProgress τ} {m : MappingOf τ} {i : Nat}
      {rest : List (MappingOf τ × Nat)} {told : List Exchange} {parts : List (List Exchange)}
      {ended : Except Fault Unit} (hneeds : p.needsNames force i m = .ok true)
      (htries : Tries (p.openAddresses i) i m { s with needed := s.needed + 1 }
        (sources.forMapping m) told s' (.ok ()))
      (hrest : Runs p sources force s' rest parts s'' ended) :
      Runs p sources force s ((m, i) :: rest) (told :: parts) s'' ended
  /-- A source of the mapping breaks the pass off. -/
  | broken {s s' : RemoteProgress τ} {m : MappingOf τ} {i : Nat} {rest : List (MappingOf τ × Nat)}
      {told : List Exchange} {fault : Fault} (hneeds : p.needsNames force i m = .ok true)
      (htries : Tries (p.openAddresses i) i m { s with needed := s.needed + 1 }
        (sources.forMapping m) told s' (.error fault)) :
      Runs p sources force s ((m, i) :: rest) (told :: rest.map fun _ => []) s' (.error fault)

/-! ## one mapping -/

omit [Label τ] in
/-- What asking adds to the record, and what it gives. -/
theorem meets_ask (post : Poster ω) (p : ProfileOf τ) (i : Nat) (shift : Int) (url : String)
    (log : List Exchange) :
    Step.Meets (fun w => w.seen = log) (ask post.transcribed p i shift url).run
      (fun r w => p.openAddresses i = [] ∧ r = .ok [] ∧ w.seen = log ∨
        p.openAddresses i ≠ [] ∧ ∃ reply, r = reply.map Remote.answers ∧
          w.seen = log ++
            [⟨⟨url, Remote.payload ((p.openAddresses i).map (· + shift))⟩, reply⟩]) := by
  unfold ask
  cases p.openAddresses i with
  | nil => exact Step.meets_pure fun w hw => .inl ⟨rfl, rfl, hw⟩
  | cons a rest =>
      rw [ExceptT.run_bind]
      refine Step.meets_bind (Act.meets_reported _ _ log) ?_
      intro reply
      cases reply with
      | ok body => exact Step.meets_pure fun w hw => .inr ⟨by simp, .ok body, rfl, hw⟩
      | error fault => exact Step.meets_pure fun w hw => .inr ⟨by simp, .error fault, rfl, hw⟩

/-- Trying sources is what the relation says. -/
theorem tries_tryEach (post : Poster ω) {addresses : List Int} {i : Nat} (m : MappingOf τ)
    {s : RemoteProgress τ} (hs : s.profile.openAddresses i = addresses) (sources : List Source)
    (log : List Exchange) :
    Step.Meets (fun w => w.seen = log) (tryEach post.transcribed i m s sources)
      (fun r w => ∃ told, w.seen = log ++ told ∧ Tries addresses i m s sources told r.1 r.2) := by
  induction sources generalizing s log with
  | nil => exact Step.meets_pure fun w hw => ⟨[], by simp [hw], .out⟩
  | cons source rest ih =>
      simp only [tryEach]
      cases hurl : source.symbolUrl? with
      | error fault => exact Step.meets_pure fun w hw => ⟨[], by simp [hw], .flawed hurl⟩
      | ok url? =>
          cases url? with
          | none =>
              refine Step.meets_mono (ih hs log) (fun _ hw => hw) ?_
              rintro r w ⟨told, hseen, htries⟩
              exact ⟨told, hseen, .passed hurl htries⟩
          | some url =>
              have hask := meets_ask post s.profile i (source.shift m) url log
              rw [hs] at hask
              refine Step.meets_bind hask ?_
              rintro r env (⟨hopen, rfl, hseen⟩ | ⟨hopen, reply, rfl, hseen⟩)
              · exact ⟨[], by rw [List.append_nil]; exact hseen, .idle hurl hopen⟩
              · cases reply with
                | ok body => exact ⟨_, hseen, .answered hurl hopen⟩
                | error fault =>
                    simp only [Except.map]
                    split
                    · rename_i hblame
                      have hrest := ih (s := { s with lastFault := some fault }) hs
                        (log ++ [⟨⟨url, Remote.payload (addresses.map (· + source.shift m))⟩,
                          .error fault⟩])
                      obtain ⟨told, htold, htries⟩ :=
                        hrest (note (.serverFailed url fault) env).2 hseen
                      refine ⟨_, ?_, .failed hurl hopen hblame htries⟩
                      rw [List.append_assoc] at htold
                      exact htold
                    · rename_i hblame
                      exact ⟨_, hseen, .broken hurl hopen hblame⟩

/-! ## all mappings -/

theorem needsNames_of_places {p q : ProfileOf τ}
    (h : q.locations.map Location.place = p.locations.map Location.place) (force : Bool) (i : Nat)
    (m : MappingOf τ) : q.needsNames force i m = p.needsNames force i m := by
  rw [ProfileOf.needsNames, ProfileOf.needsNames, ProfileOf.refersTo_of_places h]

/-- Dealing with mappings is what the relation says. -/
theorem runs_runEach (post : Poster ω) (sources : SourcesOf τ) (force : Bool) {p : ProfileOf τ}
    {s : RemoteProgress τ} {entries : List (MappingOf τ × Nat)} (log : List Exchange)
    (hnodup : (entries.map (·.2)).Nodup) (hs : s.Follows p)
    (hopen : ∀ entry ∈ entries, s.profile.openAddresses entry.2 = p.openAddresses entry.2) :
    Step.Meets (fun w => w.seen = log) (runEach post.transcribed sources force s entries)
      (fun r w => ∃ parts, w.seen = log ++ parts.flatten ∧
        Runs p sources force s entries parts r.1 r.2) := by
  induction entries generalizing s log with
  | nil => exact Step.meets_pure fun w hw => ⟨[], by simp [hw], .done⟩
  | cons entry rest ih =>
      obtain ⟨m, i⟩ := entry
      rw [List.map_cons, List.nodup_cons] at hnodup
      have hrest : ∀ entry ∈ rest, s.profile.openAddresses entry.2 = p.openAddresses entry.2 :=
        fun entry h => hopen entry (List.mem_cons_of_mem _ h)
      have hneeds := needsNames_of_places hs.grows.locations force i m
      simp only [runEach]
      rw [hneeds]
      split
      · rename_i hneeds
        exact Step.meets_pure fun w hw => ⟨_, by simp [hw], .unreadable hneeds⟩
      · rename_i hneeds
        refine Step.meets_mono (ih log hnodup.2 hs hrest) (fun _ hw => hw) ?_
        rintro r w ⟨parts, hseen, hruns⟩
        exact ⟨[] :: parts, hseen, .spared hneeds hruns⟩
      · rename_i hneeds hkey
        exact Step.meets_pure fun w hw => ⟨_, by simp [hw], .keyless hneeds hkey⟩
      · rename_i hneeds hkey
        have hi : s.profile.openAddresses i = p.openAddresses i := hopen (m, i) List.mem_cons_self
        have hneeded : Follows p { s with needed := s.needed + 1 } :=
          hs.counting (s.needed + 1) _ _
        have htry := Step.meets_of_gives
          (Step.meets_of_gives
            (tries_tryEach post m (s := { s with needed := s.needed + 1 }) hi
              (sources.forMapping m) log)
            (gives_openAddresses_tryEach post.transcribed i m _ _))
          (gives_follows_tryEach post.transcribed i m hneeded _)
        refine Step.meets_bind htry ?_
        rintro ⟨s', ended⟩ env ⟨hs', hother, told, hseen, htries⟩
        cases ended with
        | error fault =>
            have hparts : (told :: rest.map fun _ => ([] : List Exchange)).flatten = told := by simp
            exact ⟨_, by rw [hparts]; exact hseen, .broken hneeds htries⟩
        | ok _ =>
            have hrest' := openAddresses_of_others hnodup.1 hother hrest
            obtain ⟨parts, hparts, hruns⟩ := ih (log ++ told) hnodup.2 hs' hrest' env hseen
            rw [List.append_assoc, ← List.flatten_cons] at hparts
            exact ⟨told :: parts, hparts, .tried hneeds htries hruns⟩

/-- A whole pass is what the relation says. -/
theorem runs_symbolizeRemotely (post : Poster ω) (sources : SourcesOf τ) (force : Bool)
    (p : ProfileOf τ) (env : Env ω) :
    let run := p.symbolizeRemotely post.transcribed sources force (env.watchedFrom [])
    ∃ (parts : List (List Exchange)) (s : RemoteProgress τ) (ended : Except Fault Unit),
      (runEach post.transcribed sources force (.start p) p.mappings.zipIdx
        (env.watchedFrom [])).1 = (s, ended) ∧
      run.2.world.seen = parts.flatten ∧ run.1 = (s.profile, ended.bind fun _ => s.outcome) ∧
      s.Follows p ∧ Runs p sources force (.start p) p.mappings.zipIdx parts s ended := by
  intro run
  have hrun := Step.meets_of_gives
    (runs_runEach post sources force [] (List.nodup_zipIdx_map_snd _) (follows_start p)
      fun _ _ => rfl)
    (gives_follows_runEach post.transcribed sources force (follows_start p) p.mappings.zipIdx)
  obtain ⟨hfollows, parts, hseen, hruns⟩ := hrun (env.watchedFrom []) rfl
  exact ⟨parts, _, _, rfl, hseen, rfl, hfollows, hruns⟩

/-! ## what is asked -/

omit [Label τ] in
theorem asksFor_cons {addresses : List Int} {m : MappingOf τ} {first : Source}
    {sources : List Source} {r : Posted} (h : r.AsksFor addresses m sources) :
    r.AsksFor addresses m (first :: sources) := by
  obtain ⟨hopen, source, hmem, hsource⟩ := h
  exact ⟨hopen, source, List.mem_cons_of_mem _ hmem, hsource⟩

/-- The sources of a mapping are asked for its open addresses. -/
theorem Tries.asksFor {addresses : List Int} {i : Nat} {m : MappingOf τ} {s s' : RemoteProgress τ}
    {sources : List Source} {told : List Exchange} {ended : Except Fault Unit}
    (h : Tries addresses i m s sources told s' ended) :
    ∀ e ∈ told, e.toPosted.AsksFor addresses m sources := by
  induction h with
  | out => simp
  | flawed _ => simp
  | passed _ _ ih => exact fun e he => asksFor_cons (ih e he)
  | idle _ _ => simp
  | answered hurl hopen =>
      intro e he
      rw [List.mem_singleton.mp he]
      exact ⟨hopen, _, List.mem_cons_self, hurl, rfl⟩
  | failed hurl hopen _ _ ih =>
      intro e he
      rcases List.mem_cons.mp he with rfl | he
      · exact ⟨hopen, _, List.mem_cons_self, hurl, rfl⟩
      · exact asksFor_cons (ih e he)
  | broken hurl hopen _ =>
      intro e he
      rw [List.mem_singleton.mp he]
      exact ⟨hopen, _, List.mem_cons_self, hurl, rfl⟩

omit [Label τ] in
/-- Mappings that were not come to have no exchanges. -/
theorem eq_nil_of_mem_zip {rest : List (MappingOf τ × Nat)}
    {x : (MappingOf τ × Nat) × List Exchange} (hx : x ∈ rest.zip (rest.map fun _ => [])) :
    x.2 = [] := by
  obtain ⟨_, -, hpart⟩ := List.mem_map.mp (List.of_mem_zip hx).2
  exact hpart.symm

/-- Sources are asked on behalf of mappings that need names, each for its own open addresses. -/
theorem Runs.asksFor {p : ProfileOf τ} {sources : SourcesOf τ} {force : Bool}
    {s s' : RemoteProgress τ} {entries : List (MappingOf τ × Nat)} {parts : List (List Exchange)}
    {ended : Except Fault Unit} (h : Runs p sources force s entries parts s' ended) :
    ∀ x ∈ entries.zip parts, ∀ e ∈ x.2, p.needsNames force x.1.2 x.1.1 = .ok true ∧
      e.toPosted.AsksFor (p.openAddresses x.1.2) x.1.1 (sources.forMapping x.1.1) := by
  have hnone : ∀ (rest : List (MappingOf τ × Nat)) {x : (MappingOf τ × Nat) × List Exchange}
      {e : Exchange}, x ∈ rest.zip (rest.map fun _ => []) → e ∉ x.2 := by
    intro rest x e hx
    rw [eq_nil_of_mem_zip hx]
    exact List.not_mem_nil
  induction h with
  | done => simp
  | @unreadable _ m i rest _ _ => exact fun x hx e he => absurd he (hnone ((m, i) :: rest) hx)
  | @keyless _ m i rest _ _ _ => exact fun x hx e he => absurd he (hnone ((m, i) :: rest) hx)
  | spared _ _ ih =>
      intro x hx e he
      rcases List.mem_cons.mp hx with rfl | hx
      · cases he
      · exact ih x hx e he
  | tried hneeds htries _ ih =>
      intro x hx e he
      rcases List.mem_cons.mp hx with rfl | hx
      · exact ⟨hneeds, htries.asksFor e he⟩
      · exact ih x hx e he
  | broken hneeds htries =>
      intro x hx e he
      rcases List.mem_cons.mp hx with rfl | hx
      · exact ⟨hneeds, htries.asksFor e he⟩
      · exact absurd he (hnone _ hx)

end RemotePass

end Symbolication
