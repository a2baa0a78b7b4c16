import Symbolication.Proofs.Pass.Reading

/-!
# Symbolication.Proofs.Pass.Stages

The stages of a run: the local pass, the remote pass and naming, each of which begins
where the one before it has ended.  Which stages there are
depends on the words of the directive and on how the passes end, and on nothing else.

* `Stage`, `Toolkit.Runs` — what is done, stage after stage;
* `Directive.Prescribes` — which stages there are, and how the run ends;
* `Toolkit.stages_apply` — a directive that has been read goes through these stages;
* `Toolkit.stages_symbolize` — and so does a whole run, which does not touch the tools of the
  passes that it leaves out.
-/

namespace Symbolication

variable {ω η τ : Type} [Label τ]

/-! ## stages -/

/-- A stage of what a directive asks for. -/
inductive Stage where
  /-- The local pass. -/
  | lookUp (force fast : Bool)
  /-- The remote pass. -/
  | ask (force : Bool)
  /-- Naming. -/
  | display (force : Bool) (style : NameStyle)

namespace Stage

/-- What a stage does to a profile. -/
def run (s : Toolkit ω η) (sources : SourcesOf τ) (p : ProfileOf τ) :
    Stage → Step ω (ProfileOf τ × Except Fault Unit)
  | lookUp force fast => p.symbolizeLocally s.inspector force fast
  | ask force => p.symbolizeRemotely s.post sources force
  | display force style => p.displayNames s.demangler force style

/-- The stage is a pass. -/
def IsPass : Stage → Prop
  | lookUp .. | ask .. => True
  | display .. => False

/-- The local pass has failed in an orderly way, and the run goes on. -/
def GivesWay : Stage → Except Fault Unit → Prop
  | lookUp .., .error fault => fault.endsPass = true
  | _, _ => False

/-- The stage has failed, and the run ends by it. -/
def EndsRun (stage : Stage) (ended : Except Fault Unit) (fault : Fault) : Prop :=
  ended = .error fault ∧ ¬ stage.GivesWay ended

/-- What is reported of how a stage has ended. -/
def report : Stage → Except Fault Unit → List Notice
  | lookUp .., .error fault => if fault.endsPass then [.localFailed fault] else []
  | _, _ => []

end Stage

/-- Stages that follow each other, each one beginning where the one before it has ended, and how
each of them ends. -/
inductive Toolkit.Runs (s : Toolkit ω η) (sources : SourcesOf τ) :
    ProfileOf τ → Env ω → List (Stage × Except Fault Unit) → ProfileOf τ → Env ω → Prop
  | done (p : ProfileOf τ) (env : Env ω) : Runs s sources p env [] p env
  | stage {p q r : ProfileOf τ} {env env' env'' : Env ω} {stage : Stage}
      {ended : Except Fault Unit} {rest : List (Stage × Except Fault Unit)}
      (run : stage.run s sources p env = ((q, ended), env'))
      (later : Runs s sources q (env'.noting (stage.report ended)) rest r env'') :
      Runs s sources p env ((stage, ended) :: rest) r env''

/-! ## what the words of a directive ask for -/

namespace Directive

/-- The local pass that the words of a directive ask for. -/
def lookUpStage (text : Option String) : Stage :=
  .lookUp (forces text) (place? text == some .symbolTables)

/-- The remote pass that the words of a directive ask for. -/
def askStage (text : Option String) : Stage :=
  .ask (forces text)

/-- The naming that the words of a directive ask for. -/
def displayStage (text : Option String) : Stage :=
  .display (forces text) (styleFor text)

/-- Which stages there are and how the run ends, according to the words of a directive. -/
structure Prescribes (text : Option String) (stages : List (Stage × Except Fault Unit))
    (ended : Except Fault Unit) : Prop where
  /-- The stages come in this order, each of them once at most. -/
  order : List.Sublist (stages.map (·.1)) [lookUpStage text, askStage text, displayStage text]
  /-- The binaries are looked into unless only servers are to be asked. -/
  lookUp_iff : lookUpStage text ∈ stages.map (·.1) ↔ place? text ≠ some .servers
  /-- Servers are asked if only they are to be asked, or if nothing is said about it and the local
  pass has failed in an orderly way. -/
  ask_iff : askStage text ∈ stages.map (·.1) ↔
    place? text = some .servers ∨
      place? text = none ∧ ∃ e ∈ stages, e.1 = lookUpStage text ∧ e.1.GivesWay e.2
  /-- Functions are named unless a pass has ended the run. -/
  display_iff : displayStage text ∈ stages.map (·.1) ↔
    ∀ e ∈ stages, e.1.IsPass → ∀ fault, ¬ e.1.EndsRun e.2 fault
  /-- The run fails by the stage that ends it. -/
  error_iff : ∀ fault, ended = .error fault ↔ ∃ e ∈ stages, e.1.EndsRun e.2 fault

end Directive

/-! ## sequences of stages

There are four of them: the local pass may end the run or be followed by naming at once, and
the remote pass, where there is one, may end the run or be followed by naming. -/

namespace Directive

/-- The stages that go before the remote pass where there is one. -/
inductive LeadsToServers (text : Option String) : List (Stage × Except Fault Unit) → Prop
  | atOnce (h : place? text = some .servers) : LeadsToServers text []
  | failed {fault : Fault} (h : place? text = none) (hfault : fault.endsPass = true) :
      LeadsToServers text [(lookUpStage text, .error fault)]

namespace Prescribes

variable {text : Option String} {looked ended : Except Fault Unit} {fault : Fault}
  {before : List (Stage × Except Fault Unit)}

/-- A lookup that fails for good is the last stage. -/
theorem of_lookUp_error (h : place? text ≠ some .servers) (hfault : ¬ fault.endsPass = true) :
    Prescribes text [(lookUpStage text, .error fault)] (.error fault) := by
  constructor <;>
    simp [h, hfault, lookUpStage, askStage, displayStage, Stage.EndsRun, Stage.GivesWay,
      Stage.IsPass]

/-- A lookup that returns, or fails in an orderly way, leads to the display names if no servers are
to be asked. -/
theorem of_lookUp (h : place? text ≠ some .servers)
    (hlooked : looked = .ok () ∨
      place? text ≠ none ∧ ∃ fault, looked = .error fault ∧ fault.endsPass = true) :
    Prescribes text [(lookUpStage text, looked), (displayStage text, ended)] ended := by
  rcases hlooked with rfl | ⟨hplace, fault, rfl, hfault⟩ <;> constructor <;>
    simp [*, lookUpStage, askStage, displayStage, Stage.EndsRun, Stage.GivesWay, Stage.IsPass]

/-- Servers that fail are the last stage. -/
theorem of_ask_error (h : LeadsToServers text before) :
    Prescribes text (before ++ [(askStage text, .error fault)]) (.error fault) := by
  cases h <;> constructor <;>
    simp [*, lookUpStage, askStage, displayStage, Stage.EndsRun, Stage.GivesWay, Stage.IsPass]

/-- Servers that do not fail lead to the display names. -/
theorem of_ask (h : LeadsToServers text before) :
    Prescribes text (before ++ [(askStage text, .ok ()), (displayStage text, ended)]) ended := by
  cases h <;> constructor <;>
    simp [*, lookUpStage, askStage, displayStage, Stage.EndsRun, Stage.GivesWay, Stage.IsPass]

end Prescribes

end Directive

/-! ## stage after stage -/

namespace Toolkit

open Directive

variable {s : Toolkit ω η} {text : Option String} {d : Directive} {sources : SourcesOf τ}

/-- A stage that nothing is reported of, in front of others. -/
theorem Runs.cons {p q r : ProfileOf τ} {env env' env'' : Env ω} {stage : Stage}
    {ended : Except Fault Unit} {rest : List (Stage × Except Fault Unit)}
    (run : stage.run s sources p env = ((q, ended), env')) (hreport : stage.report ended = [])
    (later : s.Runs sources q env' rest r env'') :
    s.Runs sources p env ((stage, ended) :: rest) r env'' := by
  refine .stage run ?_
  rwa [hreport, noting_nil]

/-- What follows the local pass. -/
def finish (s : Toolkit ω η) (d : Directive) (sources : SourcesOf τ) (wanted : Bool)
    (p : ProfileOf τ) : Step ω (ProfileOf τ × Except Fault Unit) := do
  let (p, ended) ← s.runRemote d sources wanted p
  match ended with
  | .error fault => return (p, .error fault)
  | .ok () => p.displayNames s.demangler d.force d.style

/-- A directive that is not called off runs the local stage and goes on by what it still wants. -/
theorem apply_eq (hskip : d.skip = false) (p : ProfileOf τ) :
    s.apply d sources p = (do
      let (p, wanted) ← s.runLocal d p
      match wanted with
      | .error fault => return (p, .error fault)
      | .ok wanted => s.finish d sources wanted p) := by
  rw [apply, hskip]
  rfl

/-- Where servers are not asked, functions are named at once. -/
theorem runs_finish_unwanted (h : Reads text d) (p : ProfileOf τ) (env : Env ω) :
    ∃ q ended env', s.finish d sources false p env = ((q, ended), env') ∧
      s.Runs sources p env [(displayStage text, ended)] q env' := by
  refine ⟨_, _, _, rfl, .cons ?_ rfl (.done _ _)⟩
  rw [displayStage, ← h.force, ← h.style]
  rfl

/-- The rest of a directive asks the servers and, if they do not fail, makes the names. -/
theorem runs_finish_wanted (h : Reads text d) (p : ProfileOf τ) (env : Env ω)
    {before : List (Stage × Except Fault Unit)} (hbefore : LeadsToServers text before) :
    ∃ after q ended env', s.finish d sources true p env = ((q, ended), env') ∧
      s.Runs sources p env after q env' ∧ Prescribes text (before ++ after) ended := by
  cases hask : p.symbolizeRemotely s.post sources d.force env with
  | mk result env' =>
      obtain ⟨q, asked⟩ := result
      have hrun : (askStage text).run s sources p env = ((q, asked), env') := by
        rw [askStage, ← h.force]
        exact hask
      have hfinish : s.finish d sources true p env = (match asked with
          | .error fault => pure (q, .error fault)
          | .ok () => q.displayNames s.demangler d.force d.style : Step ω _) env' := by
        rw [finish, runRemote, if_pos rfl, Step.bind_apply, hask]
      cases asked with
      | error fault =>
          exact ⟨_, q, _, env', hfinish, .cons hrun rfl (.done _ _), .of_ask_error hbefore⟩
      | ok _ =>
          refine ⟨_, _, _, _, hfinish, .cons hrun rfl (.cons ?_ rfl (.done _ _)), .of_ask hbefore⟩
          rw [displayStage, ← h.force, ← h.style]
          rfl

/-- A directive without the local stage goes on to the servers if it has that one. -/
theorem runLocal_of_not (s : Toolkit ω η) (hlocal : d.tryLocal = false) (p : ProfileOf τ) :
    s.runLocal d p = pure (p, .ok d.tryRemote) := by
  rw [runLocal, hlocal]
  rfl

/-- What a directive asks for is done in stages, as its words say. -/
theorem stages_apply (s : Toolkit ω η) (h : Reads text d) (sources : SourcesOf τ)
    (p : ProfileOf τ) (env : Env ω) :
    ∃ stages q ended env', s.apply d sources p env = ((q, ended), env') ∧
      s.Runs sources p env stages q env' ∧ Prescribes text stages ended := by
  rw [apply_eq h.skip, Step.bind_apply]
  by_cases hplace : place? text = some .servers
  · have hlocal : d.tryLocal = false := by simp [h.tryLocal, hplace]
    have hremote : d.tryRemote = true := by simp [h.tryRemote, hplace]
    rw [runLocal_of_not s hlocal, hremote]
    exact runs_finish_wanted h p env (.atOnce hplace)
  · have hlocal : d.tryLocal = true := by simp [h.tryLocal, hplace]
    have hremote : d.tryRemote = (place? text == none) := by simp [h.tryRemote, hplace]
    rw [runLocal, hlocal, hremote, if_neg (by simp), Step.bind_apply]
    cases hlook : p.symbolizeLocally s.inspector d.force d.fast env with
    | mk result env' =>
        obtain ⟨q, looked⟩ := result
        have hrun : (lookUpStage text).run s sources p env = ((q, looked), env') := by
          rw [lookUpStage, ← h.force, ← h.fast hplace]
          exact hlook
        cases looked with
        | ok _ =>
            obtain ⟨r, ended, env'', hfinish, hruns⟩ := runs_finish_unwanted h q env'
            exact ⟨_, r, ended, env'', hfinish, .cons hrun rfl hruns, .of_lookUp hplace (.inl rfl)⟩
        | error fault =>
            by_cases hfault : fault.endsPass = true
            · have hreport : (lookUpStage text).report (.error fault) = [.localFailed fault] :=
                if_pos hfault
              simp only [if_pos hfault]
              cases hnamed : place? text with
              | none =>
                  obtain ⟨after, r, ended, env'', hfinish, hruns, hprescribed⟩ :=
                    runs_finish_wanted h q (env'.noting [.localFailed fault])
                      (.failed hnamed hfault)
                  refine ⟨_, r, ended, env'', hfinish, .stage hrun ?_, hprescribed⟩
                  rwa [hreport]
              | some place =>
                  have hnone : place? text ≠ none := by simp [hnamed]
                  obtain ⟨r, ended, env'', hfinish, hruns⟩ :=
                    runs_finish_unwanted h q (env'.noting [.localFailed fault])
                  refine ⟨_, r, ended, env'', hfinish, .stage hrun ?_,
                    .of_lookUp hplace (.inr ⟨hnone, fault, rfl, hfault⟩)⟩
                  rwa [hreport]
            · simp only [if_neg hfault]
              refine ⟨_, q, _, env', rfl, .cons hrun ?_ (.done _ _), .of_lookUp_error hplace hfault⟩
              exact if_neg hfault

/-! ## whole runs -/

theorem symbolize_apply (s : Toolkit ω η) (text : Option String) (sources : SourcesOf τ)
    (p : ProfileOf τ) (env : Env ω) :
    s.symbolize text sources p env =
      let r := s.apply (parse text).1 sources p (env.noting (complaints text))
      ((r.1.1, r.1.2.map fun _ => (parse text).1), r.2) := by
  rw [symbolize, Step.bind_apply, parseNoting_apply]
  rfl

theorem apply_of_skip (s : Toolkit ω η) (hskip : d.skip = true) (sources : SourcesOf τ)
    (p : ProfileOf τ) : s.apply d sources p = pure (p, .ok ()) := by
  rw [apply, if_pos hskip]

/-- Where only servers are to be asked, it does not matter which inspector there is. -/
theorem apply_withInspector {η' : Type} (s : Toolkit ω η) (inspector' : Inspector ω η')
    (hlocal : d.tryLocal = false) (sources : SourcesOf τ) (p : ProfileOf τ) :
    Toolkit.apply ⟨inspector', s.post, s.demangler⟩ d sources p = s.apply d sources p := by
  rw [apply, apply, runLocal_of_not _ hlocal, runLocal_of_not _ hlocal]
  rfl

/-- Where no servers are to be asked, none are wanted behind the local pass. -/
theorem gives_unwanted_runLocal (s : Toolkit ω η) (hremote : d.tryRemote = false)
    (p : ProfileOf τ) :
    Step.Gives (s.runLocal d p) fun r => ∀ wanted, r.2 = .ok wanted → wanted = false := by
  rw [runLocal, hremote]
  split
  · exact Step.gives_pure (by rintro _ ⟨⟩; rfl)
  · refine Step.gives_bind_of_forall fun r => ?_
    obtain ⟨q, ended⟩ := r
    cases ended with
    | ok _ => exact Step.gives_pure (by rintro _ ⟨⟩; rfl)
    | error fault =>
        simp only
        split
        · exact Step.gives_bind_of_forall fun _ => Step.gives_pure (by rintro _ ⟨⟩; rfl)
        · exact Step.gives_pure nofun

/-- Where no servers are to be asked, it does not matter how they would be asked. -/
theorem apply_withPost (s : Toolkit ω η) (post' : Poster ω) (hskip : d.skip = false)
    (hremote : d.tryRemote = false) (sources : SourcesOf τ) (p : ProfileOf τ) :
    Toolkit.apply ⟨s.inspector, post', s.demangler⟩ d sources p = s.apply d sources p := by
  funext env
  rw [apply_eq hskip, apply_eq hskip, Step.bind_apply, Step.bind_apply]
  have hsame : Toolkit.runLocal ⟨s.inspector, post', s.demangler⟩ d p = s.runLocal d p := rfl
  have hunwanted := gives_unwanted_runLocal s hremote p env
  rw [hsame]
  cases hrun : s.runLocal d p env with
  | mk r env' =>
      obtain ⟨q, wanted⟩ := r
      rw [hrun] at hunwanted
      cases wanted with
      | error fault => rfl
      | ok wanted =>
          obtain rfl := hunwanted wanted rfl
          rfl

/-- What a run does. If a word calls everything off, it does nothing, with any tools. Otherwise it
goes through the stages that the words say; it has no use for the inspector if only servers are to
be asked, and asks no server if they are not to be asked. -/
theorem stages_symbolize (s : Toolkit ω η) (text : Option String) (sources : SourcesOf τ)
    (p : ProfileOf τ) (env : Env ω) :
    let d := (parse text).1
    (IsCalledOff text →
      s.symbolize text sources p env = ((p, .ok d), env.noting (complaints text))) ∧
    (¬ IsCalledOff text →
      ∃ stages q ended env',
        s.symbolize text sources p env = ((q, ended.map fun _ => d), env') ∧
        s.Runs sources p (env.noting (complaints text)) stages q env' ∧
        Prescribes text stages ended) ∧
    (place? text = some .servers → ∀ (η' : Type) (inspector' : Inspector ω η'),
      Toolkit.symbolize ⟨inspector', s.post, s.demangler⟩ text sources p env =
        s.symbolize text sources p env) ∧
    (place? text = some .binaries ∨ place? text = some .symbolTables → ∀ post' : Poster ω,
      Toolkit.symbolize ⟨s.inspector, post', s.demangler⟩ text sources p env =
        s.symbolize text sources p env) := by
  intro d
  refine ⟨?_, ?_, ?_, ?_⟩
  · intro hoff
    rw [symbolize_apply, apply_of_skip s (skip_of_isCalledOff hoff)]
    rfl
  · intro hon
    obtain ⟨stages, q, ended, env', happly, hruns, hprescribed⟩ :=
      stages_apply s (reads_parse hon) sources p (env.noting (complaints text))
    refine ⟨stages, q, ended, env', ?_, hruns, hprescribed⟩
    rw [symbolize_apply, happly]
  · intro hplace η' inspector'
    rw [symbolize_apply, symbolize_apply]
    by_cases hoff : IsCalledOff text
    · have hskip := skip_of_isCalledOff hoff
      rw [apply_of_skip _ hskip, apply_of_skip _ hskip]
    · have hlocal : d.tryLocal = false := by simp [d, (reads_parse hoff).tryLocal, hplace]
      rw [apply_withInspector s inspector' hlocal]
  · intro hplace post'
    rw [symbolize_apply, symbolize_apply]
    by_cases hoff : IsCalledOff text
    · have hskip := skip_of_isCalledOff hoff
      rw [apply_of_skip _ hskip, apply_of_skip _ hskip]
    · have hremote : d.tryRemote = false := by
        rcases hplace with hplace | hplace <;> simp [d, (reads_parse hoff).tryRemote, hplace]
      rw [apply_withPost s post' (reads_parse hoff).skip hremote]

end Toolkit

end Symbolication
