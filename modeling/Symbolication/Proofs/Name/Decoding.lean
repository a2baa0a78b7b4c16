import Mathlib.Data.List.Forall2
import Symbolication.Proofs.Action.Runs
import Symbolication.Proofs.Action.Workshop
import Symbolication.Name.Display

/-!
# Symbolication.Proofs.Name.Decoding

Naming with a tool that decodes names.  Whether naming fails, and what functions are shown
by, follows from the runs of the tool: a run that fails leaves the name as it was reported.
What breaks naming off is a tool that exists but cannot be started, a name that cannot be an
argument, and an output that is no UTF-8.

* `DecodedNames.answer?`, `DecodedNames.Learns` — what needs no run, and what a run teaches;
* `demangler_of_known`, `demangler_of_unknown` — one name;
* `names_nameFunctions` — one function after another;
* `ToolOutcome.Breaks` — the outcomes that naming does not deal with;
* `fails_displayNames_iff` — naming fails exactly if a run of it has such an outcome.
-/

namespace Symbolication

open Name Text

variable {ω : Type}

/-! ## runs of tools -/

/-- The run has no output of a tool that ended with the status zero. -/
def ToolOutcome.Fails : ToolOutcome → Prop
  | ended status _ _ => status ≠ 0
  | _ => True

/-- The run is one that naming does not deal with, and ends with the fault. -/
inductive ToolOutcome.Breaks : ToolOutcome → Fault → Prop where
  /-- The tool could not be started, though not because there is none. -/
  | notStarted {cause : SystemFault} (hother : ∀ path, cause ≠ .notFound path) :
      Breaks (.notStarted cause) (.system cause)
  /-- The name holds a zero character. -/
  | zeroInArgument : Breaks .zeroInArgument .embeddedZero
  /-- The output or the complaints are no UTF-8. -/
  | undecodable {cause : Text.Utf8.Fault} : Breaks (.undecodable cause) (.undecodable cause)

/-- There is one such fault at most. -/
theorem ToolOutcome.Breaks.unique {outcome : ToolOutcome} {fault fault' : Fault}
    (h : outcome.Breaks fault) (h' : outcome.Breaks fault') : fault = fault' := by
  cases h <;> cases h' <;> rfl

namespace DecodedNames

/-- What is shown of an output of the tool for a name. -/
def shownFor (options : OptionSet) (name output : String) : String :=
  let answer := String.ofList (strip output.toList)
  if answer.isEmpty || answer == name then name else trim options answer

/-- What is known of a name without a run of the tool. -/
def answer? (known : DecodedNames) (options : OptionSet) (name : String) : Option String :=
  if !isMangled name || known.toolMissing then some name else known.answers.lookup (name, options)

theorem decode_of_known {tools : ToolRunner ω} {tool : String} {known : DecodedNames}
    {name : String} {options : List NameOption} {answer : String}
    (h : known.answer? (.ofList options) name = some answer) :
    known.decode tools tool name options = pure (known, answer) := by
  unfold decode
  unfold answer? at h
  split at h
  · rename_i hskip
    rw [← Option.some.inj h]
    exact if_pos hskip
  · rename_i hskip
    simp only [if_neg hskip, h]

theorem decode_of_unknown {tools : ToolRunner ω} {tool : String} {known : DecodedNames}
    {name : String} {options : List NameOption}
    (h : known.answer? (.ofList options) name = none) :
    known.decode tools tool name options =
      known.decodeNew tools tool name (.ofList options) := by
  unfold decode
  unfold answer? at h
  split at h
  · cases h
  · rename_i hskip
    simp only [if_neg hskip, h]

/-- What is known when an answer is kept. -/
def keep (known : DecodedNames) (options : OptionSet) (name answer : String) : DecodedNames :=
  { known with answers := ((name, options), answer) :: known.answers }

/-- What a run teaches: what is known from then on, and the answer.  A run that naming does not deal
with teaches nothing. -/
def learn (known : DecodedNames) (options : OptionSet) (name : String) :
    ToolOutcome → Except Fault (DecodedNames × String)
  | .notStarted (.notFound _) =>
    .ok ({ known.keep options name name with toolMissing := true }, name)
  | .notStarted cause => .error (.system cause)
  | .zeroInArgument => .error .embeddedZero
  | .undecodable cause => .error (.undecodable cause)
  | .ended status output _ =>
    let answer := if status = 0 then shownFor options name output else name
    .ok (known.keep options name answer, answer)

theorem lookup_keep (known : DecodedNames) (options : OptionSet) (name answer : String)
    (key : String × OptionSet) : (known.keep options name answer).answers.lookup key =
      if key = (name, options) then some answer else known.answers.lookup key := by
  rw [keep, List.lookup_cons]
  by_cases h : key = (name, options)
  · simp [h]
  · have hkey : (key == (name, options)) = false := by simpa using h
    rw [hkey, if_neg h]

/-! ## one name -/

/-- What is known of names after a run for one of them, and its answer. -/
structure Learns (options : OptionSet) (name : String) (outcome : ToolOutcome)
    (known known' : DecodedNames) (answer : String) : Prop where
  /-- The answer is kept. -/
  lookup_self : known'.answers.lookup (name, options) = some answer
  /-- The name needs no further run. -/
  answer?_self : known'.answer? options name = some answer
  /-- Nor do names that needed none before, though they may be shown as they are reported now. -/
  answer?_of_known : ∀ other a, known.answer? options other = some a →
    known'.answer? options other = some a ∨ known'.answer? options other = some other
  /-- Nothing else is kept. -/
  lookup_of_ne : ∀ other, other ≠ name →
    known'.answers.lookup (other, options) = known.answers.lookup (other, options)
  /-- A run that fails leaves the name as it is. -/
  failed : outcome.Fails → answer = name
  /-- A name that is not left as it is comes from the output of the tool. -/
  decoded : answer ≠ name →
    ∃ output complaints,
      outcome = .ended 0 output complaints ∧ answer = shownFor options name output

theorem learns_of_missing (options : OptionSet) (name path : String) (known : DecodedNames) :
    Learns options name (.notStarted (.notFound path)) known
      { known.keep options name name with toolMissing := true } name where
  lookup_self := by simp [lookup_keep]
  answer?_self := by simp [answer?]
  answer?_of_known other a _ := .inr (by simp [answer?])
  lookup_of_ne other hne := by simp [lookup_keep, hne]
  failed _ := rfl
  decoded hne := absurd rfl hne

theorem learns_of_ended {options : OptionSet} {name answer : String} {known : DecodedNames}
    {outcome : ToolOutcome} (hunknown : known.answer? options name = none)
    (hfailed : outcome.Fails → answer = name)
    (hdecoded : answer ≠ name → ∃ output complaints, outcome = .ended 0 output complaints ∧
      answer = shownFor options name output) :
    Learns options name outcome known (known.keep options name answer) answer := by
  have hmangled : (!isMangled name || known.toolMissing) = false := by
    unfold answer? at hunknown
    split at hunknown
    · cases hunknown
    · rename_i hskip
      exact Bool.eq_false_iff.mpr hskip
  have hmissing : (known.keep options name answer).toolMissing = known.toolMissing := rfl
  refine ⟨by simp [lookup_keep], ?_, ?_, ?_, hfailed, hdecoded⟩
  · simp [answer?, hmissing, hmangled, lookup_keep]
  · intro other a ha
    refine .inl ?_
    have hne : other ≠ name := by
      rintro rfl
      rw [hunknown] at ha
      cases ha
    rw [← ha]
    simp [answer?, hmissing, lookup_keep, hne]
  · intro other hne
    simp [lookup_keep, hne]

/-- The answer that is kept of a run that ended well. -/
theorem kept_eq_shownFor (options : OptionSet) (name output : String) :
    (let said := String.ofList (strip output.toList)
     let answer := if said.isEmpty then name else said
     if answer == name then name else trim options answer) = shownFor options name output := by
  unfold shownFor
  generalize String.ofList (strip output.toList) = said
  cases hempty : said.isEmpty <;> simp [hempty]

/-- A name of which nothing is known is run for once. -/
theorem run_decodeNew (tools : ToolRunner ω) (tool : String) (known : DecodedNames) (name : String)
    (options : OptionSet) (env : Env ω) :
    let run := tools (command tool name options) env.world
    let after := (known.decodeNew tools tool name options).run env
    after.1 = known.learn options name run.1 ∧ after.2.world = run.2 := by
  intro run
  have htool : (liftM (runTool tools (command tool name options)) : Act ω ToolOutcome).run env =
      (.ok run.1, { env with world := run.2 }) := rfl
  rw [decodeNew, Act.run_bind_apply, htool]
  simp only
  cases run.1 with
  | notStarted cause => cases cause <;> exact ⟨rfl, rfl⟩
  | zeroInArgument => exact ⟨rfl, rfl⟩
  | undecodable cause => exact ⟨rfl, rfl⟩
  | ended status output complaints =>
      by_cases hstatus : status = 0
      · subst hstatus
        rw [learn, if_pos rfl, ← kept_eq_shownFor]
        exact ⟨rfl, rfl⟩
      · have hread : (readOutcome tool name (.ended status output complaints) :
            Act ω (Option String)) = do
              Act.note (.decoderFailed tool name (String.ofList (strip complaints.toList)))
              return some name := by
          simp [readOutcome, hstatus]
        have hself : (if (name == name) = true then name else trim options name) = name := by simp
        rw [hread, learn, if_neg hstatus]
        exact ⟨congrArg (fun answer => Except.ok (known.keep options name answer, answer)) hself, rfl⟩

/-- A run teaches what is known of the name from then on, or breaks off. -/
theorem learns_of_learn {known : DecodedNames} {options : OptionSet} {name : String}
    (hunknown : known.answer? options name = none) (outcome : ToolOutcome) :
    match known.learn options name outcome with
    | .ok (known', answer) =>
      (∀ fault, ¬ outcome.Breaks fault) ∧ Learns options name outcome known known' answer
    | .error fault => outcome.Breaks fault := by
  cases outcome with
  | notStarted cause =>
      cases cause with
      | notFound path =>
          refine ⟨?_, learns_of_missing options name path known⟩
          rintro fault ⟨hother⟩
          exact hother path rfl
      | _ => exact .notStarted nofun
  | zeroInArgument => exact .zeroInArgument
  | undecodable cause => exact .undecodable
  | ended status output complaints =>
      have hdealt : ∀ fault, ¬ (ToolOutcome.ended status output complaints).Breaks fault := nofun
      refine ⟨hdealt, ?_⟩
      by_cases hstatus : status = 0
      · subst hstatus
        rw [if_pos rfl]
        exact learns_of_ended hunknown (fun hfails => absurd rfl hfails) fun _ =>
          ⟨output, complaints, rfl, rfl⟩
      · rw [if_neg hstatus]
        exact learns_of_ended hunknown (fun _ => rfl) fun hne => absurd rfl hne

/-- A name of which nothing is known is run for once; the run teaches what is known of the name from
then on, or breaks off. -/
theorem decodeNew_run (tools : ToolRunner ω) (tool : String) {known : DecodedNames} {name : String}
    {options : OptionSet} (hunknown : known.answer? options name = none) (env : Env ω) :
    let run := tools (command tool name options) env.world
    ∃ r env', (known.decodeNew tools tool name options).run env = (r, env') ∧
      env'.world = run.2 ∧
      match r with
      | .ok (known', answer) =>
        (∀ fault, ¬ run.1.Breaks fault) ∧ Learns options name run.1 known known' answer
      | .error fault => run.1.Breaks fault := by
  obtain ⟨hlearn, hworld⟩ := run_decodeNew tools tool known name options env
  exact ⟨_, _, Prod.ext hlearn rfl, hworld, learns_of_learn hunknown _⟩

/-- The world is changed by runs of the tool only. -/
theorem keeps_decode {tools : ToolRunner ω} {Q : ω → Prop}
    (htools : ∀ command w, Q w → Q (tools command w).2) (tool : String) (known : DecodedNames)
    (name : String) (options : List NameOption) :
    Act.Keeps Q (known.decode tools tool name options) := by
  cases hanswer : known.answer? (.ofList options) name with
  | some answer =>
      rw [decode_of_known hanswer]
      exact Act.keeps_pure _
  | none =>
      rw [decode_of_unknown hanswer]
      refine Act.keeps_of_run fun env hw => ?_
      obtain ⟨r, env', hrun, hworld, -⟩ := decodeNew_run tools tool hanswer env
      rw [hrun, hworld]
      exact htools _ _ hw

/-! ## one name after another -/

theorem command_inj {tool name other : String} {options : OptionSet} :
    command tool name options = command tool other options ↔ name = other := by
  cases h : options.noParams <;> simp [command, h]

/-- An answer that is known and not the name itself is kept. -/
theorem lookup_of_answer? {known : DecodedNames} {options : OptionSet} {name answer : String}
    (h : known.answer? options name = some answer) (hne : answer ≠ name) :
    known.answers.lookup (name, options) = some answer := by
  unfold answer? at h
  split at h
  · exact absurd (Option.some.inj h).symm hne
  · exact h

/-- The answer for a name, by what is known and the runs that are made. -/
structure AnswersFor (tool : String) (options : OptionSet) (known : DecodedNames)
    (made : List ToolRun) (name answer : String) : Prop where
  /-- A name that is known to be left as it is stays so. -/
  unchanged : known.answer? options name = some name → answer = name
  /-- So does one whose run fails. -/
  failed : ∀ run ∈ made, run.command = command tool name options → run.outcome.Fails →
    answer = name
  /-- Another answer has been kept, or is the output of a run. -/
  decoded : answer ≠ name → known.answers.lookup (name, options) = some answer ∨
    ∃ run ∈ made, run.command = command tool name options ∧ ∃ output complaints,
      run.outcome = .ended 0 output complaints ∧ answer = shownFor options name output

/-- The runs are those for names of a list of which nothing is known, one for each. -/
structure Asks (tool : String) (options : OptionSet) (known : DecodedNames)
    (made : List ToolRun) (names : List String) : Prop where
  once : (made.map (·.command)).Nodup
  unknown : ∀ run ∈ made, ∃ name ∈ names, known.answer? options name = none ∧
    run.command = command tool name options

variable {tool : String} {options : OptionSet} {known known' : DecodedNames}
  {made : List ToolRun} {name other answer : String} {names : List String}

/-- There is no run for a name that needs none. -/
theorem Asks.command_ne (hasks : Asks tool options known made names)
    (hanswer : known.answer? options name = some answer) {run : ToolRun} (hrun : run ∈ made) :
    run.command ≠ command tool name options := by
  obtain ⟨asked, -, hunknown, hcommand⟩ := hasks.unknown run hrun
  rw [hcommand]
  intro heq
  rw [command_inj.mp heq, hanswer] at hunknown
  cases hunknown

theorem Asks.mono {names' : List String} (hasks : Asks tool options known made names)
    (hsub : ∀ n ∈ names, n ∈ names') : Asks tool options known made names' where
  once := hasks.once
  unknown run hrun := by
    obtain ⟨asked, hmem, hunknown, hcommand⟩ := hasks.unknown run hrun
    exact ⟨asked, hsub asked hmem, hunknown, hcommand⟩

section

variable {outcome : ToolOutcome}

/-- A run for one name goes before those that are made with what it teaches. -/
theorem Asks.cons (hasks : Asks tool options known' made names)
    (hlearns : Learns options name outcome known known' answer)
    (hunknown : known.answer? options name = none) :
    Asks tool options known (⟨command tool name options, outcome⟩ :: made) (name :: names) where
  once := by
    rw [List.map_cons, List.nodup_cons]
    refine ⟨fun hmem => ?_, hasks.once⟩
    obtain ⟨run, hrun, hcommand⟩ := List.mem_map.mp hmem
    exact hasks.command_ne hlearns.answer?_self hrun hcommand
  unknown run hrun := by
    rcases List.mem_cons.mp hrun with rfl | hrun
    · exact ⟨name, List.mem_cons_self, hunknown, rfl⟩
    · obtain ⟨asked, hmem, hnew, hcommand⟩ := hasks.unknown run hrun
      refine ⟨asked, List.mem_cons_of_mem _ hmem, ?_, hcommand⟩
      cases hold : known.answer? options asked with
      | none => rfl
      | some a =>
          rcases hlearns.answer?_of_known asked a hold with h | h <;> rw [hnew] at h <;> cases h

/-- The answer of what is known, beside runs for other names. -/
theorem answers_of_known (hanswer : known.answer? options name = some answer)
    (hasks : Asks tool options known made names) :
    AnswersFor tool options known made name answer where
  unchanged h := Option.some.inj (hanswer.symm.trans h)
  failed _ hrun hcommand _ := absurd hcommand (hasks.command_ne hanswer hrun)
  decoded hne := .inl (lookup_of_answer? hanswer hne)

/-- The answer that a run teaches. -/
theorem answers_of_learns (hlearns : Learns options name outcome known known' answer)
    (hunknown : known.answer? options name = none) (hasks : Asks tool options known' made names) :
    AnswersFor tool options known (⟨command tool name options, outcome⟩ :: made) name answer where
  unchanged h := by
    rw [hunknown] at h
    cases h
  failed run hrun hcommand hfails := by
    rcases List.mem_cons.mp hrun with rfl | hrun
    · exact hlearns.failed hfails
    · exact absurd hcommand (hasks.command_ne hlearns.answer?_self hrun)
  decoded hne := .inr ⟨_, List.mem_cons_self, rfl, hlearns.decoded hne⟩

/-- An answer by what one run teaches and the runs behind it is one by all these runs. -/
theorem AnswersFor.cons (hanswers : AnswersFor tool options known' made other answer)
    {first : String} (hlearns : Learns options name outcome known known' first) :
    AnswersFor tool options known (⟨command tool name options, outcome⟩ :: made) other answer where
  unchanged h := by
    rcases hlearns.answer?_of_known other other h with h | h <;> exact hanswers.unchanged h
  failed run hrun hcommand hfails := by
    rcases List.mem_cons.mp hrun with rfl | hrun
    · obtain rfl := command_inj.mp hcommand
      refine hanswers.unchanged ?_
      rw [hlearns.answer?_self, hlearns.failed hfails]
    · exact hanswers.failed run hrun hcommand hfails
  decoded hne := by
    rcases hanswers.decoded hne with hkept | ⟨run, hrun, hdecoded⟩
    · by_cases hsame : other = name
      · subst hsame
        rw [hlearns.lookup_self, Option.some.injEq] at hkept
        subst hkept
        exact .inr ⟨_, List.mem_cons_self, rfl, hlearns.decoded hne⟩
      · exact .inl (hlearns.lookup_of_ne other hsame ▸ hkept)
    · exact .inr ⟨run, List.mem_cons_of_mem _ hrun, hdecoded⟩

end

end DecodedNames

/-! ## the tool in a workshop -/

open DecodedNames

variable {tools : ToolRunner ω} {tool : String}

theorem run_demangler (name : String) (options : List NameOption) (env : Env (Workshop ω)) :
    (Workshop.demangler tools tool name options).run env =
      match (env.world.names.decode tools tool name options).run
          { world := env.world.outside, notices := env.notices } with
      | (.ok (names, answer), out) =>
        (.ok answer, { world := { env.world with outside := out.world, names }
                       notices := out.notices })
      | (.error fault, out) =>
        (.error fault, { world := { env.world with outside := out.world }
                         notices := out.notices }) := by
  unfold Workshop.demangler
  rw [Act.run_bind_apply, Workshop.run_look_apply]
  dsimp only
  rw [Act.run_bind_apply, Workshop.run_outsideAct_apply]
  dsimp only
  cases (env.world.names.decode tools tool name options).run
      { world := env.world.outside, notices := env.notices } with
  | mk r out =>
      cases r with
      | error fault => rfl
      | ok known => rfl

/-- What is known of a name is answered without a run. -/
theorem demangler_of_known {name answer : String} {options : List NameOption}
    {env : Env (Workshop ω)} (h : env.world.names.answer? (.ofList options) name = some answer) :
    (Workshop.demangler tools tool name options).run env = (.ok answer, env) := by
  rw [run_demangler, decode_of_known h]
  rfl

/-- A name of which nothing is known is run for once. -/
theorem demangler_of_unknown {runs : ω → List ToolRun} (hrecords : tools.Records runs)
    (tool : String) {name : String} {options : List NameOption} {env : Env (Workshop ω)}
    (h : env.world.names.answer? (.ofList options) name = none) :
    ∃ r env' outcome,
      (Workshop.demangler tools tool name options).run env = (r, env') ∧
      runs env'.world.outside =
        runs env.world.outside ++ [⟨command tool name (.ofList options), outcome⟩] ∧
      match r with
      | .ok answer => (∀ fault, ¬ outcome.Breaks fault) ∧
          Learns (.ofList options) name outcome env.world.names env'.world.names answer
      | .error fault => outcome.Breaks fault := by
  obtain ⟨r, out, hrun, hworld, hend⟩ := decodeNew_run tools tool h
    { world := env.world.outside, notices := env.notices }
  have hruns := hrecords (command tool name (.ofList options)) env.world.outside
  rw [← hworld] at hruns
  rw [run_demangler, decode_of_unknown h, hrun]
  cases r with
  | error fault => exact ⟨_, _, _, rfl, hruns, hend⟩
  | ok known => exact ⟨_, _, _, rfl, hruns, hend⟩

/-! ## functions -/

/-- The function has a display name already and keeps it, or it is shown by an answer. -/
structure FunctionOf.IsShown (tool : String) (style : NameStyle) (known : DecodedNames)
    (made : List ToolRun) (fn fn' : Function) : Prop where
  kept : fn.isNamed = true → fn' = fn
  named : fn.isNamed = false → ∃ answer,
    fn' = fn.withName (style.displayName fn.systemName answer) ∧
      AnswersFor tool (.ofList style.options) known made fn.systemName answer

/-- What naming functions comes to: the runs that are made of the tool, the functions in the end,
and how the work ended. -/
structure NamesFunctions (tool : String) (style : NameStyle) (known : DecodedNames)
    (made : List ToolRun) (fns fns' : List Function) (ended : Except Fault Nat) : Prop where
  /-- Only functions without a display name are asked for, and each name once. -/
  asks : Asks tool (.ofList style.options) known made
    ((fns.filter (!·.isNamed)).map (·.systemName))
  /-- The work breaks off with a run that it does not deal with. -/
  broken : ∀ fault, ended = .error fault ↔ ∃ run ∈ made, run.outcome.Breaks fault
  /-- The functions are shown, up to the one where the work breaks off. -/
  shown : ∃ named named' rest, fns = named ++ rest ∧ fns' = named' ++ rest ∧
    List.Forall₂ (FunctionOf.IsShown tool style known made) named named' ∧
    ((∃ changed, ended = .ok changed) → rest = [])

theorem names_nil (style : NameStyle) (known : DecodedNames) :
    NamesFunctions tool style known [] [] [] (.ok 0) where
  asks := ⟨List.nodup_nil, by simp⟩
  broken := by simp
  shown := ⟨[], [], [], rfl, rfl, .nil, fun _ => rfl⟩

section

variable {style : NameStyle} {known known' : DecodedNames} {made : List ToolRun}
  {fn : Function} {rest rest' : List Function} {ended : Except Fault Nat} {answer : String}
  {outcome : ToolOutcome}

/-- A function that is shown without a run goes before the others. -/
theorem NamesFunctions.cons_of_known {fn' : Function} {f : Nat → Nat}
    (h : NamesFunctions tool style known made rest rest' ended)
    (hshown : fn.IsShown tool style known made fn') :
    NamesFunctions tool style known made (fn :: rest) (fn' :: rest') (ended.map f) where
  asks := by
    refine h.asks.mono fun n hn => ?_
    obtain ⟨g, hg, hname⟩ := List.mem_map.mp hn
    obtain ⟨hmem, hnot⟩ := List.mem_filter.mp hg
    exact List.mem_map.mpr ⟨g, List.mem_filter.mpr ⟨List.mem_cons_of_mem _ hmem, hnot⟩, hname⟩
  broken fault := by
    rw [← h.broken fault]
    cases ended <;> simp [Except.map]
  shown := by
    obtain ⟨named, named', left, rfl, rfl, hall, hleft⟩ := h.shown
    refine ⟨fn :: named, fn' :: named', left, rfl, rfl, .cons hshown hall, ?_⟩
    rintro ⟨changed, hchanged⟩
    cases ended with
    | error fault => cases hchanged
    | ok n => exact hleft ⟨n, rfl⟩

/-- A function that is shown by the answer of a run goes before the others. -/
theorem NamesFunctions.cons_of_learns {f : Nat → Nat}
    (h : NamesFunctions tool style known' made rest rest' ended) (hnot : fn.isNamed = false)
    (hunknown : known.answer? (.ofList style.options) fn.systemName = none)
    (hdealt : ∀ fault, ¬ outcome.Breaks fault)
    (hlearns : Learns (.ofList style.options) fn.systemName outcome known known' answer) :
    NamesFunctions tool style known
      (⟨command tool fn.systemName (.ofList style.options), outcome⟩ :: made) (fn :: rest)
      (fn.withName (style.displayName fn.systemName answer) :: rest') (ended.map f) where
  asks := by
    rw [List.filter_cons_of_pos (by simp [hnot])]
    exact h.asks.cons hlearns hunknown
  broken fault := by
    have hrest : (ended.map f = .error fault) ↔ (ended = .error fault) := by
      cases ended <;> simp [Except.map]
    rw [hrest, h.broken fault]
    simp [hdealt fault]
  shown := by
    obtain ⟨named, named', left, rfl, rfl, hall, hleft⟩ := h.shown
    have hfirst : fn.IsShown tool style known
        (⟨command tool fn.systemName (.ofList style.options), outcome⟩ :: made)
        (fn.withName (style.displayName fn.systemName answer)) := by
      refine ⟨fun hnamed => ?_, fun _ => ⟨answer, rfl, ?_⟩⟩
      · rw [hnot] at hnamed
        cases hnamed
      · exact answers_of_learns hlearns hunknown h.asks
    refine ⟨fn :: named, _ :: named', left, rfl, rfl, .cons hfirst ?_, ?_⟩
    · refine hall.imp fun g g' hg => ⟨hg.kept, fun hnamed => ?_⟩
      obtain ⟨a, hname, hanswers⟩ := hg.named hnamed
      exact ⟨a, hname, hanswers.cons hlearns⟩
    · rintro ⟨changed, hchanged⟩
      cases ended with
      | error fault => cases hchanged
      | ok n => exact hleft ⟨n, rfl⟩

/-- A run that breaks the work off leaves all functions as they are. -/
theorem names_of_breaks {fault : Fault} (hnot : fn.isNamed = false)
    (hunknown : known.answer? (.ofList style.options) fn.systemName = none)
    (hbreaks : outcome.Breaks fault) :
    NamesFunctions tool style known
      [⟨command tool fn.systemName (.ofList style.options), outcome⟩] (fn :: rest) (fn :: rest)
      (.error fault) where
  asks := by
    refine ⟨by simp, fun run hrun => ?_⟩
    obtain rfl := List.mem_singleton.mp hrun
    refine ⟨fn.systemName, ?_, hunknown, rfl⟩
    simp [hnot]
  broken other := by
    constructor
    · rintro ⟨⟩
      exact ⟨_, List.mem_singleton_self _, hbreaks⟩
    · rintro ⟨run, hrun, hother⟩
      obtain rfl := List.mem_singleton.mp hrun
      exact congrArg _ (hbreaks.unique hother)
  shown := ⟨[], [], fn :: rest, rfl, rfl, .nil, nofun⟩

end

section

variable {demangler : Demangler ω} {style : NameStyle} {fn : Function} {rest rest' : List Function}
  {ended : Except Fault Nat} {env env' env'' : Env ω}

theorem nameFunctions_of_isNamed (hnamed : fn.isNamed = true)
    (hrest : nameFunctions demangler style rest env = ((rest', ended), env')) :
    nameFunctions demangler style (fn :: rest) env = ((fn :: rest', ended), env') := by
  unfold nameFunctions
  rw [if_pos hnamed, Step.bind_apply, hrest]
  rfl

theorem nameFunctions_of_error {fault : Fault} (hnamed : fn.isNamed = false)
    (hrun : (demangler fn.systemName style.options).run env = (.error fault, env')) :
    nameFunctions demangler style (fn :: rest) env = ((fn :: rest, .error fault), env') := by
  have htext : Label.text fn.systemName = .ok fn.systemName := rfl
  unfold nameFunctions
  rw [hnamed, if_neg Bool.false_ne_true, htext]
  dsimp only
  rw [Step.bind_apply, hrun]
  rfl

theorem nameFunctions_of_ok {answer : String} (hnamed : fn.isNamed = false)
    (hrun : (demangler fn.systemName style.options).run env = (.ok answer, env'))
    (hrest : nameFunctions demangler style rest env' = ((rest', ended), env'')) :
    ∃ count, nameFunctions demangler style (fn :: rest) env =
      ((fn.withName (style.displayName fn.systemName answer) :: rest', ended.map count), env'') := by
  have htext : Label.text fn.systemName = .ok fn.systemName := rfl
  unfold nameFunctions
  rw [hnamed, if_neg Bool.false_ne_true, htext]
  dsimp only
  rw [Step.bind_apply, hrun]
  dsimp only
  rw [Step.bind_apply, hrest]
  exact ⟨_, rfl⟩

end

/-- What naming functions one after another comes to, by the runs that are made. -/
theorem names_nameFunctions {runs : ω → List ToolRun} (hrecords : tools.Records runs)
    (tool : String) (style : NameStyle) (fns : List Function) (env : Env (Workshop ω)) :
    ∃ fns' ended env' made,
      nameFunctions (Workshop.demangler tools tool) style fns env = ((fns', ended), env') ∧
      runs env'.world.outside = runs env.world.outside ++ made ∧
      NamesFunctions tool style env.world.names made fns fns' ended := by
  induction fns generalizing env with
  | nil => exact ⟨_, _, _, [], rfl, by simp, names_nil style _⟩
  | cons fn rest ih =>
      cases hnamed : fn.isNamed with
      | true =>
          obtain ⟨rest', ended, env', made, hrest, hruns, hnames⟩ := ih env
          have hshown : fn.IsShown tool style env.world.names made fn := by
            refine ⟨fun _ => rfl, fun hnot => ?_⟩
            rw [hnamed] at hnot
            cases hnot
          have hsame : ended.map id = ended := by cases ended <;> rfl
          exact ⟨_, _, _, _, nameFunctions_of_isNamed hnamed hrest, hruns,
            hsame ▸ hnames.cons_of_known hshown⟩
      | false =>
          cases hknown : env.world.names.answer? (.ofList style.options) fn.systemName with
          | some answer =>
              obtain ⟨rest', ended, env', made, hrest, hruns, hnames⟩ := ih env
              have hshown : fn.IsShown tool style env.world.names made
                  (fn.withName (style.displayName fn.systemName answer)) := by
                refine ⟨fun h => ?_, fun _ => ⟨answer, rfl, answers_of_known hknown hnames.asks⟩⟩
                rw [hnamed] at h
                cases h
              obtain ⟨count, hrun⟩ := nameFunctions_of_ok hnamed (demangler_of_known hknown) hrest
              exact ⟨_, _, _, _, hrun, hruns, hnames.cons_of_known hshown⟩
          | none =>
              obtain ⟨r, env', outcome, hfirst, hruns, hend⟩ :=
                demangler_of_unknown hrecords tool hknown
              cases r with
              | error fault =>
                  exact ⟨_, _, _, _, nameFunctions_of_error hnamed hfirst, hruns,
                    names_of_breaks hnamed hknown hend⟩
              | ok answer =>
                  obtain ⟨hdealt, hlearns⟩ := hend
                  obtain ⟨rest', ended, env'', made, hrest, hruns', hnames⟩ := ih env'
                  obtain ⟨count, hrun⟩ := nameFunctions_of_ok hnamed hfirst hrest
                  rw [hruns, List.append_assoc] at hruns'
                  exact ⟨_, _, _, _, hrun, hruns',
                    hnames.cons_of_learns hnamed hknown hdealt hlearns⟩

/-! ## profiles -/

/-- With the reported names asked for, no name is decoded. -/
theorem displayNames_system (demangler : Demangler ω) (force : Bool) (p : Profile) (env : Env ω) :
    p.displayNames demangler force .system env =
      ((if force then p.resetNames else p, .ok ()), env) :=
  rfl

/-- In any other style the functions are named one after another. -/
theorem displayNames_of_nameFunctions {demangler : Demangler ω} {force : Bool} {style : NameStyle}
    {p : Profile} {fns : List Function} {ended : Except Fault Nat} {env env' : Env ω}
    (hstyle : style ≠ .system)
    (h : nameFunctions demangler style (if force then p.resetNames else p).functions env =
      ((fns, ended), env')) :
    ∃ ns, p.displayNames demangler force style env =
      (({ (if force then p.resetNames else p) with functions := fns }, ended.map fun _ => ()),
        env'.noting ns) := by
  have hother : ¬ (style == .system) = true := by simpa using hstyle
  unfold ProfileOf.displayNames
  dsimp only
  rw [if_neg hother, Step.bind_apply, h]
  cases ended with
  | error fault => exact ⟨[], by rw [noting_nil]; rfl⟩
  | ok changed => exact ⟨_, rfl⟩

/-- Naming the functions of a profile with a tool fails exactly if one of the runs that are made
breaks it off: the tool exists but could not be started, the name holds a zero character, or what
the tool wrote is no UTF-8. Then the functions before it have their new names, and the others do
not. Every other outcome of a run is dealt with, and a run that fails leaves the name as it is
reported. -/
theorem fails_displayNames_iff {runs : ω → List ToolRun} (hrecords : tools.Records runs)
    (tool : String) (force : Bool) (style : NameStyle) (p : Profile) (env : Env (Workshop ω)) :
    let start := if force then p.resetNames else p
    let after := p.displayNames (Workshop.demangler tools tool) force style env
    ∃ made, runs after.2.world.outside = runs env.world.outside ++ made ∧
      (∀ fault, after.1.2 = .error fault ↔ ∃ run ∈ made, run.outcome.Breaks fault) ∧
      (style = .system → made = [] ∧ after.1.1 = start) ∧
      (style ≠ .system → ∃ fns ended, after.1.1 = { start with functions := fns } ∧
        NamesFunctions tool style env.world.names made start.functions fns ended) := by
  dsimp only
  by_cases hstyle : style = .system
  · subst hstyle
    rw [displayNames_system]
    exact ⟨[], by simp, by simp, fun _ => ⟨rfl, rfl⟩, fun h => absurd rfl h⟩
  · obtain ⟨fns, ended, env', made, hrun, hruns, hnames⟩ :=
      names_nameFunctions hrecords tool style (if force then p.resetNames else p).functions env
    obtain ⟨ns, hafter⟩ := displayNames_of_nameFunctions hstyle hrun
    rw [hafter]
    refine ⟨made, hruns, fun fault => ?_, fun h => absurd h hstyle,
      fun _ => ⟨fns, ended, rfl, hnames⟩⟩
    rw [← hnames.broken fault]
    cases ended <;> simp [Except.map]

/-- A tool for which some names cannot be decoded, and for one of them it cannot be started.  The
world is a record of its runs. -/
def fickleTool : ToolRunner (List ToolRun) := fun c runs =>
  let outcome : ToolOutcome :=
    if c.arguments.contains "_Z4mainv" then .ended 0 "main\n" ""
    else if c.arguments.contains "_Zbad" then .ended 1 "" "bad name"
    else .notStarted (.denied "c++filt")
  (outcome, runs ++ [⟨c, outcome⟩])

/-- Functions with these reported names. -/
def reported (names : List String) : Profile :=
  { functions := names.map fun name => { id := 1, name, systemName := name, filename := "" } }

/-- With it the first functions are named, and then naming fails by a run. -/
theorem fails_displayNames_iff_fickleTool :
    let after := (reported ["_Z4mainv", "_Zbad", "plain", "_Z1fv", "_Z4mainv"]).displayNames
      (Workshop.demangler fickleTool "c++filt") false .templates ⟨{ outside := [] }, []⟩
    after.1.2 = .error (.system (.denied "c++filt")) ∧
      (∃ run ∈ after.2.world.outside, run.outcome.Breaks (.system (.denied "c++filt"))) ∧
      after.1.1.functions.map (·.name) = ["main", "_Zbad", "plain", "_Z1fv", "_Z4mainv"] := by
  have hrecords : fickleTool.Records id := fun _ _ => rfl
  obtain ⟨made, hruns, hbroken, -, -⟩ := fails_displayNames_iff hrecords "c++filt" false .templates
    (reported ["_Z4mainv", "_Zbad", "plain", "_Z1fv", "_Z4mainv"]) ⟨{ outside := [] }, []⟩
  have hfails : ((reported ["_Z4mainv", "_Zbad", "plain", "_Z1fv", "_Z4mainv"]).displayNames
      (Workshop.demangler fickleTool "c++filt") false .templates ⟨{ outside := [] }, []⟩).1.2 =
      .error (.system (.denied "c++filt")) := by
    rfl
  obtain ⟨run, hrun, hbreaks⟩ := (hbroken _).mp hfails
  have hmade : run ∈ _ := (hruns.trans (List.nil_append made)).symm ▸ hrun
  exact ⟨hfails, ⟨run, hmade, hbreaks⟩, by decide +kernel⟩

/-- Naming does not always come to its end. -/
theorem displayNames_fails_of_denied :
    ¬ ∀ (tools : ToolRunner (List ToolRun)) (tool : String) (force : Bool) (style : NameStyle)
        (p : Profile) (env : Env (Workshop (List ToolRun))),
        (p.displayNames (Workshop.demangler tools tool) force style env).1.2 = .ok () := by
  intro h
  have hok := h fickleTool "c++filt" false .simple (reported ["_Z1fv"]) ⟨{ outside := [] }, []⟩
  have hfails : ((reported ["_Z1fv"]).displayNames (Workshop.demangler fickleTool "c++filt") false
      .simple ⟨{ outside := [] }, []⟩).1.2 = .error (.system (.denied "c++filt")) := by
    rfl
  rw [hok] at hfails
  cases hfails

end Symbolication
