import Symbolication.Proofs.Name.Decoding
import Symbolication.Proofs.Name.Naming

/-!
# Symbolication.Proofs.Name.Remembering

A decoder that remembers its answers.  Where the tool behind it is a fixed one, which does
not exist or always says the same of the same arguments, nobody notices what has been
remembered: each name is decoded as if it were the first one, and the tool is run only for
what has not been asked before.

* `FixedTool`, `ToolRunner.Provides` — the tool;
* `FixedTool.answerFor` — what becomes of a name if nothing is remembered;
* `DecodedNames.AgreesWith` — what is remembered are answers of the tool;
* `demangler_of_fixed` — one name;
* `knows_demangler` — the answers depend on nothing but the questions;
* `transparent_demangler` — one name after another, and the runs that are made.
-/

namespace Symbolication

open Name Text DecodedNames

variable {ω : Type}

/-! ## fixed tools -/

/-- What a tool says in the end. -/
structure ToolReply where
  status : Int
  output : String
  complaints : String := ""

/-- A tool that does not change. -/
inductive FixedTool where
  /-- There is no such tool. -/
  | missing (path : String)
  /-- The tool has one reply to each list of arguments. -/
  | present (reply : List String → ToolReply)

namespace FixedTool

def IsMissing : FixedTool → Prop
  | missing _ => True
  | present _ => False

/-- What becomes of a run. -/
def outcome : FixedTool → List String → ToolOutcome
  | missing path, _ => .notStarted (.notFound path)
  | present reply, arguments =>
    let said := reply arguments
    .ended said.status said.output said.complaints

/-- The answer for a name: what the options leave of the output, and the name itself if it is no
mangled one or if there is no proper output. -/
def answerFor (fixed : FixedTool) (options : OptionSet) (name : String) : String :=
  match fixed with
  | missing _ => name
  | present reply =>
    let said := reply (if options.noParams then ["-p", name] else [name])
    if isMangled name && said.status == 0 then shownFor options name said.output else name

/-- The run for a name and options. -/
def runFor (fixed : FixedTool) (tool : String) (key : String × OptionSet) : ToolRun :=
  let c := command tool key.1 key.2
  ⟨c, fixed.outcome c.arguments⟩

end FixedTool

/-- The tool of this name is the fixed one, whatever the world is. -/
def ToolRunner.Provides (tools : ToolRunner ω) (tool : String) (fixed : FixedTool) : Prop :=
  ∀ arguments w, (tools ⟨some tool, arguments⟩ w).1 = fixed.outcome arguments

namespace DecodedNames

variable {fixed : FixedTool} {known : DecodedNames} {options : OptionSet} {name answer : String}
  {key other : String × OptionSet}

/-! ## what is remembered -/

/-- What is remembered are answers of the tool, and the tool is missing if it is said to be. -/
structure AgreesWith (known : DecodedNames) (fixed : FixedTool) : Prop where
  answers : ∀ key answer, known.answers.lookup key = some answer →
    answer = fixed.answerFor key.2 key.1
  missing : known.toolMissing = true → fixed.IsMissing

theorem agreesWith_new (fixed : FixedTool) : ({} : DecodedNames).AgreesWith fixed where
  answers _ _ := nofun
  missing := nofun

theorem answerFor_of_isMissing (h : fixed.IsMissing) : fixed.answerFor options name = name := by
  cases fixed with
  | missing path => rfl
  | present reply => exact h.elim

theorem answerFor_of_not_isMangled (h : isMangled name = false) :
    fixed.answerFor options name = name := by
  cases fixed <;> simp [FixedTool.answerFor, h]

/-- What needs no run is answered as the tool would answer it. -/
theorem AgreesWith.answer?_eq (h : known.AgreesWith fixed)
    (hanswer : known.answer? options name = some answer) :
    answer = fixed.answerFor options name := by
  unfold answer? at hanswer
  split at hanswer
  · rename_i hskip
    rw [← Option.some.inj hanswer]
    rcases Bool.or_eq_true_iff.mp hskip with hplain | hmissing
    · exact (answerFor_of_not_isMangled (by simpa using hplain)).symm
    · exact (answerFor_of_isMissing (h.missing hmissing)).symm
  · exact h.answers (name, options) answer hanswer

/-- What is known after a run of the tool. -/
def after (known : DecodedNames) (fixed : FixedTool) (key : String × OptionSet) : DecodedNames :=
  match fixed with
  | .missing _ => { known.keep key.2 key.1 key.1 with toolMissing := true }
  | .present _ => known.keep key.2 key.1 (fixed.answerFor key.2 key.1)

theorem answer?_new (options : OptionSet) (name : String) :
    ({} : DecodedNames).answer? options name = if isMangled name then none else some name := by
  cases h : isMangled name <;> simp [answer?, h]

theorem isMangled_of_unknown (h : known.answer? options name = none) : isMangled name = true := by
  unfold answer? at h
  split at h
  · cases h
  · simp_all

/-- A run teaches the answer of the tool. -/
theorem learn_outcome (hunknown : known.answer? options name = none) (tool : String) :
    known.learn options name (fixed.outcome (command tool name options).arguments) =
      .ok (known.after fixed (name, options), fixed.answerFor options name) := by
  cases fixed with
  | missing path => rfl
  | present reply =>
      simp [learn, after, FixedTool.outcome, FixedTool.answerFor, command,
        isMangled_of_unknown hunknown]

theorem AgreesWith.after (h : known.AgreesWith fixed) (key : String × OptionSet) :
    (known.after fixed key).AgreesWith fixed := by
  have hkeep : ∀ other answer,
      (known.keep key.2 key.1 (fixed.answerFor key.2 key.1)).answers.lookup other = some answer →
        answer = fixed.answerFor other.2 other.1 := by
    intro other answer hanswer
    rw [lookup_keep] at hanswer
    split at hanswer
    · simp_all
    · exact h.answers other answer hanswer
  cases fixed with
  | missing path => exact ⟨hkeep, fun _ => trivial⟩
  | present reply => exact ⟨hkeep, h.missing⟩

/-- After a run nothing is unknown if there is no tool, and otherwise what was unknown before, the
name apart. -/
theorem answer?_after_eq_none : (known.after fixed key).answer? other.2 other.1 = none ↔
    ¬ fixed.IsMissing ∧ known.answer? other.2 other.1 = none ∧ other ≠ key := by
  cases fixed with
  | missing path => simp [DecodedNames.after, answer?, FixedTool.IsMissing]
  | present reply =>
      have hsame : (known.after (.present reply) key).toolMissing = known.toolMissing := rfl
      have hlookup := lookup_keep known key.2 key.1
        ((FixedTool.present reply).answerFor key.2 key.1) other
      unfold answer?
      rw [hsame, DecodedNames.after, hlookup]
      by_cases hkey : other = key
      · subst hkey
        cases !isMangled other.1 || known.toolMissing <;> simp
      · simp [hkey, FixedTool.IsMissing]

/-! ## one name after another -/

/-- The questions for which runs are made: no question twice, only questions to which no answer is
known, and all of these unless there is no tool. -/
structure AsksOnce (fixed : FixedTool) (known : DecodedNames)
    (keys asked : List (String × OptionSet)) : Prop where
  once : asked.Nodup
  unknown : ∀ key ∈ asked, key ∈ keys ∧ known.answer? key.2 key.1 = none
  all : ¬ fixed.IsMissing → ∀ key ∈ keys, known.answer? key.2 key.1 = none → key ∈ asked
  missing : fixed.IsMissing → asked.length ≤ 1

variable {keys asked : List (String × OptionSet)}

theorem asksOnce_nil (fixed : FixedTool) (known : DecodedNames) : AsksOnce fixed known [] [] where
  once := List.nodup_nil
  unknown _ := nofun
  all _ _ := nofun
  missing _ := Nat.zero_le 1

/-- A question to which an answer is known needs no run. -/
theorem AsksOnce.cons_of_known (h : AsksOnce fixed known keys asked)
    (hknown : known.answer? key.2 key.1 = some answer) :
    AsksOnce fixed known (key :: keys) asked where
  once := h.once
  unknown other hother :=
    ⟨List.mem_cons_of_mem _ (h.unknown other hother).1, (h.unknown other hother).2⟩
  all hpresent other hother hunknown := by
    rcases List.mem_cons.mp hother with rfl | hother
    · rw [hknown] at hunknown
      cases hunknown
    · exact h.all hpresent other hother hunknown
  missing := h.missing

/-- A question to which none is known is asked before the others. -/
theorem AsksOnce.cons_of_unknown (h : AsksOnce fixed (known.after fixed key) keys asked)
    (hunknown : known.answer? key.2 key.1 = none) :
    AsksOnce fixed known (key :: keys) (key :: asked) where
  once := by
    refine List.nodup_cons.mpr ⟨fun hmem => ?_, h.once⟩
    exact (answer?_after_eq_none.mp (h.unknown key hmem).2).2.2 rfl
  unknown other hother := by
    rcases List.mem_cons.mp hother with rfl | hother
    · exact ⟨List.mem_cons_self, hunknown⟩
    · obtain ⟨hmem, hafter⟩ := h.unknown other hother
      exact ⟨List.mem_cons_of_mem _ hmem, (answer?_after_eq_none.mp hafter).2.1⟩
  all hpresent other hother hother' := by
    by_cases hkey : other = key
    · exact hkey ▸ List.mem_cons_self
    · have hmem : other ∈ keys := (List.mem_cons.mp hother).resolve_left hkey
      have hafter := answer?_after_eq_none.mpr ⟨hpresent, hother', hkey⟩
      exact List.mem_cons_of_mem _ (h.all hpresent other hmem hafter)
  missing hmissing := by
    have hnone : asked = [] := by
      refine List.eq_nil_iff_forall_not_mem.mpr fun other hother => ?_
      exact (answer?_after_eq_none.mp (h.unknown other hother).2).1 hmissing
    simp [hnone]

end DecodedNames

/-! ## the decoder -/

variable {tools : ToolRunner ω} {tool : String} {fixed : FixedTool} {runs : ω → List ToolRun}

/-- A name is decoded as the tool decodes it, and by a run if no answer is known. -/
theorem demangler_of_fixed (hfixed : tools.Provides tool fixed) (name : String)
    (options : List NameOption) {env : Env (Workshop ω)}
    (hagrees : env.world.names.AgreesWith fixed) :
    let key := (name, OptionSet.ofList options)
    ∃ env', (Workshop.demangler tools tool name options).run env =
        (.ok (fixed.answerFor key.2 key.1), env') ∧
      (if env.world.names.answer? key.2 key.1 = none then
        env'.world.names = env.world.names.after fixed key ∧
          env'.world.outside = (tools (command tool name key.2) env.world.outside).2
      else env' = env) := by
  intro key
  cases hanswer : env.world.names.answer? key.2 key.1 with
  | some answer =>
      rw [← hagrees.answer?_eq hanswer]
      exact ⟨env, demangler_of_known hanswer, by simp⟩
  | none =>
      obtain ⟨hlearn, hworld⟩ := run_decodeNew tools tool env.world.names name key.2
        { world := env.world.outside, notices := env.notices }
      have hsaid : (tools (command tool name key.2) env.world.outside).1 =
          fixed.outcome (command tool name key.2).arguments := hfixed _ _
      rw [hsaid, learn_outcome hanswer] at hlearn
      have hran : (env.world.names.decodeNew tools tool name key.2).run
          { world := env.world.outside, notices := env.notices } = (_, _) := Prod.ext hlearn rfl
      have hrun : (Workshop.demangler tools tool name options).run env = _ :=
        run_demangler name options env
      rw [decode_of_unknown hanswer, hran] at hrun
      exact ⟨_, hrun, by simpa using hworld⟩

/-- The answers of a fixed tool depend on nothing but the questions, and what is remembered of them
does not change that. -/
theorem knows_demangler (hfixed : tools.Provides tool fixed) :
    (Workshop.demangler tools tool).Knows
      (fun name options => .ok (fixed.answerFor (.ofList options) name))
      (fun w => w.names.AgreesWith fixed) := by
  intro name options env hagrees
  obtain ⟨env', hrun, hafter⟩ := demangler_of_fixed hfixed name options hagrees
  have hagrees' : env'.world.names.AgreesWith fixed := by
    split at hafter
    · rw [hafter.1]
      exact AgreesWith.after hagrees _
    · rwa [hafter]
  rw [hrun]
  exact ⟨rfl, hagrees'⟩

/-- Decodes names one after another. -/
def Workshop.demangleEach (tools : ToolRunner ω) (tool : String)
    (calls : List (String × List NameOption)) : Act (Workshop ω) (List String) :=
  calls.mapM fun c => demangler tools tool c.1 c.2

theorem demangleEach_cons {c : String × List NameOption} {rest : List (String × List NameOption)}
    {answer : String} {answers : List String} {env env' env'' : Env (Workshop ω)}
    (hfirst : (Workshop.demangler tools tool c.1 c.2).run env = (.ok answer, env'))
    (hrest : (Workshop.demangleEach tools tool rest).run env' = (.ok answers, env'')) :
    (Workshop.demangleEach tools tool (c :: rest)).run env = (.ok (answer :: answers), env'') := by
  rw [Workshop.demangleEach, List.mapM_cons, Act.run_bind_apply, hfirst]
  change ((Workshop.demangleEach tools tool rest) >>= fun answers => pure (answer :: answers)).run
    env' = _
  rw [Act.run_bind_apply, hrest]
  rfl

/-- Names are decoded one after another as the tool decodes them, with one run for each question to
which no answer is known. -/
theorem demangleEach_of_fixed (hrecords : tools.Records runs) (hfixed : tools.Provides tool fixed)
    (calls : List (String × List NameOption)) {env : Env (Workshop ω)}
    (hagrees : env.world.names.AgreesWith fixed) :
    ∃ env' asked,
      (Workshop.demangleEach tools tool calls).run env =
        (.ok (calls.map fun c => fixed.answerFor (.ofList c.2) c.1), env') ∧
      runs env'.world.outside = runs env.world.outside ++ asked.map (fixed.runFor tool) ∧
      AsksOnce fixed env.world.names (calls.map fun c => (c.1, .ofList c.2)) asked := by
  induction calls generalizing env with
  | nil => exact ⟨env, [], rfl, by simp, asksOnce_nil _ _⟩
  | cons c rest ih =>
      obtain ⟨env₁, hfirst, hafter⟩ := demangler_of_fixed hfixed c.1 c.2 hagrees
      cases hanswer : env.world.names.answer? (.ofList c.2) c.1 with
      | some answer =>
          rw [if_neg (by simp [hanswer])] at hafter
          subst hafter
          obtain ⟨env', asked, hrest, hruns, hasks⟩ := ih hagrees
          exact ⟨env', asked, demangleEach_cons hfirst hrest, hruns, hasks.cons_of_known hanswer⟩
      | none =>
          rw [if_pos hanswer] at hafter
          obtain ⟨hnames, houtside⟩ := hafter
          have hrecorded : runs env₁.world.outside =
              runs env.world.outside ++ [fixed.runFor tool (c.1, .ofList c.2)] := by
            have hsaid := hfixed (command tool c.1 (.ofList c.2)).arguments env.world.outside
            rw [houtside, hrecords]
            exact congrArg (fun said => _ ++ [ToolRun.mk _ said]) hsaid
          have hagrees₁ : env₁.world.names.AgreesWith fixed := hnames ▸ hagrees.after _
          obtain ⟨env', asked, hrest, hruns, hasks⟩ := ih hagrees₁
          refine ⟨env', (c.1, .ofList c.2) :: asked, demangleEach_cons hfirst hrest, ?_, ?_⟩
          · rw [hruns, hrecorded, List.map_cons, List.append_assoc]
            rfl
          · exact (hnames ▸ hasks).cons_of_unknown hanswer

/-! ## sets of options -/

/-- Lists of options are the same set if they have the same members. -/
theorem OptionSet.ofList_eq_iff {options options' : List NameOption} :
    OptionSet.ofList options = OptionSet.ofList options' ↔ ∀ o, o ∈ options ↔ o ∈ options' := by
  have hone (o : NameOption) :
      options.contains o = options'.contains o ↔ (o ∈ options ↔ o ∈ options') := by
    rw [Bool.eq_iff_iff, List.contains_iff_mem, List.contains_iff_mem]
  rw [OptionSet.ofList, OptionSet.ofList, OptionSet.mk.injEq, hone, hone, hone]
  constructor
  · rintro ⟨hparams, htemplates, hclones⟩ o
    cases o <;> assumption
  · exact fun h => ⟨h _, h _, h _⟩

/-- Nobody notices what a decoder remembers of a fixed tool.  A decoder that is new in the beginning
gives for each name what a new one would give for it, whatever has been asked before; options count
as a set; and the tool is run once at most for a name and a set of options, and only for mangled
names, and once at most altogether if it does not exist. -/
theorem transparent_demangler (hrecords : tools.Records runs) (hfixed : tools.Provides tool fixed)
    (calls : List (String × List NameOption)) {env : Env (Workshop ω)}
    (hnew : env.world.names = {}) :
    ∃ env' answers, ∃ asked : List (String × OptionSet),
      (Workshop.demangleEach tools tool calls).run env = (.ok answers, env') ∧
      List.Forall₂ (fun c answer => ∀ fresh : Env (Workshop ω), fresh.world.names = {} →
        ((Workshop.demangler tools tool c.1 c.2).run fresh).1 = .ok answer) calls answers ∧
      (∀ name options options', (∀ o, o ∈ options ↔ o ∈ options') →
        Workshop.demangler tools tool name options =
          Workshop.demangler tools tool name options') ∧
      runs env'.world.outside = runs env.world.outside ++ asked.map (fixed.runFor tool) ∧
      asked.Nodup ∧
      (∀ key ∈ asked, "_Z".toList <+: key.1.toList ∧
        ∃ c ∈ calls, key = (c.1, OptionSet.ofList c.2)) ∧
      (¬ fixed.IsMissing → ∀ c ∈ calls, "_Z".toList <+: c.1.toList →
        (c.1, OptionSet.ofList c.2) ∈ asked) ∧
      (fixed.IsMissing → asked.length ≤ 1) := by
  obtain ⟨env', asked, hrun, hruns, hasks⟩ :=
    demangleEach_of_fixed hrecords hfixed calls (hnew ▸ agreesWith_new fixed)
  refine ⟨env', _, asked, hrun, ?_, ?_, hruns, hasks.once, ?_, ?_, hasks.missing⟩
  · rw [List.forall₂_map_right_iff]
    refine List.forall₂_same.mpr fun c _ fresh hfresh => ?_
    have hagrees : fresh.world.names.AgreesWith fixed := hfresh ▸ agreesWith_new fixed
    obtain ⟨_, hfirst, -⟩ := demangler_of_fixed hfixed c.1 c.2 hagrees
    rw [hfirst]
  · intro name options options' h
    have hset := OptionSet.ofList_eq_iff.mpr h
    unfold Workshop.demangler DecodedNames.decode
    rw [hset]
  · intro key hkey
    obtain ⟨hmem, hunknown⟩ := hasks.unknown key hkey
    obtain ⟨c, hc, rfl⟩ := List.mem_map.mp hmem
    exact ⟨List.isPrefixOf_iff_prefix.mp (isMangled_of_unknown hunknown), c, hc, rfl⟩
  · intro hpresent c hc hmangled
    refine hasks.all hpresent _ (List.mem_map.mpr ⟨c, hc, rfl⟩) ?_
    have hasked : isMangled c.1 = true := List.isPrefixOf_iff_prefix.mpr hmangled
    rw [hnew, answer?_new, if_pos hasked]

/-- A world that keeps a record of what a fixed tool is asked. -/
def FixedTool.recorded (fixed : FixedTool) : ToolRunner (List ToolRun) := fun c runs =>
  (fixed.outcome c.arguments, runs ++ [⟨c, fixed.outcome c.arguments⟩])

/-- A tool that decodes one name, has nothing to say of another, and does not know any other one. -/
def terseTool : FixedTool :=
  .present fun arguments =>
    if arguments = ["_Z1fv"] then { status := 0, output := "f<int>(char) [clone .a]\n" }
    else if arguments = ["-p", "_Z1fv"] then { status := 0, output := "f<int>\n" }
    else if "_Z1gv" ∈ arguments then { status := 0, output := " \n" }
    else { status := 1, output := "", complaints := "bad name" }

/-- Questions with repeated names and options, and one that is no mangled name. -/
def repeatedCalls : List (String × List NameOption) :=
  [("_Z1fv", [.noParams, .noTemplateParams]), ("main", [.noParams]),
    ("_Z1fv", [.noTemplateParams, .noParams, .noTemplateParams]), ("_Z1fv", [.noClones]),
    ("_Z1gv", [.noClones]), ("_Z1gv", [.noClones]), ("_Zbad", []), ("_Z1fv", [.noClones])]

/-- What comes of these questions. -/
def tersely : Except Fault (List String) × Env (Workshop (List ToolRun)) :=
  (Workshop.demangleEach terseTool.recorded "c++filt" repeatedCalls).run
    { world := { outside := [] } }

/-- Half of the questions are answered without a run. -/
theorem transparent_demangler_repeatedCalls :
    tersely.1.toOption =
        some ["f", "main", "f", "f<int>(char)", "_Z1gv", "_Z1gv", "_Zbad", "f<int>(char)"] ∧
      ∃ asked : List (String × OptionSet), asked.Nodup ∧ asked.length = 4 ∧
        tersely.2.world.outside = asked.map (terseTool.runFor "c++filt") := by
  have hrecords : terseTool.recorded.Records id := fun _ _ => rfl
  have hfixed : terseTool.recorded.Provides "c++filt" terseTool := fun _ _ => rfl
  have hnew : ({ world := { outside := [] } } : Env (Workshop (List ToolRun))).world.names = {} :=
    rfl
  obtain ⟨env', answers, asked, hrun, -, -, hruns, honce, -⟩ :=
    transparent_demangler hrecords hfixed repeatedCalls hnew
  have hlength : tersely.2.world.outside.length = 4 := by decide +kernel
  have hmade : tersely.2.world.outside = asked.map (terseTool.runFor "c++filt") := by
    rw [tersely, hrun]
    exact hruns
  have hasked : asked.length = 4 := by
    rw [← hlength, hmade, List.length_map]
  exact ⟨by decide +kernel, asked, honce, hasked, hmade⟩

end Symbolication
