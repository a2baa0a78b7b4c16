import Symbolication.Proofs.Elf.Batching
import Symbolication.Proofs.Elf.Setting
import Symbolication.Proofs.Frame.Printing
import Symbolication.Proofs.Pass.Breaking
import Symbolication.Proofs.Pass.Opening

/-!
# Symbolication.Proofs.Elf.Failing

How lookups fail.  Most faults that are met on the way are faults of the lookup, which the local
pass deals with.  Four are not: a line number in the tool's output that is too long to be read, an
output that is no UTF-8, a zero character in an argument, and symbol tables that turn out malformed
when they are looked at for the first time.

* `Listing.IsLegible` — all line numbers of an output can be read;
* `harmless_ofOutcome_iff` — what becomes of a run of the tool;
* `fill_eq` — batches come to what the runs for them come to, up to the first that fails;
* `Segment.run_lookup_fst`, `Segment.run_prefetch_fst` — the answers of a segment;
* `Segment.harmless_lookup_iff`, `Segment.harmless_prefetch_iff` — when they fail as lookups only;
* `harmless_lookups_iff` — this, and when the local pass comes to its end.
-/

namespace Symbolication

open Listing Number

variable {ω α β : Type}

/-! ## listings -/

/-- There is an answer if line numbers are legible, and else one of them is too long to be read. -/
def ReadsIf (legible : Prop) (r : Except Fault α) : Prop :=
  (legible ∧ ∃ a, r = .ok a) ∨ (¬ legible ∧ ∃ digits, r = .error (.numeralTooLong digits))

namespace ReadsIf

variable {p q : Prop}

/-- What reads if a condition holds has a result just under that condition. -/
theorem exists_ok_iff {r : Except Fault α} (h : ReadsIf p r) : (∃ a, r = .ok a) ↔ p := by
  rcases h with ⟨hp, hok⟩ | ⟨hp, digits, rfl⟩
  · exact iff_of_true hok hp
  · exact iff_of_false (by simp) hp

/-- It is no fault of the lookup that a line number is too long. -/
theorem harmless_iff {r : Except Fault α} (h : ReadsIf p r) : Harmless Fault.IsLookup r ↔ p := by
  rcases h with ⟨hp, a, rfl⟩ | ⟨hp, digits, rfl⟩
  · exact iff_of_true (harmless_ok a) hp
  · refine iff_of_false ?_ hp
    rw [harmless_error]
    rintro ⟨cause, ⟨⟩⟩

theorem ok (hp : p) (a : α) : ReadsIf p (.ok a : Except Fault α) :=
  .inl ⟨hp, a, rfl⟩

/-- Two readings in turn succeed if both conditions hold. -/
theorem bind {x : Except Fault α} {f : α → Except Fault β} (hx : ReadsIf p x)
    (hf : ∀ a, ReadsIf q (f a)) : ReadsIf (p ∧ q) (x >>= f) := by
  rcases hx with ⟨hp, a, rfl⟩ | ⟨hp, digits, rfl⟩
  · rcases hf a with ⟨hq, hok⟩ | ⟨hq, hlong⟩
    · exact .inl ⟨⟨hp, hq⟩, hok⟩
    · exact .inr ⟨fun h => hq h.2, hlong⟩
  · exact .inr ⟨fun h => hp h.1, digits, rfl⟩

/-- The condition of a reading does not depend on what is made of its result. -/
theorem map {x : Except Fault α} (hx : ReadsIf p x) (f : α → β) : ReadsIf p (f <$> x) := by
  rcases hx with ⟨hp, a, rfl⟩ | ⟨hp, digits, rfl⟩
  · exact .inl ⟨hp, f a, rfl⟩
  · exact .inr ⟨hp, digits, rfl⟩

/-- A list is read if each member's condition holds. -/
theorem mapM {P : α → Prop} {f : α → Except Fault β} (hf : ∀ a, ReadsIf (P a) (f a)) (l : List α) :
    ReadsIf (∀ a ∈ l, P a) (l.mapM f) := by
  induction l with
  | nil => exact ok (List.forall_mem_nil P) []
  | cons a rest ih =>
      rw [List.mapM_cons, List.forall_mem_cons]
      exact (hf a).bind fun b => ih.map (b :: ·)

end ReadsIf

namespace Listing

/-- Every line number in the blocks of the output is short enough to be read. -/
def IsLegible (output : String) : Prop :=
  ∀ block ∈ blocks (sections (linesOf output.toList)).2, IsReadable block.2

/-- A decimal numeral is read if it has no more digits than the limit. -/
theorem readsIf_readDecimal (digits : List Char) :
    ReadsIf (digits.length ≤ digitLimit) ((readDecimal digits).mapError Fault.numeralTooLong) := by
  unfold readDecimal
  split
  next hlong => exact .inr ⟨by omega, _, rfl⟩
  next hshort => exact .inl ⟨by omega, _, rfl⟩

/-- A frame is read if the line number of its place, should it have one, is within the limit. -/
theorem readsIf_readFrame (func place : List Char) :
    ReadsIf (∀ found ∈ splitPlace? place, found.2.length ≤ digitLimit) (readFrame func place) := by
  unfold readFrame
  cases splitPlace? place with
  | none => exact .ok (by simp) _
  | some found =>
      obtain ⟨file, digits⟩ := found
      simpa using (readsIf_readDecimal digits).map fun line =>
        ({ func := knownName func, file := knownName file, line } : Frame)

/-- Pairs of lines are read if no line number among them is too long. -/
theorem readsIf_readPairs (lines : List (List Char)) :
    ReadsIf (IsReadable lines) (readPairs lines) := by
  induction lines using readPairs.induct with
  | case1 func place rest ih =>
      rw [readPairs, IsReadable, placesOf, List.forall_mem_cons]
      exact (readsIf_readFrame func place).bind fun frame => ih.map (frame :: ·)
  | case2 lines hlines =>
      rw [readPairs.eq_2 lines hlines, IsReadable, placesOf.eq_2 lines hlines]
      exact .ok (List.forall_mem_nil _) []

/-- A listing is read just if it is legible. -/
theorem readsIf_ofListing (output : String) :
    ReadsIf (IsLegible output) (Answers.ofListing output.toList) := by
  refine ReadsIf.mapM (fun block => ?_) _
  exact ((readsIf_readPairs block.2).map dropBlankStack).map fun frames => ((block.1 : Int), frames)

/-- The lines of a listing with a line number of that many digits. -/
def overlongLines (count : Nat) : List (List Char) :=
  ["0x10".toList, "f".toList, "f.c:".toList ++ List.replicate count '1']

/-- The listing. -/
def overlong (count : Nat) : String :=
  String.ofList (Text.joinLines (overlongLines count))

/-- The lines of the overlong listing are cut where they were joined. -/
theorem linesOf_overlongLines (count : Nat) :
    linesOf (Text.joinLines (overlongLines count)) = overlongLines count := by
  have hplain : ∀ line ∈ overlongLines count, ∀ c ∈ line,
      Text.isLineBreak c = false ∧ Text.isBlank c = false := by
    simp only [overlongLines, List.forall_mem_cons, List.forall_mem_append]
    refine ⟨Text.forall_mem_of_all (by decide), Text.forall_mem_of_all (by decide),
      ⟨Text.forall_mem_of_all (by decide), fun c hc => ?_⟩, List.forall_mem_nil _⟩
    rw [List.eq_of_mem_replicate hc]
    decide
  rw [linesOf, Text.splitLines_joinLines _ fun line hline c hc => (hplain line hline c hc).1]
  refine (List.map_congr_left fun line hline => ?_).trans (List.map_id _)
  exact strip_eq_self fun c hc => (hplain line hline c hc).2

/-- The overlong listing has one block, whose line number has as many digits as asked for. -/
theorem blocks_overlongLines (count : Nat) :
    blocks (sections (overlongLines count)).2 =
      [(0x10, ["f".toList, "f.c:".toList ++ List.replicate count '1'])] :=
  rfl

theorem lineDigits?_replicate {count : Nat} (h : 0 < count) :
    lineDigits? (List.replicate count '1') = some (List.replicate count '1') := by
  obtain ⟨n, rfl⟩ := Nat.exists_eq_succ_of_ne_zero (Nat.ne_of_gt h)
  have hdigit : Text.isDecimalDigit '1' = true := by decide
  simp [lineDigits?, List.replicate_succ, hdigit, atEnd]

/-- A listing with a line number past the limit of digits is not legible. -/
theorem not_isLegible_overlong {count : Nat} (h : digitLimit < count) :
    ¬ IsLegible (overlong count) := by
  intro hlegible
  rw [IsLegible, overlong, String.toList_ofList, linesOf_overlongLines, blocks_overlongLines,
    List.forall_mem_singleton] at hlegible
  have hsplit : splitPlace? ("f.c".toList ++ ':' :: List.replicate count '1') =
      some ("f.c".toList, List.replicate count '1') :=
    splitPlace?_append (by decide) (by simp) (lineDigits?_replicate (by omega))
  have hle := hlegible _ List.mem_cons_self _ hsplit
  rw [List.length_replicate] at hle
  omega

end Listing

/-! ## the tool -/

/-- The run has an output that can be decoded and is legible, or the tool did not start, or it ended
with another status. -/
def ToolOutcome.IsLegible : ToolOutcome → Prop
  | ended status output _ => status = 0 → Listing.IsLegible output
  | notStarted _ => True
  | zeroInArgument => False
  | undecodable _ => False

/-- The run has an output, and it is legible. -/
def ToolOutcome.Succeeds (outcome : ToolOutcome) : Prop :=
  ∃ output complaints, outcome = .ended 0 output complaints ∧ Listing.IsLegible output

namespace Answers

/-- The answers of a run that ended with status zero are those of its output. -/
theorem ofOutcome_ended (tool path output complaints : String) :
    ofOutcome tool path (.ended 0 output complaints) = ofListing output.toList :=
  rfl

/-- It is a fault of the lookup if the tool does not start or ends with another status. -/
theorem harmless_ofOutcome_iff {tool path : String} {outcome : ToolOutcome} :
    Harmless Fault.IsLookup (ofOutcome tool path outcome) ↔ outcome.IsLegible := by
  cases outcome with
  | ended status output complaints =>
      by_cases hstatus : status = 0
      · rw [hstatus, ofOutcome_ended, (readsIf_ofListing output).harmless_iff]
        exact ⟨fun hlegible _ => hlegible, fun h => h rfl⟩
      · refine iff_of_true ?_ fun h => absurd h hstatus
        rw [ofOutcome, if_pos (by simpa using hstatus)]
        exact harmless_error.mpr ⟨_, rfl⟩
  | notStarted cause =>
      refine iff_of_true ?_ trivial
      cases cause <;> exact harmless_error.mpr ⟨_, rfl⟩
  | zeroInArgument =>
      refine iff_of_false ?_ id
      rw [ofOutcome, harmless_error]
      rintro ⟨cause, ⟨⟩⟩
  | undecodable cause =>
      refine iff_of_false ?_ id
      rw [ofOutcome, harmless_error]
      rintro ⟨cause, ⟨⟩⟩

/-- An outcome yields answers just if the run succeeds. -/
theorem exists_ofOutcome_iff {tool path : String} {outcome : ToolOutcome} :
    (∃ answers, ofOutcome tool path outcome = .ok answers) ↔ outcome.Succeeds := by
  constructor
  · rintro ⟨answers, h⟩
    obtain ⟨output, complaints, rfl⟩ := ended_of_ofOutcome h
    exact ⟨output, complaints, rfl, (readsIf_ofListing output).exists_ok_iff.mp ⟨answers, h⟩⟩
  · rintro ⟨output, complaints, rfl, hlegible⟩
    exact (readsIf_ofListing output).exists_ok_iff.mpr hlegible

/-- What becomes of the tool's runs for batches of addresses, one after the other. -/
def outcomes (tools : ToolRunner ω) (tool path : String) : List (List Int) → ω → List ToolOutcome
  | [], _ => []
  | batch :: rest, w =>
    let (outcome, w') := tools (command (some tool) path batch) w
    outcome :: outcomes tools tool path rest w'

/-- The tool is asked in the world outside, and nothing else changes. -/
theorem run_outsideAct_ask (tools : ToolRunner ω) (tool path : String) (batch : List Int)
    (env : Env (Workshop ω)) :
    (Workshop.outsideAct (ask tools (some tool) path batch)).run env =
      let (outcome, outside) := tools (command (some tool) path batch) env.world.outside
      (ofOutcome tool path outcome, { env with world := { env.world with outside } }) :=
  rfl

/-- Batches come to what the runs for them come to, up to the first that fails. -/
theorem fill_eq (tools : ToolRunner ω) (tool path : String) (memo : FrameMemo)
    (rest : List (List Int)) (env : Env (Workshop ω)) :
    (FrameMemo.fill (fun batch => Workshop.outsideAct (ask tools (some tool) path batch)) memo rest
        env).1.2 =
      (fun _ => ()) <$> (outcomes tools tool path rest env.world.outside).mapM
        (ofOutcome tool path) := by
  induction rest generalizing memo env with
  | nil => rfl
  | cons batch rest ih =>
      rw [FrameMemo.fill, Step.bind_apply, run_outsideAct_ask, outcomes, List.mapM_cons]
      simp only
      cases ofOutcome tool path (tools (command (some tool) path batch) env.world.outside).1 with
      | error fault => rfl
      | ok answers =>
          refine (ih (memo.learnAll answers batch) _).trans ?_
          cases (outcomes tools tool path rest
            (tools (command (some tool) path batch) env.world.outside).2).mapM
            (ofOutcome tool path) <;> rfl

end Answers

/-- What is made of a result does not change which faults it may fail with. -/
theorem harmless_map {kind : Fault → Prop} {r : Except Fault α} {f : α → β} :
    Harmless kind (f <$> r) ↔ Harmless kind r := by
  cases r with
  | ok a => exact iff_of_true (harmless_ok _) (harmless_ok a)
  | error fault => exact harmless_error.trans harmless_error.symm

/-- The result of an action whose answer is then mapped is the mapped result. -/
theorem Act.run_bind_pure_fst (x : Act ω α) (f : α → β) (env : Env ω) :
    ((do return f (← x)).run env).1 = f <$> (x.run env).1 := by
  rw [run_bind_apply]
  cases x.run env with
  | mk r env' => cases r <;> rfl

namespace Elf.Segment

/-! ## segments -/

variable {s : Segment} {object : OpenObject} {env : Env (Workshop ω)} {tools : ToolRunner ω}
  {tool : String}

/-- The state of an open segment is at hand, and looking at it changes nothing. -/
theorem run_state (hopen : env.world.segment? s.number = some object) :
    (s.state).run env = (.ok object, env) := by
  rw [state, Act.run_bind_apply, Workshop.run_look_apply]
  simp only [hopen]
  rfl

/-- The state of a closed segment is refused as a lookup fault. -/
theorem run_state_of_closed (hclosed : env.world.segment? s.number = none) :
    (s.state).run env = (.error (.lookup (.closed s.path)), env) := by
  rw [state, Act.run_bind_apply, Workshop.run_look_apply]
  simp only [hclosed]
  rfl

/-- The functions of the object, which may have been read before. -/
def functionsOf (s : Segment) (object : OpenObject) :
    Except Symbolication.Fault (List Symbol) :=
  match object.symbols with
  | some symbols => .ok symbols
  | none => (s.image.functions s.sections).mapError Fault.object

/-- The symbols of a segment are the functions of its object, kept or read anew. -/
theorem run_symbols_fst (env : Env (Workshop ω)) :
    ((s.symbols object).run env).1 = s.functionsOf object := by
  unfold symbols functionsOf
  cases object.symbols with
  | some symbols => rfl
  | none =>
      rw [Act.run_bind_apply, Act.run_result_apply]
      cases (s.image.functions s.sections).mapError Fault.object <;> rfl

/-- What a lookup answers: what is remembered of the address, or what the object or the tool
tells. -/
def answer (tools : ToolRunner ω) (tool : String) (s : Segment) (object : OpenObject) (outside : ω)
    (a : Int) : Except Symbolication.Fault (List Frame) :=
  match object.memo.frames? a with
  | some frames => .ok frames
  | none =>
    if s.fast then
      (symbolFrames · a) <$> s.functionsOf object
    else
      (Answers.frames · a) <$> Answers.ofOutcome tool s.path
        (tools (Answers.command (some tool) s.path [a]) outside).1

/-- A lookup in an open segment returns what the object answers at the object address. -/
theorem run_lookup_fst (hopen : env.world.segment? s.number = some object) (address : Int) :
    ((s.lookup tools (some tool) address).run env).1 =
      s.answer tools tool object env.world.outside (s.objectAddress address) := by
  -- What is remembered afterwards does not change the answer.
  have hremember (x : Act (Workshop ω) (List Frame)) :
      (((do
        let frames ← x
        return (object.memo.learn (s.objectAddress address) frames, frames)) >>= fun r => do
        s.remember r.1
        return r.2).run env).1 = (x.run env).1 := by
    rw [Act.run_bind_apply, Act.run_bind_apply]
    cases x.run env with
    | mk r env' => cases r <;> rfl
  rw [lookup, Act.run_bind_apply, run_state hopen]
  unfold answer
  cases hknown : object.memo.frames? (s.objectAddress address) with
  | some frames =>
      simp only [FrameMemo.lookup, hknown]
      rfl
  | none =>
      simp only [FrameMemo.lookup, hknown]
      refine (hremember _).trans ?_
      by_cases hfast : s.fast = true
      · rw [if_pos hfast, if_pos hfast, Act.run_bind_pure_fst _ fun symbols =>
          symbolFrames symbols (s.objectAddress address), run_symbols_fst]
      · rw [if_neg hfast, if_neg hfast, Act.run_bind_pure_fst _ fun answers =>
          Answers.frames answers (s.objectAddress address), Answers.run_outsideAct_ask]

/-- What looking up in advance comes to: nothing in the faster way, and else what the tool's runs
come to. -/
def advance (tools : ToolRunner ω) (tool : String) (s : Segment) (object : OpenObject)
    (outside : ω) (addresses : List Int) : Except Symbolication.Fault Unit :=
  if s.fast then
    .ok ()
  else
    (fun _ => ()) <$> (Answers.outcomes tools tool s.path
      (batches (object.memo.missing (addresses.map s.objectAddress))) outside).mapM
      (Answers.ofOutcome tool s.path)

/-- Looking up in advance remembers what it has learnt, also if a batch fails. -/
theorem run_prefetch_apply (hopen : env.world.segment? s.number = some object)
    (hfast : s.fast = false) (addresses : List Int) :
    (s.prefetch tools (some tool) addresses).run env =
      let missing := object.memo.missing (addresses.map s.objectAddress)
      let ((memo, ended), env') := FrameMemo.fill
        (fun batch => Workshop.outsideAct (Answers.ask tools (some tool) s.path batch)) object.memo
        (batches missing) env
      let world := env'.world.putSegment s.number
        { (env'.world.segment? s.number).getD {} with memo }
      match ended with
      | .ok _ => (.ok (), ({ env' with world } : Env (Workshop ω)).noting
          [.prefetched missing.length s.path])
      | .error fault => (.error fault, { env' with world }) := by
  rw [prefetch, Act.run_bind_apply, run_state hopen]
  simp only [hfast, Bool.not_false, if_true]
  generalize (fun batch => Workshop.outsideAct (Answers.ask tools (some tool) s.path batch)) =
    ask
  -- A batch that fails is an answer of this step, so that the memo is kept.
  have hlift : (liftM (FrameMemo.prefetch ask object.memo (addresses.map s.objectAddress)) :
      Act (Workshop ω) _).run env =
        (.ok (FrameMemo.prefetch ask object.memo (addresses.map s.objectAddress) env).1,
          (FrameMemo.prefetch ask object.memo (addresses.map s.objectAddress) env).2) := rfl
  rw [Act.run_bind_apply, hlift, FrameMemo.prefetch, Step.bind_apply]
  generalize FrameMemo.fill ask object.memo _ env = filled
  obtain ⟨⟨memo, ended⟩, env'⟩ := filled
  cases ended <;> rfl

/-- A prefetch into an open segment returns what advancing its memo does. -/
theorem run_prefetch_fst (hopen : env.world.segment? s.number = some object)
    (addresses : List Int) :
    ((s.prefetch tools (some tool) addresses).run env).1 =
      s.advance tools tool object env.world.outside addresses := by
  unfold advance
  cases hfast : s.fast with
  | true =>
      rw [prefetch, Act.run_bind_apply, run_state hopen]
      simp only [hfast, Bool.not_true, Bool.false_eq_true, if_false, if_true]
      rfl
  | false =>
      rw [run_prefetch_apply hopen hfast, ← Answers.fill_eq tools tool s.path object.memo]
      simp only [Bool.false_eq_true, if_false]
      generalize FrameMemo.fill _ object.memo _ env = filled
      obtain ⟨⟨memo, ended⟩, env'⟩ := filled
      cases ended <;> rfl

/-! ## lookups that fail as such -/

/-- Nothing but a fault of the lookup can come of looking the address up. -/
def LooksUpSafely (tools : ToolRunner ω) (tool : String) (s : Segment) (object : OpenObject)
    (outside : ω) (address : Int) : Prop :=
  object.memo.frames? (s.objectAddress address) = none →
    if s.fast then
      object.symbols = none → ∃ symbols, s.image.functions s.sections = .ok symbols
    else
      (tools (Answers.command (some tool) s.path [s.objectAddress address]) outside).1.IsLegible

/-- Nothing but a fault of the lookup can come of looking the addresses up in advance. -/
def PrefetchesSafely (tools : ToolRunner ω) (tool : String) (s : Segment) (object : OpenObject)
    (outside : ω) (addresses : List Int) : Prop :=
  s.fast = false → ∀ earlier outcome,
    earlier ++ [outcome] <+: Answers.outcomes tools tool s.path
      (batches (object.memo.missing (addresses.map s.objectAddress))) outside →
    (∀ e ∈ earlier, e.Succeeds) → outcome.IsLegible

/-- The functions of an object fail harmlessly if they are at hand or its image can be read. -/
theorem harmless_functionsOf_iff :
    Harmless Fault.IsLookup (s.functionsOf object) ↔
      (object.symbols = none → ∃ symbols, s.image.functions s.sections = .ok symbols) := by
  unfold functionsOf
  cases object.symbols with
  | some symbols => simp
  | none =>
      cases s.image.functions s.sections with
      | ok symbols => simp [Except.mapError]
      | error cause =>
          refine iff_of_false ?_ (by simp)
          rw [Except.mapError, harmless_error]
          rintro ⟨cause, ⟨⟩⟩

/-- The answer at an address fails harmlessly just if the lookup is safe. -/
theorem harmless_answer_iff {outside : ω} {address : Int} :
    Harmless Fault.IsLookup (s.answer tools tool object outside (s.objectAddress address)) ↔
      s.LooksUpSafely tools tool object outside address := by
  unfold answer LooksUpSafely
  cases object.memo.frames? (s.objectAddress address) with
  | some frames => simp
  | none =>
      simp only [forall_const]
      split
      · rw [harmless_map, harmless_functionsOf_iff]
      · rw [harmless_map, Answers.harmless_ofOutcome_iff]

/-- Advancing a memo fails harmlessly just if the prefetch is safe. -/
theorem harmless_advance_iff {outside : ω} {addresses : List Int} :
    Harmless Fault.IsLookup (s.advance tools tool object outside addresses) ↔
      s.PrefetchesSafely tools tool object outside addresses := by
  unfold advance PrefetchesSafely
  by_cases hfast : s.fast = true
  · simp [hfast]
  · simp only [hfast, Bool.false_eq_true, if_false, forall_const, harmless_map, harmless_mapM,
      Answers.exists_ofOutcome_iff, Answers.harmless_ofOutcome_iff]

/-- A segment that is not open can still be asked, and that is a fault of the lookup. -/
theorem harmless_lookup_iff {address : Int} :
    Harmless Fault.IsLookup ((s.lookup tools (some tool) address).run env).1 ↔
      ∀ object ∈ env.world.segment? s.number,
        s.LooksUpSafely tools tool object env.world.outside address := by
  cases hopen : env.world.segment? s.number with
  | none =>
      rw [lookup, Act.run_bind_apply, run_state_of_closed hopen]
      exact iff_of_true (harmless_error.mpr ⟨_, rfl⟩) (by simp)
  | some object =>
      rw [run_lookup_fst hopen, harmless_answer_iff]
      simp

/-- A prefetch fails harmlessly just if it is safe for the object, should the segment be open. -/
theorem harmless_prefetch_iff {addresses : List Int} :
    Harmless Fault.IsLookup ((s.prefetch tools (some tool) addresses).run env).1 ↔
      ∀ object ∈ env.world.segment? s.number,
        s.PrefetchesSafely tools tool object env.world.outside addresses := by
  cases hopen : env.world.segment? s.number with
  | none =>
      rw [prefetch, Act.run_bind_apply, run_state_of_closed hopen]
      exact iff_of_true (harmless_error.mpr ⟨_, rfl⟩) (by simp)
  | some object =>
      rw [run_prefetch_fst hopen, harmless_advance_iff]
      simp

/-- A tool that has the same output for any addresses. -/
def printing (output : String) : ToolRunner Unit :=
  fun _ w => (.ended 0 output "", w)

/-- The segment of other examples, opened. -/
def openedShifted : Env (Workshop Unit) :=
  ⟨({ outside := () } : Workshop Unit).putSegment shifted.number {}, []⟩

/-- The segment looked at in the faster way, with a symbol table that lies behind its end. -/
def truncated : Segment :=
  { shifted with
    fast := true
    sections :=
      let header := {
        nameOffset := 0, type := SectionType.symbols, flags := 0, offset := 0, size := 24
        link := 1, info := 0, entrySize := 24 }
      [{ name := ".symtab", header, strings := some header }] }

/-- Neither is a fault of the lookup that a line number is too long, nor that a symbol table is cut
off. -/
theorem lookup_fails_otherwise :
    (∃ digits, ((shifted.lookup (printing (overlong 4301)) (some "addr2line") 0x5010).run
      openedShifted).1 = .error (.numeralTooLong digits)) ∧
    (∃ digits, ((shifted.prefetch (printing (overlong 4301)) (some "addr2line") [0x5010]).run
      openedShifted).1 = .error (.numeralTooLong digits)) ∧
    ((truncated.lookup (printing "") (some "addr2line") 0x5010).run openedShifted).1 =
      .error (.object (.malformed (.cutOff 4 0))) := by
  obtain ⟨digits, hdigits⟩ : ∃ digits,
      Answers.ofListing (overlong 4301).toList = .error (.numeralTooLong digits) := by
    rcases readsIf_ofListing (overlong 4301) with ⟨hlegible, -⟩ | ⟨-, hlong⟩
    · exact absurd hlegible (not_isLegible_overlong (by decide))
    · exact hlong
  have hopen : openedShifted.world.segment? shifted.number = some {} := rfl
  have hanswer (output : String) :
      shifted.answer (printing output) "addr2line" {} () (shifted.objectAddress 0x5010) =
        (Answers.frames · (shifted.objectAddress 0x5010)) <$> Answers.ofListing output.toList := rfl
  have hadvance (output : String) :
      shifted.advance (printing output) "addr2line" {} () [0x5010] =
        (fun _ => ()) <$> [ToolOutcome.ended 0 output ""].mapM (Answers.ofOutcome "addr2line"
          shifted.path) := by
    have hmissing : ({} : FrameMemo).missing ([0x5010].map shifted.objectAddress) = [0x10] := rfl
    have hbatches : batches [0x10] = [[0x10]] := by simp [batches, batchSize]
    rw [advance, hmissing, hbatches]
    rfl
  refine ⟨⟨digits, ?_⟩, ⟨digits, ?_⟩, rfl⟩
  · rw [run_lookup_fst hopen, hanswer, hdigits]
    rfl
  · rw [run_prefetch_fst hopen, hadvance, List.mapM_cons, Answers.ofOutcome_ended, hdigits]
    rfl

end Elf.Segment

/-! ## the local pass -/

namespace Elf

section

variable (files : Files ω) (tools : ToolRunner ω) (tool : String) {τ : Type} [Label τ]
  (p : ProfileOf τ) (t : SegmentTable Segment)

/-- Nothing but a fault of the lookup can come of looking up the addresses of a mapping in
advance. -/
def PrefetchSafe (i : Nat) (w : Workshop ω) : Prop :=
  ∀ s ∈ t.get? (some i), ∀ object ∈ w.segment? s.number,
    s.PrefetchesSafely tools tool object w.outside (p.addressesIn i)

/-- Nothing but a fault of the lookup can come of looking up a location. -/
def LookupSafe (l : Location) (w : Workshop ω) : Prop :=
  ∀ s ∈ t.get? l.mapping, ∀ object ∈ w.segment? s.number,
    s.LooksUpSafely tools tool object w.outside l.address

/-- Nothing but faults of the lookup can come of what a pass looks up once it has its segments, in
advance and one by one. -/
structure GathersSafely (opened : Env (Workshop ω)) : Prop where
  prefetch : ∀ before i, before ++ [i] <+: p.segmentOrder t →
    let r := (LocalPass.prefetchEach (inspector files tools (some tool)) p t before).run opened
    r.1 = .ok () → PrefetchSafe tools tool p t i r.2.world
  lookup : ∀ ready,
    (LocalPass.prefetchEach (inspector files tools (some tool)) p t (p.segmentOrder t)).run opened =
        (.ok (), ready) →
      ∀ before l, before ++ [l] <+: p.locations →
        let r := LocalPass.lookupEach (inspector files tools (some tool)) p t before ready
        r.1.2 = .ok () → LookupSafe tools tool t l r.2.world

end

variable {files : Files ω} {tools : ToolRunner ω} {tool : String} {τ : Type} [Label τ]
  {p : ProfileOf τ} {t : SegmentTable Segment}

omit [Label τ] in
/-- The prefetches of a pass through real segments are harmless just if they are safe. -/
theorem prefetchHarmless_iff {i : Nat} {env : Env (Workshop ω)} :
    LocalPass.PrefetchHarmless (inspector files tools (some tool)) p t i env ↔
      PrefetchSafe tools tool p t i env.world := by
  simp only [LocalPass.PrefetchHarmless, PrefetchSafe, inspector, Option.mem_some, forall_eq',
    Segment.harmless_prefetch_iff]

/-- The lookups of a pass through real segments are harmless just if they are safe. -/
theorem lookupHarmless_iff {l : Location} {env : Env (Workshop ω)} :
    LocalPass.LookupHarmless (inspector files tools (some tool)) t l env ↔
      LookupSafe tools tool t l env.world := by
  simp only [LocalPass.LookupHarmless, LookupSafe, inspector, Segment.harmless_lookup_iff]

/-- Gathering through real segments is harmless just if every prefetch and lookup it makes is safe.
-/
theorem gathersHarmlessly_iff {opened : Env (Workshop ω)} :
    LocalPass.GathersHarmlessly (inspector files tools (some tool)) p t opened ↔
      GathersSafely files tools tool p t opened := by
  constructor
  · intro h
    exact {
      prefetch := fun before i hprefix hok =>
        prefetchHarmless_iff.mp (h.prefetch before i hprefix hok)
      lookup := fun ready hready before l hprefix hok =>
        lookupHarmless_iff.mp (h.lookup ready hready before l hprefix hok) }
  · intro h
    exact {
      prefetch := fun before i hprefix hok =>
        prefetchHarmless_iff.mpr (h.prefetch before i hprefix hok)
      lookup := fun ready hready before l hprefix hok =>
        lookupHarmless_iff.mpr (h.lookup ready hready before l hprefix hok) }

/-- Looking up an address, or addresses in advance, fails as a lookup only, if at all, exactly when
the line numbers and symbol tables that it comes to can be read, what the tool writes is UTF-8 and
no argument for it holds a zero character. A local pass that has its segments comes to its end
exactly when this is so of all of its lookups. -/
theorem harmless_lookups_iff (files : Files ω) (tools : ToolRunner ω) (tool : String) :
    (∀ (s : Segment) (env : Env (Workshop ω)),
      (∀ address, Harmless Fault.IsLookup ((s.lookup tools (some tool) address).run env).1 ↔
        ∀ object ∈ env.world.segment? s.number,
          s.LooksUpSafely tools tool object env.world.outside address) ∧
      ∀ addresses, Harmless Fault.IsLookup ((s.prefetch tools (some tool) addresses).run env).1 ↔
        ∀ object ∈ env.world.segment? s.number,
          s.PrefetchesSafely tools tool object env.world.outside addresses) ∧
    ∀ (p : Profile) (force fast : Bool) (t : SegmentTable Segment) (env opened : Env (Workshop ω)),
      (SegmentTable.ofProfile (inspector files tools (some tool)) force p).run
        ((inspector files tools (some tool)).entry fast env) = (.ok t, opened) →
      ((p.symbolizeLocally (inspector files tools (some tool)) force fast env).1.2 = .ok () ↔
        GathersSafely files tools tool p t opened) := by
  refine ⟨fun s env => ⟨fun _ => Segment.harmless_lookup_iff, fun _ =>
    Segment.harmless_prefetch_iff⟩, fun p force fast t env opened hopen => ?_⟩
  have hclose := closes_inspector files tools (some tool)
  exact (symbolizeLocally_eq_ok_iff hclose hopen).trans gathersHarmlessly_iff

/-! ### a pass -/

namespace Segment

/-- An executable without sections. -/
def bareObject : List UInt8 :=
  [0x7F, 0x45, 0x4C, 0x46, 2, 1, 1] ++ List.replicate 9 0 ++ [2, 0, 62] ++ List.replicate 45 0

/-- Files that are all that executable and cannot be written. -/
def bareFiles : Files Unit where
  isFile _ _ := .ok true
  read _ w := (.ok bareObject, w)
  write path _ w := (.error (.denied path), w)

/-- The executable, opened. -/
def bare : Segment :=
  { shifted with
    base := 0
    image := {
      bytes := bareObject.toArray, wide := true, littleEndian := true
      header := { shifted.image.header with type := .executable } } }

/-- A profile with a location in the executable. -/
def bareProfile : Profile where
  mappings := [{ id := 1, start := 0, limit := 0x1000, file := "/bin/app", buildId := "" }]
  locations := [{ id := 1, address := 0x10, mapping := some 0 }]

/-- The segments of a pass over the profile. -/
def bareTable : SegmentTable Segment :=
  { entries := [(0, bare)] }

/-- How things are once the pass has its segments. -/
def openedBare : Env (Workshop Unit) where
  world := ({ outside := (), asked := 1 } : Workshop Unit).putSegment 0 {}
  notices := [.objectOpened "/bin/app" 0 "" false, .opened 1 1]

/-- The bare object is opened, and its opening noticed. -/
theorem run_openSegment_bare (env : Env Unit) :
    (openSegment bareFiles 0 false ⟨"/bin/app", 0, 0x1000, 0⟩).run env =
      (.ok bare, env.noting [.objectOpened "/bin/app" 0 "" false]) := by
  have hpath : Files.checkPath "/bin/app" = .ok () := by
    simp [Files.checkPath]
  have hread : (readObject bareFiles "/bin/app").run env = (.ok bareObject, env) := by
    rw [readObject, Files.access, hpath]
    rfl
  rw [openSegment, Act.run_bind_apply, hread]
  rfl

theorem run_openNext_bare :
    (openNext bareFiles ⟨"/bin/app", 0, 0x1000, 0⟩).run { world := { outside := () } } =
      (.ok bare, ⟨openedBare.world, [.objectOpened "/bin/app" 0 "" false]⟩) := by
  rw [run_openNext_apply, run_openSegment_bare]
  rfl

/-- The table of the bare profile holds the bare segment alone. -/
theorem run_ofProfile_bare (tools : ToolRunner Unit) :
    let inspector := inspector bareFiles tools (some "addr2line")
    (SegmentTable.ofProfile inspector false bareProfile).run
      (inspector.entry false { world := { outside := () } }) = (.ok bareTable, openedBare) := by
  intro inspector
  have hstanding : bareProfile.standing false 0 bareProfile.mappings[0] =
      .candidate "/bin/app" := by
    decide +kernel
  have hopens : SegmentTable.Opens inspector false bareProfile { world := { outside := () } } {}
      bareProfile.mappings.zipIdx bareTable
      ⟨openedBare.world, [.objectOpened "/bin/app" 0 "" false]⟩ :=
    .cons (.opened hstanding run_openNext_bare rfl) .nil
  exact SegmentTable.run_ofProfile_of_opens hopens

/-- Every run of a tool that always prints one text ends with it. -/
theorem eq_of_mem_outcomes_printing {output tool path : String} {outcome : ToolOutcome}
    {batches : List (List Int)}
    (h : outcome ∈ Answers.outcomes (printing output) tool path batches ()) :
    outcome = .ended 0 output "" := by
  induction batches with
  | nil => cases h
  | cons batch rest ih =>
      rcases List.mem_cons.mp h with rfl | h
      · rfl
      · exact ih h

/-- The bare table holds no segment but the bare one. -/
theorem eq_bare_of_mem_get? {s : Segment} {mapping : Option Nat}
    (h : s ∈ bareTable.get? mapping) : s = bare := by
  obtain ⟨i, -, hi⟩ := Option.bind_eq_some_iff.mp h
  rw [bareTable, List.lookup_cons] at hi
  split at hi
  · exact (Option.some.inj hi).symm
  · cases hi

/-- Gathering for the bare profile is safe with a tool that prints a legible text. -/
theorem gathersSafely_bare {output : String} (h : IsLegible output) :
    GathersSafely bareFiles (printing output) "addr2line" bareProfile bareTable openedBare where
  prefetch _ _ _ _ _ _ _ _ _ _ outcome hstart _ := by
    have houtcome : outcome = .ended 0 output "" :=
      eq_of_mem_outcomes_printing (hstart.subset (by simp))
    subst houtcome
    exact fun _ => h
  lookup _ _ _ _ _ _ s hs _ _ _ := by
    rw [eq_bare_of_mem_get? hs]
    exact fun _ => h

/-- A line number of 4301 digits breaks off the pass, and one of a single digit does not. -/
theorem harmless_lookups_iff_overlong :
    let ended (output : String) := (bareProfile.symbolizeLocally
      (inspector bareFiles (printing output) (some "addr2line")) false false
      { world := { outside := () } }).1.2
    ended (overlong 4301) ≠ .ok () ∧ ended "0x10\nf\nf.c:7\n" = .ok () := by
  intro ended
  have hiff (output : String) : ended output = .ok () ↔
      GathersSafely bareFiles (printing output) "addr2line" bareProfile bareTable openedBare :=
    (harmless_lookups_iff bareFiles (printing output) "addr2line").2 bareProfile false false
      bareTable _ openedBare (run_ofProfile_bare _)
  constructor
  · rw [ne_eq, hiff]
    intro hsafe
    have hbatches : batches [0x10] = [[0x10]] := by simp [batches, batchSize]
    have hlegible : ToolOutcome.IsLegible (.ended 0 (overlong 4301) "") :=
      hsafe.prefetch [] 0 (List.prefix_refl _) rfl bare rfl {} rfl rfl [] _
        (hbatches ▸ List.prefix_refl _) (List.forall_mem_nil _)
    exact not_isLegible_overlong (by decide) (hlegible rfl)
  · rw [hiff]
    exact gathersSafely_bare ((readsIf_ofListing "0x10\nf\nf.c:7\n").exists_ok_iff.mp ⟨_, rfl⟩)

end Segment

end Elf

end Symbolication
