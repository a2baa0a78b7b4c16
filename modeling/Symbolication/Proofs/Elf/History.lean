import Symbolication.Proofs.Elf.Failing
import Symbolication.Proofs.Elf.Runs

/-!
# Symbolication.Proofs.Elf.History

What the runs of the tool are about, over all uses of a segment.  An address is asked
about only while it is not known, and it is known from the first run that succeeds:

* `FrameMemo.Asks` — runs for batches one after another, up to the first that fails;
* `Segment.Served`, `Segment.serve` — uses of a segment with the runs that each takes;
* `Segment.History` — each use makes the runs for what is not known when it begins;
* `Segment.batches_serve` — what follows for the runs of all uses together.
-/

namespace Symbolication

variable {ω : Type}

/-- The run has an output that can be read. -/
def ToolRun.Succeeds (run : ToolRun) : Prop :=
  run.outcome.Succeeds

namespace FrameMemo

/-! ## runs for batches -/

/-- The tool is run for batches one after another, up to the first run that fails; what it tells is
remembered. -/
inductive Asks (tool path : String) :
    FrameMemo → List (List Int) → List ToolRun → FrameMemo → Except Fault Unit → Prop where
  /-- No batch is left. -/
  | done {memo : FrameMemo} : Asks tool path memo [] [] memo (.ok ())
  /-- The run for the first batch fails. -/
  | failed {memo : FrameMemo} {batch : List Int} {rest : List (List Int)} {outcome : ToolOutcome}
      {fault : Fault} (hfault : Answers.ofOutcome tool path outcome = .error fault) :
      Asks tool path memo (batch :: rest)
        [{ command := Answers.command (some tool) path batch, outcome }] memo (.error fault)
  /-- The run for the first batch has answers, and those for the others follow. -/
  | answered {memo memo' : FrameMemo} {batch : List Int} {rest : List (List Int)}
      {outcome : ToolOutcome} {answers : Answers} {runs : List ToolRun} {ended : Except Fault Unit}
      (hanswers : Answers.ofOutcome tool path outcome = .ok answers)
      (hrest : Asks tool path (memo.learnAll answers batch) rest runs memo' ended) :
      Asks tool path memo (batch :: rest)
        ({ command := Answers.command (some tool) path batch, outcome } :: runs) memo' ended

/-- Filling a memo batch by batch runs the tool for the batches in turn, and no further than a
failure. -/
theorem asks_fill (tools : ToolRunner ω) (tool path : String) (memo : FrameMemo)
    (batches : List (List Int)) (env : Env (Workshop (Watched ω (List ToolRun)))) :
    let ask (batch : List Int) :=
      Workshop.outsideAct (Answers.ask tools.watched (some tool) path batch)
    let r := fill ask memo batches env
    ∃ runs, r.2.world.outside.seen = env.world.outside.seen ++ runs ∧
      r.2.world = { env.world with outside := r.2.world.outside } ∧
      Asks tool path memo batches runs r.1.1 r.1.2 := by
  induction batches generalizing memo env with
  | nil => exact ⟨[], (List.append_nil _).symm, rfl, .done⟩
  | cons batch rest ih =>
      intro ask
      rw [fill, Step.bind_apply, Answers.run_outsideAct_ask]
      simp only [ToolRunner.watched]
      cases houtcome : tools (Answers.command (some tool) path batch) env.world.outside.world with
      | mk outcome world =>
          simp only
          cases hanswers : Answers.ofOutcome tool path outcome with
          | error fault => exact ⟨_, rfl, rfl, .failed hanswers⟩
          | ok answers =>
              obtain ⟨runs, hseen, hworld, hasks⟩ := ih (memo.learnAll answers batch) _
              refine ⟨_, ?_, hworld, .answered hanswers hasks⟩
              rw [hseen, List.append_assoc]
              rfl

namespace Asks

variable {tool path : String} {memo memo' : FrameMemo} {batches : List (List Int)}
  {runs : List ToolRun} {ended : Except Fault Unit}

/-- Without a batch there is no run. -/
theorem of_nil (h : Asks tool path memo [] runs memo' ended) : runs = [] ∧ ended = .ok () := by
  cases h
  exact ⟨rfl, rfl⟩

/-- Runs are for batches, in their order. -/
theorem commands (h : Asks tool path memo batches runs memo' ended) :
    runs.map (·.command) <+: batches.map (Answers.command (some tool) path) := by
  induction h with
  | done => exact List.prefix_rfl
  | failed _ => exact List.cons_prefix_cons.mpr ⟨rfl, List.nil_prefix⟩
  | answered _ _ ih => exact List.cons_prefix_cons.mpr ⟨rfl, ih⟩

/-- Where all goes well there is a run for each batch, and they all succeed. -/
theorem of_ok (h : Asks tool path memo batches runs memo' ended) (hok : ended = .ok ()) :
    runs.map (·.command) = batches.map (Answers.command (some tool) path) ∧
      ∀ run ∈ runs, run.Succeeds := by
  induction h with
  | done => exact ⟨rfl, List.forall_mem_nil _⟩
  | failed _ => cases hok
  | answered hanswers _ ih =>
      obtain ⟨hcommands, hall⟩ := ih hok
      refine ⟨congrArg _ hcommands, List.forall_mem_cons.mpr ⟨?_, hall⟩⟩
      exact Answers.exists_ofOutcome_iff.mp ⟨_, hanswers⟩

/-- What successful runs are about is known afterwards, and nothing else is new. -/
theorem knows_iff (h : Asks tool path memo batches runs memo' ended) {a : Int} :
    memo'.Knows a ↔ memo.Knows a ∨ ∃ run ∈ runs, run.Succeeds ∧ run.IsAbout a := by
  induction h with
  | done => simp
  | @failed _ batch _ outcome fault hfault =>
      have hfails : ¬ outcome.Succeeds := by
        intro hsucceeds
        obtain ⟨answers, hanswers⟩ :
            ∃ answers, Answers.ofOutcome tool path outcome = .ok answers :=
          Answers.exists_ofOutcome_iff.mpr hsucceeds
        rw [hfault] at hanswers
        cases hanswers
      simp [ToolRun.Succeeds, hfails]
  | @answered _ _ batch _ outcome answers _ _ hanswers _ ih =>
      have hsucceeds : outcome.Succeeds := Answers.exists_ofOutcome_iff.mp ⟨_, hanswers⟩
      have hfirst : ({ command := Answers.command (some tool) path batch, outcome } :
          ToolRun).Succeeds := hsucceeds
      have habout : ({ command := Answers.command (some tool) path batch, outcome } :
          ToolRun).IsAbout a ↔ a ∈ batch := ToolRun.isAbout_iff rfl
      rw [ih, knows_learnAll, or_assoc]
      simp only [List.mem_cons, exists_eq_or_imp, hfirst, habout, true_and]

/-- There is a run for the first batch. -/
theorem exists_first {batch : List Int} {rest : List (List Int)}
    (h : Asks tool path memo (batch :: rest) runs memo' ended) :
    ∃ run ∈ runs, run.command = Answers.command (some tool) path batch := by
  cases h with
  | failed _ => exact ⟨_, List.mem_cons_self, rfl⟩
  | answered _ _ => exact ⟨_, List.mem_cons_self, rfl⟩

/-- Every run is for a batch. -/
theorem exists_batch (h : Asks tool path memo batches runs memo' ended) {run : ToolRun}
    (hrun : run ∈ runs) :
    ∃ batch ∈ batches, run.command = Answers.command (some tool) path batch := by
  obtain ⟨batch, hbatch, hcommand⟩ :=
    List.mem_map.mp (h.commands.subset (List.mem_map_of_mem hrun))
  exact ⟨batch, hbatch, hcommand.symm⟩

/-- No two runs are about the same address if no two batches have it. -/
theorem pairwise (h : Asks tool path memo batches runs memo' ended)
    (hnodup : batches.flatten.Nodup) :
    runs.Pairwise fun earlier later => ∀ a, earlier.IsAbout a → ¬ later.IsAbout a := by
  induction h with
  | done => exact .nil
  | failed _ => exact List.pairwise_singleton _ _
  | @answered memo _ batch rest outcome answers runs ended hanswers hrest ih =>
      rw [List.flatten_cons, List.nodup_append] at hnodup
      refine .cons ?_ (ih hnodup.2.1)
      intro later hlater a hearlier habout
      obtain ⟨batch', hbatch', hcommand⟩ := hrest.exists_batch hlater
      rw [ToolRun.isAbout_iff rfl] at hearlier
      rw [ToolRun.isAbout_iff hcommand] at habout
      exact hnodup.2.2 a hearlier a (List.mem_flatten_of_mem hbatch' habout) rfl

end Asks

end FrameMemo

/-! ## segments -/

namespace Elf.Segment

variable {s : Segment}

/-- The batches that a use of a segment makes of the addresses that are not known. -/
def batchesFor (s : Segment) (memo : FrameMemo) : Use → List (List Int)
  | .prefetch addresses => batches (memo.missing (addresses.map s.objectAddress))
  | .lookup address =>
    if (memo.frames? (s.objectAddress address)).isSome then [] else [[s.objectAddress address]]

/-- What a segment does when it is used. There are no frames in advance. -/
def answerTo (tools : ToolRunner ω) (tool : Option String) (s : Segment) :
    Use → Act (Workshop ω) (List Frame)
  | .prefetch addresses => do
    s.prefetch tools tool addresses
    return []
  | .lookup address => s.lookup tools tool address

/-- Turning the end of a prefetch into an answer leaves its effects as they are. -/
theorem run_answerTo_prefetch_snd (tools : ToolRunner ω) (tool : Option String)
    (addresses : List Int) (env : Env (Workshop ω)) :
    ((s.answerTo tools tool (.prefetch addresses)).run env).2 =
      ((s.prefetch tools tool addresses).run env).2 := by
  rw [answerTo, Act.run_bind_apply]
  cases (s.prefetch tools tool addresses).run env with
  | mk r env' => cases r <;> rfl

section

variable {object : OpenObject} {w : Workshop ω}

/-- A segment that is open remembers what it is given to remember. -/
theorem segment?_remembered (hopen : w.segment? s.number = some object) (memo : FrameMemo) :
    (w.putSegment s.number { (w.segment? s.number).getD {} with memo }).segment? s.number =
      some { object with memo } := by
  rw [Workshop.segment?_putSegment, if_pos rfl, hopen]
  rfl

/-- What is put under one number is not found under another. -/
theorem segment?_of_ne {number : Nat} (hne : number ≠ s.number) (object : OpenObject) :
    (w.putSegment s.number object).segment? number = w.segment? number := by
  rw [Workshop.segment?_putSegment, if_neg hne]

end

/-- A use makes the runs for its batches, from an environment to another. -/
structure Takes (tool : String) (s : Segment) (use : Use) (object : OpenObject)
    (env : Env (Workshop (Watched ω (List ToolRun))))
    (r : Except Symbolication.Fault (List Frame) × Env (Workshop (Watched ω (List ToolRun))))
    (runs : List ToolRun) (memo : FrameMemo) (ended : Except Symbolication.Fault Unit) : Prop where
  seen : r.2.world.outside.seen = env.world.outside.seen ++ runs
  segment : r.2.world.segment? s.number = some { object with memo }
  others : ∀ number ≠ s.number, r.2.world.segment? number = env.world.segment? number
  asked : r.2.world.asked = env.world.asked
  asks : FrameMemo.Asks tool s.path object.memo (s.batchesFor object.memo use) runs memo ended
  ended_iff : (∃ frames, r.1 = .ok frames) ↔ ended = .ok ()

variable {object : OpenObject} {env : Env (Workshop (Watched ω (List ToolRun)))}

/-- A prefetch takes the runs for its missing batches, and remembers what they answered. -/
theorem takes_prefetch (hfast : s.fast = false)
    (hopen : env.world.segment? s.number = some object) (tools : ToolRunner ω) (tool : String)
    (addresses : List Int) :
    ∃ runs memo ended, Takes tool s (.prefetch addresses) object env
      ((s.answerTo tools.watched (some tool) (.prefetch addresses)).run env) runs memo ended := by
  obtain ⟨runs, hseen, hworld, hasks⟩ := FrameMemo.asks_fill tools tool s.path object.memo
    (s.batchesFor object.memo (.prefetch addresses)) env
  rw [answerTo, Act.run_bind_apply, run_prefetch_apply hopen hfast]
  rw [batchesFor] at hseen hworld hasks
  simp only
  generalize FrameMemo.fill _ object.memo _ env = filled at hseen hworld hasks ⊢
  obtain ⟨⟨memo, ended⟩, env'⟩ := filled
  have hkept (number : Nat) : env'.world.segment? number = env.world.segment? number := by
    rw [hworld]
    rfl
  have hasked : env'.world.asked = env.world.asked := by rw [hworld]
  refine ⟨runs, memo, ended, ?_⟩
  cases ended with
  | ok _ =>
      exact ⟨hseen, segment?_remembered ((hkept _).trans hopen) memo,
        fun number hne => (segment?_of_ne hne _).trans (hkept number), hasked, hasks,
        iff_of_true ⟨_, rfl⟩ rfl⟩
  | error fault =>
      exact ⟨hseen, segment?_remembered ((hkept _).trans hopen) memo,
        fun number hne => (segment?_of_ne hne _).trans (hkept number), hasked, hasks,
        iff_of_false (by rintro ⟨_, ⟨⟩⟩) (by rintro ⟨⟩)⟩

/-- A lookup takes one run at most, for its own object address. -/
theorem takes_lookup (hfast : s.fast = false)
    (hopen : env.world.segment? s.number = some object) (tools : ToolRunner ω) (tool : String)
    (address : Int) :
    ∃ runs memo ended, Takes tool s (.lookup address) object env
      ((s.answerTo tools.watched (some tool) (.lookup address)).run env) runs memo ended := by
  rw [answerTo, lookup, Act.run_bind_apply, run_state hopen]
  simp only [hfast, Bool.false_eq_true, if_false]
  rw [Act.run_bind_apply, FrameMemo.lookup]
  cases hknown : object.memo.frames? (s.objectAddress address) with
  | some frames =>
      refine ⟨[], object.memo, .ok (), (List.append_nil _).symm, segment?_remembered hopen _,
        fun number hne => segment?_of_ne hne _, rfl, ?_, iff_of_true ⟨_, rfl⟩ rfl⟩
      rw [batchesFor, hknown]
      exact .done
  | none =>
      have hbatches : s.batchesFor object.memo (.lookup address) = [[s.objectAddress address]] := by
        rw [batchesFor, hknown]
        rfl
      simp only
      rw [Act.run_bind_apply, Act.run_bind_apply, Answers.run_outsideAct_ask]
      simp only [ToolRunner.watched]
      cases houtcome : tools (Answers.command (some tool) s.path [s.objectAddress address])
          env.world.outside.world with
      | mk outcome world =>
          simp only
          cases hanswers : Answers.ofOutcome tool s.path outcome with
          | error fault =>
              refine ⟨_, object.memo, .error fault, rfl, hopen, fun _ _ => rfl, rfl, ?_,
                iff_of_false (by rintro ⟨_, ⟨⟩⟩) (by rintro ⟨⟩)⟩
              rw [hbatches]
              exact .failed hanswers
          | ok answers =>
              refine ⟨_, _, .ok (), rfl, segment?_remembered hopen _,
                fun number hne => segment?_of_ne hne _, rfl, ?_, iff_of_true ⟨_, rfl⟩ rfl⟩
              rw [hbatches]
              exact .answered hanswers .done

/-- Every use makes runs for what it needs and is not known. -/
theorem takes_answerTo (hfast : s.fast = false)
    (hopen : env.world.segment? s.number = some object) (tools : ToolRunner ω) (tool : String)
    (use : Use) :
    ∃ runs memo ended, Takes tool s use object env
      ((s.answerTo tools.watched (some tool) use).run env) runs memo ended := by
  cases use with
  | prefetch addresses => exact takes_prefetch hfast hopen tools tool addresses
  | lookup address => exact takes_lookup hfast hopen tools tool address

/-! ### uses one after another -/

/-- A use of a segment, with the runs of the tool that it took, and how it ended. -/
structure Served where
  /-- The use. -/
  use : Use
  /-- The runs. -/
  runs : List ToolRun
  /-- How it ended; there are no frames in advance. -/
  ended : Except Symbolication.Fault (List Frame)

/-- What became of a lookup. -/
def Served.answer? (served : Served) : Option (Except Symbolication.Fault (List Frame)) :=
  served.use.address?.map fun _ => served.ended

/-- The environment with an empty record. -/
def unrecorded (env : Env (Workshop (Watched ω (List ToolRun)))) :
    Env (Workshop (Watched ω (List ToolRun))) :=
  { env with world := { env.world with outside := { env.world.outside with seen := [] } } }

/-- Uses a segment again and again, with a new record each time. -/
def serve (tools : ToolRunner ω) (tool : Option String) (s : Segment) :
    List Use → Step (Workshop (Watched ω (List ToolRun))) (List Served)
  | [] => return []
  | use :: rest => do
    modify unrecorded
    let ended ← (s.answerTo tools.watched tool use).run
    let runs := (← get).world.outside.seen
    return { use, runs, ended } :: (← serve tools tool s rest)

/-- The first of several uses is served before the rest, and its runs are recorded for it. -/
theorem serve_cons (tools : ToolRunner ω) (tool : Option String) (use : Use) (rest : List Use)
    (env : Env (Workshop (Watched ω (List ToolRun)))) :
    (s.serve tools tool (use :: rest) env).1 =
      let r := (s.answerTo tools.watched tool use).run (unrecorded env)
      { use, runs := r.2.world.outside.seen, ended := r.1 } :: (s.serve tools tool rest r.2).1 :=
  rfl

/-- Uses one after another, from what is known at the beginning on. -/
inductive History (tool : String) (s : Segment) : FrameMemo → List Served → Prop where
  /-- No use is left. -/
  | nil {memo : FrameMemo} : History tool s memo []
  /-- The first use makes its runs, and then come the others. -/
  | cons {memo memo' : FrameMemo} {served : Served} {rest : List Served}
      {ended : Except Symbolication.Fault Unit}
      (hasks : FrameMemo.Asks tool s.path memo (s.batchesFor memo served.use) served.runs memo'
        ended)
      (hended : (∃ frames, served.ended = .ok frames) ↔ ended = .ok ())
      (hrest : History tool s memo' rest) : History tool s memo (served :: rest)

/-- The uses of an open segment make a history that begins with its memo. -/
theorem history_serve (hfast : s.fast = false) (tools : ToolRunner ω) (tool : String)
    (uses : List Use) (hopen : env.world.segment? s.number = some object) :
    History tool s object.memo (s.serve tools (some tool) uses env).1 := by
  induction uses generalizing object env with
  | nil => exact .nil
  | cons use rest ih =>
      rw [serve_cons]
      have hcleared : (unrecorded env).world.segment? s.number = some object := hopen
      obtain ⟨runs, memo, ended, htakes⟩ := takes_answerTo hfast hcleared tools tool use
      have hruns : ((s.answerTo tools.watched (some tool) use).run
          (unrecorded env)).2.world.outside.seen = runs := htakes.seen
      rw [← hruns] at htakes
      exact .cons htakes.asks htakes.ended_iff (ih htakes.segment)

/-- Each use is served once, in the order in which they are asked for. -/
theorem uses_serve (tools : ToolRunner ω) (tool : String) (uses : List Use) :
    (s.serve tools (some tool) uses env).1.map (·.use) = uses := by
  induction uses generalizing env with
  | nil => rfl
  | cons use rest ih =>
      rw [serve_cons]
      exact congrArg _ ih

/-- The record changes no answer. -/
theorem answers_serve (tools : ToolRunner ω) (tool : Option String) (uses : List Use) :
    (s.serve tools tool uses env).1.filterMap Served.answer? =
      (s.use tools tool uses (env.through (Workshop.through Watched.world))).1 := by
  induction uses generalizing env with
  | nil => rfl
  | cons use rest ih =>
      have hplain : env.through (Workshop.through Watched.world) =
          (unrecorded env).through (Workshop.through Watched.world) := rfl
      have htools := ToolRunner.shows_watched tools
      rw [serve_cons, hplain]
      cases use with
      | prefetch addresses =>
          rw [Segment.use, Step.bind_apply, s.shows_prefetch htools tool addresses (unrecorded env),
            ← run_answerTo_prefetch_snd]
          exact ih
      | lookup address =>
          rw [Segment.use, Step.bind_apply, s.shows_lookup htools tool address (unrecorded env),
            Except.map_id]
          exact congrArg (_ :: ·) ih

/-! ## what follows from the history -/

section

variable {memo : FrameMemo} {use : Use}

/-- No address has two places in the batches of a use. -/
theorem nodup_batchesFor : (s.batchesFor memo use).flatten.Nodup := by
  cases use with
  | prefetch addresses =>
      rw [batchesFor, flatten_batches]
      exact ((pairwise_ascending _).filter _).imp fun hlt => Int.ne_of_lt hlt
  | lookup address =>
      rw [batchesFor]
      split <;> simp

/-- What is known needs no run. -/
theorem not_knows_of_mem_batchesFor {batch : List Int} {a : Int}
    (hbatch : batch ∈ s.batchesFor memo use) (ha : a ∈ batch) : ¬ memo.Knows a := by
  cases use with
  | prefetch addresses =>
      have hmem := List.mem_flatten_of_mem hbatch ha
      rw [batchesFor, flatten_batches, FrameMemo.mem_missing] at hmem
      exact hmem.2
  | lookup address =>
      rw [batchesFor] at hbatch
      split at hbatch
      · cases hbatch
      · rename_i hunknown
        rw [List.mem_singleton.mp hbatch, List.mem_singleton] at ha
        rw [FrameMemo.Knows, ha, ← Option.isSome_iff_exists]
        exact hunknown

/-- The addresses of a run, by what the segment is used for. -/
def Use.Permits (s : Segment) (asked : List Int) : Use → Prop
  | prefetch _ => 0 < asked.length ∧ asked.length ≤ 512 ∧ asked.Pairwise (· < ·)
  | lookup address => asked = [address - s.base]

/-- Every batch of a use is one that the use permits. -/
theorem permits_of_mem_batchesFor {batch : List Int} (h : batch ∈ s.batchesFor memo use) :
    use.Permits s batch := by
  cases use with
  | prefetch addresses =>
      obtain ⟨hpos, hle⟩ := length_of_mem_batches h
      exact ⟨hpos, hle, FrameMemo.pairwise_of_mem_batches h ((pairwise_ascending _).filter _)⟩
  | lookup address =>
      rw [batchesFor] at h
      split at h
      · cases h
      · exact List.mem_singleton.mp h

end

namespace History

variable {tool : String} {memo : FrameMemo} {served before rest : List Served} {x : Served}

/-- After some uses, what was known at the beginning is known, and what successful runs were
about. -/
theorem exists_rest (h : History tool s memo (before ++ rest)) :
    ∃ memo', History tool s memo' rest ∧ ∀ a, memo'.Knows a ↔
      memo.Knows a ∨ ∃ run ∈ before.flatMap (·.runs), run.Succeeds ∧ run.IsAbout a := by
  induction before generalizing memo with
  | nil => exact ⟨memo, h, fun a => by simp⟩
  | cons first before ih =>
      cases h with
      | cons hasks _ hrest =>
          obtain ⟨memo', hhistory, hknows⟩ := ih hrest
          refine ⟨memo', hhistory, fun a => ?_⟩
          rw [hknows, hasks.knows_iff, List.flatMap_cons, or_assoc]
          simp only [List.mem_append, or_and_right, exists_or]

/-- No run is about what is known. -/
theorem not_isAbout_of_knows (h : History tool s memo served) {a : Int} (ha : memo.Knows a)
    {run : ToolRun} (hrun : run ∈ served.flatMap (·.runs)) : ¬ run.IsAbout a := by
  induction h with
  | nil => cases hrun
  | cons hasks _ _ ih =>
      rw [List.flatMap_cons, List.mem_append] at hrun
      rcases hrun with hrun | hrun
      · obtain ⟨batch, hbatch, hcommand⟩ := hasks.exists_batch hrun
        rw [ToolRun.isAbout_iff hcommand]
        exact fun hmem => not_knows_of_mem_batchesFor hbatch hmem ha
      · exact ih (hasks.knows_iff.mpr (.inl ha)) hrun

/-- Once a run about an address has succeeded there is none about it any more. -/
theorem pairwise (h : History tool s memo served) :
    (served.flatMap (·.runs)).Pairwise fun earlier later =>
      earlier.Succeeds → ∀ a, earlier.IsAbout a → ¬ later.IsAbout a := by
  induction h with
  | nil => exact .nil
  | cons hasks _ hrest ih =>
      rw [List.flatMap_cons, List.pairwise_append]
      refine ⟨(hasks.pairwise nodup_batchesFor).imp fun hapart _ a => hapart a, ih, ?_⟩
      intro earlier hearlier later hlater hsucceeds a habout
      have hknows := hasks.knows_iff.mpr (.inr ⟨earlier, hearlier, hsucceeds, habout⟩)
      exact hrest.not_isAbout_of_knows hknows hlater

/-- Each run is one that its use permits. -/
theorem permits (h : History tool s memo served) (hx : x ∈ served) {run : ToolRun}
    (hrun : run ∈ x.runs) :
    ∃ asked, run.command = Answers.command (some tool) s.path asked ∧ x.use.Permits s asked := by
  obtain ⟨before, after, rfl⟩ := List.append_of_mem hx
  obtain ⟨memo', hhistory, -⟩ := h.exists_rest
  cases hhistory with
  | cons hasks _ _ =>
      obtain ⟨batch, hbatch, hcommand⟩ := hasks.exists_batch hrun
      exact ⟨batch, hcommand, permits_of_mem_batchesFor hbatch⟩

/-- A lookup makes at most one run, and none where the address is known. -/
theorem runs_of_lookup (h : History tool s memo served) (hx : x ∈ served)
    {address : Int} (huse : x.use = .lookup address) :
    x.runs.length ≤ 1 ∧ (memo.Knows (s.objectAddress address) →
      x.runs = [] ∧ ∃ frames, x.ended = .ok frames) := by
  induction h with
  | nil => cases hx
  | @cons memo _ first rest _ hasks hended _ ih =>
      rcases List.mem_cons.mp hx with rfl | hx
      · rw [huse, batchesFor] at hasks
        constructor
        · have hle := hasks.commands.length_le
          rw [List.length_map, List.length_map] at hle
          refine Nat.le_trans hle ?_
          split <;> simp
        · intro hknows
          rw [if_pos (Option.isSome_iff_exists.mpr hknows)] at hasks
          obtain ⟨hruns, hok⟩ := hasks.of_nil
          exact ⟨hruns, hended.mpr hok⟩
      · obtain ⟨hle, hnone⟩ := ih hx
        exact ⟨hle, fun hknows => hnone (hasks.knows_iff.mpr (.inl hknows))⟩

/-- Looking up in advance that returns has had what was not known asked about, in as many runs as
there are batches of it, and no lookup needs a run for it any more. -/
theorem covers (h : History tool s memo (before ++ x :: rest)) {addresses : List Int}
    (huse : x.use = .prefetch addresses) (hended : ∃ frames, x.ended = .ok frames) :
    (∃ fresh : List Int, fresh.Nodup ∧
      (∀ a, a ∈ fresh ↔ a ∈ addresses.map s.objectAddress ∧ ¬ memo.Knows a ∧
        ∀ run ∈ before.flatMap (·.runs), run.Succeeds → ¬ run.IsAbout a) ∧
      x.runs.length = (fresh.length + 511) / 512 ∧
      ∀ a ∈ fresh, ∃ run ∈ x.runs, run.Succeeds ∧ run.IsAbout a) ∧
    ∀ y ∈ rest, ∀ a ∈ addresses, y.use = .lookup a →
      y.runs = [] ∧ ∃ frames, y.ended = .ok frames := by
  obtain ⟨memo', hhistory, hknows⟩ := h.exists_rest
  cases hhistory with
  | @cons _ memo'' _ _ ended hasks hended' hrest =>
      obtain ⟨hcommands, hall⟩ := hasks.of_ok (hended'.mp hended)
      let fresh := memo'.missing (addresses.map s.objectAddress)
      have hbatches : s.batchesFor memo' x.use = batches fresh := by rw [huse]; rfl
      have hfresh : ∀ a ∈ fresh, ∃ run ∈ x.runs, run.Succeeds ∧ run.IsAbout a := by
        intro a ha
        rw [← flatten_batches fresh] at ha
        obtain ⟨batch, hbatch, ha⟩ := List.mem_flatten.mp ha
        rw [← hbatches] at hbatch
        have hcommand := List.mem_map_of_mem (f := Answers.command (some tool) s.path) hbatch
        rw [← hcommands] at hcommand
        obtain ⟨run, hrun, hcommand⟩ := List.mem_map.mp hcommand
        exact ⟨run, hrun, hall run hrun, (ToolRun.isAbout_iff hcommand).mpr ha⟩
      refine ⟨⟨fresh, ?_, fun a => ?_, ?_, hfresh⟩, ?_⟩
      · exact ((pairwise_ascending _).filter _).imp fun hlt => Int.ne_of_lt hlt
      · rw [FrameMemo.mem_missing, hknows]
        simp only [not_or, not_exists, not_and]
      · rw [← length_batches, ← hbatches, ← List.length_map (·.command), hcommands,
          List.length_map]
      · intro y hy a ha hlookup
        refine (hrest.runs_of_lookup hy hlookup).2 (hasks.knows_iff.mpr ?_)
        by_cases hknown : memo'.Knows (s.objectAddress a)
        · exact .inl hknown
        · refine .inr (hfresh _ (FrameMemo.mem_missing.mpr ⟨?_, hknown⟩))
          exact List.mem_map_of_mem ha

end History

/-- A segment that is open and not looked at in the faster way is used again and again, and runs of
the tool may fail in any way. Each run is for a batch of addresses in strictly ascending order, no
more than 512 of them, or for the single address of a lookup, which makes one run at most. Once a
run about an address has succeeded there is none about it any more. Looking up in advance that
returns has had all addresses covered that were not known, in as few runs as batches of 512 allow,
and from then on lookups of them need no run. -/
theorem batches_serve (hfast : s.fast = false) {object : OpenObject} {env : Env (Workshop ω)}
    (hopen : env.world.segment? s.number = some object) (tools : ToolRunner ω) (tool : String)
    (uses : List Use) :
    let served := (s.serve tools (some tool) uses (env.outsideWatchedFrom [])).1
    served.map (·.use) = uses ∧
    served.filterMap Served.answer? = (s.use tools (some tool) uses env).1 ∧
    (∀ x ∈ served, ∀ run ∈ x.runs, ∃ asked,
      run.command = Answers.command (some tool) s.path asked ∧ x.use.Permits s asked) ∧
    (∀ x ∈ served, ∀ a, x.use = .lookup a → x.runs.length ≤ 1) ∧
    ((served.flatMap (·.runs)).Pairwise fun earlier later =>
      earlier.Succeeds → ∀ a, earlier.IsAbout a → ¬ later.IsAbout a) ∧
    ∀ before x after, served = before ++ x :: after → ∀ addresses,
      x.use = .prefetch addresses → (∃ frames, x.ended = .ok frames) →
        (∃ fresh : List Int, fresh.Nodup ∧
          (∀ a, a ∈ fresh ↔ a ∈ addresses.map s.objectAddress ∧ ¬ object.memo.Knows a ∧
            ∀ run ∈ before.flatMap (·.runs), run.Succeeds → ¬ run.IsAbout a) ∧
          x.runs.length = (fresh.length + 511) / 512 ∧
          ∀ a ∈ fresh, ∃ run ∈ x.runs, run.Succeeds ∧ run.IsAbout a) ∧
        ∀ y ∈ after, ∀ a ∈ addresses, y.use = .lookup a →
          y.runs = [] ∧ ∃ frames, y.ended = .ok frames := by
  intro served
  have hwatched : (env.outsideWatchedFrom ([] : List ToolRun)).world.segment? s.number =
      some object := hopen
  have hhistory : History tool s object.memo served :=
    history_serve hfast tools tool uses hwatched
  refine ⟨uses_serve tools tool uses, answers_serve tools (some tool) uses,
    fun x hx run hrun => hhistory.permits hx hrun,
    fun x hx a huse => (hhistory.runs_of_lookup hx huse).1, hhistory.pairwise, ?_⟩
  intro before x after hserved addresses huse hended
  rw [hserved] at hhistory
  exact hhistory.covers huse hended

/-! ### two uses -/

/-- What becomes of a segment that looks up two addresses in advance and then one of them. -/
def servedShifted : List Served :=
  (shifted.serve (printing "") (some "addr2line") [.prefetch [0x5020, 0x5010], .lookup 0x5020]
    (openedShifted.outsideWatchedFrom [])).1

/-- Looking up in advance succeeds with a tool that has nothing to say. -/
theorem prefetches_shifted {env : Env (Workshop (Watched Unit (List ToolRun)))}
    (hopen : env.world.segment? shifted.number = some {}) :
    ((shifted.answerTo (ToolRunner.watched (printing "")) (some "addr2line")
      (.prefetch [0x5020, 0x5010])).run env).1 = .ok [] := by
  have hmissing : ({} : FrameMemo).missing ([0x5020, 0x5010].map shifted.objectAddress) =
      [0x10, 0x20] := rfl
  have hbatches : batches [0x10, 0x20] = [[0x10, 0x20]] := by simp [batches, batchSize]
  have hprefetch : ((shifted.prefetch (ToolRunner.watched (printing "")) (some "addr2line")
      [0x5020, 0x5010]).run env).1 = .ok () := by
    rw [run_prefetch_fst hopen, advance, hmissing, hbatches]
    rfl
  rw [answerTo, Act.run_bind_apply]
  cases hrun : (shifted.prefetch (ToolRunner.watched (printing "")) (some "addr2line")
      [0x5020, 0x5010]).run env with
  | mk r env' =>
      rw [hrun] at hprefetch
      cases hprefetch
      rfl

/-- It takes one run for both addresses, and the lookup takes none. -/
theorem batches_serve_shifted :
    shifted.fast = false ∧ openedShifted.world.segment? shifted.number = some {} ∧
      ∃ x y, servedShifted = [x, y] ∧ y.runs = [] ∧
        ∃ fresh : List Int, (∀ a, a ∈ fresh ↔ a = 0x10 ∨ a = 0x20) ∧
          x.runs.length = (fresh.length + 511) / 512 := by
  have hopen : openedShifted.world.segment? shifted.number = some {} := rfl
  obtain ⟨-, -, -, -, -, hcovers⟩ := batches_serve rfl hopen (printing "") "addr2line"
    [.prefetch [0x5020, 0x5010], .lookup 0x5020]
  have hended : ((shifted.answerTo (ToolRunner.watched (printing "")) (some "addr2line")
      (.prefetch [0x5020, 0x5010])).run (unrecorded (openedShifted.outsideWatchedFrom []))).1 =
        .ok [] := prefetches_shifted rfl
  obtain ⟨⟨fresh, -, hfresh, hlength, -⟩, hafter⟩ :=
    hcovers [] _ _ rfl [0x5020, 0x5010] rfl ⟨[], hended⟩
  refine ⟨rfl, rfl, _, _, rfl, (hafter _ List.mem_cons_self 0x5020 (by simp) rfl).1, fresh, ?_,
    hlength⟩
  intro a
  have hnothing : ¬ ({} : FrameMemo).Knows a := by
    rintro ⟨frames, ⟨⟩⟩
  rw [hfresh]
  simp [hnothing, objectAddress, shifted, or_comm]

end Elf.Segment

end Symbolication
