import Symbolication.Elf.Inspector
import Symbolication.Proofs.Action.Workshop
import Symbolication.Proofs.Frame.Memo

/-!
# Symbolication.Proofs.Elf.Batching

Looking up in advance does not show.  Whatever was looked up before, in batches or
alone and with or without success, a segment answers as it would if it had just
been opened:

* `Segment.Remembers` — the invariant: the segment is open, and its memo is good;
* `Segment.meets_prefetch`, `Segment.meets_lookup` — one use of a segment;
* `Segment.answers_use` — any number of uses.
-/

namespace Symbolication

variable {ω : Type}

/-! ## asking the tool -/

/-- A question is answered from the outcome of its run alone. -/
theorem Answers.ask_eq {tools : ToolRunner ω} {tool path : String} {outcome : ToolOutcome}
    {addresses : List Int} (h : ∀ w, (tools (command (some tool) path addresses) w).1 = outcome)
    (env : Env ω) :
    ((ask tools (some tool) path addresses).run env).1 = ofOutcome tool path outcome := by
  rw [← h env.world]
  rfl

namespace Elf.Segment

/-! ## the invariant -/

variable {s : Segment} {object : OpenObject} {alone : Int → Except Symbolication.Fault (List Frame)}
  {E : Symbolication.Fault → Workshop ω → Prop}

/-- The segment is open, and what it remembers of addresses is what the tool would tell of them. -/
def Remembers (s : Segment) (alone : Int → Except Symbolication.Fault (List Frame))
    (w : Workshop ω) : Prop :=
  ∃ object, w.segment? s.number = some object ∧ object.memo.Agrees alone

theorem meets_state :
    Act.Meets (s.Remembers alone) (s.state (ω := ω))
      (fun object w => w.segment? s.number = some object ∧ object.memo.Agrees alone) E := by
  refine Act.meets_bind Workshop.meets_look fun w' => ?_
  intro env hw
  obtain ⟨rfl, object, hobject, hagrees⟩ := hw
  rw [hobject]
  exact ⟨hobject, hagrees⟩

theorem meets_remember {memo : FrameMemo} {P : Workshop ω → Prop} (h : memo.Agrees alone) :
    Act.Meets P (s.remember memo) (fun _ w => s.Remembers alone w) E := by
  refine Workshop.meets_change fun w _ => ?_
  refine ⟨{ ((w.segment? s.number).getD {}) with memo }, ?_, h⟩
  rw [Workshop.segment?_putSegment, if_pos rfl]

/-! ## one use -/

variable {tools : ToolRunner ω} {tool : String} {run : List Int → ToolOutcome}
  {reply : Int → List Char}

/-- The tool is asked outside, which leaves the segment as it is. -/
theorem meets_ask_run {object : OpenObject}
    (h : Answers.ListsReplies tools tool s.path run reply) (batch : List Int) :
    Step.Meets (fun w => w.segment? s.number = some object)
      (Workshop.outsideAct (Answers.ask tools (some tool) s.path batch)).run
      (fun r w => w.segment? s.number = some object ∧
        r = Answers.ofOutcome tool s.path (run batch)) :=
  Workshop.meets_outsideAct (q := fun r => r = Answers.ofOutcome tool s.path (run batch))
    (Answers.ask_eq (h.outcome_eq batch)) fun _ _ hw => hw

/-- A question about ascending addresses answers each as a run for it alone would. -/
theorem meets_ask {object : OpenObject} (h : Answers.ListsReplies tools tool s.path run reply)
    {batch : List Int} (hasc : batch.Pairwise (· < ·)) :
    Act.Meets (fun w => w.segment? s.number = some object)
      (Workshop.outsideAct (Answers.ask tools (some tool) s.path batch))
      (fun answers w => w.segment? s.number = some object ∧
        ∀ a ∈ batch, Answers.alone tool s.path run a = .ok (answers.frames a))
      (fun _ w => w.segment? s.number = some object) := by
  refine Step.meets_mono (meets_ask_run h batch) (fun _ hw => hw) ?_
  intro r w hw
  obtain ⟨hw, hr⟩ := hw
  cases r with
  | ok answers => exact ⟨hw, h.alone_eq hasc hr.symm⟩
  | error fault => exact hw

/-- A question about one address returns, or fails, as the run for it alone. -/
theorem meets_ask_alone {object : OpenObject}
    (h : Answers.ListsReplies tools tool s.path run reply) (a : Int) :
    Act.Meets (fun w => w.segment? s.number = some object)
      (do return (← Workshop.outsideAct (Answers.ask tools (some tool) s.path [a])).frames a)
      (fun frames w => w.segment? s.number = some object ∧
        Answers.alone tool s.path run a = .ok frames)
      (fun fault w => w.segment? s.number = some object ∧
        Answers.alone tool s.path run a = .error fault) := by
  refine Act.meets_bind (Q := fun answers w => w.segment? s.number = some object ∧
    Answers.alone tool s.path run a = .ok (answers.frames a)) ?_ fun answers =>
      Act.meets_pure fun _ hw => hw
  refine Step.meets_mono (meets_ask_run h [a]) (fun _ hw => hw) ?_
  intro r w hw
  obtain ⟨hw, hr⟩ := hw
  cases r with
  | ok answers => exact ⟨hw, by rw [Answers.alone, ← hr]; rfl⟩
  | error fault => exact ⟨hw, by rw [Answers.alone, ← hr]; rfl⟩

/-- A lookup answers what the tool would tell of the address alone. -/
theorem meets_lookup (hfast : s.fast = false)
    (h : Answers.ListsReplies tools tool s.path run reply) (address : Int) :
    Act.Meets (s.Remembers (Answers.alone tool s.path run)) (s.lookup tools (some tool) address)
      (fun frames w => s.Remembers (Answers.alone tool s.path run) w ∧
        Answers.alone tool s.path run (s.objectAddress address) = .ok frames)
      (fun fault w => s.Remembers (Answers.alone tool s.path run) w ∧
        Answers.alone tool s.path run (s.objectAddress address) = .error fault) := by
  unfold lookup
  refine Act.meets_bind meets_state fun object => ?_
  intro env hw
  obtain ⟨hobject, hagrees⟩ := hw
  simp only [hfast, Bool.false_eq_true, if_false]
  refine Act.meets_bind (Q := fun r w => w.segment? s.number = some object ∧
    r.1.Agrees (Answers.alone tool s.path run) ∧
    Answers.alone tool s.path run (s.objectAddress address) = .ok r.2)
    (Act.meets_mono (FrameMemo.meets_lookup hagrees (meets_ask_alone h _)) (fun _ hw => hw)
      (fun _ _ hr => hr) fun fault w hr => ⟨⟨object, hr.1, hagrees⟩, hr.2⟩) ?_ env hobject
  intro r env' hw
  obtain ⟨memo, frames⟩ := r
  obtain ⟨-, hmemo, hframes⟩ := hw
  refine Act.meets_bind (P := fun _ => True) (meets_remember hmemo) (fun _ => ?_) env' trivial
  exact Act.meets_pure fun w hw => ⟨hw, hframes⟩

/-- Looking up in advance leaves a segment that remembers what the tool would tell, whether it
succeeds or not. -/
theorem meets_prefetch (hfast : s.fast = false)
    (h : Answers.ListsReplies tools tool s.path run reply) (addresses : List Int) :
    Act.Meets (s.Remembers (Answers.alone tool s.path run))
      (s.prefetch tools (some tool) addresses)
      (fun _ w => s.Remembers (Answers.alone tool s.path run) w)
      (fun _ w => s.Remembers (Answers.alone tool s.path run) w) := by
  unfold prefetch
  refine Act.meets_bind meets_state fun object => ?_
  intro env hw
  obtain ⟨hobject, hagrees⟩ := hw
  simp only [hfast, Bool.not_false, if_true]
  refine Act.meets_bind (Q := fun r w => w.segment? s.number = some object ∧
    r.1.Agrees (Answers.alone tool s.path run))
    (Act.meets_lift (FrameMemo.meets_prefetch hagrees (fun batch hasc => meets_ask h hasc) _))
    ?_ env hobject
  intro r env' hw
  obtain ⟨memo, ended⟩ := r
  obtain ⟨-, hmemo⟩ := hw
  refine Act.meets_bind (P := fun _ => True) (meets_remember hmemo) (fun _ => ?_) env' trivial
  cases ended with
  | error fault => exact fun env'' hw => hw
  | ok count => exact Act.meets_bind (Act.meets_pure fun _ hw => hw) fun _ => Act.meets_note

/-! ## any number of uses -/

/-- A use of a segment. -/
inductive Use where
  /-- Addresses are looked up in advance. -/
  | prefetch (addresses : List Int)
  /-- The frames of an address are asked for. -/
  | lookup (address : Int)

/-- The address whose frames are asked for. -/
def Use.address? : Use → Option Int
  | prefetch _ => none
  | lookup address => some address

/-- Uses a segment again and again, whether this succeeds or not. Gives what became of the
lookups. -/
def use (tools : ToolRunner ω) (tool : Option String) (s : Segment) :
    List Use → Step (Workshop ω) (List (Except Symbolication.Fault (List Frame)))
  | [] => return []
  | .prefetch addresses :: rest => do
    let _ ← (s.prefetch tools tool addresses).run
    use tools tool s rest
  | .lookup address :: rest => do
    let answer ← (s.lookup tools tool address).run
    return answer :: (← use tools tool s rest)

/-- Lookups answer what the tool would tell of each address alone. -/
theorem meets_use (hfast : s.fast = false)
    (h : Answers.ListsReplies tools tool s.path run reply) (uses : List Use) :
    Step.Meets (s.Remembers (Answers.alone tool s.path run)) (s.use tools (some tool) uses)
      (fun answers _ => answers = (uses.filterMap Use.address?).map fun a =>
        Answers.alone tool s.path run (s.objectAddress a)) := by
  induction uses with
  | nil => exact Step.meets_pure fun _ _ => rfl
  | cons step rest ih =>
      cases step with
      | prefetch addresses =>
          refine Step.meets_bind (meets_prefetch hfast h addresses) ?_
          intro r
          cases r with
          | ok _ => exact ih
          | error fault => exact ih
      | lookup address =>
          refine Step.meets_bind (meets_lookup hfast h address) ?_
          intro r
          have hcons : Step.Meets
              (fun w => s.Remembers (Answers.alone tool s.path run) w ∧
                Answers.alone tool s.path run (s.objectAddress address) = r)
              (do return r :: (← s.use tools (some tool) rest))
              (fun answers _ => answers = Answers.alone tool s.path run (s.objectAddress address) ::
                (rest.filterMap Use.address?).map fun a =>
                  Answers.alone tool s.path run (s.objectAddress a)) := by
            intro env hw
            obtain ⟨hw, rfl⟩ := hw
            exact congrArg _ (ih env hw)
          cases r with
          | ok frames => exact hcons
          | error fault => exact hcons

/-- Each lookup in a newly opened segment answers what it would answer if nothing had been looked up
before it, and that is what the tool tells of the address alone. -/
theorem answers_use (hfast : s.fast = false)
    (h : Answers.ListsReplies tools tool s.path run reply) (uses : List Use)
    {env fresh : Env (Workshop ω)} (henv : env.world.segment? s.number = some {})
    (hfresh : fresh.world.segment? s.number = some {}) :
    (s.use tools (some tool) uses env).1 =
        (uses.filterMap Use.address?).map (fun a =>
          ((s.lookup tools (some tool) a).run fresh).1) ∧
      ∀ a, ((s.lookup tools (some tool) a).run fresh).1 =
        Answers.alone tool s.path run (a - s.base) := by
  have halone : ∀ a, ((s.lookup tools (some tool) a).run fresh).1 =
      Answers.alone tool s.path run (s.objectAddress a) := by
    intro a
    have hlookup := meets_lookup hfast h a fresh ⟨{}, hfresh, FrameMemo.agrees_empty⟩
    cases hr : ((s.lookup tools (some tool) a).run fresh).1 with
    | ok frames =>
        rw [hr] at hlookup
        exact hlookup.2.symm
    | error fault =>
        rw [hr] at hlookup
        exact hlookup.2.symm
  have huse := meets_use hfast h uses env ⟨{}, henv, FrameMemo.agrees_empty⟩
  constructor
  · rw [huse]
    simp only [halone]
  · exact halone

/-! ## a tool -/

/-- What the tool below says of an address. -/
def echoedReply (argument : List Char) : List Char :=
  argument ++ '\n' :: "main\nmain.c:7\n".toList

/-- A tool that repeats each address and finds the same function there. -/
def echoing : ToolRunner Unit := fun c w =>
  (.ended 0 (String.ofList ((c.arguments.drop 5).flatMap fun a => echoedReply a.toList)) "", w)

open Number in
/-- The reply that echoes an operand is a reply for its address. -/
theorem isReply_echoedReply (a : Int) : Listing.IsReply a (echoedReply (hex a).toList) := by
  have hlines : Listing.linesOf (echoedReply (hex a).toList) =
      (hex a).toList :: ["main".toList, "main.c:7".toList] := by
    rw [echoedReply, Listing.linesOf_hex_append]
    rfl
  have hheadless : Listing.IsHeadless ["main".toList, "main.c:7".toList] := by
    unfold Listing.IsHeadless
    decide
  refine ⟨Or.inr ⟨(hex a).toList ++ '\n' :: "main\nmain.c:7".toList, ?_⟩, ?_, ?_, ?_⟩
  · rw [echoedReply, List.append_assoc]
    rfl
  · intro ha
    exact ⟨_, _, hlines, by rw [Listing.headerAddress?_hex, if_pos ha], hheadless⟩
  · intro ha line hline
    rw [hlines] at hline
    rcases List.mem_cons.mp hline with rfl | hline
    · rw [Listing.headerAddress?_hex, if_neg (by omega)]
    · exact hheadless line hline
  · intro _ line hline place hplace
    rw [Listing.replyLines, hlines] at hline
    rw [List.mem_singleton.mp hline] at hplace
    obtain rfl := Option.some.inj hplace
    decide

open Number in
/-- The echoing tool lists one reply for each operand. -/
theorem listsReplies_echoing (tool path : String) :
    Answers.ListsReplies echoing tool path
      (fun addresses => .ended 0 (String.ofList (addresses.flatMap fun a =>
        echoedReply (hex a).toList)) "")
      fun a => echoedReply (hex a).toList where
  outcome_eq addresses w := by
    simp [echoing, Answers.command, List.flatMap_map]
  listing addresses output complaints h := by
    obtain ⟨-, rfl, -⟩ := ToolOutcome.ended.inj h
    exact ⟨[], Or.inl rfl, fun line hline => absurd hline List.not_mem_nil, by simp⟩
  isReply := isReply_echoedReply
  single addresses output complaints h a ha := ⟨_, _, rfl⟩

/-- A segment that lies higher in memory than in its file. -/
def shifted : Segment where
  number := 0
  path := "/bin/app"
  base := 0x5000
  buildId := ""
  fast := false
  image := {
    bytes := #[], wide := true, littleEndian := true
    header := {
      type := .shared, machine := .amd64, programOffset := 0, sectionOffset := 0
      programEntrySize := 0, programCount := 0, sectionEntrySize := 0, sectionCount := 0
      namesIndex := 0 } }
  sections := []

/-- The segment looks up three addresses in advance, one of them below its base, and answers for two
of them and another one as if it had not. -/
theorem answers_use_shifted :
    let opened : Env (Workshop Unit) := ⟨(({ outside := () } : Workshop Unit).putSegment 0 {}), []⟩
    shifted.fast = false ∧ opened.world.segment? shifted.number = some {} ∧
      (shifted.use echoing (some "addr2line")
        [.prefetch [0x5010, 0x4FF0, 0x5020], .lookup 0x4FF0, .lookup 0x5020, .lookup 0x5030]
        opened).1 =
      [0x4FF0, 0x5020, 0x5030].map fun a =>
        ((shifted.lookup echoing (some "addr2line") a).run opened).1 :=
  ⟨rfl, rfl, (answers_use rfl (listsReplies_echoing _ _) _ rfl rfl).1⟩

end Elf.Segment

end Symbolication
