import Symbolication.Frame.Memo
import Symbolication.Proofs.Action.Triple
import Symbolication.Proofs.Frame.Listing

/-!
# Symbolication.Proofs.Frame.Memo

A memo is good for the answers that single questions would get.  Batches fill it
with the answers of a tool whose listings are put together from replies, so what it
remembers of an address does not depend on the batch that the address was in:

* `Answers.ListsReplies` — what is asked of the tool;
* `Answers.ListsReplies.alone_eq` — a batch that succeeds tells what single runs would;
* `FrameMemo.Agrees` — the invariant of a memo;
* `meets_prefetch`, `meets_lookup` — the two ways of using a memo keep it.
-/

namespace Symbolication

open Listing

variable {ω : Type}

namespace Answers

/-! ## the tool -/

/-- The outcome of the tool's runs for an object depends on the addresses alone. A run that succeeds
puts out the replies for its addresses, in their order and possibly after other lines, and would
succeed for each of its addresses alone. -/
structure ListsReplies (tools : ToolRunner ω) (tool path : String)
    (run : List Int → ToolOutcome) (reply : Int → List Char) : Prop where
  outcome_eq : ∀ addresses w, (tools (command (some tool) path addresses) w).1 = run addresses
  listing : ∀ addresses output complaints, run addresses = .ended 0 output complaints →
    ∃ noise, IsWhole noise ∧ IsHeadless (linesOf noise) ∧
      output.toList = noise ++ addresses.flatMap reply
  isReply : ∀ a, IsReply a (reply a)
  single : ∀ addresses output complaints, run addresses = .ended 0 output complaints →
    ∀ a ∈ addresses, ∃ output complaints, run [a] = .ended 0 output complaints

/-- The frames of an address that is asked about alone. -/
def alone (tool path : String) (run : List Int → ToolOutcome) (a : Int) :
    Except Fault (List Frame) :=
  (ofOutcome tool path (run [a])).map (·.frames a)

/-- Answers come from a run that succeeds. -/
theorem ended_of_ofOutcome {tool path : String} {outcome : ToolOutcome} {answers : Answers}
    (h : ofOutcome tool path outcome = .ok answers) :
    ∃ output complaints, outcome = .ended 0 output complaints := by
  cases outcome with
  | notStarted cause => cases cause <;> exact absurd h (by simp [ofOutcome])
  | zeroInArgument => exact absurd h (by simp [ofOutcome])
  | undecodable cause => exact absurd h (by simp [ofOutcome])
  | ended status output complaints =>
      by_cases hstatus : status = 0
      · exact ⟨output, complaints, by rw [hstatus]⟩
      · have hne : (status != 0) = true := by simpa using hstatus
        rw [ofOutcome, if_pos hne] at h
        exact absurd h (by simp)

variable {tools : ToolRunner ω} {tool path : String} {run : List Int → ToolOutcome}
  {reply : Int → List Char}

namespace ListsReplies

/-- A run that succeeds, for addresses in ascending order, tells the frames of their replies. -/
theorem exists_answers (h : ListsReplies tools tool path run reply) {addresses : List Int}
    (hasc : addresses.Pairwise (· < ·)) {output complaints : String}
    (hrun : run addresses = .ended 0 output complaints) :
    ∃ answers, ofOutcome tool path (run addresses) = .ok answers ∧
      ∀ a ∈ addresses, answers.frames a = replyFrames a (reply a) := by
  obtain ⟨noise, hwhole, hheadless, houtput⟩ := h.listing addresses output complaints hrun
  rw [hrun, ofOutcome, if_neg (by decide), houtput]
  exact exists_ofListing_replies hwhole hheadless (fun a _ => h.isReply a) hasc

/-- What a batch tells of its addresses is what a run for each of them alone would tell. -/
theorem alone_eq (h : ListsReplies tools tool path run reply) {batch : List Int}
    (hasc : batch.Pairwise (· < ·)) {answers : Answers}
    (hanswers : ofOutcome tool path (run batch) = .ok answers) :
    ∀ a ∈ batch, alone tool path run a = .ok (answers.frames a) := by
  intro a ha
  obtain ⟨output, complaints, hrun⟩ := ended_of_ofOutcome hanswers
  obtain ⟨answers', hanswers', hframes⟩ := h.exists_answers hasc hrun
  obtain rfl : answers = answers' := by
    rw [hanswers] at hanswers'
    exact Except.ok.inj hanswers'
  obtain ⟨output', complaints', hsingle⟩ := h.single batch output complaints hrun a ha
  obtain ⟨found, hfound, hframe⟩ := h.exists_answers (List.pairwise_singleton _ a) hsingle
  rw [alone, hfound, Except.map, hframe a List.mem_cons_self, hframes a ha]

end ListsReplies

end Answers

/-! ## the memo -/

/-- Addresses are asked for in batches of 512, the last of what is left. -/
theorem length_batches (ns : List Int) : (batches ns).length = (ns.length + 511) / 512 := by
  fun_induction batches ns with
  | case1 ns h =>
      rw [List.isEmpty_iff.mp h]
      rfl
  | case2 ns h ih =>
      have hpos : 0 < ns.length := List.length_pos_iff.mpr (by simpa using h)
      rw [List.length_cons, ih, List.length_drop, batchSize]
      omega

namespace FrameMemo

/-- What is remembered of an address is what a question about it alone would tell. -/
def Agrees (alone : Int → Except Fault (List Frame)) (memo : FrameMemo) : Prop :=
  ∀ a frames, memo.frames? a = some frames → alone a = .ok frames

variable {alone : Int → Except Fault (List Frame)}

/-- An empty memo agrees with any tool. -/
theorem agrees_empty : Agrees alone {} :=
  fun a frames h => absurd h (by simp [frames?])

/-- A memo that learns what the tool says of an address still agrees with it. -/
theorem agrees_learn {memo : FrameMemo} (h : Agrees alone memo) {a : Int} {frames : List Frame}
    (ha : alone a = .ok frames) : Agrees alone (memo.learn a frames) := by
  intro b found hb
  rw [frames?_learn] at hb
  by_cases hab : b = a
  · rw [if_pos hab] at hb
    rw [hab, ha, Option.some.inj hb]
  · rw [if_neg hab] at hb
    exact h b found hb

/-- A memo that learns what the tool says of a batch still agrees with it. -/
theorem agrees_learnAll {memo : FrameMemo} (h : Agrees alone memo) {answers : Answers}
    {batch : List Int} (hbatch : ∀ a ∈ batch, alone a = .ok (answers.frames a)) :
    Agrees alone (memo.learnAll answers batch) := by
  unfold learnAll
  induction batch generalizing memo with
  | nil => exact h
  | cons a rest ih =>
      exact ih (agrees_learn h (hbatch a List.mem_cons_self))
        fun b hb => hbatch b (List.mem_cons_of_mem _ hb)

/-- A batch of a list in ascending order is in ascending order. -/
theorem pairwise_of_mem_batches {ns batch : List Int} (h : batch ∈ batches ns)
    (hasc : ns.Pairwise (· < ·)) : batch.Pairwise (· < ·) := by
  have hsublist := List.sublist_flatten_of_mem h
  rw [flatten_batches] at hsublist
  exact hasc.sublist hsublist

/-- Batches that are asked about one after another keep a memo good, those before a failing one
included. -/
theorem meets_fill {P : ω → Prop} {ask : List Int → Act ω Answers} {rest : List (List Int)}
    {memo : FrameMemo} (h : Agrees alone memo)
    (hask : ∀ batch ∈ rest, Act.Meets P (ask batch)
      (fun answers w => P w ∧ ∀ a ∈ batch, alone a = .ok (answers.frames a)) (fun _ w => P w)) :
    Step.Meets P (fill ask memo rest) (fun r w => P w ∧ Agrees alone r.1) := by
  induction rest generalizing memo with
  | nil => exact Step.meets_pure fun w hw => ⟨hw, h⟩
  | cons batch rest ih =>
      unfold fill
      refine Step.meets_bind (hask batch List.mem_cons_self) ?_
      intro r
      cases r with
      | error fault => exact Step.meets_pure fun w hw => ⟨hw, h⟩
      | ok answers =>
          intro env hw
          obtain ⟨hw, hanswers⟩ := hw
          exact ih (agrees_learnAll h hanswers)
            (fun batch hb => hask batch (List.mem_cons_of_mem _ hb)) env hw

/-- Looking up in advance keeps a memo good, whether it succeeds or not. -/
theorem meets_prefetch {P : ω → Prop} {ask : List Int → Act ω Answers} {memo : FrameMemo}
    (h : Agrees alone memo)
    (hask : ∀ batch : List Int, batch.Pairwise (· < ·) → Act.Meets P (ask batch)
      (fun answers w => P w ∧ ∀ a ∈ batch, alone a = .ok (answers.frames a)) (fun _ w => P w))
    (addresses : List Int) :
    Step.Meets P (prefetch ask memo addresses) (fun r w => P w ∧ Agrees alone r.1) := by
  have hmissing : (memo.missing addresses).Pairwise (· < ·) := (pairwise_ascending _).filter _
  exact Step.meets_bind
    (meets_fill h fun batch hb => hask batch (pairwise_of_mem_batches hb hmissing))
    fun _ => Step.meets_pure fun _ hw => hw

/-- A lookup in a memo that agrees with the tool returns, or fails, as the tool would. -/
theorem meets_lookup {P : ω → Prop} {ask : Int → Act ω (List Frame)} {memo : FrameMemo}
    (h : Agrees alone memo) {a : Int}
    (hask : Act.Meets P (ask a) (fun frames w => P w ∧ alone a = .ok frames)
      (fun fault w => P w ∧ alone a = .error fault)) :
    Act.Meets P (lookup ask memo a)
      (fun r w => P w ∧ Agrees alone r.1 ∧ alone a = .ok r.2)
      (fun fault w => P w ∧ alone a = .error fault) := by
  unfold lookup
  cases hknown : memo.frames? a with
  | some frames => exact Act.meets_pure fun w hw => ⟨hw, h, h a frames hknown⟩
  | none =>
      refine Act.meets_bind hask fun frames => Act.meets_pure ?_
      intro w hw
      obtain ⟨hw, hframes⟩ := hw
      exact ⟨hw, agrees_learn h hframes, hframes⟩

/-! ## what is known -/

/-- The frames of the address are known. -/
def Knows (memo : FrameMemo) (a : Int) : Prop :=
  ∃ frames, memo.frames? a = some frames

/-- The addresses that are missing are those asked for and not known. -/
theorem mem_missing {memo : FrameMemo} {addresses : List Int} {a : Int} :
    a ∈ memo.missing addresses ↔ a ∈ addresses ∧ ¬ memo.Knows a := by
  rw [missing, List.mem_filter, mem_ascending, Option.isNone_iff_eq_none, Knows,
    ← Option.isSome_iff_exists, Option.not_isSome_iff_eq_none]

/-- A memo that learns a batch knows the batch besides what it knew. -/
theorem knows_learnAll {memo : FrameMemo} {answers : Answers} {batch : List Int} {a : Int} :
    (memo.learnAll answers batch).Knows a ↔ memo.Knows a ∨ a ∈ batch := by
  unfold learnAll
  induction batch generalizing memo with
  | nil => simp
  | cons b rest ih =>
      rw [List.foldl_cons, ih, Knows, frames?_learn, List.mem_cons]
      by_cases hab : a = b
      · simp [hab]
      · simp [hab, Knows]

/-! ## what is kept -/

variable {P : ω → Prop}

/-- Filling a memo keeps what every question of a batch keeps. -/
theorem keeps_fill {ask : List Int → Act ω Answers} {batches : List (List Int)}
    (hask : ∀ batch ∈ batches, Act.Keeps P (ask batch)) (memo : FrameMemo) :
    Step.Keeps P (fill ask memo batches) := by
  induction batches generalizing memo with
  | nil => exact Step.keeps_pure _
  | cons batch rest ih =>
      unfold fill
      refine Step.keeps_bind (Act.keeps_run (hask batch List.mem_cons_self)) ?_
      intro r
      cases r with
      | error fault => exact Step.keeps_pure _
      | ok answers => exact ih (fun batch hbatch => hask batch (List.mem_cons_of_mem _ hbatch)) _

/-- A lookup keeps what its question keeps. -/
theorem keeps_lookup {ask : Int → Act ω (List Frame)} {a : Int} (hask : Act.Keeps P (ask a))
    (memo : FrameMemo) : Act.Keeps P (lookup ask memo a) := by
  unfold lookup
  cases memo.frames? a with
  | some frames => exact Act.keeps_pure _
  | none => exact Act.keeps_bind hask fun _ => Act.keeps_pure _

end FrameMemo

end Symbolication
