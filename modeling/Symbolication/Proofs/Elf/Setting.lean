import Symbolication.Elf.Inspector
import Symbolication.Proofs.Action.Workshop
import Symbolication.Proofs.Frame.Memo
import Symbolication.Proofs.Pass.Discipline

/-!
# Symbolication.Proofs.Elf.Setting

The inspector of ELF objects is one that the discipline of the local pass is about:
closing an object never fails, its switch is a setting of the workshop, and nothing
that is done with objects changes the setting.  The world outside is changed only by
reading files and running tools:

* `Setting` — what is known of the setting and of the world outside;
* `carries_inspector` — what reading and running tools keep, the inspector keeps;
* `closes_inspector`, `obeys_fastSwitch`, `leaves_inspector`.
-/

namespace Symbolication

variable {ω : Type}

/-! ## the setting -/

/-- What is known of the setting of the workshop, and of the world outside. -/
def Setting (R : Bool → ω → Prop) (w : Workshop ω) : Prop :=
  R w.fast w.outside

variable {R : Bool → ω → Prop}

/-- What an action on the outside world keeps in every setting is kept in a workshop. -/
theorem keeps_outsideAct_setting {α : Type} {act : Act ω α} (h : ∀ fast, Act.Keeps (R fast) act) :
    Act.Keeps (Setting R) (Workshop.outsideAct act) :=
  Workshop.keeps_outsideAct fun w => h w.fast

/-! ## files and tools -/

section

variable {Q : ω → Prop} {files : Files ω} {tools : ToolRunner ω}

/-- A file is accessed with the invariant kept if every use of a path keeps it. -/
theorem Files.keeps_access {α : Type} {use : String → ω → Except SystemFault α × ω}
    (h : ∀ path w, Q w → Q (use path w).2) (path : String) : Act.Keeps Q (access path use) :=
  Act.keeps_bind (Act.keeps_result _) fun _ => Act.keeps_inWorldTry fun w => h path w

/-- A question about addresses keeps what its run keeps. -/
theorem Answers.keeps_ask {tool : Option String} {path : String} {addresses : List Int}
    (htools : ∀ w, Q w → Q (tools (command tool path addresses) w).2) :
    Act.Keeps Q (ask tools tool path addresses) := by
  refine Act.keeps_bind (Act.keeps_lift (Step.keeps_inWorld htools)) fun outcome => ?_
  cases tool with
  | some tool => exact Act.keeps_result _
  | none => exact Act.keeps_throw _

namespace Elf

/-- Reading an object keeps what reading its file keeps. -/
theorem keeps_readObject (hread : ∀ path w, Q w → Q (files.read path w).2) (path : String) :
    Act.Keeps Q (readObject files path) := by
  refine Act.keeps_tryCatch (Files.keeps_access hread path) fun fault => ?_
  cases fault <;> exact Act.keeps_throw _

theorem keeps_buildIdOf (path : String) (littleEndian : Bool)
    (data : Option (Except Fault (List UInt8))) :
    Act.Keeps Q (buildIdOf path littleEndian data) := by
  unfold buildIdOf
  split
  · exact Act.keeps_pure _
  · exact Act.keeps_bind (Act.keeps_note _) fun _ => Act.keeps_pure _
  · exact Act.keeps_throw _

/-- What is done once the load base of an object is known. -/
def openRest (number : Nat) (fast : Bool) (region : Region) (image : Image) (base : Int) :
    Act ω Segment := do
  let sections ← reading region.path image.sections
  let note := (findSection? sections buildIdSection).map image.noteData
  let buildId ← buildIdOf region.path image.littleEndian note
  Act.note (.objectOpened region.path base buildId fast)
  return { number, path := region.path, base, buildId, fast, image, sections }

/-- Opening a segment keeps what reading its files keeps. -/
theorem keeps_openSegment (hread : ∀ path w, Q w → Q (files.read path w).2) (number : Nat)
    (fast : Bool) (region : Region) : Act.Keeps Q (openSegment files number fast region) := by
  unfold openSegment
  refine Act.keeps_bind (keeps_readObject hread _) fun bytes => ?_
  refine Act.keeps_bind (Act.keeps_result _) fun image => ?_
  refine Act.keeps_bind (Act.keeps_result _) fun headers => ?_
  have hrest (base : Int) : Act.Keeps Q (openRest number fast region image base) := by
    refine Act.keeps_bind (Act.keeps_result _) fun sections => ?_
    refine Act.keeps_bind (keeps_buildIdOf _ _ _) fun buildId => ?_
    exact Act.keeps_bind (Act.keeps_note _) fun _ => Act.keeps_pure _
  cases loadBase image.header.type headers region.start region.limit region.offset with
  | ok base => exact Act.keeps_bind (Act.keeps_pure base) fun base => hrest base
  | error type => exact Act.keeps_bind (Act.keeps_throw _) fun base => hrest base

section

variable {number : Nat} {fast : Bool} {region : Region} {env env' : Env ω} {s : Segment}

/-- A reading that returns passes its result on. -/
theorem eq_ok_of_reading {α : Type} {path : String} {result : Except Fault α} {a : α}
    (h : (reading path result).run env = (.ok a, env')) : result = .ok a := by
  cases result with
  | ok b =>
      cases h
      rfl
  | error fault => cases h

/-- The segment that opening returns has the number, the image and the base it was opened with. -/
theorem fields_of_openRest {image : Image} {base : Int}
    (h : (openRest number fast region image base).run env = (.ok s, env')) :
    s.number = number ∧ s.image = image ∧ s.base = base := by
  obtain ⟨sections, _, -, h⟩ := Act.run_bind_eq_ok.mp h
  obtain ⟨buildId, _, -, h⟩ := Act.run_bind_eq_ok.mp h
  obtain ⟨_, _, -, h⟩ := Act.run_bind_eq_ok.mp h
  cases h
  exact ⟨rfl, rfl, rfl⟩

/-- What is opened has the number that it is opened under, and the load base that the program
headers read from its image lead to. -/
theorem fields_of_openSegment
    (h : (openSegment files number fast region).run env = (.ok s, env')) :
    s.number = number ∧ ∃ headers,
      s.image.programHeaders region.start region.limit region.offset = .ok headers ∧
      loadBase s.image.header.type headers region.start region.limit region.offset =
        .ok s.base := by
  rw [openSegment] at h
  obtain ⟨bytes, _, -, h⟩ := Act.run_bind_eq_ok.mp h
  obtain ⟨image, _, -, h⟩ := Act.run_bind_eq_ok.mp h
  obtain ⟨headers, _, hheaders, h⟩ := Act.run_bind_eq_ok.mp h
  cases hbase : loadBase image.header.type headers region.start region.limit region.offset with
  | error type =>
      rw [hbase] at h
      cases h
  | ok base =>
      rw [hbase] at h
      obtain ⟨_, _, hpure, h⟩ := Act.run_bind_eq_ok.mp h
      cases hpure
      obtain ⟨hnumber, rfl, rfl⟩ := fields_of_openRest h
      exact ⟨hnumber, headers, eq_ok_of_reading hheaders, hbase⟩

end

end Elf

end

/-! ## segments -/

namespace Elf

open Workshop

namespace Segment

variable {P : Workshop ω → Prop} {tools : ToolRunner ω} {tool : Option String} {s : Segment}

theorem keeps_state (s : Segment) : Act.Keeps P (s.state (ω := ω)) := by
  refine Act.keeps_bind keeps_look fun w => ?_
  cases w.segment? s.number with
  | some object => exact Act.keeps_pure object
  | none => exact Act.keeps_throw _

/-! What does not depend on the state of the segment is kept if asking the tool keeps it. -/

section

variable (hput : ∀ object w, P w → P (w.putSegment s.number object))
include hput

theorem keeps_symbols (object : OpenObject) : Act.Keeps P (s.symbols object) := by
  unfold symbols
  cases object.symbols with
  | some symbols => exact Act.keeps_pure symbols
  | none =>
      refine Act.keeps_bind (Act.keeps_result _) fun _ => ?_
      refine Act.keeps_bind (Act.keeps_note _) fun _ => ?_
      exact Act.keeps_bind (keeps_change (hput _)) fun _ => Act.keeps_pure _

theorem keeps_remember (memo : FrameMemo) : Act.Keeps P (s.remember memo) :=
  keeps_change fun w hw => hput _ w hw

/-- A lookup keeps an invariant if its question does, should it have one to ask. -/
theorem keeps_lookup {address : Int}
    (hask : s.fast = false →
      Act.Keeps P (outsideAct (Answers.ask tools tool s.path [s.objectAddress address]))) :
    Act.Keeps P (s.lookup tools tool address) := by
  unfold lookup
  refine Act.keeps_bind (keeps_state s) fun object => ?_
  refine Act.keeps_bind (FrameMemo.keeps_lookup ?_ _) fun r => ?_
  · split
    · exact Act.keeps_bind (keeps_symbols hput object) fun _ => Act.keeps_pure _
    · rename_i hfast
      exact Act.keeps_bind (hask (Bool.eq_false_iff.mpr hfast)) fun _ => Act.keeps_pure _
  · exact Act.keeps_bind (keeps_remember hput _) fun _ => Act.keeps_pure _

/-- A prefetch keeps an invariant if the question about every batch of its addresses does. -/
theorem keeps_prefetch {addresses : List Int}
    (hask : s.fast = false → ∀ batch, batch ≠ [] →
      (∀ a ∈ batch, a ∈ addresses.map s.objectAddress) →
        Act.Keeps P (outsideAct (Answers.ask tools tool s.path batch))) :
    Act.Keeps P (s.prefetch tools tool addresses) := by
  unfold prefetch
  refine Act.keeps_bind (keeps_state s) fun object => ?_
  split
  · rename_i hfast
    have hfill (memo : FrameMemo) : Step.Keeps P (FrameMemo.fill
        (fun batch => outsideAct (Answers.ask tools tool s.path batch)) memo
        (batches (object.memo.missing (addresses.map s.objectAddress)))) := by
      refine FrameMemo.keeps_fill (fun batch hbatch => ?_) memo
      refine hask (by simpa using hfast) batch ?_ fun a ha => ?_
      · exact List.length_pos_iff.mp (length_of_mem_batches hbatch).1
      · have hmem := List.mem_flatten_of_mem hbatch ha
        rw [flatten_batches, FrameMemo.mem_missing] at hmem
        exact hmem.1
    refine Act.keeps_bind (Act.keeps_lift (Step.keeps_bind (hfill _)
      fun _ => Step.keeps_pure _)) fun r => ?_
    refine Act.keeps_bind (keeps_remember hput _) fun _ => ?_
    exact Act.keeps_bind (Act.keeps_result _) fun _ => Act.keeps_note _
  · exact Act.keeps_pure ()

end

end Segment

/-- An object is opened under the next number, which is used up even if that fails. -/
theorem run_openNext_apply (files : Files ω) (region : Region) (env : Env (Workshop ω)) :
    (openNext files region).run env =
      let asked := { env.world with asked := env.world.asked + 1 }
      match (openSegment files env.world.asked env.world.fast region).run
          { world := env.world.outside, notices := env.notices } with
      | (.ok s, opened) =>
        (.ok s, { world := { asked with outside := opened.world }.putSegment s.number {}
                  notices := opened.notices })
      | (.error fault, opened) =>
        (.error fault, { world := { asked with outside := opened.world }
                         notices := opened.notices }) := by
  have hasked : (change fun w => { w with asked := w.asked + 1 }).run env =
      (.ok (), { env with world := { env.world with asked := env.world.asked + 1 } }) := rfl
  rw [openNext, Act.run_bind_apply, run_look_apply]
  simp only
  rw [Act.run_bind_apply, hasked]
  simp only
  rw [Act.run_bind_apply, run_outsideAct_apply]
  cases (openSegment files env.world.asked env.world.fast region).run
      { world := env.world.outside, notices := env.notices } with
  | mk r opened => cases r <;> rfl

/-- Opening the next segment keeps what reading files keeps in either setting. -/
theorem keeps_openNext {files : Files ω}
    (hread : ∀ fast path w, R fast w → R fast (files.read path w).2) (region : Region) :
    Act.Keeps (Setting R) (openNext files region) := by
  refine Act.keeps_bind keeps_look fun w => ?_
  refine Act.keeps_bind (keeps_change fun _ hw => hw) fun _ => ?_
  refine Act.keeps_bind (keeps_outsideAct_setting fun fast => ?_) fun s => ?_
  · exact keeps_openSegment (hread fast) w.asked w.fast region
  · exact Act.keeps_bind (keeps_change fun _ hw => hw) fun _ => Act.keeps_pure s

/-! ## the inspector -/

variable (files : Files ω) (tools : ToolRunner ω) (tool : Option String)

/-- What is done with objects keeps what reading files and running tools keep. -/
theorem carries_inspector (hread : ∀ fast path w, R fast w → R fast (files.read path w).2)
    (htools : ∀ fast command w, R fast w → R fast (tools command w).2) :
    (inspector files tools tool).Carries fun _ => Setting R where
  openRegion _ region := keeps_openNext hread region
  lookup _ s _ address := Segment.keeps_lookup (fun _ _ hw => hw) fun _ =>
    keeps_outsideAct_setting fun fast => Answers.keeps_ask (htools fast _)
  prefetch := by
    intro _ s _ prefetch hprefetch addresses
    rw [← Option.some.inj hprefetch]
    exact Segment.keeps_prefetch (fun _ _ hw => hw) fun _ _ _ _ =>
      keeps_outsideAct_setting fun fast => Answers.keeps_ask (htools fast _)
  close _ _ _ := Workshop.meets_change fun _ hw => hw

/-- Closing an object never fails. -/
theorem closes_inspector : (inspector files tools tool).Closes :=
  fun _ => Workshop.meets_change fun _ _ => trivial

/-- The switch of the inspector is what it has been set to. -/
theorem obeys_fastSwitch {switch : FastSwitch (Workshop ω)}
    (h : (inspector files tools tool).fastSwitch? = some switch) : switch.Obeys := by
  obtain rfl := Option.some.inj h
  exact fun _ _ _ => rfl

/-- Nothing that the inspector does with objects turns its switch. -/
theorem leaves_inspector {switch : FastSwitch (Workshop ω)}
    (h : (inspector files tools tool).fastSwitch? = some switch) :
    (inspector files tools tool).Leaves switch := by
  obtain rfl := Option.some.inj h
  intro on
  have hcarries := carries_inspector (R := fun fast (_ : ω) => fast = on) files tools tool
    (fun _ _ _ hw => hw) (fun _ _ _ hw => hw)
  exact hcarries

end Elf

end Symbolication
