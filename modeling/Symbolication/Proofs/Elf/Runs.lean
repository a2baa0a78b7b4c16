import Symbolication.Proofs.Action.Runs
import Symbolication.Proofs.Elf.Setting
import Symbolication.Proofs.Remote.Answer

/-!
# Symbolication.Proofs.Elf.Runs

A record of the tool's runs.  It is kept in the world outside, where the tool is run,
and nothing else shows it:

* `ToolRun.operands`, `ToolRun.IsAbout` — what a run is about;
* `Files.watched` — files beside which there is a record;
* `Workshop.through` — a workshop whose world outside is seen through a view;
* `Segment.shows_lookup`, `Segment.shows_prefetch` — segments do what they do without it;
* `shows_inspector` — and so does the inspector.
-/

namespace Symbolication

variable {ω ω' α α' γ : Type} {view : ω' → ω}

/-! ## runs -/

namespace ToolRun

/-- What the tool is given after the name of the object. -/
def operands (run : ToolRun) : List String :=
  run.command.arguments.drop 5

/-- The tool is asked about an address. -/
def IsAbout (run : ToolRun) (a : Int) : Prop :=
  Number.hex a ∈ run.operands

variable {run : ToolRun} {tool : Option String} {path : String} {asked : List Int}

/-- The operands of a run for some addresses are their hexadecimal numerals, in order. -/
theorem operands_eq (h : run.command = Answers.command tool path asked) :
    run.operands = asked.map Number.hex := by
  rw [operands, h]
  rfl

/-- A command is about the addresses that it was made for. -/
theorem isAbout_iff (h : run.command = Answers.command tool path asked) {a : Int} :
    run.IsAbout a ↔ a ∈ asked := by
  rw [IsAbout, operands_eq h, List.mem_map]
  constructor
  · rintro ⟨b, hb, hhex⟩
    rwa [← Remote.hex_inj hhex]
  · exact fun ha => ⟨a, ha, rfl⟩

end ToolRun

/-- The files, which leave a record as it is. -/
def Files.watched (files : Files ω) : Files (Watched ω γ) where
  isFile path w := files.isFile path w.world
  read path w :=
    let (bytes, world) := files.read path w.world
    (bytes, { w with world })
  write path text w :=
    let (written, world) := files.write path text w.world
    (written, { w with world })

/-! ## views of a workshop -/

/-- The workshop whose world outside is seen through a view. -/
def Workshop.through (view : ω' → ω) (w : Workshop ω') : Workshop ω where
  outside := view w.outside
  fast := w.fast
  asked := w.asked
  segments := w.segments
  names := w.names

/-- The workshop with nothing but a first record beside the world outside. -/
def Workshop.watchedFrom (seen : γ) (w : Workshop ω) : Workshop (Watched ω γ) where
  outside := { world := w.outside, seen }
  fast := w.fast
  asked := w.asked
  segments := w.segments
  names := w.names

/-- The environment in which the world outside is watched. -/
def Env.outsideWatchedFrom (seen : γ) (env : Env (Workshop ω)) : Env (Workshop (Watched ω γ)) :=
  { world := env.world.watchedFrom seen, notices := env.notices }

namespace Workshop

/-- Looking at a workshop through a view sees what lies behind the view. -/
theorem shows_look : Act.Shows (through view) (through view) look look :=
  fun _ => rfl

/-- Two changes show each other if they do so on every workshop. -/
theorem shows_change {f : Workshop ω' → Workshop ω'} {f' : Workshop ω → Workshop ω}
    (h : ∀ w, f' (through view w) = through view (f w)) :
    Act.Shows (through view) id (change f) (change f') := by
  refine Act.shows_lift fun env => ?_
  exact congrArg (fun world => ((), ({ world, notices := env.notices } : Env (Workshop ω))))
    (h env.world)

/-- Actions on the outside world that show each other still do when taken in a workshop. -/
theorem shows_outsideAct {g : α → α'} {x : Act ω' α} {y : Act ω α'} (h : Act.Shows view g x y) :
    Act.Shows (through view) g (outsideAct x) (outsideAct y) := by
  intro env
  have hx := h { world := env.world.outside, notices := env.notices }
  let within (r : Except Fault α' × Env ω) : Except Fault α' × Env (Workshop ω) :=
    (r.1, { world := { through view env.world with outside := r.2.world }, notices := r.2.notices })
  exact congrArg within hx

end Workshop

/-! ## files and tools -/

/-- Seen through the view, files are read as others are. -/
def Files.Shows (view : ω' → ω) (A : Files ω') (B : Files ω) : Prop :=
  ∀ path w, B.read path (view w) = ((A.read path w).1, view (A.read path w).2)

/-- Watched files answer as the files do, and record nothing. -/
theorem Files.shows_watched (files : Files ω) :
    Files.Shows (Watched.world (γ := γ)) files.watched files :=
  fun _ _ => rfl

section

variable {A : ToolRunner ω'} {B : ToolRunner ω} {F : Files ω'} {G : Files ω}

/-- Runners that show each other give a question about addresses the same answers. -/
theorem Answers.shows_ask (h : ToolRunner.Shows view A B) (tool : Option String) (path : String)
    (addresses : List Int) :
    Act.Shows view id (ask A tool path addresses) (ask B tool path addresses) := by
  unfold ask
  refine Act.shows_bind (g := id) (Act.shows_lift (Step.shows_inWorld (h _))) fun outcome => ?_
  cases tool with
  | some tool => exact Act.shows_result _
  | none => exact Act.shows_throw _

theorem Files.shows_access (h : Files.Shows view F G) (path : String) :
    Act.Shows view id (access path F.read) (access path G.read) := by
  refine Act.shows_bind (Act.shows_result _) fun _ => Act.shows_inWorldTry fun w => ?_
  rw [h path w]

namespace Elf

/-! ## opening -/

/-- An object is read alike from files that show each other. -/
theorem shows_readObject (h : Files.Shows view F G) (path : String) :
    Act.Shows view id (readObject F path) (readObject G path) := by
  refine Act.shows_tryCatch (Files.shows_access h path) fun fault => ?_
  cases fault <;> exact Act.shows_throw _

theorem shows_buildIdOf (path : String) (littleEndian : Bool)
    (data : Option (Except Fault (List UInt8))) :
    Act.Shows view id (buildIdOf path littleEndian data) (buildIdOf path littleEndian data) := by
  unfold buildIdOf
  split
  · exact Act.shows_pure rfl
  · exact Act.shows_bind (Act.shows_note _) fun _ => Act.shows_pure rfl
  · exact Act.shows_throw _

/-- A segment is opened alike from files that show each other. -/
theorem shows_openSegment (h : Files.Shows view F G) (number : Nat) (fast : Bool)
    (region : Region) :
    Act.Shows view id (openSegment F number fast region) (openSegment G number fast region) := by
  unfold openSegment
  refine Act.shows_bind (shows_readObject h _) fun bytes => ?_
  refine Act.shows_bind (Act.shows_result _) fun image => ?_
  refine Act.shows_bind (Act.shows_result _) fun headers => ?_
  have hrest (base : Int) : Act.Shows view id
      (openRest (ω := ω') number fast region image base)
      (openRest number fast region image base) := by
    refine Act.shows_bind (Act.shows_result _) fun sections => ?_
    refine Act.shows_bind (shows_buildIdOf _ _ _) fun buildId => ?_
    exact Act.shows_bind (Act.shows_note _) fun _ => Act.shows_pure rfl
  simp only [id]
  cases loadBase image.header.type headers region.start region.limit region.offset with
  | ok base => exact Act.shows_bind (g := id) (Act.shows_pure rfl) fun base => hrest base
  | error type => exact Act.shows_bind (g := id) (Act.shows_throw _) fun base => hrest base

/-- The next segment of a workshop is opened alike from files that show each other. -/
theorem shows_openNext (h : Files.Shows view F G) (region : Region) :
    Act.Shows (Workshop.through view) id (openNext F region) (openNext G region) := by
  unfold openNext
  refine Act.shows_bind Workshop.shows_look fun w => ?_
  refine Act.shows_bind (Workshop.shows_change fun _ => rfl) fun _ => ?_
  refine Act.shows_bind (Workshop.shows_outsideAct (shows_openSegment h _ _ region)) fun s => ?_
  exact Act.shows_bind (Workshop.shows_change fun _ => rfl) fun _ => Act.shows_pure rfl

/-! ## asking -/

end Elf

namespace FrameMemo

/-- Filling a memo batch by batch shows what filling it by the other questions does. -/
theorem shows_fill {x : List Int → Act ω' Answers} {y : List Int → Act ω Answers}
    (h : ∀ batch, Act.Shows view id (x batch) (y batch)) (memo : FrameMemo)
    (batches : List (List Int)) :
    Step.Shows view id (fill x memo batches) (fill y memo batches) := by
  induction batches generalizing memo with
  | nil => exact Step.shows_pure rfl
  | cons batch rest ih =>
      unfold fill
      refine Step.shows_bind (Act.shows_run (h batch)) fun r => ?_
      cases r with
      | error fault => exact Step.shows_pure rfl
      | ok answers => exact ih _

/-- A prefetch into a memo shows what the prefetch by the other questions does. -/
theorem shows_prefetch {x : List Int → Act ω' Answers} {y : List Int → Act ω Answers}
    (h : ∀ batch, Act.Shows view id (x batch) (y batch)) (memo : FrameMemo)
    (addresses : List Int) :
    Step.Shows view id (prefetch x memo addresses) (prefetch y memo addresses) :=
  Step.shows_bind (shows_fill h memo _) fun _ => Step.shows_pure rfl

/-- A lookup in a memo shows what the lookup by the other question does. -/
theorem shows_lookup {x : Int → Act ω' (List Frame)} {y : Int → Act ω (List Frame)}
    (h : ∀ a, Act.Shows view id (x a) (y a)) (memo : FrameMemo) (a : Int) :
    Act.Shows view id (lookup x memo a) (lookup y memo a) := by
  unfold lookup
  cases memo.frames? a with
  | some frames => exact Act.shows_pure rfl
  | none => exact Act.shows_bind (h a) fun _ => Act.shows_pure rfl

end FrameMemo

namespace Elf

open Workshop

namespace Segment

theorem shows_state (s : Segment) : Act.Shows (through view) id s.state s.state := by
  unfold state
  refine Act.shows_bind shows_look fun w => ?_
  have hsame : (through view w).segment? s.number = w.segment? s.number := rfl
  rw [hsame]
  cases w.segment? s.number with
  | some object => exact Act.shows_pure rfl
  | none => exact Act.shows_throw _

/-- The functions of a segment are read alike through any view. -/
theorem shows_symbols (s : Segment) (object : OpenObject) :
    Act.Shows (through view) id (s.symbols object) (s.symbols object) := by
  unfold symbols
  cases object.symbols with
  | some symbols => exact Act.shows_pure rfl
  | none =>
      refine Act.shows_bind (Act.shows_result _) fun _ => ?_
      refine Act.shows_bind (Act.shows_note _) fun _ => ?_
      exact Act.shows_bind (shows_change fun _ => rfl) fun _ => Act.shows_pure rfl

theorem shows_remember (s : Segment) (memo : FrameMemo) :
    Act.Shows (through view) id (s.remember memo) (s.remember memo) :=
  shows_change fun _ => rfl

theorem shows_lookup (h : ToolRunner.Shows view A B) (tool : Option String) (s : Segment)
    (address : Int) :
    Act.Shows (through view) id (s.lookup A tool address) (s.lookup B tool address) := by
  unfold lookup
  refine Act.shows_bind (shows_state s) fun object => ?_
  refine Act.shows_bind (FrameMemo.shows_lookup (fun a => ?_) _ _) fun r => ?_
  · split
    · exact Act.shows_bind (shows_symbols s object) fun _ => Act.shows_pure rfl
    · exact Act.shows_bind (shows_outsideAct (Answers.shows_ask h tool s.path [a])) fun _ =>
        Act.shows_pure rfl
  · exact Act.shows_bind (shows_remember s _) fun _ => Act.shows_pure rfl

theorem shows_prefetch (h : ToolRunner.Shows view A B) (tool : Option String) (s : Segment)
    (addresses : List Int) :
    Act.Shows (through view) id (s.prefetch A tool addresses) (s.prefetch B tool addresses) := by
  unfold prefetch
  refine Act.shows_bind (shows_state s) fun object => ?_
  split
  · have hask (batch : List Int) : Act.Shows (through view) id
        (outsideAct (Answers.ask A tool s.path batch))
        (outsideAct (Answers.ask B tool s.path batch)) :=
      shows_outsideAct (Answers.shows_ask h tool s.path batch)
    refine Act.shows_bind (Act.shows_lift (FrameMemo.shows_prefetch hask _ _)) fun r => ?_
    refine Act.shows_bind (shows_remember s _) fun _ => ?_
    exact Act.shows_bind (Act.shows_result _) fun _ => Act.shows_note _
  · exact Act.shows_pure rfl

end Segment

/-- Seen through a view of the world outside, the inspector is the one of other files and tools. -/
theorem shows_inspector (hfiles : Files.Shows view F G) (htools : ToolRunner.Shows view A B)
    (tool : Option String) :
    (inspector F A tool).Shows (through view) id (inspector G B tool) where
  openRegion region := shows_openNext hfiles region
  buildId _ := rfl
  lookup s address := s.shows_lookup htools tool address
  prefetch s := .some fun addresses => s.shows_prefetch htools tool addresses
  close _ := shows_change fun _ => rfl
  fastSwitch := .some ⟨fun _ => rfl, fun _ _ => rfl⟩

end Elf

end

end Symbolication
