import Symbolication.Proofs.Action.Watched

/-!
# Symbolication.Proofs.Action.Runs

Records of the runs of tools.  A world may keep one by itself, or the tools may be
watched, so that it stands beside the world:

* `ToolRun` — a run of a tool;
* `ToolRunner.Records` — a world that keeps a record of the runs of its tools;
* `ToolRunner.watched` — tools whose runs are recorded beside the world;
* `ToolRunner.Shows` — tools that do what others do, in sight of a view.
-/

namespace Symbolication

variable {ω ω' : Type}

/-- A run of a tool: the command, and what became of it. -/
structure ToolRun where
  command : Command
  outcome : ToolOutcome

/-- The status that the tool ended with, if its run is known to the end. -/
def ToolRun.status? (run : ToolRun) : Option Int :=
  match run.outcome with
  | .ended status _ _ => some status
  | _ => none

namespace ToolRunner

/-- The world keeps a record of the runs of its tools. -/
def Records (tools : ToolRunner ω) (runs : ω → List ToolRun) : Prop :=
  ∀ c w, runs (tools c w).2 = runs w ++ [⟨c, (tools c w).1⟩]

/-- The tools, with a record of their runs. -/
def watched (tools : ToolRunner ω) : ToolRunner (Watched ω (List ToolRun)) :=
  fun command w =>
    let (outcome, world) := tools command w.world
    (outcome, { world, seen := w.seen ++ [{ command, outcome }] })

/-- Seen through the view, the tools do what others do. -/
def Shows (view : ω' → ω) (A : ToolRunner ω') (B : ToolRunner ω) : Prop :=
  ∀ command w, B command (view w) = ((A command w).1, view (A command w).2)

/-- A watched runner answers as the runner does, and only records besides. -/
theorem shows_watched (tools : ToolRunner ω) : Shows Watched.world tools.watched tools :=
  fun _ _ => rfl

end ToolRunner

end Symbolication
