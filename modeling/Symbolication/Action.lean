import Symbolication.Notice

/-!
# Symbolication.Action

Actions in a world: they change it, they give notices, and some may fail. What
an action has done before it fails stays done, so a failure leaves the world and
the notices as they then were.

The world is a type parameter. A program supplies files, processes and servers;
a theorem may supply any state that records what it is asked.
-/

namespace Symbolication

open Text

/-- A world together with the notices given so far. -/
structure Env (ω : Type) where
  world : ω
  notices : List Notice := []

/-- An action that does not fail. -/
abbrev Step (ω : Type) := StateM (Env ω)

/-- An action that may fail. -/
abbrev Act (ω : Type) := ExceptT Fault (Step ω)

variable {ω α : Type}

/-- Gives a notice. -/
def note (n : Notice) : Step ω Unit :=
  modify fun env => { env with notices := env.notices ++ [n] }

/-- Gives a notice in the course of an action that may fail. -/
def Act.note (n : Notice) : Act ω Unit :=
  ExceptT.lift (Symbolication.note n)

/-- Changes the world by a function that also answers. -/
def inWorld (f : ω → α × ω) : Step ω α := fun env =>
  let (a, world) := f env.world
  (a, { env with world })

/-- Changes the world by a function that answers or fails. -/
def inWorldTry (f : ω → Except Fault α × ω) : Act ω α :=
  ExceptT.mk (inWorld f)

/-! ## The outside world -/

/-- A command to be run. -/
structure Command where
  /-- The program; none if it was left out. -/
  executable : Option String
  arguments : List String
deriving DecidableEq, Repr

/-- What became of a command. -/
inductive ToolOutcome where
  | ended (status : Int) (output complaints : String)
  | notStarted (cause : SystemFault)
  /-- An argument holds a zero character, so that no program can be given it. -/
  | zeroInArgument
  /-- The program ended, but its output or its complaints are no UTF-8. -/
  | undecodable (cause : Utf8.Fault)
deriving Repr

/-- How a world runs commands. -/
abbrev ToolRunner (ω : Type) := Command → ω → ToolOutcome × ω

/-- Runs a command. -/
def runTool (tools : ToolRunner ω) (command : Command) : Step ω ToolOutcome :=
  inWorld (tools command)

end Symbolication
