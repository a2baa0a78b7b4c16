import Symbolication.CommandLine.Arguments
import Symbolication.Elf.Inspector
import Symbolication.Pass.Symbolize
import Symbolication.Report

/-!
# Symbolication.CommandLine.Run

The command: it loads a profile, symbolizes it, and prints or keeps a report and,
if wanted, the profile itself. A profile that cannot be loaded and a pass that
fails are reported, and the command ends with status one; other faults end it as
they are.
-/

namespace Symbolication

/-- What the command needs of a world. -/
structure Services (ω : Type) where
  files : Files ω
  tools : ToolRunner ω
  transport : Transport ω

namespace Services

variable {ω : Type}

/-- What symbolization works with in a workshop, given the services of a world. -/
def toolkit (s : Services ω) (lineTool : Option String) (patience : Patience) :
    Toolkit (Workshop ω) Elf.Segment where
  inspector := Elf.inspector s.files s.tools lineTool
  post url payload := Workshop.outsideAct (Transport.post s.transport patience url payload)
  demangler := Workshop.demangler s.tools "c++filt"

end Services

namespace CommandLine

/-- A status with which the command ends. -/
inductive ExitStatus where
  | success
  | failure
  | misuse
deriving DecidableEq, Repr

/-- The number of a status. -/
def ExitStatus.code : ExitStatus → Nat
  | success => 0
  | failure => 1
  | misuse => 2

variable {ω : Type}

/-- The profile with another file for its first mapping. -/
def withBinary (file : String) (p : RawProfile) : RawProfile :=
  { p with mappings := p.mappings.modify 0 fun m => { m with file := Label.ofText file } }

/-- Loads the profile; none if the failure has been reported. -/
def load (s : Services ω) (path : String) : Act ω (Option RawProfile) := do
  let path := PathName.plainString path
  let isFile ← s.files.hasFile path
  if !isFile then
    Act.note (.profileMissing path)
    return none
  else
    tryCatch (some <$> s.files.loadRaw path) fun fault =>
      match fault with
      | .system _ | .document _ => do
        Act.note (.loadFailed path fault)
        return none
      | _ => throw fault

/-- The profile with the main binary, if one is named. -/
def applyBinary (binary : String) (p : RawProfile) : Act ω RawProfile :=
  if binary.isEmpty then return p
  else if p.mappings.isEmpty then do
    Act.note .binaryIgnored
    return p
  else return withBinary binary p

/-- The profile to work on; none if the failure has been reported. -/
def prepare (s : Services ω) (a : Arguments) : Act ω (Option RawProfile) := do
  match ← load s a.profile with
  | none => return none
  | some p => some <$> applyBinary a.binary p

/-- The sources that the arguments name, for every mapping. They are kept under the files of the
mappings. -/
def sourcesFor (servers : List Given) (p : RawProfile) : Except Fault (SourcesOf Json) :=
  match p.mappings.findSome? fun m => Label.keyless? m.file with
  | some kind => .error (.notKey kind)
  | none => .ok (.ofServers p (servers.map Given.word?))

/-- The text of the directive that the arguments give. -/
def directiveText : Option Given → Except Fault (Option String)
  | none => .ok none
  | some (.word text) => .ok (some text)
  | some .nothing => .error (.leftOut .directive)

/-- Symbolizes the profile as the arguments ask for. -/
def symbolize (s : Services ω) (a : Arguments) (p : RawProfile) :
    Step (Workshop ω) (RawProfile × Except Fault Unit) := do
  match sourcesFor a.servers p, directiveText a.directive with
  | .error fault, _ | .ok _, .error fault => return (p, .error fault)
  | .ok sources, .ok text =>
    let (p, ended) ← (s.toolkit a.lineTool.word? a.patience).symbolize text sources p
    return (p, ended.map fun _ => ())

/-- Writes the report to a file, if one is named. Gives what is to be printed. -/
def deliver (s : Services ω) (output : String) (lines : List String) : Act ω String :=
  if output.isEmpty then return Report.printed lines
  else do
    let path := PathName.plainString output
    Act.note (.writingReport path)
    Files.access path fun path => s.files.write path (Report.kept lines)
    return ""

/-- Writes the profile to a file, if one is named. -/
def keepProfile (s : Services ω) (path : String) (p : RawProfile) : Act ω Unit :=
  if path.isEmpty then return ()
  else s.files.saveDocument path (Document.ofProfile id p)

/-- How a run ended, and what it printed. -/
structure Ending where
  status : Except Fault ExitStatus
  printed : String := ""

/-- Reports on a profile and keeps it. -/
def finish (s : Services ω) (a : Arguments) (p : RawProfile) : Step ω Ending := do
  match Report.ofProfile? p with
  | none => return { status := .error .integerTooLong }
  | some lines =>
    match ← (deliver s a.output lines).run with
    | .error fault => return { status := .error fault }
    | .ok printed =>
      let ended ← (keepProfile s a.writeProfile p).run
      return { status := ended.map fun _ => .success, printed }

/-- Runs the command with arguments. -/
def run (s : Services ω) (a : Arguments) : Step (Workshop ω) Ending := do
  match ← Workshop.outsideStep (prepare s a).run with
  | .error fault => return { status := .error fault }
  | .ok none => return { status := .ok .failure }
  | .ok (some p) =>
    let (p, ended) ← symbolize s a p
    match ended with
    | .ok () => Workshop.outsideStep (finish s a p)
    | .error fault =>
      if fault.endsPass then
        note (.runFailed fault)
        return { status := .ok .failure }
      else
        return { status := .error fault }

/-- A notice as a line. -/
def noticeLine (n : Notice) : String :=
  "[" ++ n.level.name ++ "] " ++ n.text ++ "\n"

/-- The notices that are shown, as lines. Details are shown only if they are wanted. -/
def noticeLines (verbose : Bool) (notices : List Notice) : String :=
  String.join ((notices.filter fun n => verbose || n.level != .debug).map noticeLine)

/-- What a command leaves behind. -/
structure Outcome where
  status : Except Fault ExitStatus
  printed : String := ""
  reported : String := ""

/-- The command. -/
def command (s : Services ω) (texts : List String) (world : ω) : Outcome × ω :=
  match readArguments texts with
  | .error .help => ({ status := .ok .success, printed := helpText }, world)
  | .error (.refused flaw) => ({ status := .ok .misuse, reported := refusal flaw }, world)
  | .ok a =>
    let (ending, env) := run s a { world := { outside := world } }
    let reported := noticeLines a.verbose env.notices
    ({ status := ending.status, printed := ending.printed, reported }, env.world.outside)

end CommandLine

end Symbolication
