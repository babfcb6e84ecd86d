import Screenplay.CommandLine.Arguments
import Screenplay.Device.Desktop
import Screenplay.Json.Printer
import Screenplay.Run.Engine
import Screenplay.Scenario.Load
import Screenplay.Scenario.Schema
import Screenplay.Stage.Judgement

/-!
One call of the program: the exit status and what it prints, on the host that it is called on.
-/
namespace Screenplay.CommandLine
open Json (Value)

inductive ExitStatus where
  | success
  /-- The scenario failed, or it could not be loaded. -/
  | failure
  /-- The run broke off, or the command line is wrong. -/
  | fault
  | crash
  deriving DecidableEq, Repr

def ExitStatus.code : ExitStatus → UInt8
  | success => 0
  | failure => 1
  | fault => 2
  | crash => 101

/-- What goes to the standard output. -/
inductive Output where
  | nothing
  | text (s : String)
  | json (v : Value)
  deriving Repr

/-- A value is printed one member to a line. -/
def Output.print : Output → String
  | nothing => ""
  | text s => s
  | json v => v.pretty 0 ++ "\n"

structure Answer where
  status : ExitStatus
  output : Output
  /-- What goes to the standard error output. -/
  complaint : Option String := none
  deriving Repr

/-- What a call of the program finds where it is made. -/
structure Host where
  files : Files := {}
  device : InputDevice := {}
  /-- The call of the run during which the user interrupts it; that asks it to stop. -/
  interrupt : Option Nat := none
  /-- The clock as each search sees it. -/
  clock : Nat → Stopwatch := fun _ => .still 0
  overflow : Overflow := .wraps

def programName : String := "macrobot"

def versionText : String := programName ++ " 0.1.0\n"

def helpText : String :=
  "Runs a scenario of device actions steered by what the screen shows\n\n" ++
  "Usage: " ++ programName ++ " [OPTIONS]\n\n" ++
  "Options:\n" ++
  "  -s, --scenario <SCENARIO>    The scenario, a JSON file\n" ++
  "      --dry-run                Performs nothing for real\n" ++
  "      --stop-on-failure        Ends the run at the first action that fails\n" ++
  "      --screen <SCREEN>        A PNG file that shows the screen\n" ++
  "      --log-level <LOG_LEVEL>  The least level of the log: trace, debug, info, warn or error\n" ++
  "      --print-schema           Prints the JSON Schema of scenarios\n" ++
  "  -h, --help                   Prints this text\n" ++
  "  -V, --version                Prints the version\n"

/-- The bound on the steps of a run; no run that anyone waits for gets there. -/
def stepLimit : Nat := Nat.pow 2 60

/-- The scenario as the command line wants it run. -/
def adjust (a : Arguments) (s : Scenario) : Scenario :=
  { s with options := { s.options with stopOnFailure := a.stopOnFailure || s.options.stopOnFailure } }

/-- The desktop in front of the screen that the command line names. -/
def desktopContext (a : Arguments) (s : Scenario) (templates : TemplateLibrary) (host : Host) :
    Context Desktop where
  executor := { dryRun := a.dryRun, device := host.device, overflow := host.overflow }
  scene :=
    { screen := match a.screen with
        | none => .absent
        | some path => .ofFile path
      cache := .empty s.cache.capacity.toNat s.cache.ttlMs.toNat
      templates
      device := s.device
      files := host.files
      clock := host.clock }

/-- The answer for a run that has ended. -/
def answerOf : RunResult → Answer
  | .ok report => ⟨if report.success then .success else .failure, .json report.toJson, none⟩
  | .fault f report => ⟨.fault, .json report.toJson, some f.report⟩

/-- Loads a scenario and runs it. -/
def play (path : String) (a : Arguments) (host : Host) : Answer :=
  match Scenario.ofWholeFile host.files path with
  | .error e => ⟨.failure, .nothing, some e.message⟩
  | .ok scenario =>
    let scenario := adjust a scenario
    match scenario.loadTemplates host.files (Path.parent path) with
    | .error e => ⟨.failure, .nothing, some e.message⟩
    | .ok templates =>
      let engine : Engine := { options := scenario.options }
      let context := desktopContext a scenario templates host
      let performer := Desktop.executor.performer.interrupted host.interrupt
      match engine.execute performer scenario.actions (0, context) .goOn stepLimit with
      | .ran { result := some result, .. } => answerOf result
      | .ran { result := none, .. } => ⟨.crash, .nothing, some DesktopError.overflow.message⟩
      | _ => ⟨.fault, .nothing, some "the run did not end"⟩

/-- The files that a request names, and those that its scenario, if it can be read, names in turn. -/
def Request.files : Request → Option (List UInt8) → List String
  | .play path a, scenario =>
    let base := Path.parent path
    let templates := match scenario.map Scenario.ofStream with
      | some (.ok s) => s.templates.map fun (_, file) => Path.join base file.path
      | _ => []
    path :: templates ++ a.screen.toList
  | _, _ => []

/-- Answers a call of the program. -/
def respond (words : List String) (host : Host) : Answer :=
  match Request.ofWords words with
  | .error e => ⟨.fault, .nothing, some e.message⟩
  | .ok .help => ⟨.success, .text helpText, none⟩
  | .ok .version => ⟨.success, .text versionText, none⟩
  | .ok .schema => ⟨.success, .json Schema.document, none⟩
  | .ok (.play path a) => play path a host

end Screenplay.CommandLine
