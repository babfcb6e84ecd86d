import Screenplay.Matching.Matcher
import Screenplay.Run.Performer
import Screenplay.Scenario.Templates
import Screenplay.Screen.Source

/-!
The scene of a run: what is on the screen, what is looked for on it, and what is remembered of
earlier searches. An executor acts in it.
-/
namespace Screenplay

structure Scene where
  screen : ScreenSource := .absent
  cache : LocationCache := .empty 32 300000
  templates : TemplateLibrary := []
  /-- Handed to the executor as it is. -/
  device : Json.Value := .null
  files : Files := {}
  /-- How many searches were made so far. -/
  searches : Nat := 0
  /-- The clock as each of the searches sees it; they are counted from 0. -/
  clock : Nat → Stopwatch := fun _ => .still 0

/-- What a search for a template on one frame came to. -/
structure ImageReading where
  success : Bool
  score : Float
  threshold : Float
  result : MatchResult
  deriving DecidableEq, Repr

/-- What a probe of sound or system measured. -/
structure ProbeReading where
  success : Bool
  value : Option Float
  deriving DecidableEq, Repr

namespace Scene

/-- Shows the screen. -/
def capture (s : Scene) : Except CaptureError Frame × Scene :=
  let (frame, screen) := s.screen.capture s.files
  (frame, { s with screen })

/-- The options of a check; the template's own place is the hint unless the check has one. -/
def searchOptions (check : ImageCheck) (template : Template) : SearchOptions :=
  let default : SearchOptions := {}
  { threshold := check.threshold.getD default.threshold
    timeoutMs := check.timeoutMs.getD default.timeoutMs
    useCache := check.useCache.getD default.useCache
    cropLocation := check.cropLocation.or template.cropLocation
    colorInvariant := check.colorInvariant }

/-- The text of a check that names no template of the scene. -/
def unknownTemplate (name : String) : String := "Unknown template '" ++ name ++ "'"

/-- Looks for a template on a frame. -/
def matchImage (s : Scene) (check : ImageCheck) (frame : Frame) :
    Reply Scene (Except String ImageReading) :=
  match s.templates.lookup check.template with
  | none => { result := .error (unknownTemplate check.template), world := s }
  | some template =>
    let options := searchOptions check template
    let finding := s.cache.findTemplate (s.clock s.searches) frame template.frame options
    let result := finding.result
    let s := { s with searches := s.searches + 1 }
    { result := .ok
        { success := result.found, score := result.score, threshold := options.threshold, result }
      world := { s with cache := finding.cache }
      signals := List.replicate finding.pauses (.pause { s with cache := finding.during }) }

end Scene

/-- The world of a run: who acts, and where. -/
structure Context (ε : Type) where
  executor : ε
  scene : Scene := {}

/-- How an executor does its part. An error is the text of why it could not do it at all. -/
structure Executor (ε : Type) where
  perform : Task → Context ε → Reply (Context ε) (Except String Outcome)
  /-- Measures sound or a property of the system. -/
  probe : Condition → Context ε → Reply (Context ε) (Except String ProbeReading)
  /-- Looks for a template on a frame that was captured before. -/
  matchImage : ImageCheck → Frame → Context ε → Reply (Context ε) (Except String ImageReading)

namespace Executor

variable {ε : Type}

/-- The search with the templates and the memory of the scene. -/
def matchInScene (check : ImageCheck) (frame : Frame) (c : Context ε) :
    Reply (Context ε) (Except String ImageReading) :=
  (c.scene.matchImage check frame).mapWorld fun scene => { c with scene }

/-- A probe that is not there. -/
def noProbe (condition : Condition) (c : Context ε) : Reply (Context ε) (Except String ProbeReading) :=
  { result := .error (condition.measure.kind ++ " conditions are not supported by this executor")
    world := c }

end Executor

end Screenplay
