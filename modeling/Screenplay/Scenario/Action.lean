import Screenplay.Scenario.Condition

/-!
The actions of a scenario: a tree whose inner nodes decide what is run and whose leaves are run.
-/
namespace Screenplay

inductive MouseButton where
  | left
  | middle
  | right
  deriving DecidableEq, Repr

inductive LogLevel where
  | trace
  | debug
  | info
  | warn
  | error
  deriving DecidableEq, Repr

/-- An action that is given to the executor. -/
inductive Task where
  | click (x y : Int32) (button : MouseButton) (count : Option UInt8)
  | drag (fromX fromY toX toY : Int32) (durationMs : Option UInt64)
  | input (text : String)
  | key (text : String)
  | wait (ms : UInt64) (maxMs : Option UInt64)
  | log (level : LogLevel) (message : String)
  | soundCheck (check : SoundCheck)
  | imageMatch (check : ImageCheck)
  deriving DecidableEq, Repr

inductive Action where
  /-- Runs one of two branches; no condition means the first. -/
  | branch (condition : Option Condition) (thenActions : List Action)
      (elseActions : Option (List Action))
  /-- Runs the body while the condition holds, a bounded number of times. -/
  | repeatWhile (condition : Option Condition) (actions : List Action)
      (maxIterations : Option UInt32)
  /-- Runs the body a given number of times. -/
  | loop (count : UInt32) (actions : List Action)
  /-- Holds a place and does nothing. -/
  | skip (reason : Option String)
  /-- Ends the run as failed. -/
  | fail (message : Option String)
  /-- Marks a step that always succeeds. -/
  | test (name : Option String)
  | task (t : Task)
  deriving Repr, Inhabited

/-- The tag of a task. -/
def Task.kind : Task → String
  | click .. => "click"
  | drag .. => "drag"
  | input _ => "input"
  | key _ => "key"
  | wait .. => "wait"
  | log .. => "log"
  | soundCheck _ => "sound-check"
  | imageMatch _ => "image-match"

namespace Action

/-- The tag of an action. -/
def kind : Action → String
  | branch .. => "if"
  | repeatWhile .. => "while"
  | loop .. => "loop"
  | skip _ => "skip"
  | fail _ => "fail"
  | test _ => "test"
  | task t => t.kind

/-- The action owns other actions instead of being run itself. -/
def isControl : Action → Bool
  | branch .. | repeatWhile .. | loop .. => true
  | _ => false

end Action

namespace MouseButton

def name : MouseButton → String
  | left => "left"
  | middle => "middle"
  | right => "right"

def all : List MouseButton := [left, middle, right]

end MouseButton

namespace LogLevel

def name : LogLevel → String
  | trace => "trace"
  | debug => "debug"
  | info => "info"
  | warn => "warn"
  | error => "error"

def all : List LogLevel := [trace, debug, info, warn, error]

/-- The level that a user names, in any case; a warning may be spelled out. -/
def ofName? (name : String) : Option LogLevel :=
  [("trace", trace), ("debug", debug), ("info", info), ("warn", warn), ("warning", warn),
    ("error", error)].lookup name.toLower

/-- The name of a level in a log line. -/
def label : LogLevel → String
  | trace => "TRACE"
  | debug => "DEBUG"
  | info => "INFO"
  | warn => "WARN"
  | error => "ERROR"

end LogLevel

end Screenplay
