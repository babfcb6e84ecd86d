/-!
The words of the command line. They are read from left to right: the first word that asks for help
or for the version decides, unless a word before it is wrong.
-/
namespace Screenplay.CommandLine

structure Arguments where
  scenario : Option String := none
  /-- An image file that shows the current screen. -/
  screen : Option String := none
  logLevel : Option String := none
  /-- Performs nothing for real. -/
  dryRun : Bool := false
  /-- The first leaf that fails ends the run, whatever the scenario says. -/
  stopOnFailure : Bool := false
  printSchema : Bool := false
  deriving DecidableEq, Repr

/-- A switch that is off unless it is named. -/
inductive Switch where
  | dryRun
  | stopOnFailure
  | printSchema
  deriving DecidableEq, Repr

/-- An option that takes a value. -/
inductive Setting where
  | scenario
  | screen
  | logLevel
  deriving DecidableEq, Repr

/-- Why the words make no command. -/
inductive UsageError where
  | unknown (word : String)
  | unexpected (word : String)
  | repeated (name : String)
  | missingValue (name : String)
  | needlessValue (name : String)
  | emptyPath (name : String)
  | noScenario
  deriving DecidableEq, Repr

/-- What the user asks for. -/
inductive Request where
  | help
  | version
  | schema
  | play (scenario : String) (arguments : Arguments)
  deriving DecidableEq, Repr

namespace Switch

def name : Switch → String
  | dryRun => "--dry-run"
  | stopOnFailure => "--stop-on-failure"
  | printSchema => "--print-schema"

def all : List Switch := [dryRun, stopOnFailure, printSchema]

def isOn (s : Switch) (a : Arguments) : Bool :=
  match s with
  | dryRun => a.dryRun
  | stopOnFailure => a.stopOnFailure
  | printSchema => a.printSchema

def turnOn (s : Switch) (a : Arguments) : Arguments :=
  match s with
  | dryRun => { a with dryRun := true }
  | stopOnFailure => { a with stopOnFailure := true }
  | printSchema => { a with printSchema := true }

end Switch

namespace Setting

def name : Setting → String
  | scenario => "--scenario"
  | screen => "--screen"
  | logLevel => "--log-level"

def all : List Setting := [scenario, screen, logLevel]

/-- The value is a path, which cannot be empty. -/
def isPath : Setting → Bool
  | scenario | screen => true
  | logLevel => false

def get (s : Setting) (a : Arguments) : Option String :=
  match s with
  | scenario => a.scenario
  | screen => a.screen
  | logLevel => a.logLevel

def put (s : Setting) (value : String) (a : Arguments) : Arguments :=
  match s with
  | scenario => { a with scenario := some value }
  | screen => { a with screen := some value }
  | logLevel => { a with logLevel := some value }

end Setting

/-- What one word says. -/
inductive Word where
  | help
  | version
  | switch (s : Switch)
  /-- The value may be attached; otherwise it is the next word. -/
  | setting (s : Setting) (value : Option String)
  /-- No options come after this word. -/
  | endOfOptions
  /-- The word is no option. -/
  | plain (text : String)
  deriving DecidableEq, Repr

namespace Word

/-- A name and the value attached to it by an equals sign. -/
def splitValue (text : List Char) : String × Option String :=
  let (name, rest) := text.span (· ≠ '=')
  (String.ofList name, match rest with
    | [] => none
    | _ :: value => some (String.ofList value))

/-- An option with its long name. -/
def ofLong (word : String) : Except UsageError Word :=
  let (name, value) := splitValue word.toList
  let bare (w : Word) : Except UsageError Word :=
    if value.isNone then .ok w else .error (.needlessValue name)
  if name = "--help" then bare .help
  else if name = "--version" then bare .version
  else match Switch.all.find? (·.name = name), Setting.all.find? (·.name = name) with
    | some s, _ => bare (.switch s)
    | none, some s => .ok (.setting s value)
    | none, none => .error (.unknown word)

/-- An option with its short name; a value may follow at once or after an equals sign. -/
def ofShort (word : String) : List Char → Except UsageError Word
  | 'h' :: _ => .ok .help
  | 'V' :: _ => .ok .version
  | ['s'] => .ok (.setting .scenario none)
  | 's' :: '=' :: value => .ok (.setting .scenario (some (String.ofList value)))
  | 's' :: value => .ok (.setting .scenario (some (String.ofList value)))
  | _ => .error (.unknown word)

def ofString (word : String) : Except UsageError Word :=
  match word.toList with
  | ['-', '-'] => .ok .endOfOptions
  | '-' :: '-' :: _ => ofLong word
  | '-' :: c :: rest => ofShort word (c :: rest)
  | _ => .ok (.plain word)

end Word

namespace Arguments

/-- A switch may be turned on once. -/
def turnOn (a : Arguments) (s : Switch) : Except UsageError Arguments :=
  if s.isOn a then .error (.repeated s.name) else .ok (s.turnOn a)

/-- A setting may be made once. -/
def put (a : Arguments) (s : Setting) (value : String) : Except UsageError Arguments :=
  if (s.get a).isSome then .error (.repeated s.name)
  else if s.isPath && value.isEmpty then .error (.emptyPath s.name)
  else .ok (s.put value a)

/-- What is asked for when every word was read. -/
def request (a : Arguments) : Except UsageError Request :=
  if a.printSchema then .ok .schema
  else match a.scenario with
    | none => .error .noScenario
    | some scenario => .ok (.play scenario a)

/-- Reads the words that are left. -/
def read (a : Arguments) : List String → Except UsageError Request
  | [] => a.request
  | word :: rest => do
    match ← Word.ofString word with
    | .help => return .help
    | .version => return .version
    | .switch s => read (← a.turnOn s) rest
    | .setting s (some value) => read (← a.put s value) rest
    | .setting s none =>
      match rest with
      | [] => throw (.missingValue s.name)
      | value :: rest =>
        match Word.ofString value with
        | .ok (.plain value) => read (← a.put s value) rest
        | _ => throw (.missingValue s.name)
    | .plain text => throw (.unexpected text)
    | .endOfOptions =>
      match rest with
      | [] => a.request
      | extra :: _ => throw (.unexpected extra)

end Arguments

/-- Reads a command line. -/
def Request.ofWords (words : List String) : Except UsageError Request := Arguments.read {} words

namespace UsageError

def message : UsageError → String
  | unknown word => "unexpected argument '" ++ word ++ "' found"
  | unexpected word => "unexpected argument '" ++ word ++ "' found"
  | repeated name => "the argument '" ++ name ++ "' cannot be used multiple times"
  | missingValue name => "a value is required for '" ++ name ++ "' but none was supplied"
  | needlessValue name => "unexpected value for '" ++ name ++ "' found; no more were expected"
  | emptyPath name => "a value is required for '" ++ name ++ "' but none was supplied"
  | noScenario => "the following required arguments were not provided: --scenario"

end UsageError

end Screenplay.CommandLine
