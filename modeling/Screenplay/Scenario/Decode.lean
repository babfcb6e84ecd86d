import Screenplay.Scenario.Basic

/-!
Reading scenarios. Actions and measurements are tagged unions, whose members are read whole before
they are interpreted; all other records are interpreted as they are read.
-/
namespace Screenplay
open Json

/-! ## Conditions -/

def ImageCheck.fields :
    Fields [String, Option Float, Option Point, Bool, Option UInt64, Option Bool] :=
  (.required "template" .string, .optional "threshold" .double,
    .optional "cropLocation" Point.decoder, .withDefault "colorInvariant" .bool false,
    .optional "timeoutMs" .longWord, .optional "useCache" .bool, ())

def ImageCheck.decoder : Decoder ImageCheck :=
  Record.make fields fun (template, threshold, cropLocation, colorInvariant, timeoutMs, useCache, ()) =>
    { template, threshold, cropLocation, colorInvariant, timeoutMs, useCache }

def SoundCheck.fields : Fields [Option Float, Option UInt64] :=
  (.optional "minLevel" .double, .optional "durationMs" .longWord, ())

def SoundCheck.decoder : Decoder SoundCheck :=
  Record.make fields fun (minLevel, durationMs, ()) => { minLevel, durationMs }

def SystemProbe.decoder : Decoder SystemProbe := .choice (all.map fun p => (p.name, p))

def Measure.system? : Fields [SystemProbe] := (.required "probe" SystemProbe.decoder, ())

def Measure.variants : Variants Measure where
  ordered := [fun s d => (ImageCheck.decoder s d).map .image,
    fun s d => (SoundCheck.decoder s d).map .sound,
    Record.make Measure.system? fun (probe, ()) => .system probe]
  names := [("image-match", 0), ("sound-check", 1), ("system-info", 2)]

def Comparison.decoder : Decoder Comparison := .choice (all.map fun c => (c.symbol, c))

/-- The two members of a condition that do not belong to its measurement. -/
def Condition.expectation : Fields [Option Comparison, Option Float] :=
  (.optional "operator" Comparison.decoder, .optional "value" .double, ())

/-- Takes in the expectation and keeps every other member for the measurement. -/
def Condition.gather (s : Setting) : List (Option String × Draft) →
    Json.Seen [Option Comparison, Option Float] → List (String × Value) →
    Except Fault (Json.Seen [Option Comparison, Option Float] × List (String × Value))
  | [], seen, kept => .ok (seen, kept.reverse)
  | (none, _) :: _, _, _ => .error .malformed
  | (some name, d) :: rest, seen, kept =>
    match Record.accept s name d expectation seen with
    | some result => do
      let seen ← result
      gather s rest seen kept
    | none => do
      let v ← d.keep s.room
      gather s rest seen ((name, v) :: kept)

/-- A condition is written as one object that holds the members of its measurement as well. -/
def Condition.decoder : Decoder Condition
  | s, .object members cut => do
    let inner ← Decoder.inside s
    let (seen, kept) ← gather inner members (Record.unseen _) []
    Draft.closed Json.Break.kept cut
    let (operator, value, ()) ← Record.complete expectation seen
    let measure ← Measure.variants.decoder { s with origin := .member } (.ofValue (.object kept))
    return { measure, operator, value }
  | _, d => .error d.unexpected

/-! ## Actions -/

def MouseButton.decoder : Decoder MouseButton := .choice (all.map fun b => (b.name, b))

def LogLevel.decoder : Decoder LogLevel := .choice (all.map fun l => (l.name, l))

namespace Task

def click? : Fields [Int32, Int32, MouseButton, Option UInt8] :=
  (.required "x" .integer, .required "y" .integer, .withDefault "button" MouseButton.decoder .left,
    .optional "count" .byte, ())

def drag? : Fields [Int32, Int32, Int32, Int32, Option UInt64] :=
  (.required "fromX" .integer, .required "fromY" .integer, .required "toX" .integer,
    .required "toY" .integer, .optional "durationMs" .longWord, ())

def text? : Fields [String] := (.required "text" .string, ())

def wait? : Fields [UInt64, Option UInt64] :=
  (.required "ms" .longWord, .optional "maxMs" .longWord, ())

def log? : Fields [LogLevel, String] :=
  (.required "level" LogLevel.decoder, .required "message" .string, ())

/-- The tasks in the order of their tags. -/
def decoders : List (Decoder Task) :=
  [Record.make click? fun (x, y, button, count, ()) => .click x y button count,
    Record.make drag? fun (fromX, fromY, toX, toY, durationMs, ()) =>
      .drag fromX fromY toX toY durationMs,
    Record.make text? fun (text, ()) => .input text,
    Record.make text? fun (text, ()) => .key text,
    Record.make wait? fun (ms, maxMs, ()) => .wait ms maxMs,
    Record.make log? fun (level, message, ()) => .log level message,
    fun s d => (SoundCheck.decoder s d).map .soundCheck,
    fun s d => (ImageCheck.decoder s d).map .imageMatch]

end Task

namespace Action

def branch? (action : Decoder Action) :
    Fields [Option Condition, List Action, Option (List Action)] :=
  (.optional "condition" Condition.decoder, .withDefault "thenActions" (.list action) [],
    .optional "elseActions" (.list action), ())

def repeatWhile? (action : Decoder Action) :
    Fields [Option Condition, List Action, Option UInt32] :=
  (.optional "condition" Condition.decoder, .withDefault "actions" (.list action) [],
    .optional "maxIterations" .word, ())

def loop? (action : Decoder Action) : Fields [UInt32, List Action] :=
  (.required "count" .word, .withDefault "actions" (.list action) [], ())

def skip? : Fields [Option String] := (.optional "reason" .string, ())

def fail? : Fields [Option String] := (.optional "message" .string, ())

def test? : Fields [Option String] := (.optional "name" .string, ())

/-- The tags of the actions by position; a tap is a click. -/
def tags : List (String × Nat) :=
  [("if", 0), ("while", 1), ("loop", 2), ("skip", 3), ("fail", 4), ("test", 5), ("click", 6),
    ("tap", 6), ("drag", 7), ("input", 8), ("key", 9), ("wait", 10), ("log", 11),
    ("sound-check", 12), ("image-match", 13)]

def variants (action : Decoder Action) : Variants Action where
  ordered :=
    [Record.make (branch? action) fun (condition, thenActions, elseActions, ()) =>
        .branch condition thenActions elseActions,
      Record.make (repeatWhile? action) fun (condition, actions, maxIterations, ()) =>
        .repeatWhile condition actions maxIterations,
      Record.make (loop? action) fun (count, actions, ()) => .loop count actions,
      Record.make skip? fun (reason, ()) => .skip reason,
      Record.make fail? fun (message, ()) => .fail message,
      Record.make test? fun (name, ()) => .test name]
      ++ Task.decoders.map fun decoder s d => (decoder s d).map .task
  names := tags

/-- Actions nested at most `depth` deep. -/
def nested : Nat → Decoder Action
  | 0 => fun _ _ => .error .malformed
  | depth + 1 => (variants (nested depth)).decoder

/-- A text cannot nest actions deeper than it nests at all. -/
def decoder : Decoder Action := fun s d => nested (s.room + 1) s d

end Action

/-! ## Scenarios -/

def TemplateFile.fields : Fields [String, Option Point] :=
  (.required "path" .string, .optional "cropLocation" Point.decoder, ())

def TemplateFile.decoder : Decoder TemplateFile :=
  Record.make fields fun (path, cropLocation, ()) => { path, cropLocation }

def RunOptions.fields : Fields [Bool, UInt64, UInt32] :=
  let default : RunOptions := {}
  (.withDefault "stopOnFailure" .bool default.stopOnFailure,
    .withDefault "maxDepth" .longWord default.maxDepth,
    .withDefault "defaultMaxIterations" .word default.defaultMaxIterations, ())

def RunOptions.decoder : Decoder RunOptions :=
  Record.make fields fun (stopOnFailure, maxDepth, defaultMaxIterations, ()) =>
    { stopOnFailure, maxDepth, defaultMaxIterations }

def CacheSettings.fields : Fields [UInt64, UInt64] :=
  let default : CacheSettings := {}
  (.withDefault "cacheCapacity" .longWord default.capacity,
    .withDefault "cacheTtlMs" .longWord default.ttlMs, ())

def CacheSettings.decoder : Decoder CacheSettings :=
  Record.make fields fun (capacity, ttlMs, ()) => { capacity, ttlMs }

namespace Scenario

def fields : Fields
    [Option String, List Action, List (String × TemplateFile), RunOptions, CacheSettings, Value] :=
  (.optional "name" .string, .withDefault "actions" (.list Action.decoder) [],
    .withDefault "templates" (.table TemplateFile.decoder) [],
    .withDefault "options" RunOptions.decoder {}, .withDefault "matcher" CacheSettings.decoder {},
    .withDefault "device" .value .null, ())

/-- The device is any value; of a repeated name in it, the last member counts. -/
def decoder : Decoder Scenario :=
  Record.make fields fun (name, actions, templates, options, cache, device, ()) =>
    { name, actions, templates, options, cache, device := device.normal }

end Scenario

end Screenplay
