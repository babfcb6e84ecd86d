import Screenplay.Scenario.Basic

/-!
Writing scenarios: every member is written, in the order of declaration, and `null` stands for one
that is absent.
-/
namespace Screenplay
open Json (Value)

private def text? : Option String → Value := .ofOption .text
private def double? : Option Float → Value := .ofOption .double
private def word? : Option UInt32 → Value := .ofOption fun n => .whole n.toNat
private def longWord? : Option UInt64 → Value := .ofOption fun n => .whole n.toNat

def ImageCheck.members (c : ImageCheck) : List (String × Value) :=
  [("template", .text c.template), ("threshold", double? c.threshold),
    ("cropLocation", .ofOption Point.toJson c.cropLocation),
    ("colorInvariant", .bool c.colorInvariant), ("timeoutMs", longWord? c.timeoutMs),
    ("useCache", .ofOption .bool c.useCache)]

def SoundCheck.members (c : SoundCheck) : List (String × Value) :=
  [("minLevel", double? c.minLevel), ("durationMs", longWord? c.durationMs)]

def Measure.members : Measure → List (String × Value)
  | image check => check.members
  | sound check => check.members
  | system probe => [("probe", .text probe.name)]

/-- One object: the tag, the members of the measurement, then the expectation. -/
def Condition.toJson (c : Condition) : Value :=
  .object (("type", .text c.measure.kind) :: c.measure.members ++
    [("operator", .ofOption (fun o => .text o.symbol) c.operator), ("value", double? c.value)])

def Task.members : Task → List (String × Value)
  | click x y button count =>
    [("x", .whole x.toInt), ("y", .whole y.toInt), ("button", .text button.name),
      ("count", .ofOption (fun n => .whole n.toNat) count)]
  | drag fromX fromY toX toY durationMs =>
    [("fromX", .whole fromX.toInt), ("fromY", .whole fromY.toInt), ("toX", .whole toX.toInt),
      ("toY", .whole toY.toInt), ("durationMs", longWord? durationMs)]
  | input text => [("text", .text text)]
  | key text => [("text", .text text)]
  | wait ms maxMs => [("ms", .whole ms.toNat), ("maxMs", longWord? maxMs)]
  | log level message => [("level", .text level.name), ("message", .text message)]
  | soundCheck check => check.members
  | imageMatch check => check.members

def Task.toJson (t : Task) : Value := .object (("type", .text t.kind) :: t.members)

namespace Action

mutual

def toJson : Action → Value
  | branch condition thenActions elseActions =>
    .object [("type", .text "if"), ("condition", .ofOption Condition.toJson condition),
      ("thenActions", .list (listToJson thenActions)), ("elseActions", optionToJson elseActions)]
  | repeatWhile condition actions maxIterations =>
    .object [("type", .text "while"), ("condition", .ofOption Condition.toJson condition),
      ("actions", .list (listToJson actions)), ("maxIterations", word? maxIterations)]
  | loop count actions =>
    .object [("type", .text "loop"), ("count", .whole count.toNat),
      ("actions", .list (listToJson actions))]
  | skip reason => .object [("type", .text "skip"), ("reason", text? reason)]
  | fail message => .object [("type", .text "fail"), ("message", text? message)]
  | test name => .object [("type", .text "test"), ("name", text? name)]
  | task t => t.toJson

def listToJson : List Action → List Value
  | [] => []
  | a :: rest => a.toJson :: listToJson rest

def optionToJson : Option (List Action) → Value
  | none => .null
  | some actions => .list (listToJson actions)

end

end Action

def TemplateFile.toJson (t : TemplateFile) : Value :=
  .object [("path", .text t.path), ("cropLocation", .ofOption Point.toJson t.cropLocation)]

def RunOptions.toJson (o : RunOptions) : Value :=
  .object [("stopOnFailure", .bool o.stopOnFailure), ("maxDepth", .whole o.maxDepth.toNat),
    ("defaultMaxIterations", .whole o.defaultMaxIterations.toNat)]

def CacheSettings.toJson (c : CacheSettings) : Value :=
  .object [("cacheCapacity", .whole c.capacity.toNat), ("cacheTtlMs", .whole c.ttlMs.toNat)]

def Scenario.toJson (s : Scenario) : Value :=
  .object [("name", text? s.name), ("actions", .list (Action.listToJson s.actions)),
    ("templates", .object (s.templates.map fun (name, t) => (name, t.toJson))),
    ("options", s.options.toJson), ("matcher", s.cache.toJson), ("device", s.device)]

end Screenplay
