import Screenplay.Scenario.Encode

/-!
The published description of scenario files, as a JSON Schema of draft 2020-12.
-/
namespace Screenplay.Schema
open Json (Value)

/-! ## Parts of a schema -/

/-- A schema is the list of its keywords until it is written. -/
abbrev Keywords := List (String × Value)

def ofType (name : String) : Keywords := [("type", .text name)]

def string : Keywords := ofType "string"
def boolean : Keywords := ofType "boolean"
def double : Keywords := ofType "number" ++ [("format", .text "double")]

/-- A whole number of a named width, from 0 if it has no sign. -/
def whole (format : String) (least : Option Nat) (greatest : Option Nat) : Keywords :=
  ofType "integer" ++ [("format", .text format)]
    ++ (least.map fun (n : Nat) => ("minimum", Value.whole n)).toList
    ++ (greatest.map fun (n : Nat) => ("maximum", Value.whole n)).toList

def integer : Keywords := whole "int32" none none
def byte : Keywords := whole "uint8" (some 0) (some 255)
def word : Keywords := whole "uint32" (some 0) none
def longWord : Keywords := whole "uint64" (some 0) none
def size : Keywords := whole "uint" (some 0) none

/-- A schema that is defined under a name. -/
def reference (name : String) : Keywords := [("$ref", .text ("#/$defs/" ++ name))]

def listOf (items : Keywords) : Keywords := ofType "array" ++ [("items", .object items)]

/-- Also allows `null`: beside a type of its own, as an alternative to a reference. -/
def nullable : Keywords → Keywords
  | ("type", .text name) :: rest => ("type", .list [.text name, .text "null"]) :: rest
  | keywords => [("anyOf", .list [.object keywords, .object (ofType "null")])]

def describe (text : String) (keywords : Keywords) : Keywords :=
  ("description", .text text) :: keywords

def withDefault (v : Value) (keywords : Keywords) : Keywords := keywords ++ [("default", v)]

/-- A member that may be left out or `null`. -/
def optional (keywords : Keywords) : Keywords := withDefault .null (nullable keywords)

/-- A member of an object. -/
structure Property where
  name : String
  schema : Keywords
  required : Bool := false

def required (name : String) (schema : Keywords) : Property := { name, schema, required := true }

def properties (members : List Property) : Keywords :=
  [("properties", .object (members.map fun p => (p.name, .object p.schema)))]

/-- An object; names of members that have to be there are listed only if there are any. -/
def object (members : List Property) : Keywords :=
  let names := (members.filter Property.required).map fun p => Value.text p.name
  ofType "object" ++ properties members ++ if names.isEmpty then [] else [("required", .list names)]

/-- The tag of a variant. -/
def tag (name : String) : Property := required "type" (string ++ [("const", .text name)])

/-- One of a list of names. -/
def choice (names : List String) : Keywords := string ++ [("enum", .list (names.map .text))]

/-- A tagged object whose other members are defined under a name. -/
def tagged (kind definition : String) : Keywords := reference definition ++ object [tag kind]

/-! ## Definitions -/

def actions : Keywords := listOf (reference "Action")

/-- The body of a control node; none is an empty one. -/
def body (name : String) : Property := ⟨name, withDefault (.list []) actions, false⟩

def conditionText : String := "Boolean probe consumed by `if` and `while`.

The measured scalar (match score, sound level, probe value) is compared with
`value` using `operator`. Without an explicit comparison, image matches test
`score >= threshold` and other probes use their own success flag."

def condition : Keywords :=
  describe conditionText <|
    object [⟨"operator", optional (reference "CompareOp"), false⟩, ⟨"value", optional double, false⟩]
      ++ [("oneOf", .list [.object (tagged "image-match" "ImageMatchParams"),
        .object (tagged "sound-check" "SoundCheckParams"),
        .object (tagged "system-info" "SystemInfoParams")])]

def actionText : String := "One step of a scenario.

Actions come in three flavours:
- control nodes (`if`, `while`, `loop`) that own nested sequences
- testing leaves (`skip`, `fail`, `test`) handled by the engine itself
- regular leaves, forwarded to the action executor"

/-- The variants of an action, in the order of their tags. -/
def variants : List Keywords :=
  [describe "Run `thenActions` if the condition holds, otherwise `elseActions` (if any)." <|
      object [tag "if",
        ⟨"condition", describe "Absent condition means \"always\"." (optional (reference "Condition")), false⟩,
        body "thenActions", ⟨"elseActions", optional actions, false⟩],
    describe "Run `actions` while the condition holds, at most `maxIterations` times." <|
      object [tag "while", ⟨"condition", optional (reference "Condition"), false⟩, body "actions",
        ⟨"maxIterations", optional word, false⟩],
    describe "Run `actions` exactly `count` times." <|
      object [tag "loop", required "count" word, body "actions"],
    describe "Occupy a slot without doing anything; counted as skipped." <|
      object [tag "skip", ⟨"reason", optional string, false⟩],
    describe "Terminate the whole run as failed." <|
      object [tag "fail", ⟨"message", optional string, false⟩],
    describe "Assertion placeholder; always succeeds." <|
      object [tag "test", ⟨"name", optional string, false⟩],
    describe "Tap/click at a screen position." <|
      object [tag "click", required "x" integer, required "y" integer,
        ⟨"button", withDefault (.text "left") (reference "MouseButton"), false⟩,
        ⟨"count", describe "Number of clicks (default: 1)." (optional byte), false⟩],
    describe "Press at one position, move, release at another." <|
      object [tag "drag", required "fromX" integer, required "fromY" integer, required "toX" integer,
        required "toY" integer, ⟨"durationMs", optional longWord, false⟩],
    describe "Type literal text." <| object [tag "input", required "text" string],
    describe "Send a key sequence (e.g. \"\x7bENTER\x7d\")." <|
      object [tag "key", required "text" string],
    describe "Sleep for `ms`, or a random duration in `[ms, maxMs]` when `maxMs` is set." <|
      object [tag "wait", required "ms" longWord, ⟨"maxMs", optional longWord, false⟩],
    object [tag "log", required "level" (reference "LogLevel"), required "message" string],
    describe "Sample the audio level and check it." <| tagged "sound-check" "SoundCheckParams",
    describe "Assert that a template is visible on screen." <| tagged "image-match" "ImageMatchParams"]

def action : Keywords :=
  describe actionText [("oneOf", .list (variants.map .object))]

def imageCheck : Keywords :=
  describe "Parameters shared by the `image-match` action and condition." <|
    object [required "template" (describe "Name of a template in the scenario's template library." string),
      ⟨"threshold", describe "Minimum score (default 0.95)." (optional double), false⟩,
      ⟨"cropLocation", describe "Overrides the template's own crop location."
        (optional (reference "Point")), false⟩,
      ⟨"colorInvariant", withDefault (.bool false) boolean, false⟩,
      ⟨"timeoutMs", optional longWord, false⟩, ⟨"useCache", optional boolean, false⟩]

def soundCheck : Keywords :=
  object [⟨"minLevel", describe "Minimum average level for the check to pass." (optional double), false⟩,
    ⟨"durationMs", describe "Sampling window." (optional longWord), false⟩]

def systemInfo : Keywords := object [required "probe" (reference "SystemProbe")]

def point : Keywords :=
  describe "A pixel position (top-left corner of a template)." <|
    object [required "x" integer, required "y" integer]

def templateFile : Keywords :=
  describe "A template image on disk." <|
    object [required "path" (describe "PNG file holding the template." string),
      ⟨"cropLocation", describe
        "Where the template was cut from the original screenshot; used as the default search hint."
        (optional (reference "Point")), false⟩]

def runOptions : Keywords :=
  let default : RunOptions := {}
  describe "Engine behaviour switches." <|
    object [⟨"stopOnFailure", describe "Abort the run on the first failed leaf action."
        (withDefault (.bool default.stopOnFailure) boolean), false⟩,
      ⟨"maxDepth", describe "Maximum nesting of control nodes."
        (withDefault (.whole default.maxDepth.toNat) size), false⟩,
      ⟨"defaultMaxIterations", describe
        "Iteration bound for `while` nodes without an explicit `maxIterations`."
        (withDefault (.whole default.defaultMaxIterations.toNat) word), false⟩]

def cacheSettings : Keywords :=
  let default : CacheSettings := {}
  describe "Location cache tuning for the scenario's matcher." <|
    object [⟨"cacheCapacity", withDefault (.whole default.capacity.toNat) size, false⟩,
      ⟨"cacheTtlMs", withDefault (.whole default.ttlMs.toNat) longWord, false⟩]

/-- The definitions by name. -/
def definitions : List (String × Keywords) :=
  [("Action", action),
    ("CompareOp", describe "Comparison applied to a condition's measured scalar."
      (choice (Comparison.all.map Comparison.symbol))),
    ("Condition", condition),
    ("ExecutionOptions", runOptions),
    ("ImageMatchParams", imageCheck),
    ("LogLevel", describe "Logging level enumeration." (choice (LogLevel.all.map LogLevel.name))),
    ("MatcherConfig", cacheSettings),
    ("MouseButton", describe "Mouse button enumeration." (choice (MouseButton.all.map MouseButton.name))),
    ("Point", point),
    ("SoundCheckParams", soundCheck),
    ("SystemInfoParams", systemInfo),
    ("SystemProbe", describe "Host/device properties a condition can read."
      (choice (SystemProbe.all.map SystemProbe.name))),
    ("TemplateDef", templateFile)]

def scenarioText : String := "Root of a scenario file.

A scenario bundles everything the CLI needs to run one action graph:
- the ordered `actions`
- the `templates` referenced by image-match actions and conditions
- engine `options` and `matcher` tuning
- an opaque `device` value handed to the executor untouched"

/-- The members of a scenario. -/
def scenario : Keywords :=
  object [⟨"name", describe "Human-readable scenario name (used in logs)." (optional string), false⟩,
    ⟨"actions", describe "The action graph, executed top to bottom."
      (withDefault (.list []) actions), false⟩,
    ⟨"templates", describe
      "Template images by name. Paths are resolved relative to the scenario file."
      (withDefault (.object [])
        (ofType "object" ++ [("additionalProperties", .object (reference "TemplateDef"))])), false⟩,
    ⟨"options", withDefault (RunOptions.toJson {}) (reference "ExecutionOptions"), false⟩,
    ⟨"matcher", withDefault (CacheSettings.toJson {}) (reference "MatcherConfig"), false⟩,
    ⟨"device", describe "Device handle/settings passed through to the executor."
      (withDefault .null []), false⟩]

/-- The whole document. -/
def document : Value :=
  .object <| [("$schema", .text "https://json-schema.org/draft/2020-12/schema"),
      ("title", .text "ScenarioConfig")]
    ++ describe scenarioText scenario
    ++ [("$defs", .object (definitions.map fun (name, schema) => (name, .object schema)))]

end Screenplay.Schema
