import Screenplay.Point

/-!
The options of one search, as a program passes them and as JSON.
-/
namespace Screenplay

structure SearchOptions where
  /-- The least score that counts as found. -/
  threshold : Float := 0.95
  /-- The time for the whole search. -/
  timeoutMs : UInt64 := 10000
  useCache : Bool := true
  /-- Where the template was cut out; the search then starts there. -/
  cropLocation : Option Point := none
  /-- Compares edge maps instead of brightness. -/
  colorInvariant : Bool := false
  deriving DecidableEq, Repr

/-- The bounds that a threshold violates. One that is no number is on neither side of a bound. -/
inductive ThresholdError where
  | below
  | above
  | noNumber
  deriving DecidableEq, Repr

/-- The bounds that are violated, the lower one first. -/
def ThresholdError.bounds : ThresholdError → List String
  | below => [">= 0.0"]
  | above => ["<= 1.0"]
  | noNumber => [">= 0.0", "<= 1.0"]

/-- A report of the fields that are out of range. -/
def ThresholdError.message (e : ThresholdError) : String :=
  let errors := e.bounds.map fun bound => "\"The number must be `" ++ bound ++ "`.\""
  "\x7b\"errors\":[],\"properties\":\x7b\"threshold\":\x7b\"errors\":["
    ++ ",".intercalate errors ++ "]\x7d\x7d\x7d"

/-- A threshold is a score, so it lies from 0 to 1. -/
def checkThreshold (threshold : Float) : Except ThresholdError Unit :=
  if 0.0 ≤ threshold then
    if threshold ≤ 1.0 then .ok () else .error .above
  else if threshold ≤ 1.0 then .error .below else .error .noNumber

namespace SearchOptions

def fields : Json.Fields [Float, UInt64, Bool, Option Point, Bool] :=
  let default : SearchOptions := {}
  (.withDefault "threshold" .double default.threshold,
    .withDefault "timeoutMs" .longWord default.timeoutMs,
    .withDefault "useCache" .bool default.useCache,
    .optional "cropLocation" Point.decoder,
    .withDefault "colorInvariant" .bool default.colorInvariant, ())

def decoder : Json.Decoder SearchOptions :=
  Json.Record.make fields fun (threshold, timeoutMs, useCache, cropLocation, colorInvariant, ()) =>
    { threshold, timeoutMs, useCache, cropLocation, colorInvariant }

def toJson (o : SearchOptions) : Json.Value :=
  .object [("threshold", .double o.threshold), ("timeoutMs", .whole o.timeoutMs.toNat),
    ("useCache", .bool o.useCache), ("cropLocation", .ofOption Point.toJson o.cropLocation),
    ("colorInvariant", .bool o.colorInvariant)]

def check (o : SearchOptions) : Except ThresholdError Unit := checkThreshold o.threshold

end SearchOptions

end Screenplay
