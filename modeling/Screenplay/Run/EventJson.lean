import Screenplay.Json.Printer
import Screenplay.Run.Event
import Screenplay.Scenario.Encode

/-!
Events as JSON. A condition is written as a string that holds its own JSON text.
-/
namespace Screenplay
open Json (Value)

/-- The JSON text of a condition. -/
def Condition.text (c : Condition) : String := c.toJson.print

namespace Event

/-- The tag of an event. -/
def tag : Event → String
  | start _ => "start"
  | actionStart .. => "actionStart"
  | actionComplete .. => "actionComplete"
  | actionFailed .. => "actionFailed"
  | actionSkipped .. => "actionSkipped"
  | conditionEvaluated .. => "conditionEvaluated"
  | loopIteration .. => "loopIteration"
  | terminated .. => "terminated"
  | stopRequested _ => "stopRequested"
  | stopped _ => "stopped"
  | complete _ => "complete"
  | error .. => "error"

/-- The members of an event after its tag. -/
def members : Event → List (String × Value)
  | start total => [("totalActions", .whole total)]
  | actionStart index action reached total =>
    [("index", .whole index), ("action", action.toJson), ("progress", .double (progress reached total))]
  | actionComplete index action => [("index", .whole index), ("action", action.toJson)]
  | actionFailed index action failure =>
    [("index", .whole index), ("action", action.toJson), ("error", .text failure)]
  | actionSkipped index action reason =>
    [("index", .whole index), ("action", action.toJson), ("reason", .ofOption .text reason)]
  | conditionEvaluated owner condition result =>
    [("action", .text owner.name), ("condition", .ofOption (fun c => .text c.text) condition),
      ("result", .bool result)]
  | loopIteration owner iteration total =>
    [("action", .text owner.name), ("iteration", .whole iteration),
      ("total", .ofOption (fun (n : Nat) => .whole n) total)]
  | terminated index reason => [("index", .whole index), ("reason", .text reason)]
  | stopRequested index => [("index", .whole index)]
  | stopped index => [("index", .whole index)]
  | complete result => [("result", result.toJson)]
  | error message result => [("error", .text message), ("result", result.toJson)]

def toJson (e : Event) : Value := .object (("event", .text e.tag) :: e.members)

end Event

end Screenplay
