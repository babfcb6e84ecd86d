import Screenplay.Json.Value

/-!
The report of a run: what became of every leaf that was visited, counted and in order.
-/
namespace Screenplay

inductive ActionStatus where
  | completed
  | failed
  | skipped
  deriving DecidableEq, Repr

def ActionStatus.name : ActionStatus → String
  | completed => "completed"
  | failed => "failed"
  | skipped => "skipped"

/-- What became of one visited leaf. -/
structure ActionRecord where
  /-- The positions from the top sequence down to the leaf. -/
  path : List Nat
  /-- The tag of the leaf. -/
  action : String
  status : ActionStatus
  error : Option String
  deriving DecidableEq, Repr

structure Report where
  completed : Nat := 0
  failed : Nat := 0
  skipped : Nat := 0
  /-- The run halted because it was asked to. -/
  stopped : Bool := false
  /-- Why the scenario ended the run itself. -/
  terminationReason : Option String := none
  outcomes : Array ActionRecord := #[]
  deriving DecidableEq, Repr

namespace Report

/-- No leaf failed and the scenario did not end the run itself. -/
def success (r : Report) : Bool := r.failed == 0 && r.terminationReason.isNone

/-- The number of leaves visited. -/
def visited (r : Report) : Nat := r.completed + r.failed + r.skipped

/-- Counts and records a leaf. -/
def record (r : Report) (path : List Nat) (action : String) (status : ActionStatus)
    (error : Option String) : Report :=
  let r := { r with outcomes := r.outcomes.push { path, action, status, error } }
  match status with
  | .completed => { r with completed := r.completed + 1 }
  | .failed => { r with failed := r.failed + 1 }
  | .skipped => { r with skipped := r.skipped + 1 }

def markStopped (r : Report) : Report := { r with stopped := true }

def markTerminated (r : Report) (reason : String) : Report :=
  { r with terminationReason := some reason }

end Report

open Json (Value)

/-- An error is written only where there is one. -/
def ActionRecord.toJson (r : ActionRecord) : Value :=
  .object ([("path", .list (r.path.map fun (i : Nat) => .whole i)), ("action", .text r.action),
    ("status", .text r.status.name)] ++ (r.error.map fun e => ("error", .text e)).toList)

def Report.members (r : Report) : List (String × Value) :=
  [("success", .bool r.success), ("completedActions", .whole r.completed),
    ("failedActions", .whole r.failed), ("skippedActions", .whole r.skipped),
    ("stopped", .bool r.stopped), ("terminationReason", .ofOption .text r.terminationReason),
    ("outcomes", .list (r.outcomes.toList.map ActionRecord.toJson))]

def Report.toJson (r : Report) : Value := .object r.members

end Screenplay
