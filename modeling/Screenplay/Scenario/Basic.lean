import Screenplay.Scenario.Action

/-!
A scenario: its actions, the images that they look for, and how they are run.
-/
namespace Screenplay

/-- An image on disk. -/
structure TemplateFile where
  path : String
  /-- Where the image was cut out of a screenshot. -/
  cropLocation : Option Point
  deriving DecidableEq, Repr

structure RunOptions where
  /-- The first leaf that fails ends the run. -/
  stopOnFailure : Bool := false
  /-- How many sequences may be open at once. -/
  maxDepth : UInt64 := 64
  /-- The bound of a conditional loop that sets none. -/
  defaultMaxIterations : UInt32 := 100
  deriving DecidableEq, Repr

/-- The size and the lifetime of the memory of found locations. -/
structure CacheSettings where
  capacity : UInt64 := 32
  ttlMs : UInt64 := 300000
  deriving DecidableEq, Repr

structure Scenario where
  name : Option String := none
  actions : List Action := []
  /-- In the order of the names, each name once. -/
  templates : List (String × TemplateFile) := []
  options : RunOptions := {}
  cache : CacheSettings := {}
  /-- Handed to the executor as it is. -/
  device : Json.Value := .null
  deriving Repr

end Screenplay
