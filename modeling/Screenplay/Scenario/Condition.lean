import Screenplay.Point
import Screenplay.Scenario.Comparison

/-!
What a scenario can measure, and the conditions made of measurements.
-/
namespace Screenplay

/-- Looks for a template on the screen. -/
structure ImageCheck where
  /-- The name of the template in the scenario. -/
  template : String
  /-- The least score that counts as found. -/
  threshold : Option Float
  /-- Where to look first, instead of where the template was cut out. -/
  cropLocation : Option Point
  /-- Compares outlines instead of brightness. -/
  colorInvariant : Bool
  timeoutMs : Option UInt64
  useCache : Option Bool
  deriving DecidableEq, Repr

/-- Samples the sound level. -/
structure SoundCheck where
  minLevel : Option Float
  durationMs : Option UInt64
  deriving DecidableEq, Repr

/-- A property of the device that a condition can read. -/
inductive SystemProbe where
  | cursorX
  | cursorY
  | screenWidth
  | screenHeight
  deriving DecidableEq, Repr

namespace SystemProbe

def name : SystemProbe → String
  | cursorX => "cursor-x"
  | cursorY => "cursor-y"
  | screenWidth => "screen-width"
  | screenHeight => "screen-height"

def all : List SystemProbe := [cursorX, cursorY, screenWidth, screenHeight]

end SystemProbe

/-- What a condition measures. -/
inductive Measure where
  | image (check : ImageCheck)
  | sound (check : SoundCheck)
  | system (probe : SystemProbe)
  deriving DecidableEq, Repr

/-- The tag of a measurement. -/
def Measure.kind : Measure → String
  | image _ => "image-match"
  | sound _ => "sound-check"
  | system _ => "system-info"

/-- A measurement and what is expected of it. Without an explicit comparison an image is expected
to reach its threshold and any other measurement to succeed. -/
structure Condition where
  measure : Measure
  operator : Option Comparison
  value : Option Float
  deriving DecidableEq, Repr

end Screenplay
