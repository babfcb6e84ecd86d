import Screenplay.Json.Decoder

/-!
A position on the screen, in pixels from the top left corner.
-/
namespace Screenplay

structure Point where
  x : Int32
  y : Int32
  deriving DecidableEq, Repr

namespace Point

def fields : Json.Fields [Int32, Int32] :=
  (.required "x" .integer, .required "y" .integer, ())

def decoder : Json.Decoder Point := Json.Record.make fields fun (x, y, ()) => ⟨x, y⟩

def toJson (p : Point) : Json.Value :=
  .object [("x", .whole p.x.toInt), ("y", .whole p.y.toInt)]

end Point

end Screenplay
