import Screenplay.Image.Edges
import Screenplay.Matching.ContentHash
import Screenplay.Matching.LocationCache
import Screenplay.Matching.Options
import Screenplay.Matching.Score
import Screenplay.Matching.Search

/-!
Finding a template in a frame. A place that was remembered for the template is looked at first;
if it does not do any more, it is forgotten and the frame is searched as if it had never been.
-/
namespace Screenplay

structure MatchResult where
  found : Bool
  x : Int
  y : Int
  width : UInt32
  height : UInt32
  score : Float
  phase : SearchPhase
  evaluations : Nat
  timedOut : Bool
  deriving DecidableEq, Repr

/-- The clock as one search sees it. -/
structure Stopwatch where
  /-- The time of the clock when the memory is asked for a place, in milliseconds. -/
  now : Nat
  /-- The milliseconds since the search was begun at the given check. -/
  elapsed : Nat → Nat
  /-- The time of the clock when the search has ended, in milliseconds. -/
  ended : Nat

/-- A clock that stands still during the search. -/
def Stopwatch.still (now : Nat) : Stopwatch := { now, elapsed := fun _ => 0, ended := now }

/-- A score that was never computed reads as 0 at the origin. -/
def MatchResult.ofOutcome (template : Frame) (o : SearchOutcome Float) : MatchResult :=
  let best := o.best.getD ⟨⟨0, 0⟩, 0.0⟩
  { found := o.found, x := best.offset.x, y := best.offset.y, width := template.width,
    height := template.height, score := best.score, phase := o.phase,
    evaluations := o.evaluations, timedOut := o.timedOut }

/-- What the matcher compares: brightness or edges. -/
def comparable (frame : Frame) (colorInvariant : Bool) : GrayBuffer :=
  if colorInvariant then frame.toGray.sobel else frame.toGray

/-- One call of the matcher. -/
structure Finding where
  result : MatchResult
  /-- How often others got a chance to act meanwhile. -/
  pauses : Nat
  /-- The memory at each of these pauses. -/
  during : LocationCache
  /-- The memory at the end. -/
  cache : LocationCache
  deriving DecidableEq, Repr

namespace LocationCache

/-- Looks at the remembered place. Without one, or if it does not do any more, the second part is
the state from which the search starts. -/
def revisit (c : LocationCache) (key : UInt64) (task : SearchTask Float) (now : Nat) :
    LocationCache × (SearchState Float ⊕ SearchState Float) :=
  match c.get key now with
  | (none, c) => (c, .inr {})
  | (some entry, c) =>
    let offset : Offset := ⟨entry.x, entry.y⟩
    let score := task.score offset
    let state : SearchState Float := SearchState.offer {} ⟨offset, score⟩
    if task.threshold ≤ score then (c, .inl state)
    else (c.remove key, .inr { state with best := none })

/-- Finds a template and remembers where. A place is as old as the search that came upon it has been
over. -/
def findTemplate (c : LocationCache) (clock : Stopwatch) (source template : Frame)
    (options : SearchOptions) : Finding :=
  let gray := comparable source options.colorInvariant
  let prepared := PreparedTemplate.ofGray (comparable template options.colorInvariant)
  let key := prepared.gray.contentHash
  let bounds : Bounds := ⟨gray.width - prepared.width, gray.height - prepared.height⟩
  let task : SearchTask Float :=
    { score := fun o => prepared.scoreAt gray o.x o.y
      threshold := options.threshold
      expired := fun check => decide (options.timeoutMs.toNat ≤ clock.elapsed check) }
  let close (o : SearchOutcome Float) (during : LocationCache)
      (keep : MatchResult → LocationCache) : Finding :=
    let result := MatchResult.ofOutcome template o
    { result, pauses := o.pauses, during, cache := keep result }
  if bounds.maxX < 0 ∨ bounds.maxY < 0 then
    close (SearchState.finish {} options.threshold .outOfBounds) c fun _ => c
  else
    match if options.useCache then c.revisit key task clock.now else (c, .inr {}) with
    | (c, .inl hit) => close (hit.finish options.threshold .cache) c fun _ => c
    | (c, .inr start) =>
      let hint := options.cropLocation.map fun p => (⟨p.x.toInt, p.y.toInt⟩ : Offset)
      close (task.run bounds hint start) c fun result =>
        if result.found then c.insert key result.x result.y clock.ended else c

end LocationCache

end Screenplay
