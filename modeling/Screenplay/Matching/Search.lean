import Screenplay.Matching.Offsets

/-!
The search for the best place of a template. It visits offsets until one is good enough or the
time is up, and it knows of a picture only the scores, which may be of any ordered type. A long
search pauses now and then, so that others get a chance to act.
-/
namespace Screenplay

/-- The stage of the search that a result comes from. -/
inductive SearchPhase where
  | cache
  | cropVertical
  | cropHorizontal
  | cropRefine
  | grid
  | gridRefine
  | outOfBounds
  deriving DecidableEq, Repr

def SearchPhase.name : SearchPhase → String
  | cache => "cache"
  | cropVertical => "crop-vertical"
  | cropHorizontal => "crop-horizontal"
  | cropRefine => "crop-refine"
  | grid => "grid"
  | gridRefine => "grid-refine"
  | outOfBounds => "out-of-bounds"

/-- What does not change during one search. -/
structure SearchTask (σ : Type) where
  score : Offset → σ
  threshold : σ
  /-- The time is up at the given check, counted from 0. -/
  expired : Nat → Bool

/-- An offset and its score. -/
structure Candidate (σ : Type) where
  offset : Offset
  score : σ
  deriving DecidableEq, Repr

/-- How many offsets are scored between two pauses. -/
def pauseInterval : Nat := 64

/-- How far a search has come. -/
structure SearchState (σ : Type) where
  /-- The earliest of the best candidates so far. -/
  best : Option (Candidate σ) := none
  /-- How many offsets were scored. -/
  evaluations : Nat := 0
  /-- How many times the clock was looked at. -/
  checks : Nat := 0
  timedOut : Bool := false
  /-- How often the search paused. -/
  pauses : Nat := 0
  /-- The number of evaluations at which the next pause is due. -/
  nextPause : Nat := pauseInterval
  deriving DecidableEq, Repr

/-- What comes out of one search. -/
structure SearchOutcome (σ : Type) where
  found : Bool
  best : Option (Candidate σ)
  phase : SearchPhase
  evaluations : Nat
  timedOut : Bool
  pauses : Nat
  deriving DecidableEq, Repr

section
variable {σ : Type} [LE σ] [LT σ] [DecidableLE σ] [DecidableLT σ]

namespace SearchState

/-- A candidate takes the place of the best one only if it is better. -/
def offer (s : SearchState σ) (c : Candidate σ) : SearchState σ :=
  { s with
    evaluations := s.evaluations + 1
    best := match s.best with
      | none => some c
      | some b => if b.score < c.score then some c else some b }

/-- The best candidate reaches the threshold. -/
def sufficient (s : SearchState σ) (threshold : σ) : Bool :=
  match s.best with
  | none => false
  | some b => threshold ≤ b.score

/-- The end of a search. -/
def finish (s : SearchState σ) (threshold : σ) (phase : SearchPhase) : SearchOutcome σ :=
  { found := !s.timedOut && s.sufficient threshold
    best := s.best, phase, evaluations := s.evaluations, timedOut := s.timedOut
    pauses := s.pauses }

/-- Pauses if that is due. -/
def rest (s : SearchState σ) : SearchState σ :=
  if s.nextPause ≤ s.evaluations then
    { s with pauses := s.pauses + 1, nextPause := s.evaluations + pauseInterval }
  else s

end SearchState

namespace SearchTask

/-- Pauses if that is due, and then looks at the clock. -/
def check (t : SearchTask σ) (s : SearchState σ) : SearchState σ :=
  { s.rest with checks := s.checks + 1, timedOut := t.expired s.checks }

/-- Visits offsets in order, except for those that `known` holds, and says whether the search is
over: the time is up or a score reaches the threshold. -/
def visit (t : SearchTask σ) (known : Offset → Bool) : List Offset → SearchState σ →
    SearchState σ × Bool
  | [], s => (s, false)
  | o :: rest, s =>
    let s := t.check s
    if s.timedOut then (s, true)
    else if known o then visit t known rest s
    else
      let score := t.score o
      let s := s.offer ⟨o, score⟩
      if t.threshold ≤ score then (s, true) else visit t known rest s

/-- Looks around the best candidate. -/
def refine (t : SearchTask σ) (b : Bounds) (s : SearchState σ) : SearchState σ :=
  match s.best with
  | none => s
  | some c => (t.visit (· = c.offset) (b.surroundings c.offset) s).1

/-- The search without a hint: the grid, then the surroundings of its best place. -/
def overGrid (t : SearchTask σ) (b : Bounds) (s : SearchState σ) : SearchState σ × SearchPhase :=
  match t.visit (fun _ => false) b.grid s with
  | (s, true) => (s, .grid)
  | (s, false) => (t.refine b s, .gridRefine)

/-- The search around a hint: the sweep, the row of its best place, the surroundings of the best
place of both. -/
def around (t : SearchTask σ) (b : Bounds) (hint : Offset) (s : SearchState σ) :
    SearchState σ × SearchPhase :=
  match t.visit (fun _ => false) (b.sweep hint) s with
  | (s, true) => (s, .cropVertical)
  | (s, false) =>
    match s.best with
    | none => (s, .cropVertical)
    | some c =>
      match t.visit (fun _ => false) (b.row c.offset) s with
      | (s, true) => (s, .cropHorizontal)
      | (s, false) => (t.refine b s, .cropRefine)

/-- The whole search from a given state. -/
def run (t : SearchTask σ) (b : Bounds) (hint : Option Offset) (s : SearchState σ) :
    SearchOutcome σ :=
  let (s, phase) := match hint with
    | some hint => t.around b hint s
    | none => t.overGrid b s
  s.finish t.threshold phase

end SearchTask

end

end Screenplay
