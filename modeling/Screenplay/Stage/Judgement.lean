import Screenplay.Stage.Scene

/-!
Judging conditions. A condition that cannot be judged, because there is no screen, no such template
or no such probe, does not hold.
-/
namespace Screenplay

/-- Why a condition cannot be judged. -/
inductive JudgementError where
  | capture (screen : String) (e : CaptureError)
  | executor (message : String)
  /-- The probe gave nothing to compare. -/
  | noReading
  /-- The condition gives nothing to compare with. -/
  | noValue
  deriving Repr

def JudgementError.message : JudgementError → String
  | capture screen e => screen ++ " screen capture failed: " ++ e.message
  | executor message => message
  | noReading => "probe returned no value to compare"
  | noValue => "comparison operator given without a value"

namespace Condition

/-- An image is compared with its threshold unless the condition says otherwise. -/
def judgeImage (c : Condition) (r : ImageReading) : Bool :=
  (c.operator.getD .atLeast).holds r.score (c.value.getD r.threshold)

/-- A probe has to succeed, and to satisfy the comparison if there is one. -/
def judgeProbe (c : Condition) (r : ProbeReading) : Except JudgementError Bool :=
  match c.operator, c.value with
  | none, none => .ok r.success
  | some _, none => .error .noValue
  | operator, some rhs =>
    match r.value with
    | none => .error .noReading
    | some lhs => .ok (r.success && (operator.getD .atLeast).holds lhs rhs)

end Condition

namespace Executor

variable {ε : Type}

/-- Measures what a condition asks for and compares. -/
def assess (e : Executor ε) (c : Condition) (ctx : Context ε) :
    Reply (Context ε) (Except JudgementError Bool) :=
  match c.measure with
  | .image check =>
    match ctx.scene.capture with
    | (.error error, scene) =>
      { result := .error (.capture scene.screen.name error), world := { ctx with scene } }
    | (.ok frame, scene) =>
      let reply := e.matchImage check frame { ctx with scene }
      { reply with
        result := match reply.result with
          | .error message => .error (.executor message)
          | .ok reading => .ok (c.judgeImage reading) }
  | .sound _ | .system _ =>
    let reply := e.probe c ctx
    { reply with
      result := match reply.result with
        | .error message => .error (.executor message)
        | .ok reading => c.judgeProbe reading }

/-- A condition that cannot be judged does not hold. -/
def judge (e : Executor ε) (c : Condition) (ctx : Context ε) : Reply (Context ε) Bool :=
  let reply := e.assess c ctx
  { reply with result := match reply.result with
      | .ok result => result
      | .error _ => false }

/-- An executor in its scene is all that a run needs. -/
def performer (e : Executor ε) : Performer (Context ε) where
  perform := e.perform
  judge := e.judge

end Executor

end Screenplay
