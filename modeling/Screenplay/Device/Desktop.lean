import Screenplay.Device.Input
import Screenplay.Decimal.Fixed
import Screenplay.Decimal.Nearest
import Screenplay.Overflow
import Screenplay.Stage.Scene

/-!
The executor that acts on the desktop. It opens the device when it first needs it; in a dry run it
needs no device at all.
-/
namespace Screenplay

structure Desktop where
  dryRun : Bool
  device : InputDevice := {}
  /-- The device was opened. -/
  isOpen : Bool := false
  /-- The lines of the `log` tasks, the latest first. -/
  log : List (LogLevel × String) := []
  overflow : Overflow := .wraps

/-- Why the desktop could not do its part. -/
inductive DesktopError where
  | notOpened (e : DeviceError)
  | device (e : DeviceError)
  /-- It did not fail but crashed: some number does not fit its word. -/
  | overflow
  deriving DecidableEq, Repr

def DesktopError.message : DesktopError → String
  | notOpened e => "Failed to initialize Enigo: " ++ e.message
  | device e => e.message
  | overflow => "attempt to subtract with overflow"

/-- An activity on the desktop. What was done before an error or a crash stays done. The activity may
sleep; it leaves behind how the desktop looked each time. -/
abbrev Activity := ExceptT DesktopError (StateT Desktop (StateM (Array Desktop)))

namespace Desktop

/-- Makes a call of the device; `blame` says what its failure means. -/
def attempt (blame : DeviceError → DesktopError) (c : DeviceCall) : Activity Unit := do
  let desktop ← get
  let (result, device) := desktop.device.call c
  set { desktop with device }
  match result with
  | .ok () => pure ()
  | .error e => throw (blame e)

/-- Opens the device unless it is open. -/
def ensureOpen : Activity Unit := do
  unless (← get).isOpen do
    attempt .notOpened .create
    modify fun d => { d with isOpen := true }

/-- Sleeps, so that others get a chance to act. -/
def sleep : Activity Unit := do
  let desktop ← get
  ExceptT.lift (StateT.lift (modify (·.push desktop)))

/-- Makes a call of the open device. -/
def call (c : DeviceCall) : Activity Unit := attempt .device c

/-- Goes on, unless a number does not fit its word and the program crashes over it. -/
def checkFits (fits : Bool) : Activity Unit := do
  if (← get).overflow = .crashes ∧ !fits then throw .overflow

/-- Does something for real, and nothing in a dry run. -/
def really (activity : Activity Unit) : Activity Unit := do
  unless (← get).dryRun do activity

def deviceButton : MouseButton → DeviceButton
  | .left => .left
  | .middle => .middle
  | .right => .right

/-- Clicks at a position, once unless it is told otherwise and at least once. -/
def click (x y : Int32) (button : MouseButton) (count : Option UInt8) : Activity Unit := do
  let times := max (count.getD 1).toNat 1
  ensureOpen
  call (.moveMouse x y)
  (List.replicate times (DeviceCall.button (deviceButton button) .click)).forM call

/-- The number of moves of a drag. -/
def dragSteps : Nat := 10

/-- How much of a way is behind the pointer after some of the moves of a drag. -/
def dragPart (way : Int32) (step : Nat) : Int32 :=
  Decimal.nearest (Decimal.ofInt32 way * (Float.ofNat step / Float.ofNat dragSteps))

/-- A coordinate of the pointer after some of the moves of a drag. -/
def dragCoordinate (start finish : Int32) (step : Nat) : Int32 :=
  start + dragPart (finish - start) step

/-- The numbers on the way to a coordinate fit their words: the difference and the sum. -/
def dragFits (start finish : Int32) (step : Nat) : Bool :=
  (finish - start).toInt = finish.toInt - start.toInt ∧
    (dragCoordinate start finish step).toInt = start.toInt + (dragPart (finish - start) step).toInt

/-- Presses at one place, moves, and releases at the other. After each move it sleeps for a part of
the time that the drag is to take, unless that part is no whole millisecond. -/
def drag (fromX fromY toX toY : Int32) (durationMs : UInt64) : Activity Unit := do
  ensureOpen
  call (.moveMouse fromX fromY)
  call (.button .left .press)
  (List.range dragSteps).forM fun i => do
    checkFits (dragFits fromX toX (i + 1) && dragFits fromY toY (i + 1))
    ensureOpen
    call (.moveMouse (dragCoordinate fromX toX (i + 1)) (dragCoordinate fromY toY (i + 1)))
    unless durationMs.toNat / dragSteps = 0 do sleep
  ensureOpen
  call (.button .left .release)

def typeText (text : String) : Activity Unit := do
  ensureOpen
  call (.text text)

def KeyToken.call : KeyToken → DeviceCall
  | .text chars => .text (String.ofList chars)
  | .key k _ => .key k

/-- Types the text and presses the keys of a key sequence. -/
def keySequence (text : String) : Activity Unit := do
  ensureOpen
  (KeyToken.scan text.toList).forM fun token => Desktop.call (KeyToken.call token)

def writeLog (level : LogLevel) (message : String) : Activity Unit :=
  modify fun d => { d with log := (level, message) :: d.log }

/-- Measures a property of the system; a dry run measures nothing and reports 0. -/
def measure (probe : SystemProbe) : Activity Float := do
  if (← get).dryRun then return 0.0
  ensureOpen
  match probe with
  | .cursorX =>
    call .location
    return (← get).device.cursor.1.toFloat
  | .cursorY =>
    call .location
    return (← get).device.cursor.2.toFloat
  | .screenWidth =>
    call .mainDisplay
    return (← get).device.display.1.toFloat
  | .screenHeight =>
    call .mainDisplay
    return (← get).device.display.2.toFloat

/-- What happens last during an activity that came to this: the program crashes, or nothing. -/
def lastSignals {α ω : Type} (world : ω) : Except DesktopError α → List (Signal ω)
  | .error .overflow => [.crash world]
  | _ => []

/-- Runs an activity in a context. -/
def inContext {α β : Type} (activity : Activity α) (next : α → β) (c : Context Desktop) :
    Reply (Context Desktop) (Except String β) :=
  let ((result, executor), asleep) := (activity.run.run c.executor).run #[]
  let world := { c with executor }
  { result := match result with
      | .ok a => .ok (next a)
      | .error e => .error e.message
    world
    signals := asleep.toList.map (fun executor => .pause { c with executor }) ++
      lastSignals world result }

/-- The text of a template that is not where it should be, with the scores to three places. -/
def notFound (template : String) (r : ImageReading) : String :=
  "template '" ++ template ++ "' not found (best score " ++ Decimal.fixed 3 r.score ++ " < "
    ++ Decimal.fixed 3 r.threshold ++ ")"

/-- The text of a screen that shows nothing. -/
def captureFailed (e : CaptureError) : String := "screen capture failed: " ++ e.message

/-- The text of a sound check, which the desktop cannot make. -/
def noSound : String := "sound-check is not supported by the desktop executor"

/-- Looks for a template on the screen. -/
def matchOnScreen (check : ImageCheck) (c : Context Desktop) :
    Reply (Context Desktop) (Except String Outcome) :=
  match c.scene.capture with
  | (.error e, scene) => { result := .ok (.failed (captureFailed e)), world := { c with scene } }
  | (.ok frame, scene) =>
    let reply := Executor.matchInScene check frame { c with scene }
    { reply with
      result := match reply.result with
        | .error message => .error message
        | .ok reading => .ok (if reading.success then .ok else .failed (notFound check.template reading)) }

def perform (t : Task) (c : Context Desktop) : Reply (Context Desktop) (Except String Outcome) :=
  let act (activity : Activity Unit) := inContext activity (fun () => Outcome.ok) c
  match t with
  | .click x y button count => act (really (click x y button count))
  | .drag fromX fromY toX toY durationMs =>
    act (really (drag fromX fromY toX toY (durationMs.getD 0)))
  | .input text => act (really (typeText text))
  | .key text => act (really (keySequence text))
  | .wait .. => act (really sleep)
  | .log level message => act (writeLog level message)
  | .soundCheck _ => { result := .ok (.failed noSound), world := c }
  | .imageMatch check => matchOnScreen check c

/-- Performs an action that is no control node; the others are the engine's. -/
def performAction (a : Action) (c : Context Desktop) :
    Reply (Context Desktop) (Except String Outcome) :=
  match a with
  | .task t => perform t c
  | a => { result := .error ("'" ++ a.kind ++ "' actions are handled by the engine"), world := c }

def probe (condition : Condition) (c : Context Desktop) :
    Reply (Context Desktop) (Except String ProbeReading) :=
  match condition.measure with
  | .system p =>
    inContext (measure p) (fun value => { success := true, value := some value }) c
  | .sound _ => { result := .error noSound, world := c }
  | .image _ => { result := .error "image-match conditions are not probes", world := c }

def executor : Executor Desktop where
  perform := perform
  probe := probe
  matchImage := Executor.matchInScene

end Desktop

end Screenplay
