import Screenplay.Device.Keys

/-!
A device for mouse and keyboard. It keeps the calls that succeeded; which attempts fail is laid
down by a schedule.
-/
namespace Screenplay

inductive Direction where
  | press
  | release
  | click
  deriving DecidableEq, Repr

def Direction.label : Direction → String
  | press => "Press"
  | release => "Release"
  | click => "Click"

/-- A button as the device names it. -/
inductive DeviceButton where
  | left
  | middle
  | right
  deriving DecidableEq, Repr

def DeviceButton.label : DeviceButton → String
  | left => "Left"
  | middle => "Middle"
  | right => "Right"

inductive DeviceMethod where
  | create
  | moveMouse
  | button
  | text
  | key
  | location
  | mainDisplay
  deriving DecidableEq, Repr

namespace DeviceMethod

def name : DeviceMethod → String
  | create => "new"
  | moveMouse => "move_mouse"
  | button => "button"
  | text => "text"
  | key => "key"
  | location => "location"
  | mainDisplay => "main_display"

def all : List DeviceMethod := [create, moveMouse, button, text, key, location, mainDisplay]

end DeviceMethod

/-- One call of the device. -/
inductive DeviceCall where
  /-- Opens the device. -/
  | create
  | moveMouse (x y : Int32)
  | button (b : DeviceButton) (d : Direction)
  | text (s : String)
  | key (k : Key)
  | location
  | mainDisplay
  deriving DecidableEq, Repr

namespace DeviceCall

def method : DeviceCall → DeviceMethod
  | create => .create
  | moveMouse .. => .moveMouse
  | button .. => .button
  | text _ => .text
  | key _ => .key
  | location => .location
  | mainDisplay => .mainDisplay

/-- The method and its arguments as they are listed; positions are absolute. -/
def listing (c : DeviceCall) : List String :=
  c.method.name :: match c with
    | moveMouse x y => [Int.repr x.toInt, Int.repr y.toInt, "Abs"]
    | button b d => [b.label, d.label]
    | text s => [s]
    | key k => [k.label, Direction.click.label]
    | create | location | mainDisplay => []

end DeviceCall

inductive DeviceError where
  | noDevice
  | failed (m : DeviceMethod)
  deriving DecidableEq, Repr

def DeviceError.message : DeviceError → String
  | noDevice => "no device"
  | failed m => m.name ++ " failed"

structure InputDevice where
  attached : Bool := true
  cursor : Int32 × Int32 := (0, 0)
  display : Int32 × Int32 := (0, 0)
  /-- Whether a call fails, by its method and the number of earlier attempts at that method. -/
  fails : DeviceMethod → Nat → Bool := fun _ _ => false
  attempts : List (DeviceMethod × Nat) := []
  /-- The calls that succeeded, the latest first. -/
  calls : List DeviceCall := []

namespace InputDevice

/-- How often a method was tried. -/
def attemptsAt (d : InputDevice) (m : DeviceMethod) : Nat := (d.attempts.lookup m).getD 0

/-- Counts one more attempt at a method. -/
def tryOnce (d : InputDevice) (m : DeviceMethod) : InputDevice :=
  { d with attempts := (m, d.attemptsAt m + 1) :: d.attempts.filter fun a => a.1 != m }

/-- Makes a call. A device that is not attached cannot be opened. -/
def call (d : InputDevice) (c : DeviceCall) : Except DeviceError Unit × InputDevice :=
  if c.method = .create ∧ !d.attached then (.error .noDevice, d)
  else
    let tried := d.tryOnce c.method
    if d.fails c.method (d.attemptsAt c.method) then (.error (.failed c.method), tried)
    else
      let cursor := match c with
        | .moveMouse x y => (x, y)
        | _ => d.cursor
      (.ok (), { tried with cursor, calls := c :: d.calls })

end InputDevice

end Screenplay
