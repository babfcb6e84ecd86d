import Screenplay.Files.Picture

/-!
Where a run sees the screen: nowhere, always the same frame, one frame after the other, a file that
someone else keeps writing, or whatever else shows a frame or fails when it is asked.
-/
namespace Screenplay

/-- What tells two versions of a file apart without decoding them: the length, and the nanoseconds
since 1970 as far as they fit a word. -/
structure FileSignature where
  size : Nat
  modified : UInt64
  deriving DecidableEq, Repr

/-- A file that was changed before 1970 counts as changed then. -/
def StoredFile.signature (f : StoredFile) : FileSignature := ⟨f.size, .ofNat f.modified.toNat⟩

inductive CaptureError where
  | noScreen
  | noFrames
  | fileUnavailable (path : String) (e : FileError)
  | image (path : String) (e : ImageError)
  /-- What some other source says. -/
  | other (message : String)
  deriving Repr

inductive ScreenSource where
  | absent
  | still (frame : Frame)
  /-- The frames to come and how many were shown; the last one stays. -/
  | sequence (frames : List Frame) (captures : Nat)
  /-- The frame that was decoded last, with the signature of its file. -/
  | file (path : String) (last : Option (FileSignature × Frame))
  /-- Any other source: its answer to each capture, and how many there were. -/
  | live (name : String) (shows : Nat → Except CaptureError Frame) (captures : Nat)

def CaptureError.message : CaptureError → String
  | noScreen => "no screen source attached"
  | noFrames => "frame sequence is empty"
  | fileUnavailable path e => "Screen file " ++ path ++ " unavailable: " ++ e.message
  | image path e => e.message path
  | other message => message

namespace ScreenSource

/-- A file that was not looked at yet. -/
def ofFile (path : String) : ScreenSource := .file path none

def ofFrames (frames : List Frame) : ScreenSource := .sequence frames 0

def name : ScreenSource → String
  | absent => "none"
  | still _ => "static"
  | sequence .. => "sequence"
  | file .. => "file"
  | live name .. => name

/-- Takes a frame from a file, decoding it again only if its signature has changed. -/
def captureFile (fs : Files) (path : String) (last : Option (FileSignature × Frame)) :
    Except CaptureError (FileSignature × Frame) :=
  match fs.find path with
  | .error e => .error (.fileUnavailable path e)
  | .ok .directory => .error (.image path (.ofDirectory path))
  | .ok (.file stored) =>
    match last with
    | some (signature, frame) => if signature = stored.signature then .ok (signature, frame) else fresh stored
    | none => fresh stored
where
  fresh (stored : StoredFile) : Except CaptureError (FileSignature × Frame) :=
    match stored.decode path with
    | .ok frame => .ok (stored.signature, frame)
    | .error e => .error (.image path e)

/-- Shows the current frame. -/
def capture (fs : Files) : ScreenSource → Except CaptureError Frame × ScreenSource
  | absent => (.error .noScreen, absent)
  | still frame => (.ok frame, still frame)
  | sequence [] captures => (.error .noFrames, sequence [] captures)
  | sequence [frame] captures => (.ok frame, sequence [frame] (captures + 1))
  | sequence (frame :: next :: rest) captures => (.ok frame, sequence (next :: rest) (captures + 1))
  | file path last =>
    match captureFile fs path last with
    | .ok (signature, frame) => (.ok frame, file path (some (signature, frame)))
    | .error e => (.error e, file path last)
  | live name shows captures => (shows captures, live name shows (captures + 1))

end ScreenSource

end Screenplay
