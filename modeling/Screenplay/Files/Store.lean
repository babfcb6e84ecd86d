import Screenplay.Files.Path
import Screenplay.Image.Frame
import Screenplay.Image.Png

/-!
The files that a program can see: a tree of directories, in which a path leads from one directory
to the next.
-/
namespace Screenplay

/-- What a file holds. The bytes of a picture are never looked at, only the picture itself. -/
inductive FileContent where
  | bytes (data : List UInt8)
  | picture (frame : Frame)
  deriving Repr

structure StoredFile where
  content : FileContent
  /-- The length in bytes. -/
  size : Nat
  /-- The time of the last change, in nanoseconds since 1970. -/
  modified : Int
  deriving Repr

/-- The bytes of a file, as far as they are known. -/
def StoredFile.bytes (f : StoredFile) : List UInt8 :=
  match f.content with
  | .bytes data => data ++ List.replicate (f.size - data.length) 0
  | .picture _ => Png.signature

/-- What is at a place. -/
inductive Entry where
  | file (f : StoredFile)
  | directory
  deriving Repr

/-- A place in the tree: the names on the way to it from the root. -/
abbrev Place := List String

/-- Why a path leads to no file. -/
inductive FileError where
  | missing
  /-- The path goes on behind a file. -/
  | notDirectory
  | isDirectory
  | nameTooLong
  | nullCharacter
  deriving DecidableEq, Repr

/-- The report of the system. -/
def FileError.message : FileError → String
  | missing => "No such file or directory (os error 2)"
  | notDirectory => "Not a directory (os error 20)"
  | isDirectory => "Is a directory (os error 21)"
  | nameTooLong => "File name too long (os error 36)"
  | nullCharacter => "file name contained an unexpected NUL byte"

structure Files where
  /-- The directory in which relative paths begin. -/
  workingDirectory : Place := []
  /-- What was put into the tree; each place once. -/
  entries : List (Place × Entry) := []
  deriving Repr

namespace Files

/-- The most bytes of a path. -/
def maximalPath : Nat := 4095

/-- The most bytes of a name in a path. -/
def maximalName : Nat := 255

/-- What is at a place. The working directory and those around it are always there. -/
def entry? (fs : Files) (place : Place) : Option Entry :=
  if place.isPrefixOf fs.workingDirectory then some .directory else fs.entries.lookup place

/-- Where a path begins. -/
def origin (fs : Files) (path : String) : Place :=
  if Path.isAbsolute path then [] else fs.workingDirectory

/-- Where a component leads from a place, which has to be a directory. The root is its own parent. -/
def follow (fs : Files) (place : Place) (part : String) : Except FileError Place :=
  match fs.entry? place with
  | none => .error .missing
  | some (.file _) => .error .notDirectory
  | some .directory =>
    if part = "" ∨ part = "." then .ok place
    else if part = ".." then .ok place.dropLast
    else if maximalName < part.utf8ByteSize then .error .nameTooLong
    else .ok (place ++ [part])

/-- Whether a text can be a path at all. -/
def checkPath (path : String) : Except FileError Unit :=
  if path.toList.contains '\x00' then .error .nullCharacter
  else if path = "" then .error .missing
  else if maximalPath < path.utf8ByteSize then .error .nameTooLong
  else .ok ()

/-- The place that a path leads to. Nothing need be there, but all that the path goes through has
to be. -/
def locate (fs : Files) (path : String) : Except FileError Place := do
  checkPath path
  (Path.components path).foldlM fs.follow (fs.origin path)

/-- What a path leads to. -/
def find (fs : Files) (path : String) : Except FileError Entry := do
  match fs.entry? (← fs.locate path) with
  | some entry => return entry
  | none => throw .missing

/-- The file at a path. -/
def findFile (fs : Files) (path : String) : Except FileError StoredFile := do
  match ← fs.find path with
  | .file f => return f
  | .directory => throw .isDirectory

/-- Takes away what is at a place. -/
def clear (fs : Files) (place : Place) : Files :=
  { fs with entries := fs.entries.filter fun e => e.1 != place }

/-- Puts something at a place instead of what is there. -/
def set (fs : Files) (place : Place) (entry : Entry) : Files :=
  { fs with entries := (place, entry) :: (fs.clear place).entries }

/-- Where a component leads; if nothing is there, it becomes a directory. -/
def enter (here : Files × Place) (part : String) : Except FileError (Files × Place) := do
  let (fs, place) := here
  let place ← fs.follow place part
  match fs.entry? place with
  | none => return (fs.set place .directory, place)
  | some _ => return (fs, place)

/-- Writes a file, over one that is there. The directories on the way to it are made. -/
def put (fs : Files) (path : String) (file : StoredFile) : Except FileError Files := do
  checkPath path
  let parts := Path.components path
  let (fs, above) ← parts.dropLast.foldlM enter (fs, fs.origin path)
  let place ← fs.follow above (parts.getLast?.getD "")
  match fs.entry? place with
  | some .directory => throw .isDirectory
  | _ => return fs.set place (.file file)

/-- Removes the file at a path, if there is one. -/
def remove (fs : Files) (path : String) : Files :=
  match fs.locate path with
  | .error _ => fs
  | .ok place =>
    match fs.entry? place with
    | some (.file _) => fs.clear place
    | _ => fs

end Files

end Screenplay
