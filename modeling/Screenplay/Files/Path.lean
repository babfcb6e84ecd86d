/-!
Paths as text: names between slashes, with `.` for the same place and `..` for the place above.
-/
namespace Screenplay.Path

/-- What stands between the slashes of a path, also where it is nothing. -/
def components (path : String) : List String := path.splitOn "/"

/-- The path begins at the root. -/
def isAbsolute (path : String) : Bool := path.startsWith "/"

/-- A path below a directory; an absolute path stays what it is. -/
def join (base path : String) : String :=
  if isAbsolute path ∨ base = "" then path
  else if base.endsWith "/" then base ++ path
  else base ++ "/" ++ path

/-- The directory that holds a file; the empty path is the working directory. -/
def parent (path : String) : String :=
  let parts := components path
  if parts.length ≤ 1 then ""
  else
    let above := "/".intercalate parts.dropLast
    if above = "" then "/" else above

/-- The name at the end of a path, if it is one. -/
def name? (path : String) : Option String :=
  match ((components path).filter fun part => part ≠ "" ∧ part ≠ ".").getLast? with
  | some ".." => none
  | name => name

/-- What follows the last dot of the name. A dot at the start of the name begins no extension. -/
def extension? (path : String) : Option String := do
  let parts := (← name? path).splitOn "."
  if parts.length ≤ 1 ∨ parts.dropLast = [""] then none else parts.getLast?

end Screenplay.Path
