import Screenplay.Files.Picture
import Screenplay.Scenario.Basic

/-!
The pictures that a scenario looks for, decoded from the files it names.
-/
namespace Screenplay

/-- A picture to look for. -/
structure Template where
  frame : Frame
  /-- Where the picture was cut out of a screenshot. -/
  cropLocation : Option Point
  deriving Repr

/-- Templates by name, in the order of the names. -/
abbrev TemplateLibrary := List (String × Template)

/-- The first template that cannot be loaded. -/
structure TemplateError where
  name : String
  path : String
  cause : ImageError
  deriving Repr

def TemplateError.message (e : TemplateError) : String :=
  "Failed to load template '" ++ e.name ++ "': " ++ e.cause.message e.path

/-- Loads one template; its path is relative to a directory. -/
def TemplateFile.load (fs : Files) (base : String) (entry : String × TemplateFile) :
    Except TemplateError (String × Template) :=
  let (name, file) := entry
  let path := Path.join base file.path
  match fs.loadImage path with
  | .ok frame => .ok (name, { frame, cropLocation := file.cropLocation })
  | .error cause => .error { name, path, cause }

/-- Loads every template of a scenario. -/
def Scenario.loadTemplates (s : Scenario) (fs : Files) (base : String) :
    Except TemplateError TemplateLibrary :=
  s.templates.mapM (TemplateFile.load fs base)

end Screenplay
