import Screenplay.Files.Store
import Screenplay.Scenario.Decode
import Screenplay.Scenario.Validate

/-!
Loading a scenario: reading, decoding, validating.
-/
namespace Screenplay

inductive LoadError where
  /-- The file cannot be read. -/
  | unreadable (context : String)
  /-- The text is no scenario. -/
  | parse (context : String) (fault : Json.Fault)
  | invalid (e : Invalid)
  deriving Repr

/-- The whole report in one line. -/
def LoadError.message : LoadError → String
  | unreadable context => context
  | parse context fault => context ++ ": " ++ fault.message?.getD fault.category
  | invalid e => e.message

namespace Scenario

/-- Decodes and validates a text; `context` says where it comes from. -/
def ofGlyphs (context : String) (text : List Json.Glyph) : Except LoadError Scenario :=
  match (Json.Manuscript.ofGlyphs text).decode decoder with
  | .error fault => .error (.parse context fault)
  | .ok s =>
    match s.validate with
    | .ok () => .ok s
    | .error e => .error (.invalid e)

/-- Loads a scenario from a string. -/
def ofString (text : String) : Except LoadError Scenario :=
  ofGlyphs "Failed to parse JSON scenario string" (Json.Glyph.ofString text)

/-- What a report says of a text that comes from a stream. -/
def streamContext : String := "Failed to parse JSON scenario from reader"

/-- Loads a scenario from a stream of bytes. -/
def ofStream (bytes : List UInt8) : Except LoadError Scenario :=
  ofGlyphs streamContext (Json.Glyph.ofBytes bytes)

/-- Opens a file and loads a scenario from it as from a stream. A directory can be opened, too. -/
def ofOpenedFile (fs : Files) (path : String) : Except LoadError Scenario :=
  match fs.find path with
  | .error e => .error (.unreadable ("Failed to open scenario file " ++ path ++ ": " ++ e.message))
  | .ok .directory =>
    .error (.unreadable (streamContext ++ ": " ++ FileError.isDirectory.message))
  | .ok (.file f) => ofStream f.bytes

/-- Reads a file whole and loads a scenario from it. -/
def ofWholeFile (fs : Files) (path : String) : Except LoadError Scenario :=
  match fs.findFile path with
  | .error e => .error (.unreadable ("Failed to read scenario file " ++ path ++ ": " ++ e.message))
  | .ok f => ofGlyphs ("Failed to parse JSON scenario from " ++ path) (Json.Glyph.ofBytes f.bytes)

end Scenario

end Screenplay
