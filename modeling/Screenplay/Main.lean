import Screenplay.CommandLine.Session

/-!
The program. It reads the files that the command line and the scenario name, once, before the run.
A picture is known here only as bytes, and no device for mouse and keyboard is attached.
-/
namespace Screenplay

/-- The bytes of a file, if it can be read. -/
def readFile (path : String) : IO (Option (List UInt8)) := do
  try
    let bytes ← IO.FS.readBinFile path
    return some bytes.toList
  catch _ => return none

/-- The directory in which the program was called. -/
def callingDirectory : IO Place := do
  return (Path.components (toString (← IO.currentDir))).filter (· ≠ "")

/-- Reads the files that can be read. -/
def readFiles (paths : List String) : IO Files := do
  let mut files : Files := { workingDirectory := ← callingDirectory }
  for path in paths do
    if let some bytes ← readFile path then
      let file : StoredFile := { content := .bytes bytes, size := bytes.length, modified := 0 }
      files := (files.put path file).toOption.getD files
  return files

/-- The files that a command needs. -/
def filesFor (words : List String) : IO Files := do
  match CommandLine.Request.ofWords words with
  | .ok (.play path a) => readFiles (CommandLine.Request.files (.play path a) (← readFile path))
  | _ => return {}

end Screenplay

def main (words : List String) : IO UInt32 := do
  let answer := Screenplay.CommandLine.respond words
    { files := ← Screenplay.filesFor words, device := { attached := false } }
  IO.print answer.output.print
  match answer.complaint with
  | none => pure ()
  | some text => IO.eprintln ("Error: " ++ text)
  return answer.status.code.toUInt32
