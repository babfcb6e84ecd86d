import Screenplay.Files.Store
import Screenplay.Image.FileFormat

/-!
Decoding pictures from files. The extension of the name alone decides how; PNG is the one format
that can be decoded.
-/
namespace Screenplay

/-- Why a file gives no picture. -/
inductive ImageError where
  | unreadable (e : FileError)
  /-- The name has no extension. -/
  | unknownFormat
  /-- The extension is not one of a known format. -/
  | unknownExtension (extension : String)
  | unsupported (format : FileFormat)
  | png (flaw : Png.Flaw)
  | notAFrame (e : FrameError)
  deriving Repr

namespace ImageError

/-- What went wrong, from the outermost cause to the innermost. -/
def causes : ImageError → List String
  | unreadable e => List.replicate 2 e.message
  | unknownFormat => List.replicate 2 "The image format could not be determined"
  | unknownExtension extension =>
    List.replicate 2 ("The file extension `." ++ Text.quoted extension ++
      "` was not recognized as an image format")
  | unsupported format => List.replicate 2 ("The image format " ++ format.label ++ " is not supported")
  | png flaw => flaw.causes
  | notAFrame e => [e.message]

/-- The whole chain of causes in one line. -/
def message (path : String) (e : ImageError) : String :=
  match e with
  | notAFrame e => e.message
  | e => ": ".intercalate (("failed to load image " ++ path) :: e.causes)

end ImageError

/-- Whether the name of a file promises a picture that can be decoded. -/
def checkFormat (path : String) : Except ImageError Unit :=
  match Path.extension? path with
  | none | some "" => .error .unknownFormat
  | some extension =>
    match FileFormat.ofExtension? extension with
    | none => .error (.unknownExtension extension)
    | some .png => .ok ()
    | some format => .error (.unsupported format)

/-- Why a directory gives no picture: a directory can be opened, but there is nothing to read. -/
def ImageError.ofDirectory (path : String) : ImageError :=
  match checkFormat path with
  | .error e => e
  | .ok () => .unreadable .isDirectory

/-- Decodes the picture in a file of a name. -/
def StoredFile.decode (f : StoredFile) (path : String) : Except ImageError Frame := do
  checkFormat path
  let picture ← match f.content with
    | .picture frame => pure frame.toRgba
    | .bytes _ => (Png.decode f.bytes).mapError .png
  (Frame.ofRgba picture.width picture.height picture.data).mapError .notAFrame

/-- Decodes the picture at a path. -/
def Files.loadImage (fs : Files) (path : String) : Except ImageError Frame :=
  match fs.find path with
  | .error e => .error (.unreadable e)
  | .ok .directory => .error (.ofDirectory path)
  | .ok (.file f) => f.decode path

end Screenplay
