import Screenplay.Image.Frame
import Screenplay.Image.Png.Filter
import Screenplay.Image.Png.Header
import Screenplay.Image.Png.Interlace

/-!
The picture in the bytes of a PNG file once they are no longer compressed: rows of samples, each
behind a byte for its filter, and the colours that the samples stand for.
-/
namespace Screenplay.Png

/-- Why bytes are no picture. -/
inductive PictureFlaw where
  | filter (n : Nat)
  /-- Samples are numbers of colours, and no colours are listed. -/
  | noPalette
  /-- There are fewer bytes than the picture needs. -/
  | tooShort
  deriving DecidableEq, Repr

/-- A colour and how opaque it is. -/
structure Colour where
  red : UInt8
  green : UInt8
  blue : UInt8
  alpha : UInt8 := 255
  deriving DecidableEq, Repr

namespace Colour

def black : Colour := ⟨0, 0, 0, 255⟩

def gray (level alpha : UInt8) : Colour := ⟨level, level, level, alpha⟩

def bytes (c : Colour) : Array UInt8 := #[c.red, c.green, c.blue, c.alpha]

end Colour

/-- All that decides what samples look like. -/
structure Look where
  header : Header
  /-- Three bytes for each colour. -/
  palette? : Option (List UInt8) := none
  /-- The colour that is transparent, or for a palette how opaque its first colours are. -/
  transparency? : Option (List UInt8) := none
  deriving DecidableEq, Repr

namespace Look

/-- The bytes of the samples of a pixel in a row. A sample of less than a byte gets one of its own;
the first of those that share a byte is in its upper bits. -/
def pixel (l : Look) (row : Array UInt8) (x : Nat) : List UInt8 :=
  let bits := l.header.pixelBits
  if bits < 8 then
    let place := x * bits
    [UInt8.ofNat (((row.getD (place / 8) 0).toNat >>> (8 - bits - place % 8)) % (l.header.depth.greatest + 1))]
  else (row.extract (x * (bits / 8)) ((x + 1) * (bits / 8))).toList

/-- The samples of a pixel, each in one byte: narrow ones are spread, and wide ones go to the nearest
byte. -/
def levels (l : Look) : List UInt8 → List UInt8
  | upper :: lower :: rest =>
    match l.header.depth with
    | .sixteen => UInt8.ofNat ((256 * upper.toNat + lower.toNat + 128) / 257) :: levels l rest
    | _ => upper :: levels l (lower :: rest)
  | [sample] =>
    if l.header.depth.toNat < 8 then [UInt8.ofNat (sample.toNat * (255 / l.header.depth.greatest))]
    else [sample]
  | [] => []

/-- A listed colour. Numbers behind the end of the list are black. Too long a list of how opaque
colours are does not count. -/
def listed (l : Look) (n : Nat) : Colour :=
  let palette := l.palette?.getD []
  let alphas := l.transparency?.getD []
  match (palette.drop (3 * n)).take 3 with
  | [red, green, blue] =>
    ⟨red, green, blue, if 3 * alphas.length ≤ palette.length then alphas.getD n 255 else 255⟩
  | _ => .black

/-- The colour of the samples of a pixel. -/
def colour (l : Look) (samples : List UInt8) : Colour :=
  let opacity : UInt8 := if l.transparency? = some samples then 0 else 255
  match l.header.colors, l.levels samples with
  | .grayscale, [level] => .gray level opacity
  | .rgb, [red, green, blue] => ⟨red, green, blue, opacity⟩
  | .indexed, _ => l.listed ((samples.headD 0).toNat)
  | .grayscaleAlpha, [level, alpha] => .gray level alpha
  | .rgba, [red, green, blue, alpha] => ⟨red, green, blue, alpha⟩
  | _, _ => .black

/-- Takes one row off the bytes: its bytes as they were before they were filtered. -/
def readRow (l : Look) (width : Nat) (rowAbove : Array UInt8) (bytes : List UInt8) :
    Except PictureFlaw (Array UInt8 × List UInt8) :=
  let length := l.header.rowBytes width
  match bytes with
  | [] => .error .tooShort
  | kind :: bytes =>
    let differences := (bytes.take length).toArray
    if differences.size < length then .error .tooShort
    else
      match RowFilter.ofNat? kind.toNat with
      | none => .error (.filter kind.toNat)
      | some filter =>
        if l.header.colors = .indexed ∧ l.palette?.isNone then .error .noPalette
        else .ok (filter.undo (max 1 (l.header.pixelBits / 8)) rowAbove differences,
          bytes.drop length)

/-- Takes some rows off the bytes. -/
def readRows (l : Look) (width : Nat) :
    Nat → Array UInt8 → List UInt8 → Except PictureFlaw (List (Array UInt8) × List UInt8)
  | 0, _, bytes => .ok ([], bytes)
  | rows + 1, rowAbove, bytes => do
    let (row, bytes) ← l.readRow width rowAbove bytes
    let (below, bytes) ← l.readRows width rows row bytes
    return (row :: below, bytes)

/-- Takes the rows of passes off the bytes. Above the first row of a pass is nothing. -/
def readPasses (l : Look) :
    List Pass → List UInt8 → Except PictureFlaw (List (Pass × Array (Array UInt8)))
  | [], _ => .ok []
  | pass :: passes, bytes => do
    let (rows, bytes) ← l.readRows (pass.width l.header.width)
      (pass.height l.header.width l.header.height) #[] bytes
    return (pass, rows.toArray) :: (← l.readPasses passes bytes)

/-- The passes in which the pixels come. -/
def passes (l : Look) : List Pass := if l.header.interlaced then Pass.seven else [.whole]

/-- How many bytes the picture needs. -/
def bytesNeeded (l : Look) : Nat :=
  let h := l.header
  l.passes.foldl
    (fun total pass => total + pass.height h.width h.height * (1 + h.rowBytes (pass.width h.width))) 0

/-- The colour at a place in the passes. -/
def colourAt (l : Look) (passes : List (Pass × Array (Array UInt8))) (x y : Nat) : Colour :=
  match passes.find? fun (pass, _) => pass.holds x y with
  | none => .black
  | some (pass, rows) =>
    l.colour (l.pixel (rows.getD ((y - pass.row) / pass.rowStep) #[])
      ((x - pass.column) / pass.columnStep))

/-- The picture in the bytes. More bytes than it needs do not matter. -/
def picture (l : Look) (bytes : Array UInt8) : Except PictureFlaw Frame := do
  let h := l.header
  let passes ← l.readPasses l.passes bytes.toList
  return {
    width := UInt32.ofNat h.width
    height := UInt32.ofNat h.height
    format := .rgba
    data := (Array.range h.height).flatMap fun y =>
      (Array.range h.width).flatMap fun x => (l.colourAt passes x y).bytes }

end Look

end Screenplay.Png
