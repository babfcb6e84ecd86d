/-!
The formats of picture files, as the extension of a file name tells them apart.
-/
namespace Screenplay

inductive FileFormat where
  | png
  | jpeg
  | gif
  | webP
  | pnm
  | tiff
  | tga
  | dds
  | bmp
  | ico
  | hdr
  | openExr
  | farbfeld
  | avif
  | qoi
  deriving DecidableEq, Repr

namespace FileFormat

def label : FileFormat → String
  | png => "Png"
  | jpeg => "Jpeg"
  | gif => "Gif"
  | webP => "WebP"
  | pnm => "Pnm"
  | tiff => "Tiff"
  | tga => "Tga"
  | dds => "Dds"
  | bmp => "Bmp"
  | ico => "Ico"
  | hdr => "Hdr"
  | openExr => "OpenExr"
  | farbfeld => "Farbfeld"
  | avif => "Avif"
  | qoi => "Qoi"

def extensions : FileFormat → List String
  | png => ["png", "apng"]
  | jpeg => ["jpg", "jpeg", "jfif"]
  | gif => ["gif"]
  | webP => ["webp"]
  | pnm => ["pbm", "pam", "ppm", "pgm", "pnm"]
  | tiff => ["tif", "tiff"]
  | tga => ["tga"]
  | dds => ["dds"]
  | bmp => ["bmp"]
  | ico => ["ico"]
  | hdr => ["hdr"]
  | openExr => ["exr"]
  | farbfeld => ["ff"]
  | avif => ["avif"]
  | qoi => ["qoi"]

def all : List FileFormat :=
  [png, jpeg, gif, webP, pnm, tiff, tga, dds, bmp, ico, hdr, openExr, farbfeld, avif, qoi]

/-- The format that an extension names; case does not matter. -/
def ofExtension? (extension : String) : Option FileFormat :=
  all.find? fun format => format.extensions.contains extension.toLower

end FileFormat

end Screenplay
