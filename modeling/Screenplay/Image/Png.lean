import Screenplay.Compression.Zlib
import Screenplay.Image.Png.Flaw

/-!
Decoding PNG files: a signature of eight bytes and then chunks. The header comes first, what decides
the look of the pixels next, and the pixels last. What follows them is not looked at.
-/
namespace Screenplay.Png

/-- The first bytes of every PNG file. -/
def signature : List UInt8 := [0x89, 0x50, 0x4E, 0x47, 0x0D, 0x0A, 0x1A, 0x0A]

/-- A chunk is all there and undamaged. Its length is checked before there is a look at its data. -/
def Chunk.checkWhole (c : Chunk) : Except Flaw Unit :=
  if c.hasWrongLength then .error (.wrongLength c.type)
  else
    match c.stored? with
    | none => .error .truncated
    | some stored =>
      if stored = c.computed then .ok () else .error (.badChecksum stored c.computed c.type)

/-- What is known before the pixels. -/
structure Preamble where
  look : Look
  /-- How many frames were announced. -/
  frames : Nat := 0
  deriving DecidableEq, Repr

namespace Preamble

/-- The part of a list of transparent colours that counts: one byte for each sample unless the
samples have two. Colours of a palette come after it, and pixels that say how opaque they are need no
list. -/
def transparency? (p : Preamble) (data : List UInt8) : Option (List UInt8) :=
  let bytes (places : List Nat) : Option (List UInt8) :=
    if places.all (· < data.length) then
      some (if p.look.header.depth = .sixteen then data else places.map (data.getD · 0))
    else none
  match p.look.header.colors with
  | .grayscale => bytes [1]
  | .rgb => bytes [1, 3, 5]
  | .indexed => p.look.palette?.map fun _ => data
  | .grayscaleAlpha | .rgba => none

/-- Takes note of a whole chunk. A second list of transparent colours does not count, nor does one
that is of no use. -/
def note (p : Preamble) (c : Chunk) : Except Flaw Preamble :=
  if c.type = .ending then .error .noPixels
  else if c.type = .header ∨ c.type = .palette ∧ p.look.palette?.isSome then
    .error (.duplicate c.type)
  else if c.type = .palette then .ok { p with look.palette? := some c.data }
  else if c.type = .transparency ∧ p.look.transparency?.isNone then
    .ok { p with look.transparency? := p.transparency? c.data }
  else if c.type = .frameControl then
    match checkFrame p.look.header p.frames c.data with
    | .error flaw => .error (.frame flaw)
    | .ok () => .ok { p with frames := p.frames + 1 }
  else .ok p

/-- Takes note of a chunk before the pixels. A reader can do without many a chunk, and passes one over
that is damaged or of a wrong length; but a frame of a wrong length is a flaw. -/
def read (p : Preamble) (c : Chunk) : Except Flaw Preamble :=
  if c.type = .framePixels then .error (.outOfPlace c.type)
  else if c.type.isCritical ∧ c.type.lengths?.isNone then .error (.unknownCritical c.type)
  else if c.type.isCritical ∨ c.type = .frameControl ∧ c.hasWrongLength then do
    c.checkWhole
    p.note c
  else if c.stored?.isNone then .error .truncated
  else if c.checkWhole.isOk then p.note c
  else .ok p

end Preamble

/-- Passes over pixels up to the start of another chunk. -/
def passPixels (bytes : List UInt8) : Except Flaw Unit :=
  match h : Chunk.ofBytes? bytes with
  | none => .error .truncated
  | some c =>
    have := Chunk.length_of_ofBytes? h
    if c.type ≠ .pixels then .ok ()
    else
      match c.checkWhole with
      | .error flaw => .error flaw
      | .ok () => passPixels (bytes.drop c.size)
termination_by bytes.length
decreasing_by simp only [List.length_drop, Chunk.size]; omega

/-- Reads the pixels. Their stream may go on through several chunks, and is decoded as far as it goes
before the rest of a chunk is looked at. The picture is made once the stream is at its end or has
given all the bytes that are needed. -/
def readPixels (l : Look) (stream bytes : List UInt8) : Except Flaw Frame :=
  match h : Chunk.ofBytes? bytes with
  | none => .error .truncated
  | some c =>
    have := Chunk.length_of_ofBytes? h
    if c.type ≠ .pixels then .error (.stream .insufficientInput)
    else if c.hasWrongLength then .error (.wrongLength c.type)
    else
      let stream := stream ++ c.data
      match Compression.inflate l.bytesNeeded stream with
      | .error (.corrupt flaw) => .error (.stream flaw)
      | .error .waiting =>
        match c.checkWhole with
        | .error flaw => .error flaw
        | .ok () => readPixels l stream (bytes.drop c.size)
      | .ok data =>
        match l.picture data with
        | .ok frame => (passPixels bytes).map fun () => frame
        | .error .tooShort => (passPixels bytes).bind fun () => .error (.picture .tooShort)
        | .error flaw => .error (.picture flaw)
termination_by bytes.length
decreasing_by simp only [List.length_drop, Chunk.size]; omega

/-- Reads what comes after the header. -/
def readBody (p : Preamble) (bytes : List UInt8) : Except Flaw Frame :=
  match h : Chunk.ofBytes? bytes with
  | none => .error .truncated
  | some c =>
    have := Chunk.length_of_ofBytes? h
    if c.type = .pixels then
      if Header.affordable < p.look.header.shownBytes p.look.transparency?.isSome then
        .error .tooLarge
      else readPixels p.look [] bytes
    else
      match p.read c with
      | .error flaw => .error flaw
      | .ok p => readBody p (bytes.drop c.size)
termination_by bytes.length
decreasing_by simp only [List.length_drop, Chunk.size]; omega

/-- Reads the chunks of a file. -/
def readChunks (bytes : List UInt8) : Except Flaw Frame :=
  match Chunk.ofBytes? bytes with
  | none => .error .truncated
  | some c =>
    if c.type ≠ .header then .error (.beforeHeader c.type)
    else
      match c.checkWhole with
      | .error flaw => .error flaw
      | .ok () =>
        match Header.ofBytes c.data with
        | .error flaw => .error (.header flaw)
        | .ok header =>
          if Header.addressable < header.shownBytes false then .error .tooLarge
          else readBody { look := { header } } (bytes.drop c.size)

/-- Decodes a file. The halves of the signature are checked as soon as they are there. -/
def decode (bytes : List UInt8) : Except Flaw Frame :=
  if bytes.length < 4 then .error .truncated
  else if bytes.take 4 ≠ signature.take 4 then .error .badSignature
  else if bytes.length < 8 then .error .truncated
  else if bytes.take 8 ≠ signature then .error .badSignature
  else readChunks (bytes.drop 8)

end Screenplay.Png
