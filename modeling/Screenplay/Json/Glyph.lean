/-!
The text of a document as the reader sees it: characters, and bytes that belong to none. Reading
never fails here; a stray byte is refused only where it stands in the way.
-/
namespace Screenplay.Json

/-- One place of a text. -/
inductive Glyph where
  | char (c : Char)
  /-- A byte outside every well-formed UTF-8 sequence. -/
  | stray
  deriving DecidableEq, Repr

namespace Glyph

/-- How many bytes the glyph takes. -/
def size : Glyph → Nat
  | char c => c.utf8Size
  | stray => 1

def ofString (s : String) : List Glyph := s.toList.map .char

/-- A continuation byte of UTF-8, as its six bits. -/
def continuation? (b : UInt8) : Option Nat :=
  if 0x80 ≤ b ∧ b < 0xC0 then some (b.toNat - 0x80) else none

/-- The character at the head of the bytes and how many bytes it takes: the shortest form only,
no surrogate, at most U+10FFFF. -/
def head? : List UInt8 → Option (Char × Nat)
  | [] => none
  | a :: rest =>
    let a := a.toNat
    let tail (count : Nat) : Option Nat :=
      let bits := (rest.take count).filterMap continuation?
      if bits.length = count then some (bits.foldl (fun n (b : Nat) => n * 64 + b) 0) else none
    let checked (count least code : Nat) : Option (Char × Nat) :=
      if least ≤ code ∧ code.isValidChar then some (Char.ofNat code, count) else none
    if a < 0x80 then some (Char.ofNat a, 1)
    else if 0xC0 ≤ a ∧ a < 0xE0 then (tail 1).bind fun n => checked 2 0x80 ((a - 0xC0) * 64 + n)
    else if 0xE0 ≤ a ∧ a < 0xF0 then
      (tail 2).bind fun n => checked 3 0x800 ((a - 0xE0) * 0x1000 + n)
    else if 0xF0 ≤ a ∧ a < 0xF8 then
      (tail 3).bind fun n => checked 4 0x10000 ((a - 0xF0) * 0x40000 + n)
    else none

/-- Decodes bytes; one that starts no character is stray, and the next byte may start one. -/
def ofBytes (bytes : List UInt8) : List Glyph := go bytes.length bytes
where
  go : Nat → List UInt8 → List Glyph
    | _, [] => []
    | 0, _ => []
    | fuel + 1, b :: rest =>
      match head? (b :: rest) with
      | some (c, count) => .char c :: go fuel (rest.drop (count - 1))
      | none => .stray :: go fuel rest

end Glyph

end Screenplay.Json
