import Screenplay.Compression.Bits

/-!
Canonical prefix codes. Such a code is known from the lengths of its words alone: shorter words come
first, words of one length follow the order of their symbols, and each word is the successor of the
one before.
-/
namespace Screenplay.Compression

/-- A code by the symbols with words of one bit, of two bits and so on. -/
structure PrefixCode where
  levels : List (Array Nat)
  deriving DecidableEq, Repr

/-- What the next bits are in a code. -/
inductive Word where
  | symbol (n : Nat) (rest : List Bool)
  /-- The bits end inside a word. -/
  | unfinished
  /-- No word begins with these bits. -/
  | unassigned
  deriving DecidableEq, Repr

namespace PrefixCode

/-- The most bits of a word. -/
def longest : Nat := 15

/-- The symbols whose words have a length. -/
def symbolsOfLength (lengths : List Nat) (length : Nat) : Array Nat :=
  ((lengths.zipIdx.filter (·.1 = length)).map (·.2)).toArray

/-- The code whose words have these lengths, one for each symbol; a symbol of length 0 has none. -/
def ofLengths (lengths : List Nat) : PrefixCode where
  levels := ((List.range longest).reverse.map (symbolsOfLength lengths <| · + 1)).dropWhile
    (·.isEmpty) |>.reverse

/-- Reads a word. After each bit, `beyond` tells how many words of the length so far lie between the
first one that is no symbol's and the one that was read. -/
def lookUp : List (Array Nat) → (beyond : Nat) → List Bool → Word
  | [], _, _ => .unassigned
  | _ :: _, _, [] => .unfinished
  | level :: deeper, beyond, bit :: bits =>
    let place := 2 * beyond + bit.toNat
    match level[place]? with
    | some n => .symbol n bits
    | none => lookUp deeper (place - level.size) bits

/-- The word at the beginning of bits. -/
def next (code : PrefixCode) (bits : List Bool) : Word := lookUp code.levels 0 bits

/-- Every sequence of bits begins with exactly one word. -/
def isComplete (code : PrefixCode) : Bool :=
  code.levels.foldl (fun used level => 2 * used + level.size) 0 = 1 <<< code.levels.length

/-- The code has no word, or the single word `0`. -/
def isTrivial (code : PrefixCode) : Bool :=
  match code.levels with
  | [] => true
  | [level] => level.size = 1
  | _ => false

end PrefixCode

end Screenplay.Compression
