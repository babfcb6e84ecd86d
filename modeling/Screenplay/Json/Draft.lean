import Screenplay.Json.Glyph
import Screenplay.Json.Numeral

/-!
What a text reads as, up to the place where it stops being JSON. A draft is a JSON value that may
break off: the flaw stands in the tree at the place where a reader meets it, so that whoever walks
the tree in reading order meets mistakes of spelling and of shape in the order of the text.
-/
namespace Screenplay.Json

/-- What is wrong with the spelling of a text. -/
inductive Flaw where
  /-- The text ends too early. -/
  | truncated
  /-- The text is not JSON. -/
  | malformed
  deriving DecidableEq, Repr

/-- Where a text breaks off. What is reported depends on what the reader does with the value. -/
structure Break where
  /-- For a reader that keeps the value. -/
  kept : Flaw
  /-- For a reader that passes over it. -/
  skipped : Flaw
  /-- For a reader that accepts a name and nothing else. -/
  named : Flaw
  deriving DecidableEq, Repr

/-- A flaw that is the same for every reader. -/
def Break.all (f : Flaw) : Break := ⟨f, f, f⟩

/-- A flaw behind a comma, which a reader of one name has refused already. -/
def Break.afterComma (b : Break) : Break := { b with named := .malformed }

inductive Draft where
  | null
  | bool (b : Bool)
  /-- None where the number is too large for a double. -/
  | number (n : Option Number)
  /-- None where the text has no characters: stray bytes or half a surrogate pair. -/
  | text (s : Option String)
  /-- The items, and what stands in the place of the closing bracket. -/
  | list (items : List Draft) (cut : Option Break)
  /-- The members, and what stands in the place of the closing brace. -/
  | object (members : List (Option String × Draft)) (cut : Option Break)
  | broken (b : Break)
  deriving Repr, Inhabited

namespace Draft

/-! ## Blanks and words -/

def isBlank (g : Glyph) : Bool :=
  g = .char ' ' || g = .char '\n' || g = .char '\t' || g = .char '\r'

def skipBlanks (gs : List Glyph) : List Glyph := gs.dropWhile isBlank

/-- Reads the given characters. -/
def readWord : List Char → List Glyph → Except Flaw (List Glyph)
  | [], rest => .ok rest
  | _ :: _, [] => .error .truncated
  | c :: cs, g :: rest => if g = .char c then readWord cs rest else .error .malformed

/-! ## Strings -/

/-- A piece of a string: a character, a stray byte, or a UTF-16 unit in hexadecimal. -/
inductive Piece where
  | char (c : Char)
  | stray
  | unit (n : Nat)
  deriving DecidableEq, Repr

/-- The character of an escape of one letter. -/
def escaped? : Char → Option Char
  | '"' => some '"'
  | '\\' => some '\\'
  | '/' => some '/'
  | 'b' => some '\x08'
  | 'f' => some '\x0c'
  | 'n' => some '\n'
  | 'r' => some '\r'
  | 't' => some '\t'
  | _ => none

def hexDigit? : Glyph → Option Nat
  | .stray => none
  | .char c =>
    if '0' ≤ c ∧ c ≤ '9' then some (c.toNat - '0'.toNat)
    else if 'a' ≤ c ∧ c ≤ 'f' then some (c.toNat - 'a'.toNat + 10)
    else if 'A' ≤ c ∧ c ≤ 'F' then some (c.toNat - 'A'.toNat + 10)
    else none

/-- Four hexadecimal digits. -/
def unit? (a b c d : Glyph) : Option Nat := do
  let a ← hexDigit? a
  let b ← hexDigit? b
  let c ← hexDigit? c
  let d ← hexDigit? d
  return ((a * 16 + b) * 16 + c) * 16 + d

/-- Four bytes that are no hexadecimal digits are a mistake; fewer are an early end. -/
def shortUnit (gs : List Glyph) : Flaw :=
  if gs.foldl (fun n g => n + g.size) 0 < 4 then .truncated else .malformed

/-- The pieces of a string after its opening quote, and what follows the closing one. -/
def pieces : List Glyph → List Piece × Except Flaw (List Glyph)
  | [] => ([], .error .truncated)
  | .stray :: rest => let (ps, after) := pieces rest; (.stray :: ps, after)
  | .char '"' :: rest => ([], .ok rest)
  | .char '\\' :: .char 'u' :: a :: b :: c :: d :: rest =>
    match unit? a b c d with
    | none => ([], .error .malformed)
    | some n => let (ps, after) := pieces rest; (.unit n :: ps, after)
  | .char '\\' :: .char 'u' :: rest => ([], .error (shortUnit rest))
  | .char '\\' :: .char e :: rest =>
    match escaped? e with
    | none => ([], .error .malformed)
    | some c => let (ps, after) := pieces rest; (.char c :: ps, after)
  | .char '\\' :: .stray :: _ => ([], .error .malformed)
  | .char '\\' :: [] => ([], .error .truncated)
  | .char c :: rest =>
    if c.toNat < 0x20 then ([], .error .malformed)
    else let (ps, after) := pieces rest; (.char c :: ps, after)

def isHighSurrogate (n : Nat) : Bool := 0xD800 ≤ n && n ≤ 0xDBFF
def isLowSurrogate (n : Nat) : Bool := 0xDC00 ≤ n && n ≤ 0xDFFF

/-- The code point of a surrogate pair. -/
def pairCode (high low : Nat) : Nat := 0x10000 + (high - 0xD800) * 0x400 + (low - 0xDC00)

/-- A half of a surrogate pair stands without the other. The last unit may still find its other
half if the string goes on. -/
def hasLoneSurrogate (complete : Bool) : List Piece → Bool
  | [] => false
  | .unit n :: rest =>
    if isLowSurrogate n then true
    else if isHighSurrogate n then
      match rest with
      | .unit m :: rest => if isLowSurrogate m then hasLoneSurrogate complete rest else true
      | [] => complete
      | _ => true
    else hasLoneSurrogate complete rest
  | _ :: rest => hasLoneSurrogate complete rest

/-- The characters of a string without lone surrogates; none where it has a stray byte. -/
def characters : List Piece → Option (List Char)
  | [] => some []
  | .stray :: _ => none
  | .unit high :: .unit low :: rest =>
    if isHighSurrogate high then (characters rest).map (Char.ofNat (pairCode high low) :: ·)
    else (characters (.unit low :: rest)).map (Char.ofNat high :: ·)
  | .unit n :: rest => (characters rest).map (Char.ofNat n :: ·)
  | .char c :: rest => (characters rest).map (c :: ·)

/-- Reads a string after its opening quote. -/
def readText (gs : List Glyph) : Except Break (Option String × List Glyph) :=
  let (ps, after) := pieces gs
  match after with
  | .ok rest =>
    if hasLoneSurrogate true ps then .ok (none, rest)
    else .ok ((characters ps).map String.ofList, rest)
  | .error f =>
    let kept := if hasLoneSurrogate false ps then .malformed else f
    .error ⟨kept, f, kept⟩

/-! ## Numbers -/

def digit? : Glyph → Option Nat
  | .char c => if '0' ≤ c ∧ c ≤ '9' then some (c.toNat - '0'.toNat) else none
  | .stray => none

/-- The digits at the head of a text. -/
def digits : List Glyph → List Nat × List Glyph
  | [] => ([], [])
  | g :: rest =>
    match digit? g with
    | some d => let (ds, after) := digits rest; (d :: ds, after)
    | none => ([], g :: rest)

/-- A number that breaks off before `rest`. A reader that passes over it takes an early end for a
mistake of spelling, and so does one that waits for a name. -/
def numberBreak (rest : List Glyph) : Break :=
  if rest.isEmpty then ⟨.truncated, .malformed, .malformed⟩ else Break.all .malformed

/-- A point and the digits after it. -/
def readFraction : List Glyph → Except Break (Option (List Nat) × List Glyph)
  | .char '.' :: rest =>
    let (ds, after) := digits rest
    if ds.isEmpty then .error (numberBreak after) else .ok (some ds, after)
  | rest => .ok (none, rest)

/-- The sign of an exponent: whether it is negative. -/
def exponentSign : List Glyph → Bool × List Glyph
  | .char '+' :: rest => (false, rest)
  | .char '-' :: rest => (true, rest)
  | rest => (false, rest)

def readExponent (gs : List Glyph) : Except Break (Option Int × List Glyph) :=
  match gs with
  | .char e :: rest =>
    if e = 'e' ∨ e = 'E' then
      let (negative, rest) := exponentSign rest
      let (ds, after) := digits rest
      if ds.isEmpty then .error (numberBreak after)
      else
        let n : Nat := ds.foldl (fun n (d : Nat) => n * 10 + d) 0
        .ok (some (if negative then -(n : Int) else n), after)
    else .ok (none, gs)
  | _ => .ok (none, gs)

/-- Reads a number: no leading zero, a digit on either side of the point. -/
def readNumeral (gs : List Glyph) : Except Break (Numeral × List Glyph) := do
  let (negative, gs) := match gs with
    | .char '-' :: rest => (true, rest)
    | _ => (false, gs)
  let (whole, rest) := digits gs
  match whole with
  | [] => throw (numberBreak rest)
  | 0 :: _ :: _ => throw (Break.all .malformed)
  | _ =>
    let (fraction, rest) ← readFraction rest
    let (exponent, rest) ← readExponent rest
    return ({ negative, whole, fraction, exponent }, rest)

/-! ## Values -/

/-- A draft and the text after it; no text is left after a break. -/
abbrev Reading := Draft × Option (List Glyph)

def breakAt (f : Flaw) : Reading := (.broken (Break.all f), none)

/-- Reads a word of the language. Where a name is due, only `null` is still looked at. -/
def readKeyword (d : Draft) (word : List Char) (gs : List Glyph) : Reading :=
  match readWord word gs with
  | .ok rest => (d, some rest)
  | .error f => (.broken ⟨f, f, if word.head? = some 'n' then f else .malformed⟩, none)

mutual

/-- Reads one value. Each step takes a glyph, so as much fuel as there is text is enough. -/
def readValue : Nat → List Glyph → Reading
  | 0, _ => breakAt .truncated
  | fuel + 1, gs =>
    match skipBlanks gs with
    | [] => breakAt .truncated
    | .char 'n' :: rest => readKeyword .null "null".toList (.char 'n' :: rest)
    | .char 't' :: rest => readKeyword (.bool true) "true".toList (.char 't' :: rest)
    | .char 'f' :: rest => readKeyword (.bool false) "false".toList (.char 'f' :: rest)
    | .char '"' :: rest =>
      match readText rest with
      | .ok (s, rest) => (.text s, some rest)
      | .error b => (.broken b, none)
    | .char '[' :: rest =>
      match skipBlanks rest with
      | .char ']' :: rest => (.list [] none, some rest)
      | [] => (.list [] (some (Break.all .truncated)), none)
      | rest =>
        let (items, cut, after) := readItems fuel rest
        (.list items cut, after)
    | .char '\x7b' :: rest =>
      match skipBlanks rest with
      | .char '\x7d' :: rest => (.object [] none, some rest)
      | rest =>
        let (members, cut, after) := readMembers fuel rest
        (.object members cut, after)
    | .char c :: rest =>
      if c = '-' ∨ c.isDigit then
        match readNumeral (.char c :: rest) with
        | .ok (n, rest) => (.number n.value, some rest)
        | .error b => (.broken b, none)
      else breakAt .malformed
    | .stray :: _ => breakAt .malformed

/-- Reads an item and those after it, up to the closing bracket. -/
def readItems : Nat → List Glyph → List Draft × Option Break × Option (List Glyph)
  | 0, _ => ([], some (Break.all .truncated), none)
  | fuel + 1, gs =>
    match readValue fuel gs with
    | (d, none) => ([d], none, none)
    | (d, some rest) =>
      match skipBlanks rest with
      | [] => ([d], some (Break.all .truncated), none)
      | .char ']' :: rest => ([d], none, some rest)
      | .char ',' :: rest =>
        let (items, cut, after) := readItems fuel rest
        (d :: items, cut, after)
      | _ => ([d], some (Break.all .malformed), none)

/-- Reads a member and those after it, up to the closing brace. -/
def readMembers : Nat → List Glyph →
    List (Option String × Draft) × Option Break × Option (List Glyph)
  | 0, _ => ([], some (Break.all .truncated), none)
  | fuel + 1, gs =>
    match skipBlanks gs with
    | [] => ([], some (Break.all .truncated), none)
    | .char '"' :: rest =>
      match readText rest with
      | .error b => ([], some b, none)
      | .ok (name, rest) =>
        match skipBlanks rest with
        | [] => ([(name, .broken (Break.all .truncated))], none, none)
        | .char ':' :: rest =>
          match readValue fuel rest with
          | (d, none) => ([(name, d)], none, none)
          | (d, some rest) =>
            match skipBlanks rest with
            | [] => ([(name, d)], some (Break.all .truncated), none)
            | .char '\x7d' :: rest => ([(name, d)], none, some rest)
            | .char ',' :: rest =>
              let (members, cut, after) := readMembers fuel rest
              ((name, d) :: members, cut.map Break.afterComma, after)
            | _ => ([(name, d)], some (Break.all .malformed), none)
        | _ => ([(name, .broken (Break.all .malformed))], none, none)
    | _ => ([], some (Break.all .malformed), none)

end

end Draft

/-- The draft of a whole text, and whether something other than blanks follows it. -/
structure Manuscript where
  root : Draft
  overrun : Bool
  deriving Repr

namespace Manuscript

def ofGlyphs (gs : List Glyph) : Manuscript :=
  match Draft.readValue (2 * gs.length + 2) gs with
  | (root, some rest) => ⟨root, !(Draft.skipBlanks rest).isEmpty⟩
  | (root, none) => ⟨root, false⟩

end Manuscript

end Screenplay.Json
