import Screenplay.Decimal.Layout
import Screenplay.Json.Value

/-!
The text of a JSON value: without blanks on one line, or one member to a line.
-/
namespace Screenplay.Json

/-- A hexadecimal digit in lower case. -/
def hexDigit (n : Nat) : Char := "0123456789abcdef".toList.getD (n % 16) '0'

/-- A character inside a string: the quote, the backslash and control characters are escaped. -/
def escape (c : Char) : List Char :=
  match c with
  | '"' => ['\\', '"']
  | '\\' => ['\\', '\\']
  | '\n' => ['\\', 'n']
  | '\r' => ['\\', 'r']
  | '\t' => ['\\', 't']
  | '\x08' => ['\\', 'b']
  | '\x0c' => ['\\', 'f']
  | c =>
    if c.toNat < 0x20 then ['\\', 'u', '0', '0', hexDigit (c.toNat / 16), hexDigit c.toNat] else [c]

def quote (s : String) : String := "\"" ++ String.ofList (s.toList.flatMap escape) ++ "\""

/-- A double that is no number has no text of its own. -/
def Number.text : Number → String
  | whole n => Int.repr n
  | double x => (Decimal.Layout.json.text x).getD "null"

namespace Value

mutual

/-- The text without blanks. -/
def print : Value → String
  | null => "null"
  | bool b => if b then "true" else "false"
  | number n => n.text
  | text s => quote s
  | list items => "[" ++ ",".intercalate (printItems items) ++ "]"
  | object members => "\x7b" ++ ",".intercalate (printMembers members) ++ "\x7d"

def printItems : List Value → List String
  | [] => []
  | v :: rest => v.print :: printItems rest

def printMembers : List (String × Value) → List String
  | [] => []
  | (name, v) :: rest => (quote name ++ ":" ++ v.print) :: printMembers rest

end

/-- The start of a line. -/
def newLine (depth : Nat) : String := "\n" ++ String.ofList (List.replicate (2 * depth) ' ')

mutual

/-- The text with each item and each member on a line of its own, two blanks further in than what
holds it. -/
def pretty (depth : Nat) : Value → String
  | null => "null"
  | bool b => if b then "true" else "false"
  | number n => n.text
  | text s => quote s
  | list [] => "[]"
  | list items => "[" ++ ",".intercalate (prettyItems (depth + 1) items) ++ newLine depth ++ "]"
  | object [] => "\x7b\x7d"
  | object members =>
    "\x7b" ++ ",".intercalate (prettyMembers (depth + 1) members) ++ newLine depth ++ "\x7d"

def prettyItems (depth : Nat) : List Value → List String
  | [] => []
  | v :: rest => (newLine depth ++ v.pretty depth) :: prettyItems depth rest

def prettyMembers (depth : Nat) : List (String × Value) → List String
  | [] => []
  | (name, v) :: rest =>
    (newLine depth ++ quote name ++ ": " ++ v.pretty depth) :: prettyMembers depth rest

end

end Value

end Screenplay.Json
