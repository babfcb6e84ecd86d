import Screenplay.Text.Invisible

/-!
Text between quotation marks for a reader: every character is visible or written as an escape.
-/
namespace Screenplay.Text

/-- A code point by its number in lowercase hexadecimal. -/
def numbered (c : Char) : String :=
  "\\u\x7b" ++ String.ofList (Nat.toDigits 16 c.toNat) ++ "\x7d"

/-- A character of a text that ends at one of some marks. The marks and the backslash follow a
backslash, the ends of lines, tabs and the null character have letters, and what is invisible is
written by its number. -/
def visible (marks : List Char) (c : Char) : String :=
  match c with
  | '\\' => "\\\\"
  | '\n' => "\\n"
  | '\r' => "\\r"
  | '\t' => "\\t"
  | '\x00' => "\\0"
  | c =>
    if c ∈ marks then "\\" ++ c.toString
    else if isInvisible c then numbered c else c.toString

/-- A text between double quotation marks. -/
def quoted (s : String) : String := "\"" ++ String.join (s.toList.map (visible ['"'])) ++ "\""

end Screenplay.Text
