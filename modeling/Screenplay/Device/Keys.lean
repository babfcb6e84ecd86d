/-!
Key sequences: text with named keys in braces, such as `user{TAB}pass{ENTER}`. A brace that begins
no known key is text.
-/
namespace Screenplay

inductive Key where
  | enter
  | tab
  | escape
  | backspace
  | delete
  | space
  | up
  | down
  | left
  | right
  | home
  | finish
  | pageUp
  | pageDown
  deriving DecidableEq, Repr

namespace Key

/-- The name of a key on the device. -/
def label : Key → String
  | enter => "Return"
  | tab => "Tab"
  | escape => "Escape"
  | backspace => "Backspace"
  | delete => "Delete"
  | space => "Space"
  | up => "UpArrow"
  | down => "DownArrow"
  | left => "LeftArrow"
  | right => "RightArrow"
  | home => "Home"
  | finish => "End"
  | pageUp => "PageUp"
  | pageDown => "PageDown"

/-- The names that stand between braces, in capitals. -/
def names : List (String × Key) :=
  [("ENTER", enter), ("RETURN", enter), ("TAB", tab), ("ESC", escape), ("ESCAPE", escape),
    ("BACKSPACE", backspace), ("DELETE", delete), ("DEL", delete), ("SPACE", space), ("UP", up),
    ("DOWN", down), ("LEFT", left), ("RIGHT", right), ("HOME", home), ("END", finish),
    ("PAGEUP", pageUp), ("PAGEDOWN", pageDown)]

/-- The key of a name in any case. Names are ASCII, and so is the change of case. -/
def ofName? (name : List Char) : Option Key := names.lookup (String.ofList (name.map Char.toUpper))

end Key

inductive KeyToken where
  | text (chars : List Char)
  /-- A key, with the name that stands for it in the text. -/
  | key (k : Key) (name : List Char)
  deriving DecidableEq, Repr

namespace KeyToken

/-- The name in braces at the head of a text that begins with a brace, and what follows it. -/
def braced? (tail : List Char) : Option (List Char × List Char) :=
  let name := tail.takeWhile (· ≠ '\x7d')
  match tail.dropWhile (· ≠ '\x7d') with
  | [] => none
  | _ :: rest => some (name, rest)

theorem length_of_braced? {tail name rest : List Char} (h : braced? tail = some (name, rest)) :
    rest.length < tail.length := by
  have shorter := (List.dropWhile_suffix (l := tail) (· ≠ '\x7d')).length_le
  unfold braced? at h
  split at h
  · cases h
  · rename_i after closing
    cases h
    rw [closing] at shorter
    exact shorter

/-- Splits a key sequence into runs of text and named keys. -/
def scan (text : List Char) : List KeyToken :=
  match text with
  | [] => []
  | '\x7b' :: tail =>
    match _found : braced? tail with
    | none => .text ['\x7b'] :: scan tail
    | some (name, rest) =>
      match Key.ofName? name with
      | some k => .key k name :: scan rest
      | none => .text ['\x7b'] :: scan tail
  | c :: rest =>
    .text (c :: rest.takeWhile (· ≠ '\x7b')) :: scan (rest.dropWhile (· ≠ '\x7b'))
termination_by text.length
decreasing_by
  · simp
  · have := length_of_braced? _found
    simp
    omega
  · simp
  · exact Nat.lt_succ_of_le (List.dropWhile_suffix (l := rest) (· ≠ '\x7b')).length_le

end KeyToken

end Screenplay
