import Screenplay.Json.Value

/-!
JSON pointers: a path into a value, each step after a slash. In a step `~1` stands for a slash and
`~0` for a tilde.
-/
namespace Screenplay.Json

/-- Undoes the escapes of one step. -/
def unescapeStep : List Char → List Char
  | '~' :: '1' :: rest => '/' :: unescapeStep rest
  | '~' :: '0' :: rest => '~' :: unescapeStep rest
  | c :: rest => c :: unescapeStep rest
  | [] => []

/-- The position in a list that a step names: digits without a leading zero. -/
def index? (step : String) : Option Nat :=
  let digits := step.toList
  if digits = [] ∨ ¬digits.all Char.isDigit ∨ (digits.head? = some '0' ∧ 1 < digits.length) then none
  else some (digits.foldl (fun n c => n * 10 + (c.toNat - '0'.toNat)) 0)

namespace Value

/-- One step down. -/
def child? (v : Value) (step : String) : Option Value :=
  match v with
  | .list items => (index? step).bind (items[·]?)
  | .object members => members.lookup step
  | _ => none

/-- The part of a value at a pointer; the empty pointer is the whole. -/
def at? (v : Value) (pointer : String) : Option Value :=
  if pointer = "" then some v
  else match pointer.splitOn "/" with
    | "" :: steps =>
      steps.foldl (fun v step => v.bind fun v => v.child? (String.ofList (unescapeStep step.toList)))
        (some v)
    | _ => none

end Value

end Screenplay.Json
