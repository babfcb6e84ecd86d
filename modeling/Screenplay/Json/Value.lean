/-!
JSON values. An object keeps its members in the order in which they were written and keeps a
repeated name; `normal` is the view of a reader that lets the last member of a name win and keeps
the names in order.
-/
namespace Screenplay.Json

/-- A number keeps whether it was written as a whole one; those fit the 64-bit types. -/
inductive Number where
  | whole (n : Int)
  | double (x : Float)
  deriving DecidableEq, Repr

inductive Value where
  | null
  | bool (b : Bool)
  | number (n : Number)
  | text (s : String)
  | list (items : List Value)
  | object (members : List (String × Value))
  deriving Repr, Inhabited

namespace Value

/-- A whole number. -/
abbrev whole (n : Int) : Value := .number (.whole n)

/-- A double. -/
abbrev double (x : Float) : Value := .number (.double x)

/-- `null` stands for an absent value. -/
def ofOption {α : Type} (write : α → Value) : Option α → Value
  | none => .null
  | some a => write a

/-- The member of a name; of a repeated name, the first. -/
def get? (v : Value) (name : String) : Option Value :=
  match v with
  | .object members => members.lookup name
  | _ => none

end Value

/-- Puts a member in its place among members ordered by name, over one of the same name. -/
def putMember {α : Type} (name : String) (a : α) : List (String × α) → List (String × α)
  | [] => [(name, a)]
  | (other, b) :: rest =>
    if name < other then (name, a) :: (other, b) :: rest
    else if name = other then (name, a) :: rest
    else (other, b) :: putMember name a rest

namespace Value

mutual

/-- Every object ordered by name, the last member of a name kept. -/
def normal : Value → Value
  | .list items => .list (normalItems items)
  | .object members => .object (normalMembers members [])
  | v => v

def normalItems : List Value → List Value
  | [] => []
  | v :: rest => v.normal :: normalItems rest

def normalMembers : List (String × Value) → List (String × Value) → List (String × Value)
  | [], done => done
  | (name, v) :: rest, done => normalMembers rest (putMember name v.normal done)

end

end Value

end Screenplay.Json
