import Screenplay.Json.Draft

/-!
Why a text is refused: it ends early, it is not JSON, or it is JSON of the wrong shape. Keeping a
draft turns it into a value or meets its first flaw; skipping it only looks at the spelling.
-/
namespace Screenplay.Json

/-- How a well-spelled text fails to be what is read. -/
inductive Mismatch where
  | missingField (name : String)
  | unknownVariant (name : String)
  | duplicateField (name : String)
  /-- A value of another kind, out of range, or of the wrong length. -/
  | shape
  deriving DecidableEq, Repr

inductive Fault where
  | truncated
  | malformed
  | mismatch (m : Mismatch)
  deriving DecidableEq, Repr

namespace Fault

def ofFlaw : Flaw → Fault
  | .truncated => .truncated
  | .malformed => .malformed

/-- The category that a report names. -/
def category : Fault → String
  | truncated => "eof"
  | malformed => "syntax"
  | mismatch _ => "data"

private def quoted (what name : String) : String :=
  what ++ " `" ++ String.ofList (name.toList.takeWhile (· ≠ '`')) ++ "`"

/-- The part of the message that names something of the text; it ends at the first backquote. -/
def message? : Fault → Option String
  | mismatch (.missingField name) => some (quoted "missing field" name)
  | mismatch (.unknownVariant name) => some (quoted "unknown variant" name)
  | mismatch (.duplicateField name) => some (quoted "duplicate field" name)
  | _ => none

end Fault

namespace Draft

/-- A closing bracket that is not there is a fault of whoever wants to get past it. -/
def closed (flaw : Break → Flaw) : Option Break → Except Fault Unit
  | none => .ok ()
  | some b => .error (.ofFlaw (flaw b))

/-- Entering a list or an object takes one level of the nesting that is allowed. -/
def enter : Nat → Except Fault Nat
  | 0 => .error .malformed
  | room + 1 => .ok room

mutual

/-- The value of a draft that nests at most `room` levels deep, or its first flaw. -/
def keep (room : Nat) : Draft → Except Fault Value
  | .null => .ok .null
  | .bool b => .ok (.bool b)
  | .number (some n) => .ok (.number n)
  | .number none => .error .malformed
  | .text (some s) => .ok (.text s)
  | .text none => .error .malformed
  | .list items cut => do
    let room ← enter room
    let values ← keepItems room items
    closed Break.kept cut
    return .list values
  | .object members cut => do
    let room ← enter room
    let values ← keepMembers room members
    closed Break.kept cut
    return .object values
  | .broken b => .error (.ofFlaw b.kept)

def keepItems (room : Nat) : List Draft → Except Fault (List Value)
  | [] => .ok []
  | d :: rest => do
    let v ← d.keep room
    let vs ← keepItems room rest
    return v :: vs

def keepMembers (room : Nat) :
    List (Option String × Draft) → Except Fault (List (String × Value))
  | [] => .ok []
  | (none, _) :: _ => .error .malformed
  | (some name, d) :: rest => do
    let v ← d.keep room
    let vs ← keepMembers room rest
    return (name, v) :: vs

end

mutual

/-- Passes over a draft; only its spelling counts, not its depth, its numbers or its characters. -/
def skip : Draft → Except Fault Unit
  | .list items cut => do
    skipItems items
    closed Break.skipped cut
  | .object members cut => do
    skipMembers members
    closed Break.skipped cut
  | .broken b => .error (.ofFlaw b.skipped)
  | _ => .ok ()

def skipItems : List Draft → Except Fault Unit
  | [] => .ok ()
  | d :: rest => do
    d.skip
    skipItems rest

def skipMembers : List (Option String × Draft) → Except Fault Unit
  | [] => .ok ()
  | (_, d) :: rest => do
    d.skip
    skipMembers rest

end

mutual

/-- A value as a draft without flaws. -/
def ofValue : Value → Draft
  | .null => .null
  | .bool b => .bool b
  | .number n => .number (some n)
  | .text s => .text (some s)
  | .list items => .list (ofItems items) none
  | .object members => .object (ofMembers members) none

def ofItems : List Value → List Draft
  | [] => []
  | v :: rest => ofValue v :: ofItems rest

def ofMembers : List (String × Value) → List (Option String × Draft)
  | [] => []
  | (name, v) :: rest => (some name, ofValue v) :: ofMembers rest

end

/-- What a decoder reports of a draft of a kind that it does not take. -/
def unexpected : Draft → Fault
  | .broken b => .ofFlaw b.kept
  | .number none => .malformed
  | .text none => .malformed
  | _ => .mismatch .shape

end Draft

end Screenplay.Json
