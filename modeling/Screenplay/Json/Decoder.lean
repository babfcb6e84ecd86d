import Screenplay.Json.Fault

/-!
Decoders: from a draft to a value of the domain, or to the first fault in reading order. A decoder
works on the text itself or on a value that was read whole before its meaning was looked at; the
two differ in how a wrong kind of value and an overlong list are reported. The members of a tagged
union are read whole too, and a little more is taken for a name among them.
-/
namespace Screenplay.Json

/-- Where a draft comes from. -/
inductive Origin where
  /-- From a text, as far as that was read. -/
  | text
  /-- From a value that was read whole. -/
  | value
  /-- From the members of a tagged union, which were read whole. -/
  | member
  deriving DecidableEq, Repr

/-- How a decoder meets its draft. -/
structure Setting where
  /-- How many lists and objects may still be entered. -/
  room : Nat
  origin : Origin
  deriving DecidableEq, Repr

abbrev Decoder (α : Type) := Setting → Draft → Except Fault α

namespace Decoder

variable {α : Type}

/-- Enters a list or an object. -/
def inside (s : Setting) : Except Fault Setting := do
  let room ← Draft.enter s.room
  return { s with room }

/-- Any value. -/
def value : Decoder Value := fun s d => d.keep s.room

def bool : Decoder Bool
  | _, .bool b => .ok b
  | _, d => .error d.unexpected

def string : Decoder String
  | _, .text (some s) => .ok s
  | _, d => .error d.unexpected

/-- A whole number from `least` to `greatest`, written as one. -/
def whole (least greatest : Int) : Decoder Int
  | _, .number (some (.whole n)) =>
    if least ≤ n ∧ n ≤ greatest then .ok n else .error (.mismatch .shape)
  | _, d => .error d.unexpected

def byte : Decoder UInt8 := fun s d => (whole 0 (UInt8.size - 1) s d).map fun n => .ofNat n.toNat
def word : Decoder UInt32 := fun s d => (whole 0 (UInt32.size - 1) s d).map fun n => .ofNat n.toNat
def longWord : Decoder UInt64 := fun s d => (whole 0 (UInt64.size - 1) s d).map fun n => .ofNat n.toNat
def integer : Decoder Int32 := fun s d => (whole Int32.minValue.toInt Int32.maxValue.toInt s d).map .ofInt

/-- A number; a whole one is rounded to a double. -/
def double : Decoder Float
  | _, .number (some (.double x)) => .ok x
  | _, .number (some (.whole n)) => .ok (.ofInt n)
  | _, d => .error d.unexpected

/-- `null` or a value. -/
def optional (decoder : Decoder α) : Decoder (Option α)
  | _, .null => .ok none
  | s, d => (decoder s d).map some

/-- A list of values. -/
def list (decoder : Decoder α) : Decoder (List α)
  | s, .list items cut => do
    let s ← inside s
    let values ← items.mapM (decoder s)
    Draft.closed Break.kept cut
    return values
  | _, d => .error d.unexpected

/-- An object of arbitrary names, in the order of the names; the last member of a name wins. -/
def table (decoder : Decoder α) : Decoder (List (String × α))
  | s, .object members cut => do
    let s ← inside s
    let entries ← go s members []
    Draft.closed Break.kept cut
    return entries
  | _, d => .error d.unexpected
where
  go (s : Setting) : List (Option String × Draft) → List (String × α) →
      Except Fault (List (String × α))
    | [], done => .ok done
    | (none, _) :: _, _ => .error .malformed
    | (some name, d) :: rest, done => do
      let a ← decoder s d
      go s rest (putMember name a done)

/-! ## Names -/

/-- The value that a name stands for. -/
def named (names : List (String × α)) (name : String) : Except Fault α :=
  match names.lookup name with
  | some a => .ok a
  | none => .error (.mismatch (.unknownVariant name))

/-- The empty content of a name that is written as the only member of an object. Among the members
of a tagged union an empty object is as good as `null`. -/
def nothing : Decoder Unit
  | _, .null => .ok ()
  | s, .object [] none => if s.origin = .member then .ok () else .error (.mismatch .shape)
  | _, d => .error d.unexpected

/-- One of a list of names, as a string or as the only member of an object. In a text anything
else is refused at its first character; in a value that was read whole it has the wrong kind. -/
def choice (names : List (String × α)) : Decoder α := fun s d =>
  match s.origin, d with
  | _, .text (some name) => named names name
  | .text, .object members cut => do
    let s ← inside s
    match members with
    | [] =>
      Draft.closed Break.kept cut
      throw .malformed
    | (none, _) :: _ => throw .malformed
    | (some name, content) :: rest =>
      let a ← named names name
      nothing s content
      unless rest.isEmpty do throw .malformed
      Draft.closed Break.named cut
      return a
  | .text, .broken b => .error (.ofFlaw b.named)
  | .text, _ => .error .malformed
  | _, .object [(some name, content)] _ => do
    let a ← named names name
    nothing s content
    return a
  | _, d => .error d.unexpected

end Decoder

/-! ## Records -/

/-- A member of a record. -/
structure Field (α : Type) where
  name : String
  decoder : Decoder α
  /-- The value of a member that is left out, unless it is required. -/
  absent : Option α

namespace Field

variable {α : Type}

def required (name : String) (decoder : Decoder α) : Field α := ⟨name, decoder, none⟩

def withDefault (name : String) (decoder : Decoder α) (a : α) : Field α := ⟨name, decoder, some a⟩

/-- May be left out or `null`. -/
def optional (name : String) (decoder : Decoder α) : Field (Option α) :=
  ⟨name, .optional decoder, some none⟩

end Field

/-- The members of a record in the order of declaration. -/
@[reducible] def Fields : List Type → Type
  | [] => Unit
  | α :: rest => Field α × Fields rest

/-- The members seen so far. -/
@[reducible] def Seen : List Type → Type
  | [] => Unit
  | α :: rest => Option α × Seen rest

/-- A value for every member. -/
@[reducible] def Row : List Type → Type
  | [] => Unit
  | α :: rest => α × Row rest

namespace Record

/-- Nothing seen yet. -/
def unseen : (types : List Type) → Seen types
  | [] => ()
  | _ :: rest => (none, unseen rest)

/-- Takes in the member of a name; none if no field has that name. -/
def accept (s : Setting) (name : String) (d : Draft) : {types : List Type} → Fields types →
    Seen types → Option (Except Fault (Seen types))
  | [], _, _ => none
  | _ :: _, (field, fields), (a, seen) =>
    if name = field.name then some <|
      match a with
      | some _ => .error (.mismatch (.duplicateField name))
      | none => (field.decoder s d).map fun a => (some a, seen)
    else (accept s name d fields seen).map fun r => r.map fun seen => (a, seen)

/-- Fills in what was left out; the first required field that is missing is the fault. -/
def complete : {types : List Type} → Fields types → Seen types → Except Fault (Row types)
  | [], _, _ => .ok ()
  | _ :: _, (field, fields), (a, seen) => do
    let a ← match a, field.absent with
      | some a, _ => pure a
      | none, some a => pure a
      | none, none => throw (.mismatch (.missingField field.name))
    let row ← complete fields seen
    return (a, row)

/-- Takes in members in reading order. Members of other names are passed over. -/
def acceptAll {types : List Type} (s : Setting) (fields : Fields types) :
    List (Option String × Draft) → Seen types → Except Fault (Seen types)
  | [], seen => .ok seen
  | (none, _) :: _, _ => .error .malformed
  | (some name, d) :: rest, seen =>
    match accept s name d fields seen with
    | none => do
      d.skip
      acceptAll s fields rest seen
    | some result => do
      let seen ← result
      acceptAll s fields rest seen

/-- What follows the last field of a record that is written as a list. -/
def afterLast (s : Setting) (items : List Draft) (cut : Option Break) : Except Fault Unit :=
  if items.isEmpty then Draft.closed Break.kept cut
  else .error (if s.origin = .text then .malformed else .mismatch .shape)

/-- Takes the items of a list for the fields in the order of declaration; those at the end may be
left out if they have a default. -/
def inOrder (s : Setting) (cut : Option Break) : {types : List Type} → Fields types →
    List Draft → Except Fault (Row types)
  | [], _, items => do
    afterLast s items cut
    return ()
  | _ :: _, (field, fields), d :: items => do
    let a ← field.decoder s d
    let row ← inOrder s cut fields items
    return (a, row)
  | _ :: _, (field, fields), [] => do
    Draft.closed Break.kept cut
    match field.absent with
    | none => throw (.mismatch .shape)
    | some a =>
      let row ← inOrder s cut fields []
      return (a, row)

/-- A record, as an object or as a list of its fields. -/
def decoder {types : List Type} (fields : Fields types) : Decoder (Row types)
  | s, .object members cut => do
    let s ← Decoder.inside s
    let seen ← acceptAll s fields members (unseen types)
    Draft.closed Break.kept cut
    complete fields seen
  | s, .list items cut => do
    let s ← Decoder.inside s
    inOrder s cut fields items
  | _, d => .error d.unexpected

/-- A record made into a value of the domain. -/
def make {types : List Type} {α : Type} (fields : Fields types) (f : Row types → α) : Decoder α :=
  fun s d => (decoder fields s d).map f

end Record

/-! ## Variants -/

/-- The variants of a tagged union: the names of the tag, several of which may mean the same
variant, and a decoder of the remaining members for each. -/
structure Variants (α : Type) where
  /-- The tags by position. -/
  ordered : List (Decoder α)
  /-- The position that a name stands for. -/
  names : List (String × Nat)

namespace Variants

variable {α : Type}

/-- The decoder that a tag selects. Among the members of a tagged union a tag may also be the
position of the variant. -/
def select (v : Variants α) : Decoder (Decoder α)
  | _, .text (some name) =>
    match (v.names.lookup name).bind (v.ordered[·]?) with
    | some decoder => .ok decoder
    | none => .error (.mismatch (.unknownVariant name))
  | s, .number (some (.whole n)) =>
    match if s.origin = .member ∧ 0 ≤ n then v.ordered[n.toNat]? else none with
    | some decoder => .ok decoder
    | none => .error (.mismatch .shape)
  | _, d => .error d.unexpected

/-- Looks for the tag among the members and keeps the others. -/
def gather (v : Variants α) (s : Setting) : List (Option String × Draft) →
    Option (Decoder α) → List (String × Value) → Except Fault (Option (Decoder α) × List (String × Value))
  | [], tag, kept => .ok (tag, kept.reverse)
  | (none, _) :: _, _, _ => .error .malformed
  | (some name, d) :: rest, tag, kept =>
    if name = "type" then
      match tag with
      | some _ => .error (.mismatch (.duplicateField name))
      | none => do
        let tag ← v.select s d
        gather v s rest (some tag) kept
    else do
      let value ← d.keep s.room
      gather v s rest tag ((name, value) :: kept)

/-- A tagged union: an object with a member `type`, or a list that starts with the tag. Everything
else is read whole before it is interpreted. -/
def decoder (v : Variants α) : Decoder α
  | s, .object members cut => do
    let inner ← Decoder.inside s
    let (tag, kept) ← v.gather inner members none []
    Draft.closed Break.kept cut
    match tag with
    | none => throw (.mismatch (.missingField "type"))
    | some variant => variant { s with origin := .member } (.ofValue (.object kept))
  | s, .list items cut => do
    let inner ← Decoder.inside s
    match items with
    | [] =>
      Draft.closed Break.kept cut
      throw (.mismatch (.missingField "type"))
    | first :: rest =>
      let variant ← v.select inner first
      let kept ← Draft.keepItems inner.room rest
      Draft.closed Break.kept cut
      variant { s with origin := .member } (.ofValue (.list kept))
  | _, d => .error d.unexpected

end Variants

/-- How many levels a text may nest. -/
def maximalNesting : Nat := 127

/-- Decodes a whole text. -/
def Manuscript.decode {α : Type} (decoder : Decoder α) (m : Manuscript) : Except Fault α := do
  let a ← decoder ⟨maximalNesting, .text⟩ m.root
  if m.overrun then throw .malformed
  return a

end Screenplay.Json
