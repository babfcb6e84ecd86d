import Mathlib.Data.List.Perm.Basic
import Mathlib.Data.List.Nodup
import Mathlib.Logic.Relation
import Screenplay.Proofs.Records
import Screenplay.Scenario.Decode

/-!
Edits of a document that should not matter: members change their places, members that nobody knows
come in, and what is absent is written as `null` (`Edit`). Where they are made decides what may be
added: a reader that passes over a member takes any spelling, one that keeps it needs a value.
-/
namespace Screenplay
open Json

/-! ## What a document knows -/

/-- What stands at a place of a scenario's document. -/
inductive Form where
  | scenario
  | options
  | matcher
  | templates
  | template
  | actions
  | action
  | condition
  | point
  /-- Anything whose members, if it has any, mean nothing to a scenario. -/
  | foreign
  deriving DecidableEq, Repr

/-- A member that a scenario knows. -/
structure Member where
  name : String
  form : Form := .foreign
  /-- It may be `null` instead of absent. -/
  isOptional : Bool := false
  deriving DecidableEq, Repr

namespace Member

def plain (name : String) : Member := { name }

def optional (name : String) (form : Form := .foreign) : Member := { name, form, isOptional := true }

end Member

open Member

namespace ImageCheck

def known : List Member :=
  [plain "template", optional "threshold", optional "cropLocation" .point, plain "colorInvariant",
    optional "timeoutMs", optional "useCache"]

end ImageCheck

def SoundCheck.known : List Member := [optional "minLevel", optional "durationMs"]

/-- The members of the measurements by the position of the tag. -/
def Measure.known : List (List Member) := [ImageCheck.known, SoundCheck.known, [plain "probe"]]

/-- The members of the actions by the position of the tag. -/
def Action.known : List (List Member) :=
  [[optional "condition" .condition, ⟨"thenActions", .actions, false⟩, optional "elseActions" .actions],
    [optional "condition" .condition, ⟨"actions", .actions, false⟩, optional "maxIterations"],
    [plain "count", ⟨"actions", .actions, false⟩],
    [optional "reason"],
    [optional "message"],
    [optional "name"],
    [plain "x", plain "y", plain "button", optional "count"],
    [plain "fromX", plain "fromY", plain "toX", plain "toY", optional "durationMs"],
    [plain "text"],
    [plain "text"],
    [plain "ms", optional "maxMs"],
    [plain "level", plain "message"],
    SoundCheck.known,
    ImageCheck.known]

/-- The members that go with a tag, which is a name or a position. -/
def taggedMembers (names : List (String × Nat)) (known : List (List Member)) : Option Draft → List Member
  | some (.text (some name)) => ((names.lookup name).bind (known[·]?)).getD []
  | some (.number (some (.whole n))) => if 0 ≤ n then (known[n.toNat]?).getD [] else []
  | _ => []

namespace Form

/-- The members that an object of a form knows, by the tag that it has. -/
def known (tag : Option Draft) : Form → List Member
  | scenario =>
    [optional "name", ⟨"actions", .actions, false⟩, ⟨"templates", .templates, false⟩,
      ⟨"options", .options, false⟩, ⟨"matcher", .matcher, false⟩, plain "device"]
  | options => [plain "stopOnFailure", plain "maxDepth", plain "defaultMaxIterations"]
  | matcher => [plain "cacheCapacity", plain "cacheTtlMs"]
  | template => [plain "path", optional "cropLocation" .point]
  | action => plain "type" :: taggedMembers Action.tags Action.known tag
  | condition =>
    plain "type" :: optional "operator" :: optional "value" ::
      taggedMembers Measure.variants.names Measure.known tag
  | point => [plain "x", plain "y"]
  | templates | actions | foreign => []

/-- The form has members of its own, so that a member of another name is not known. -/
def isModel : Form → Bool
  | templates | actions | foreign => false
  | _ => true

/-- The form of a member. Any member of the templates is one. -/
def ofMember (form : Form) (tag : Option Draft) (name : Option String) : Form :=
  if form = .templates then .template
  else (((form.known tag).find? fun m => some m.name = name).map Member.form).getD .foreign

/-- The form of an item. -/
def ofItem : Form → Option Form
  | actions => some .action
  | foreign => some .foreign
  | _ => none

end Form

/-- A place in a document. -/
structure Site where
  form : Form
  /-- What stands here was read whole before it is interpreted. -/
  held : Bool
  /-- How many lists and objects may still be entered. -/
  room : Nat

namespace Site

/-- What stands inside is read whole: the members of tagged unions are. -/
def holds (p : Site) : Bool := p.held || p.form = .action || p.form = .condition

/-- The place of something inside. -/
def inside (p : Site) (form : Form) : Site := ⟨form, p.holds, p.room - 1⟩

/-- Any JSON value, as far as it is spelled correctly. -/
def Spelled (_ : Site) (d : Draft) : Prop := d.skip = .ok ()

/-- A JSON value that the reader can keep where it has to: its numbers are doubles, its strings have
characters, and it does not nest too deep. -/
def Readable (p : Site) (d : Draft) : Prop :=
  d.skip = .ok () ∧ (p.holds = true → d.Kept (p.room - 1))

end Site

/-- A single edit at a place. `may` says which values may be added inside. -/
inductive Edit (may : Site → Draft → Prop) : Site → Draft → Draft → Prop where
  /-- The members change their places. -/
  | reorder {p members members'} (distinct : Draft.Distinct members) (perm : members.Perm members') :
    Edit may p (.object members none) (.object members' none)
  /-- A member of an unknown name comes in. -/
  | unknown {p members name d} (distinct : Draft.Distinct ((some name, d) :: members))
    (model : p.form.isModel = true)
    (new : ∀ m ∈ p.form.known (Draft.find members "type"), m.name ≠ name) (allowed : may p d) :
    Edit may p (.object members none) (.object ((some name, d) :: members) none)
  /-- An absent member is written as `null`. -/
  | null {p members m} (distinct : Draft.Distinct ((some m.name, .null) :: members))
    (known : m ∈ p.form.known (Draft.find members "type")) (optional : m.isOptional = true) :
    Edit may p (.object members none) (.object ((some m.name, .null) :: members) none)
  /-- An edit inside a member. -/
  | member {p name d d' rest} (distinct : Draft.Distinct ((name, d) :: rest))
    (edit : Edit may
      (p.inside (p.form.ofMember (Draft.find ((name, d) :: rest) "type") name)) d d') :
    Edit may p (.object ((name, d) :: rest) none) (.object ((name, d') :: rest) none)
  /-- An edit inside an item. -/
  | item {p form before d d' after} (items : p.form.ofItem = some form)
    (edit : Edit may (p.inside form) d d') :
    Edit may p (.list (before ++ d :: after) none) (.list (before ++ d' :: after) none)

namespace Json.Draft

variable {room : Nat} {items : List Draft} {members members' : List (Option String × Draft)}

theorem skipMembers_ok : skipMembers members = .ok () ↔ ∀ m ∈ members, m.2.skip = .ok () := by
  induction members with
  | nil => simp [skipMembers]
  | cons member rest ih =>
    obtain ⟨name, d⟩ := member
    rw [skipMembers, bind_ok, List.forall_mem_cons, ← ih]
    exact ⟨fun ⟨(), first, later⟩ => ⟨first, later⟩, fun ⟨first, later⟩ => ⟨(), first, later⟩⟩

theorem skipItems_ok : skipItems items = .ok () ↔ ∀ d ∈ items, d.skip = .ok () := by
  induction items with
  | nil => simp [skipItems]
  | cons d rest ih =>
    rw [skipItems, bind_ok, List.forall_mem_cons, ← ih]
    exact ⟨fun ⟨(), first, later⟩ => ⟨first, later⟩, fun ⟨first, later⟩ => ⟨(), first, later⟩⟩

theorem skip_object_ok : (object members none).skip = .ok () ↔ ∀ m ∈ members, m.2.skip = .ok () := by
  rw [skip, bind_ok, ← skipMembers_ok]
  exact ⟨fun ⟨(), skipped, _⟩ => skipped, fun skipped => ⟨(), skipped, rfl⟩⟩

theorem skip_list_ok : (list items none).skip = .ok () ↔ ∀ d ∈ items, d.skip = .ok () := by
  rw [skip, bind_ok, ← skipItems_ok]
  exact ⟨fun ⟨(), skipped, _⟩ => skipped, fun skipped => ⟨(), skipped, rfl⟩⟩

theorem keepItems_ok : (∃ values, keepItems room items = .ok values) ↔ ∀ d ∈ items, d.Kept room := by
  induction items with
  | nil => simp [keepItems]
  | cons d rest ih =>
    rw [List.forall_mem_cons, ← ih]
    simp only [keepItems, bind_ok, Kept]
    constructor
    · rintro ⟨_, v, first, vs, later, _⟩
      exact ⟨⟨v, first⟩, vs, later⟩
    · rintro ⟨⟨v, first⟩, vs, later⟩
      exact ⟨_, v, first, vs, later, rfl⟩

theorem kept_object : (object members none).Kept (room + 1) ↔ Keeps room members := by
  rw [← keepMembers_ok]
  simp only [Kept, keep, bind_ok]
  constructor
  · rintro ⟨_, _, ⟨⟩, values, kept, _⟩
    exact ⟨values, kept⟩
  · rintro ⟨values, kept⟩
    exact ⟨_, room, rfl, values, kept, (), rfl, rfl⟩

theorem kept_list : (list items none).Kept (room + 1) ↔ ∀ d ∈ items, d.Kept room := by
  rw [← keepItems_ok]
  simp only [Kept, keep, bind_ok]
  constructor
  · rintro ⟨_, _, ⟨⟩, values, kept, _⟩
    exact ⟨values, kept⟩
  · rintro ⟨values, kept⟩
    exact ⟨_, room, rfl, values, kept, (), rfl, rfl⟩

theorem not_kept_zero_object : ¬ (object members none).Kept 0 := fun ⟨_, kept⟩ => by cases kept

theorem not_kept_zero_list : ¬ (list items none).Kept 0 := fun ⟨_, kept⟩ => by cases kept

end Json.Draft

namespace Edit

variable {p : Site} {d d' : Draft}

/-- Only lists and objects are edited. -/
theorem solid {may : Site → Draft → Prop} (edit : Edit may p d d') : d ≠ .null ∧ d' ≠ .null := by
  cases edit <;> exact ⟨nofun, nofun⟩

/-- An edit leaves a document correctly spelled, or not. -/
theorem skip_iff (edit : Edit Site.Readable p d d') : d.skip = .ok () ↔ d'.skip = .ok () := by
  induction edit with
  | reorder distinct perm =>
    rw [Draft.skip_object_ok, Draft.skip_object_ok]
    exact ⟨fun all m member => all m (perm.mem_iff.mpr member),
      fun all m member => all m (perm.mem_iff.mp member)⟩
  | unknown distinct model new allowed =>
    rw [Draft.skip_object_ok, Draft.skip_object_ok, List.forall_mem_cons]
    exact (and_iff_right allowed.1).symm
  | null distinct known optional =>
    rw [Draft.skip_object_ok, Draft.skip_object_ok, List.forall_mem_cons]
    exact (and_iff_right rfl).symm
  | member distinct edit ih =>
    rw [Draft.skip_object_ok, Draft.skip_object_ok, List.forall_mem_cons, List.forall_mem_cons, ih]
  | item items edit ih =>
    simp only [Draft.skip_list_ok, List.forall_mem_append, List.forall_mem_cons, ih]

/-- What is read whole can be kept after an edit if it could before. -/
theorem kept_iff (edit : Edit Site.Readable p d d') (held : p.held = true) :
    d.Kept p.room ↔ d'.Kept p.room := by
  have holding {p : Site} (held : p.held = true) : p.holds = true := by rw [Site.holds, held]; rfl
  induction edit with
  | @reorder p members members' distinct perm =>
    rcases p.room with _ | room
    · simp [Draft.not_kept_zero_object]
    · rw [Draft.kept_object, Draft.kept_object]
      exact ⟨fun all m member => all m (perm.mem_iff.mpr member),
        fun all m member => all m (perm.mem_iff.mp member)⟩
  | @unknown p members name d distinct model new allowed =>
    rcases roomy : p.room with _ | room
    · simp [Draft.not_kept_zero_object]
    · have kept : d.Kept room := by simpa [roomy] using allowed.2 (holding held)
      rw [Draft.kept_object, Draft.kept_object, Draft.Keeps, Draft.Keeps, List.forall_mem_cons]
      exact (and_iff_right ⟨rfl, kept⟩).symm
  | @null p members m distinct known optional =>
    rcases p.room with _ | room
    · simp [Draft.not_kept_zero_object]
    · rw [Draft.kept_object, Draft.kept_object, Draft.Keeps, Draft.Keeps, List.forall_mem_cons]
      exact (and_iff_right ⟨rfl, .null, rfl⟩).symm
  | @member p name d d' rest distinct edit ih =>
    have inner : d.Kept (p.room - 1) ↔ d'.Kept (p.room - 1) := ih (holding held)
    rcases roomy : p.room with _ | room
    · simp [Draft.not_kept_zero_object]
    · rw [roomy] at inner
      rw [Draft.kept_object, Draft.kept_object, Draft.Keeps, Draft.Keeps, List.forall_mem_cons,
        List.forall_mem_cons]
      exact and_congr_left' (and_congr_right' inner)
  | @item p form before d d' after items edit ih =>
    have inner : d.Kept (p.room - 1) ↔ d'.Kept (p.room - 1) := ih (holding held)
    rcases roomy : p.room with _ | room
    · simp [Draft.not_kept_zero_list]
    · rw [roomy] at inner
      simp only [Draft.kept_list, List.forall_mem_append, List.forall_mem_cons]
      rw [show d.Kept room ↔ d'.Kept room from inner]

end Edit

end Screenplay
