import Mathlib.Tactic
import Screenplay.Json.Draft
import Screenplay.Json.Pointer
import Screenplay.Scenario.Schema

/-!
What the published schema says of a JSON value. A verdict looks as deep into the value as it is told
to, and it does not change when it may look deeper (`Schema.judge_mono`); a value is valid if it is
found so at some depth. The keywords are those of draft 2020-12 that the document uses.
-/
namespace Screenplay.Schema
open Json (Value Draft)

/-! ## Verdicts -/

/-- A verdict, unless it takes a deeper look. -/
abbrev Verdict := Option Bool

namespace Verdict

/-- All of them hold; one that does not decides. -/
def every (verdicts : List Verdict) : Verdict :=
  if some false ∈ verdicts then some false
  else if none ∈ verdicts then none
  else some true

/-- One of them holds, which decides. -/
def any (verdicts : List Verdict) : Verdict :=
  if some true ∈ verdicts then some true
  else if none ∈ verdicts then none
  else some false

/-- Exactly one of them holds. -/
def one (verdicts : List Verdict) : Verdict :=
  if none ∈ verdicts then none else some (verdicts.count (some true) == 1)

end Verdict

/-! ## Keywords -/

/-- The members of an object that count: of those of one name, the last. -/
def effective : List (Option String × Draft) → List (Option String × Draft)
  | [] => []
  | m :: rest =>
    if m.1.isSome && (rest.map Prod.fst).contains m.1 then effective rest else m :: effective rest

/-- The member of a name. -/
def member? (members : List (Option String × Draft)) (name : String) : Option Draft :=
  (effective members).lookup (some name)

/-- The value is of a type. Whether a number beyond the doubles is whole is not known. -/
def hasType (name : String) : Draft → Verdict
  | .null => some (name == "null")
  | .bool _ => some (name == "boolean")
  | .number none => if name = "integer" then none else some (name == "number")
  | .number (some (.whole _)) => some (name == "integer" || name == "number")
  | .number (some (.double x)) => some (name == "integer" && x.floor == x || name == "number")
  | .text _ => some (name == "string")
  | .list .. => some (name == "array")
  | .object .. => some (name == "object")
  | .broken _ => none

/-- The types that a keyword allows. -/
def typeNames : Value → List String
  | .text name => [name]
  | .list items => items.filterMap fun
    | .text name => some name
    | _ => none
  | _ => []

/-- The value is the given one. The document compares with texts only. -/
def equals (v : Value) (d : Draft) : Verdict :=
  match v, d with
  | .text a, .text b => some (b == some a)
  | .text _, _ => some false
  | _, _ => none

/-- The number is related to a bound. Whoever is no number is not bound. -/
def bounded (wholes : Int → Int → Bool) (doubles : Float → Float → Bool) (bound : Value) (d : Draft) : Verdict :=
  match bound, d with
  | .number (.whole b), .number (some (.whole n)) => some (wholes b n)
  | .number (.whole b), .number (some (.double x)) => some (doubles (.ofInt b) x)
  | _, .number _ => none
  | _, _ => some true

/-- The part of the document that a reference points to. -/
def target? (document : Value) (reference : String) : Option Value :=
  match reference.toList with
  | ['#'] => some document
  | '#' :: '/' :: pointer => (pointer.splitOn '/').foldl
      (fun v step => v.bind fun v => v.child? (String.ofList (Json.unescapeStep step))) (some document)
  | _ => none

/-- The names that the properties of a schema have. -/
def declared (keywords : Keywords) : List String :=
  match keywords.lookup "properties" with
  | some (.object properties) => properties.map Prod.fst
  | _ => []

/-- The keywords that say something of a value. -/
inductive Assertion where
  | type
  | const
  | enum
  | minimum
  | maximum
  | required
  | properties
  | additionalProperties
  | items
  | ref
  | anyOf
  | oneOf
  deriving DecidableEq, Repr

/-- The other keywords of the document only describe. -/
def Assertion.ofName? (name : String) : Option Assertion :=
  [("type", type), ("const", const), ("enum", enum), ("minimum", minimum), ("maximum", maximum),
    ("required", required), ("properties", properties), ("additionalProperties", additionalProperties),
    ("items", items), ("$ref", ref), ("anyOf", anyOf), ("oneOf", oneOf)].lookup name

/-- Whether a value is as a keyword says; `judge` is the verdict of the schemas in it, and `names` are
declared beside it. -/
def Assertion.holds (judge : Value → Draft → Verdict) (document : Value) (names : List String) (v : Value)
    (d : Draft) : Assertion → Verdict
  | type => .any ((typeNames v).map (hasType · d))
  | const => equals v d
  | enum =>
    match v with
    | .list values => .any (values.map (equals · d))
    | _ => none
  | minimum => bounded (fun b n => b ≤ n) (fun b x => b ≤ x) v d
  | maximum => bounded (fun b n => n ≤ b) (fun b x => x ≤ b) v d
  | required =>
    match v, d with
    | .list wanted, .object members _ => some (wanted.all fun
        | .text name => (member? members name).isSome
        | _ => false)
    | _, _ => some true
  | properties =>
    match v, d with
    | .object schemas, .object members _ => .every (schemas.map fun (name, schema) =>
        ((member? members name).map (judge schema)).getD (some true))
    | _, _ => some true
  | additionalProperties =>
    match d with
    | .object members _ => .every ((effective members).map fun (name, d) =>
        if name.any names.contains then some true else judge v d)
    | _ => some true
  | items =>
    match d with
    | .list elements _ => .every (elements.map (judge v))
    | _ => some true
  | ref =>
    match v with
    | .text reference => (target? document reference).bind (judge · d)
    | _ => none
  | anyOf =>
    match v with
    | .list schemas => .any (schemas.map (judge · d))
    | _ => none
  | oneOf =>
    match v with
    | .list schemas => .one (schemas.map (judge · d))
    | _ => none

/-- The verdict of one keyword. -/
def keyword (judge : Value → Draft → Verdict) (document : Value) (names : List String) (name : String)
    (v : Value) (d : Draft) : Verdict :=
  match Assertion.ofName? name with
  | some assertion => assertion.holds judge document names v d
  | none => some true

/-- What a schema of a document says of a value. -/
def judge (document : Value) : Nat → Value → Draft → Verdict
  | depth + 1, .object keywords, d => .every (keywords.map fun (name, v) =>
      keyword (judge document depth) document (declared keywords) name v d)
  | _ + 1, .bool b, _ => some b
  | _, _, _ => none

/-- The published schema allows a value. -/
def Valid (d : Draft) : Prop := ∃ depth, judge document depth document d = some true

/-! ## Deeper looks -/

namespace Verdict

/-- A verdict that was reached stays. -/
def Below (v w : Verdict) : Prop := ∀ b, v = some b → w = some b

theorem Below.refl (v : Verdict) : v.Below v := fun _ same => same

variable {α : Type} {f g : α → Verdict} {l : List α}

theorem every_eq_true {verdicts : List Verdict} : every verdicts = some true ↔ ∀ v ∈ verdicts, v = some true := by
  unfold every
  constructor
  · intro holds v member
    split_ifs at holds with refused open_
    · cases holds
    rcases v with _ | _ | _
    · exact absurd member open_
    · exact absurd member refused
    · rfl
  · intro all
    have never : ∀ w, w ≠ some true → w ∉ verdicts := fun w differ member => differ (all w member)
    rw [if_neg (never (some false) (by decide)), if_neg (never none (by decide))]

theorem every_eq_false {verdicts : List Verdict} : every verdicts = some false ↔ some false ∈ verdicts := by
  unfold every
  split_ifs <;> simp_all

theorem any_eq_true {verdicts : List Verdict} : any verdicts = some true ↔ some true ∈ verdicts := by
  unfold any
  split_ifs <;> simp_all

theorem any_eq_false {verdicts : List Verdict} : any verdicts = some false ↔ ∀ v ∈ verdicts, v = some false := by
  unfold any
  constructor
  · intro fails v member
    split_ifs at fails with holds open_
    · cases fails
    rcases v with _ | _ | _
    · exact absurd member open_
    · rfl
    · exact absurd member holds
  · intro all
    have never : ∀ w, w ≠ some false → w ∉ verdicts := fun w differ member => differ (all w member)
    rw [if_neg (never (some true) (by decide)), if_neg (never none (by decide))]

theorem every_mono (below : ∀ a ∈ l, (f a).Below (g a)) : (every (l.map f)).Below (every (l.map g)) := by
  rintro (_ | _) reached
  · rw [every_eq_false, List.mem_map] at reached ⊢
    obtain ⟨a, member, fails⟩ := reached
    exact ⟨a, member, below a member _ fails⟩
  · rw [every_eq_true, List.forall_mem_map] at reached ⊢
    exact fun a member => below a member _ (reached a member)

theorem any_mono (below : ∀ a ∈ l, (f a).Below (g a)) : (any (l.map f)).Below (any (l.map g)) := by
  rintro (_ | _) reached
  · rw [any_eq_false, List.forall_mem_map] at reached ⊢
    exact fun a member => below a member _ (reached a member)
  · rw [any_eq_true, List.mem_map] at reached ⊢
    obtain ⟨a, member, holds⟩ := reached
    exact ⟨a, member, below a member _ holds⟩

theorem one_mono (below : ∀ a ∈ l, (f a).Below (g a)) : (one (l.map f)).Below (one (l.map g)) := by
  intro b reached
  unfold one at reached
  split_ifs at reached with open_
  have same : l.map g = l.map f := List.map_congr_left fun a member => by
    rcases first : f a with _ | b
    · exact absurd (List.mem_map.mpr ⟨a, member, first⟩) open_
    · exact below a member b first
  rw [one, same, if_neg open_]
  exact reached

end Verdict

open Verdict

variable {document : Value} {names : List String} {name : String} {v : Value} {d : Draft}

theorem Assertion.holds_mono {judge judge' : Value → Draft → Verdict}
    (below : ∀ v d, (judge v d).Below (judge' v d)) (assertion : Assertion) :
    (assertion.holds judge document names v d).Below (assertion.holds judge' document names v d) := by
  cases assertion with
  | type | const | enum | minimum | maximum | required => exact .refl _
  | properties =>
    simp only [holds]
    split
    · rename_i schemas members cut
      refine every_mono fun (name, schema) _ => ?_
      dsimp only
      rcases member? members name with _ | d
      · exact .refl _
      · exact below schema d
    · exact .refl _
  | additionalProperties =>
    simp only [holds]
    split
    · refine every_mono fun (name, d) _ => ?_
      dsimp only
      split_ifs
      · exact .refl _
      · exact below v d
    · exact .refl _
  | items =>
    simp only [holds]
    split
    · exact every_mono fun d _ => below v d
    · exact .refl _
  | ref =>
    simp only [holds]
    split
    · rename_i reference
      rcases target? document reference with _ | schema
      · exact .refl _
      · exact below schema d
    · exact .refl _
  | anyOf =>
    simp only [holds]
    split
    · exact any_mono fun schema _ => below schema d
    · exact .refl _
  | oneOf =>
    simp only [holds]
    split
    · exact one_mono fun schema _ => below schema d
    · exact .refl _

theorem keyword_mono {judge judge' : Value → Draft → Verdict} (below : ∀ v d, (judge v d).Below (judge' v d)) :
    (keyword judge document names name v d).Below (keyword judge' document names name v d) := by
  unfold keyword
  split
  · exact Assertion.holds_mono below _
  · exact .refl _

theorem judge_succ (depth : Nat) (v : Value) (d : Draft) :
    (judge document depth v d).Below (judge document (depth + 1) v d) := by
  induction depth generalizing v d with
  | zero =>
    intro b reached
    cases v <;> simp [judge] at reached
  | succ depth ih =>
    cases v with
    | object keywords => exact every_mono fun (name, v) _ => keyword_mono ih
    | _ => exact .refl _

/-- A deeper look finds the same. -/
theorem judge_mono {depth depth' : Nat} (deeper : depth ≤ depth') (v : Value) (d : Draft) :
    (judge document depth v d).Below (judge document depth' v d) := by
  induction deeper with
  | refl => exact .refl _
  | step _ ih => exact fun b reached => judge_succ _ v d b (ih b reached)

end Screenplay.Schema
