import Screenplay.Proofs.Allowing
import Screenplay.Proofs.Edits
import Screenplay.Proofs.Supplying
import Screenplay.Scenario.Load

/-!
Readers that stay within a schema: it allows whatever they take of a document in object form
(`Schema.Within`). A record does if each of its fields does (`Schema.Describes`), and a variant of a tagged
union if an alternative of the schema goes with it (`Schema.Mirrors`).
-/
namespace Screenplay
open Json
open Draft (find Once)

variable {α β : Type}

/-! ## Object form -/

/-- The members that choose from a list of names, by the tag of the object. -/
def Form.choices (form : Form) (tag : Option Draft) : List String :=
  ((form.known tag).map Member.name).filter (· ∈ ["type", "button", "level", "operator", "probe"])

/-- A document is in object form if everything that has members of its own is an object; `chosen` says
how choices may be written. -/
inductive ObjectForm (chosen : Draft → Prop) : Form → Draft → Prop where
  | foreign (d : Draft) : ObjectForm chosen .foreign d
  | null (form : Form) : ObjectForm chosen form .null
  | actions {items : List Draft} {cut : Option Json.Break} (each : ∀ d ∈ items, ObjectForm chosen .action d) :
    ObjectForm chosen .actions (.list items cut)
  | templates {members : List (Option String × Draft)} {cut : Option Json.Break}
    (each : ∀ m ∈ members, ObjectForm chosen .template m.2) : ObjectForm chosen .templates (.object members cut)
  | model {form : Form} {members : List (Option String × Draft)} {cut : Option Json.Break}
    (model : form.isModel = true)
    (choices : ∀ m ∈ members, m.1 ∈ (form.choices (find members "type")).map some → chosen m.2)
    (each : ∀ m ∈ members, ObjectForm chosen (form.ofMember (find members "type") m.1) m.2) :
    ObjectForm chosen form (.object members cut)

/-- A choice is written as a name, but not as the other name of a click; or it is left open. -/
def Json.Draft.Named : Draft → Prop
  | .null => True
  | .text (some name) => name ≠ "tap"
  | _ => False

instance : DecidablePred Draft.Named
  | .null => .isTrue trivial
  | .text (some name) => inferInstanceAs (Decidable (name ≠ "tap"))
  | .text none | .bool _ | .number _ | .list .. | .object .. | .broken _ => .isFalse id

theorem Json.Draft.Named.cases {d : Draft} (named : d.Named) :
    d = .null ∨ ∃ name, name ≠ "tap" ∧ d = .text (some name) := by
  rcases d with _ | _ | _ | (_ | name) | _ | _ | _
  case null => exact .inl rfl
  case text.some => exact .inr ⟨name, named, rfl⟩
  all_goals cases named

/-- What a member of an object may be, by its name and the tag of the object. -/
def Form.Writes (form : Form) (tag : Option Draft) (name : String) (d : Draft) : Prop :=
  ObjectForm Draft.Named (form.ofMember tag (some name)) d ∧ (name ∈ form.choices tag → d.Named)

variable {members : List (Option String × Draft)} {cut cut' : Option Json.Break} {form : Form} {tag : Option Draft}

theorem ObjectForm.of_model {d : Draft} (model : form.isModel = true) (written : ObjectForm Draft.Named form d) :
    d = .null ∨ ∃ members cut, d = .object members cut ∧
      ∀ name d, (some name, d) ∈ members → form.Writes (find members "type") name d := by
  cases written with
  | foreign | actions | templates => cases model
  | null => exact .inl rfl
  | model _ choices each =>
    refine .inr ⟨_, _, rfl, fun name d member => ⟨each _ member, fun choice => choices _ member ?_⟩⟩
    exact List.mem_map_of_mem choice

namespace Schema

/-! ## Decoders -/

/-- A schema allows what a decoder takes, if it is written so. -/
def Within (of : Draft → Prop) (dec : Decoder α) (keywords : Keywords) : Prop :=
  ∀ s d a, of d → dec s d = .ok a → Allows keywords d

variable {of of' : Draft → Prop} {dec : Decoder α} {keywords : Keywords} {name : String} {d : Draft}

theorem map_ok {ε : Type} {f : α → β} {x : Except ε α} {b : β} (mapped : x.map f = .ok b) :
    ∃ a, x = .ok a ∧ f a = b := by
  cases x with
  | error => cases mapped
  | ok a => exact ⟨a, rfl, Except.ok.inj mapped⟩

namespace Within

theorem mono (within : Within of' dec keywords) (weaker : ∀ d, of d → of' d) : Within of dec keywords :=
  fun s d a written => within s d a (weaker d written)

theorem describe {text : String} (within : Within of dec keywords) : Within of dec (describe text keywords) :=
  fun s d a written decoded => allows_describe.mpr (within s d a written decoded)

theorem withDefault {v : Value} (within : Within of dec keywords) : Within of dec (withDefault v keywords) :=
  fun s d a written decoded => allows_withDefault.mpr (within s d a written decoded)

theorem reference (within : Within of dec keywords) (defined : definitions.lookup name = some keywords) :
    Within of dec (reference name) :=
  fun s d a written decoded => allows_reference (mem_of_lookup defined) (within s d a written decoded)

/-- What is optional may be `null`, in the schema as in the decoder. -/
theorem optional (within : Within of dec keywords) (open_ : Allows (optional keywords) .null := by exact ⟨2, rfl⟩) :
    Within of (.optional dec) (optional keywords) := by
  intro s d a written decoded
  cases d with
  | null => exact open_
  | _ =>
    obtain ⟨b, decoded, -⟩ := map_ok decoded
    exact allows_withDefault.mpr (allows_nullable (within s _ b written decoded))

theorem value : Within of .value [] := fun _ _ _ _ _ => allows_nothing

theorem bool : Within of .bool boolean := by
  rintro s d a - decoded
  cases d with
  | bool => exact allows_iff.mpr (meets_type rfl)
  | _ => cases decoded

theorem string : Within of .string string := by
  rintro s d a - decoded
  rcases d with _ | _ | _ | (_ | _) | _ | _ | _
  case text.some => exact allows_iff.mpr (meets_type rfl)
  all_goals cases decoded

theorem double : Within of .double double := by
  rintro s d a - decoded
  have typed : hasType "number" d = some true := by
    rcases d with _ | _ | (_ | _ | _) | _ | _ | _ | _
    case number.some.whole => rfl
    case number.some.double => simp [hasType]
    all_goals cases decoded
  exact allows_iff.mpr (meets_append.mpr ⟨meets_type typed, meets_describing rfl⟩)

theorem whole {format : String} {least greatest : Option Nat} {low high : Int} {f : Int → α}
    (above : ∀ b ∈ least, (b : Int) ≤ low) (below : ∀ b ∈ greatest, high ≤ (b : Int)) :
    Within of (fun s d => (Decoder.whole low high s d).map f) (whole format least greatest) := by
  rintro s d a - decoded
  obtain ⟨n, decoded, -⟩ := map_ok decoded
  rcases d with _ | _ | (_ | n | _) | _ | _ | _ | _
  case number.some.whole =>
    by_cases bounds : low ≤ n ∧ n ≤ high
    · exact allows_whole (fun b bound => (above b bound).trans bounds.1) fun b bound => bounds.2.trans (below b bound)
    · rw [Decoder.whole, if_neg bounds] at decoded
      cases decoded
  all_goals cases decoded

theorem byte : Within of .byte byte := whole (by simp) (by simp [UInt8.size])

theorem word : Within of .word word := whole (by simp) (by simp)

theorem longWord : Within of .longWord longWord := whole (by simp) (by simp)

theorem size : Within of .longWord size := whole (by simp) (by simp)

theorem integer : Within of .integer integer := whole (by simp) (by simp)

/-- A choice that is written as a name. -/
theorem choice {names : List (String × α)} : Within Draft.Named (.choice names) (choice (names.map Prod.fst)) := by
  intro s d a written decoded
  obtain rfl | ⟨name, -, rfl⟩ := written.cases
  · obtain ⟨room, origin⟩ := s
    cases origin <;> cases decoded
  · have named : Decoder.named names name = .ok a := decoded
    rcases found : names.lookup name with _ | b
    · rw [Decoder.named, found] at named
      cases named
    · obtain ⟨before, after, rfl, -⟩ := List.lookup_eq_some_iff.mp found
      exact allows_choice (by simp)

/-- What was read is allowed. -/
theorem allows (within : Within of dec keywords) (written : of d) (reads : ∃ s a, dec s d = .ok a) :
    Allows keywords d := by
  obtain ⟨s, a, decoded⟩ := reads
  exact within s d a written decoded

theorem actions (within : Within (ObjectForm Draft.Named .action) dec keywords) :
    Within (ObjectForm Draft.Named .actions) (.list dec) (listOf keywords) := by
  intro s d values written decoded
  cases written with
  | null => cases decoded
  | model model => cases model
  | actions each =>
    have reads := Decoder.reads_of_list decoded
    exact allows_listOf fun d member => within.allows (each d member) (reads d member)

theorem templates (within : Within (ObjectForm Draft.Named .template) dec keywords) :
    Within (ObjectForm Draft.Named .templates) (.table dec)
      (ofType "object" ++ [("additionalProperties", .object keywords)]) := by
  intro s d entries written decoded
  cases written with
  | null => cases decoded
  | model model => cases model
  | templates each =>
    have reads := Decoder.reads_of_table decoded
    refine allows_iff.mpr (meets_append.mpr ⟨meets_type rfl, meets_additional fun m member => ?_⟩)
    exact within.allows (each m member) (reads m member)

/-- A member that has a form of its own. -/
theorem formed {form' : Form} (within : Within (ObjectForm Draft.Named form') dec keywords)
    (same : form.ofMember tag (some name) = form') : Within (form.Writes tag name) dec keywords :=
  within.mono fun _ written => same ▸ written.1

/-- A member that is a choice. -/
theorem chosen (within : Within Draft.Named dec keywords) (listed : name ∈ form.choices tag) :
    Within (form.Writes tag name) dec keywords :=
  within.mono fun _ written => written.2 listed

end Within

/-! ## Records -/

/-- The properties of a schema go with the fields of a record. -/
inductive Describes (of : String → Draft → Prop) : {types : List Type} → Fields types → List Property → Prop where
  | nil : @Describes of [] () []
  | required {α : Type} {dec : Decoder α} {types : List Type} {fields : Fields types} {properties : List Property}
    {name : String} {keywords : Keywords} (within : Within (of name) dec keywords)
    (later : Describes of fields properties) :
    @Describes of (α :: types) (.required name dec, fields) (required name keywords :: properties)
  | open_ {α : Type} {field : Json.Field α} {types : List Type} {fields : Fields types} {properties : List Property}
    {keywords : Keywords} (within : Within (of field.name) field.decoder keywords)
    (later : Describes of fields properties) :
    @Describes of (α :: types) (field, fields) (⟨field.name, keywords, false⟩ :: properties)

variable {types : List Type} {fields : Fields types} {properties : List Property} {names : List String}

theorem Describes.names_eq {of : String → Draft → Prop} (describes : Describes of fields properties) :
    fields.names = properties.map Property.name := by
  induction describes with
  | nil => rfl
  | required _ _ ih | open_ _ _ ih => rw [Fields.names, ih]; rfl

/-- The members that supply the fields fulfil the properties. -/
theorem Describes.fulfils {of : String → Draft → Prop} (describes : Describes of fields properties)
    (written : ∀ name d, (some name, d) ∈ members → of name d) (supplied : Record.Supplied members fields) :
    ∀ p ∈ properties, p.Fulfilled members := by
  induction describes with
  | nil => exact nofun
  | required within _ ih =>
    obtain ⟨reads, present, later⟩ := supplied
    refine List.forall_mem_cons.mpr ⟨⟨fun d member => ?_, fun _ => present rfl⟩, ih later⟩
    exact within.allows (written _ d member) (reads d member)
  | open_ within _ ih =>
    obtain ⟨reads, -, later⟩ := supplied
    refine List.forall_mem_cons.mpr ⟨⟨fun d member => ?_, nofun⟩, ih later⟩
    exact within.allows (written _ d member) (reads d member)

/-- A record whose members do not depend on a tag. -/
theorem Within.record {f : Row types → α} (model : form.isModel = true)
    (describes : ∀ tag, Describes (form.Writes tag) fields properties)
    (declared : (properties.map Property.name).Nodup) :
    Within (ObjectForm Draft.Named form) (Record.make fields f) (object properties) := by
  intro s d a written decoded
  obtain ⟨row, decoded, -⟩ := map_ok decoded
  obtain rfl | ⟨members, cut, rfl, writes⟩ := written.of_model model
  · cases decoded
  · rw [← (describes none).names_eq] at declared
    have supplied := Record.supplied_of_decoder declared decoded
    exact allows_iff.mpr (meets_object ((describes _).fulfils writes supplied))

/-! ## Alternatives -/

/-- The object has one tag, this name. -/
def Tagged (kind : String) (members : List (Option String × Draft)) : Prop :=
  Once members "type" ∧ find members "type" = some (.text (some kind))

theorem Tagged.member_eq {kind : String} (tagged : Tagged kind members) :
    member? members "type" = some (.text (some kind)) :=
  Schema.member_eq (Draft.mem_of_find_eq_some tagged.2) fun d member =>
    Option.some.inj ((tagged.1 d member).symm.trans tagged.2)

theorem Tagged.fulfils {kind : String} (tagged : Tagged kind members) : (Schema.tag kind).Fulfilled members := by
  refine ⟨fun d member => ?_, fun _ => ⟨_, Draft.mem_of_find_eq_some tagged.2⟩⟩
  obtain rfl := Option.some.inj ((tagged.1 d member).symm.trans tagged.2)
  refine allows_iff.mpr (meets_append.mpr ⟨meets_type rfl, ?_⟩)
  exact meets_assertion .const 0 rfl (by simp [Assertion.holds, equals])

/-- The members that are taken away before a variant is read. -/
def outer : List String := ["type", "operator", "value"]

/-- An alternative of the schema goes with a variant: it asks for its tag and allows the objects that the
variant is read from, whatever members were taken away that are not its own. -/
structure Mirrors (form : Form) (kind : String) (variant : Decoder α) (keywords : Keywords) : Prop where
  asks : tagName keywords = some kind
  allows : ∀ {s : Setting} {a : α} {f : Option String → Bool} {members : List (Option String × Draft)}
    {cut : Option Json.Break}, (∀ name ∉ outer, f (some name) = true) → Tagged kind members →
    (∀ name d, (some name, d) ∈ members → form.Writes (some (.text (some kind))) name d) →
    variant s (.object (members.filter fun m => f m.1) none) = .ok a → Allows keywords (.object members cut)

variable {kind : String} {variant : Decoder α} {g : Row types → β}

theorem supplied_of_make {of : String → Draft → Prop} (describes : Describes of fields properties)
    (apart : (outer ++ properties.map Property.name).Nodup) {f : Option String → Bool} {s : Setting} {b : β}
    (passes : ∀ name ∉ outer, f (some name) = true)
    (decoded : Record.make fields g s (.object (members.filter fun m => f m.1) none) = .ok b) :
    Record.Supplied members fields := by
  obtain ⟨row, decoded, -⟩ := map_ok decoded
  rw [← describes.names_eq] at apart
  obtain ⟨-, declared, differ⟩ := List.nodup_append.mp apart
  refine Record.supplied_of_filter (fun name field => passes name fun member => ?_)
    (Record.supplied_of_decoder declared decoded)
  exact differ name member name field rfl

namespace Mirrors

theorem map {f : α → β} (mirrors : Mirrors form kind variant keywords) :
    Mirrors form kind (fun s d => (variant s d).map f) keywords where
  asks := mirrors.asks
  allows := by
    intro s a f members cut passes tagged written decoded
    obtain ⟨a, decoded, -⟩ := map_ok decoded
    exact mirrors.allows passes tagged written decoded

theorem describe {text : String} (mirrors : Mirrors form kind variant keywords) :
    Mirrors form kind variant (describe text keywords) where
  asks := mirrors.asks
  allows := fun passes tagged written decoded =>
    allows_describe.mpr (mirrors.allows passes tagged written decoded)

/-- The members of the variant stand beside the tag. -/
theorem own (describes : Describes (form.Writes (some (.text (some kind)))) fields properties)
    (apart : (outer ++ properties.map Property.name).Nodup) :
    Mirrors form kind (Record.make fields g) (object (Schema.tag kind :: properties)) where
  asks := rfl
  allows := by
    intro s a f members cut passes tagged written decoded
    have supplied := supplied_of_make describes apart passes decoded
    have fulfilled := describes.fulfils written supplied
    exact allows_iff.mpr (meets_object (List.forall_mem_cons.mpr ⟨tagged.fulfils, fulfilled⟩))

/-- The members of the variant are defined under a name. -/
theorem shared {definition : String} (defined : definitions.lookup definition = some keywords)
    (same : ∀ d, Allows (object properties) d → Allows keywords d)
    (describes : Describes (form.Writes (some (.text (some kind)))) fields properties)
    (apart : (outer ++ properties.map Property.name).Nodup) :
    Mirrors form kind (Record.make fields g) (tagged kind definition) where
  asks := rfl
  allows := by
    intro s a f members cut passes tagged written decoded
    have supplied := supplied_of_make describes apart passes decoded
    have allows := same (.object members cut) (allows_iff.mpr (meets_object (describes.fulfils written supplied)))
    exact allows_iff.mpr (meets_append.mpr ⟨meets_reference (mem_of_lookup defined) allows,
      meets_object (List.forall_mem_singleton.mpr tagged.fulfils)⟩)

end Mirrors

variable {v : Variants α} {choices : List Keywords}

theorem of_select {s : Setting} (selected : v.select s (.text (some name)) = .ok variant) :
    ∃ i, (name, i) ∈ v.names ∧ v.ordered[i]? = some variant := by
  simp only [Variants.select] at selected
  split at selected
  · rename_i found
    cases selected
    obtain ⟨i, listed, found⟩ := Option.bind_eq_some_iff.mp found
    exact ⟨i, mem_of_lookup listed, found⟩
  · cases selected

/-- An object that is read as a tagged union meets one of the alternatives that go with its variants. -/
theorem meets_union {s : Setting} {a : α} {f : Option String → Bool} {rest : List (Option String × Draft)}
    (asking : ∀ c ∈ choices, (tagName c).isSome = true) (distinct : (choices.map tagName).Nodup)
    (mirrors : ∀ {kind i variant}, (kind, i) ∈ v.names → kind ≠ "tap" → v.ordered[i]? = some variant →
      ∃ c, choices[i]? = some c ∧ Mirrors form kind variant c)
    (chooses : ∀ tag, "type" ∈ form.choices tag)
    (written : ∀ name d, (some name, d) ∈ members → form.Writes (find members "type") name d)
    (filtered : rest = members.filter fun m => f m.1) (tags : f (some "type") = true)
    (passes : ∀ name ∉ outer, f (some name) = true) (decoded : v.decoder s (.object rest cut') = .ok a) :
    Meets names [("oneOf", .list (choices.map .object))] (.object members cut) := by
  subst filtered
  obtain ⟨once, s', tag, variant, found, selected, chosen⟩ := Variants.of_decoder decoded
  rw [Draft.find_filter tags] at found
  have once' : Once members "type" := fun d member => by
    rw [← Draft.find_filter tags]
    exact once d (List.mem_filter.mpr ⟨member, tags⟩)
  have named : tag.Named := (written _ tag (Draft.mem_of_find_eq_some found)).2 (chooses _)
  obtain rfl | ⟨kind, original, rfl⟩ := named.cases
  · cases selected
  obtain ⟨i, listed, ordered⟩ := of_select selected
  obtain ⟨keywords, choice, mirror⟩ := mirrors listed original ordered
  have tagged : Tagged kind members := ⟨once', found⟩
  rw [found] at written
  rw [Variants.untagged, List.filter_filter] at chosen
  have passes' : ∀ name ∉ outer, (decide (some name ≠ some "type") && f (some name)) = true := by
    intro name inner
    have other : name ≠ "type" := fun same => inner (by simp [outer, same])
    simp [other, passes name inner]
  exact meets_oneOf asking distinct (List.mem_of_getElem? choice) mirror.asks tagged.member_eq
    (mirror.allows (f := fun own => own ≠ some "type" && f own) passes' tagged written chosen)

end Schema

end Screenplay
