import Screenplay.Proofs.Conditions
import Screenplay.Proofs.Edits
import Screenplay.Proofs.Tables

/-!
One object before and after an edit. Every record is read by its members of certain names, a union by its
tag and the members that go with the tag. So the same is read from both objects, or nothing from either,
if these members are alike and what else is there can be read over in both or in neither
(`ReadsBy.agrees`, `Tags.agrees`, `Condition.agrees`).
-/
namespace Screenplay
open Json Member

variable {α : Type}

namespace Json

/-- A decoder reads the same from both drafts, or nothing from either. -/
def Decoder.Agrees (dec : Decoder α) (s : Setting) (d d' : Draft) : Prop :=
  (dec s d).toOption = (dec s d').toOption

/-- A list, or an object that has members. -/
def Draft.Full : Draft → Prop
  | .list .. => True
  | .object (_ :: _) _ => True
  | _ => False

/-- The decoder takes neither lists nor objects, but for an empty one. -/
def Decoder.Flat (dec : Decoder α) : Prop := ∀ s d, d.Full → (dec s d).toOption = none

end Json

/-! ## Who reads what -/

/-- The decoders that read a form. -/
inductive Form.Reads : Form → {α : Type} → Decoder α → Prop where
  | flat {α : Type} {dec : Decoder α} (flat : dec.Flat) : Reads .foreign dec
  | choice {α : Type} {names : List (String × α)} : Reads .foreign (.choice names)
  | device : Reads .foreign Decoder.normal
  | actions {α : Type} {dec : Decoder α} (reads : Reads .action dec) : Reads .actions (.list dec)
  | templates : Reads .templates (.table TemplateFile.decoder)
  | nested {depth : Nat} : Reads .action (Action.nested depth)
  | action : Reads .action Action.decoder
  | condition : Reads .condition Condition.decoder
  | options : Reads .options RunOptions.decoder
  | matcher : Reads .matcher CacheSettings.decoder
  | template : Reads .template TemplateFile.decoder
  | point : Reads .point Point.decoder
  | scenario : Reads .scenario Scenario.decoder

/-- The field that a member is read by. -/
inductive Member.Describes : Member → {α : Type} → Json.Field α → Prop where
  | plain {α : Type} {field : Json.Field α} {name : String} {form : Form} (reads : form.Reads field.decoder)
    (same : field.name = name) : Describes ⟨name, form, false⟩ field
  | optional {α : Type} {dec : Decoder α} {name : String} {form : Form} (reads : form.Reads dec) :
    Describes ⟨name, form, true⟩ (.optional name dec)

theorem Member.Describes.name_eq {m : Member} {field : Json.Field α} (describes : m.Describes field) :
    field.name = m.name := by
  cases describes with
  | plain reads same => exact same
  | optional reads => rfl

/-- The fields that some members are read by, in the same order. -/
def DescribedBy : {types : List Type} → Fields types → List Member → Prop
  | [], _, members => members = []
  | _ :: _, (field, fields), members =>
    ∃ m rest, members = m :: rest ∧ m.Describes field ∧ DescribedBy fields rest

/-- Objects are read by their members of certain names. -/
def ReadsBy (known : List Member) (dec : Decoder α) : Prop :=
  ∃ (types : List Type) (fields : Fields types) (f : Row types → α), DescribedBy fields known ∧
    fields.names.Nodup ∧ ∀ room origin members, Draft.Distinct members →
      (dec ⟨room + 1, origin⟩ (.object members none)).toOption =
        (Record.decoder fields ⟨room + 1, origin⟩ (.object members none)).toOption.map f

/-! ## What an edit leaves alike -/

/-- The member of a name before and after an edit. -/
inductive Alike (room : Nat) (m : Member) : Option Draft → Option Draft → Prop where
  | same (x : Option Draft) : Alike room m x x
  | absent (optional : m.isOptional = true) : Alike room m none (some .null)
  | changed {d d' : Draft} (solid : d ≠ .null) (solid' : d' ≠ .null)
    (agrees : ∀ {α : Type} {dec : Decoder α}, m.form.Reads dec → ∀ origin,
      dec.Agrees ⟨room, origin⟩ d d') : Alike room m (some d) (some d')

section

open Draft (find Distinct Keeps)
open Record (Fits)

variable {room : Nat} {origin : Origin} {m : Member} {members members' : List (Option String × Draft)}

theorem Member.Describes.value_eq {field : Json.Field α} (describes : m.Describes field)
    (alike : Alike room m (find members m.name) (find members' m.name)) :
    Record.value ⟨room, origin⟩ (find members) field = Record.value ⟨room, origin⟩ (find members') field := by
  simp only [Record.value, describes.name_eq]
  generalize find members m.name = x, find members' m.name = x' at alike
  cases alike with
  | same => rfl
  | absent optional =>
    cases describes with
    | plain => cases optional
    | optional => rfl
  | @changed d d' solid solid' agrees =>
    cases describes with
    | plain reads => exact agrees reads origin
    | @optional _ dec _ _ reads =>
      have read {d : Draft} (solid : d ≠ .null) :
          Decoder.optional dec ⟨room, origin⟩ d = (dec ⟨room, origin⟩ d).map some := by
        cases d <;> first | rfl | exact absurd rfl solid
      show (Decoder.optional dec _ d).toOption = (Decoder.optional dec _ d').toOption
      rw [read solid, read solid', toOption_map, toOption_map, agrees reads origin]

theorem read_eq {types : List Type} {fields : Fields types} {known : List Member}
    (described : DescribedBy fields known)
    (alike : ∀ m ∈ known, Alike room m (find members m.name) (find members' m.name)) :
    Record.read ⟨room, origin⟩ (find members) fields = Record.read ⟨room, origin⟩ (find members') fields := by
  induction types generalizing known with
  | nil => rfl
  | cons _ types ih =>
    obtain ⟨field, fields⟩ := fields
    obtain ⟨m, rest, rfl, describes, described⟩ := described
    rw [List.forall_mem_cons] at alike
    rw [Record.read, Record.read, describes.value_eq alike.1, ih described alike.2]

/-- What is read by its members agrees if these are alike and all others are readable or not. -/
theorem ReadsBy.agrees {known : List Member} {dec : Decoder α} (reads : ReadsBy known dec)
    (distinct : Distinct members) (distinct' : Distinct members')
    (alike : ∀ m ∈ known, Alike room m (find members m.name) (find members' m.name))
    (fits : ∀ names, Fits names members ↔ Fits names members') :
    dec.Agrees ⟨room + 1, origin⟩ (.object members none) (.object members' none) := by
  obtain ⟨types, fields, f, described, declared, read⟩ := reads
  rw [Decoder.Agrees, read _ _ _ distinct, read _ _ _ distinct']
  congr 1
  ext row
  rw [toOption_eq_some, toOption_eq_some, Record.decoder_object declared distinct,
    Record.decoder_object declared distinct', fits, read_eq described alike]

/-! ## Tagged unions -/

/-- The members that go with a tag are listed, or there are none. -/
theorem taggedMembers_listed (names : List (String × Nat)) (known : List (List Member)) (tag : Option Draft) :
    taggedMembers names known tag ∈ [] :: known := by
  have one {x : Option (List Member)} (listed : ∀ members, x = some members → members ∈ known) :
      x.getD [] ∈ [] :: known := by
    cases x with
    | none => exact List.mem_cons_self
    | some members => exact List.mem_cons_of_mem _ (listed members rfl)
  unfold taggedMembers
  split
  · refine one fun members found => ?_
    obtain ⟨i, _, at_i⟩ := Option.bind_eq_some_iff.mp found
    exact List.mem_of_getElem? at_i
  · split
    · exact one fun members found => List.mem_of_getElem? found
    · exact List.mem_cons_self
  · exact List.mem_cons_self

/-- The variants are read by the members that go with their tags. -/
structure Tags (v : Variants α) (known : List (List Member)) : Prop where
  reads : List.Forall₂ ReadsBy known v.ordered
  untagged : ∀ members ∈ [] :: known, ∀ m ∈ members, m.name ≠ "type"

variable {v : Variants α} {known : List (List Member)} {tag : Draft} {variant : Decoder α} {s : Setting}

/-- A tag selects a decoder that reads by the members that go with the tag. -/
theorem Tags.selected (tags : Tags v known) (selects : v.select s tag = .ok variant) :
    ReadsBy (taggedMembers v.names known (some tag)) variant := by
  have one {i : Nat} (found : v.ordered[i]? = some variant) :
      ∃ members, known[i]? = some members ∧ ReadsBy members variant := by
    obtain ⟨bound, rfl⟩ := List.getElem?_eq_some_iff.mp found
    have bound' : i < known.length := tags.reads.length_eq ▸ bound
    exact ⟨known[i], List.getElem?_eq_getElem bound', tags.reads.get bound' bound⟩
  unfold Variants.select at selects
  split at selects
  · rename_i name
    split at selects
    · rename_i found
      cases selects
      obtain ⟨i, position, found⟩ := Option.bind_eq_some_iff.mp found
      obtain ⟨members, listed, reads⟩ := one found
      simpa only [taggedMembers, position, Option.bind_some, listed, Option.getD_some] using reads
    · cases selects
  · rename_i n
    split at selects
    · rename_i found
      cases selects
      split at found
      · rename_i positive
        obtain ⟨members, listed, reads⟩ := one found
        simpa only [taggedMembers, positive.2, if_true, listed, Option.getD_some] using reads
      · cases found
    · cases selects
  · cases selects

theorem Variants.select_flat : Decoder.Flat v.select := by
  intro s d full
  cases d <;> first | rfl | cases full

/-- A tagged union agrees if its tag and the members that go with it are alike, and the others can be
kept or not. -/
theorem Tags.agrees (tags : Tags v known) (distinct : Distinct members) (distinct' : Distinct members')
    (alike : ∀ m ∈ Member.plain "type" :: taggedMembers v.names known (find members "type"),
      Alike room m (find members m.name) (find members' m.name))
    (keeps : Keeps room (Variants.untagged members) ↔ Keeps room (Variants.untagged members')) :
    v.decoder.Agrees ⟨room + 1, origin⟩ (.object members none) (.object members' none) := by
  have selected (variant : Decoder α) :
      (∃ tag, find members "type" = some tag ∧ v.select ⟨room, origin⟩ tag = .ok variant) ↔
        ∃ tag, find members' "type" = some tag ∧ v.select ⟨room, origin⟩ tag = .ok variant := by
    have describes : (Member.plain "type").Describes (Field.required "type" v.select) :=
      .plain (.flat Variants.select_flat) rfl
    have same : Record.value ⟨room, origin⟩ (find members) (Field.required "type" v.select) =
        Record.value ⟨room, origin⟩ (find members') (Field.required "type" v.select) :=
      describes.value_eq (alike _ List.mem_cons_self)
    have looked (members : List (Option String × Draft)) :
        (∃ tag, find members "type" = some tag ∧ v.select ⟨room, origin⟩ tag = .ok variant) ↔
          Record.value ⟨room, origin⟩ (find members) (Field.required "type" v.select) = some variant := by
      simp only [Record.value, Field.required]
      cases find members "type" <;> simp [toOption_eq_some]
    rw [looked, looked, same]
  rw [Decoder.Agrees]
  ext a
  rw [toOption_eq_some, toOption_eq_some, Variants.decoder_object distinct, Variants.decoder_object distinct',
    ← keeps]
  refine and_congr_right fun kept => ?_
  have reads (variant : Decoder α) (chosen : ∃ tag, find members "type" = some tag ∧
      v.select ⟨room, origin⟩ tag = .ok variant) :
      variant.Agrees ⟨room + 1, .member⟩ (.object (Variants.untagged members) none)
        (.object (Variants.untagged members') none) := by
    obtain ⟨tag, found, selects⟩ := chosen
    rw [found] at alike
    refine (tags.selected selects).agrees distinct.filter distinct'.filter (fun m member => ?_)
      fun names => iff_of_true (kept.fits names) ((keeps.mp kept).fits names)
    have passes : decide (some m.name ≠ some "type") = true := by
      simpa using tags.untagged _ (taggedMembers_listed ..) m member
    have filtered (members : List (Option String × Draft)) :
        find (Variants.untagged members) m.name = find members m.name :=
      Draft.find_filter (f := fun name => decide (name ≠ some "type")) passes
    rw [filtered, filtered]
    exact alike m (List.mem_cons_of_mem _ member)
  constructor
  · rintro ⟨tag, variant, found, selects, read⟩
    have agrees := reads variant ⟨tag, found, selects⟩
    obtain ⟨tag', found', selects'⟩ := (selected variant).mp ⟨tag, found, selects⟩
    exact ⟨tag', variant, found', selects', toOption_eq_some.mp (agrees ▸ toOption_eq_some.mpr read)⟩
  · rintro ⟨tag', variant, found', selects', read⟩
    obtain ⟨tag, found, selects⟩ := (selected variant).mpr ⟨tag', found', selects'⟩
    have agrees := reads variant ⟨tag, found, selects⟩
    exact ⟨tag, variant, found, selects, toOption_eq_some.mp (agrees ▸ toOption_eq_some.mpr read)⟩

/-! ## The decoders of a scenario -/

theorem DescribedBy.names_eq {types : List Type} {fields : Fields types} {known : List Member}
    (described : DescribedBy fields known) : fields.names = known.map Member.name := by
  induction types generalizing known with
  | nil => rw [show known = [] from described]; rfl
  | cons _ types ih =>
    obtain ⟨field, fields⟩ := fields
    obtain ⟨m, rest, rfl, describes, described⟩ := described
    rw [Fields.names, List.map_cons, describes.name_eq, ih described]

theorem ReadsBy.make {types : List Type} {fields : Fields types} {known : List Member} {f : Row types → α}
    (described : DescribedBy fields known) (declared : (known.map Member.name).Nodup) :
    ReadsBy known (Record.make fields f) :=
  ⟨types, fields, f, described, described.names_eq ▸ declared, fun _ _ _ _ => toOption_map ..⟩

theorem ReadsBy.map {β : Type} {known : List Member} {dec : Decoder α} {f : α → β} (reads : ReadsBy known dec) :
    ReadsBy known fun s d => (dec s d).map f := by
  obtain ⟨types, fields, g, described, declared, read⟩ := reads
  refine ⟨types, fields, f ∘ g, described, declared, fun room origin members distinct => ?_⟩
  rw [toOption_map, read room origin members distinct, Option.map_map]

namespace Form.Reads

theorem of_rejects {dec : Decoder α} (lists : ∀ s items cut, (dec s (.list items cut)).toOption = none)
    (objects : ∀ s members cut, (dec s (.object members cut)).toOption = none) : Reads .foreign dec :=
  .flat fun s d full => by
    cases d with
    | list items cut => exact lists s items cut
    | object members cut => exact objects s members cut
    | _ => cases full

theorem bool : Reads .foreign Decoder.bool := of_rejects (fun _ _ _ => rfl) fun _ _ _ => rfl
theorem string : Reads .foreign Decoder.string := of_rejects (fun _ _ _ => rfl) fun _ _ _ => rfl
theorem byte : Reads .foreign Decoder.byte := of_rejects (fun _ _ _ => rfl) fun _ _ _ => rfl
theorem word : Reads .foreign Decoder.word := of_rejects (fun _ _ _ => rfl) fun _ _ _ => rfl
theorem longWord : Reads .foreign Decoder.longWord := of_rejects (fun _ _ _ => rfl) fun _ _ _ => rfl
theorem integer : Reads .foreign Decoder.integer := of_rejects (fun _ _ _ => rfl) fun _ _ _ => rfl
theorem double : Reads .foreign Decoder.double := of_rejects (fun _ _ _ => rfl) fun _ _ _ => rfl

end Form.Reads

open Form.Reads (bool string byte word longWord integer double)

theorem Point.reads : ReadsBy [plain "x", plain "y"] Point.decoder :=
  .make ⟨_, _, rfl, .plain integer rfl, _, _, rfl, .plain integer rfl, rfl⟩ (by decide)

theorem ImageCheck.reads : ReadsBy ImageCheck.known ImageCheck.decoder :=
  .make ⟨_, _, rfl, .plain string rfl, _, _, rfl, .optional double, _, _, rfl, .optional .point,
    _, _, rfl, .plain bool rfl, _, _, rfl, .optional longWord, _, _, rfl, .optional bool, rfl⟩ (by decide)

theorem SoundCheck.reads : ReadsBy SoundCheck.known SoundCheck.decoder :=
  .make ⟨_, _, rfl, .optional double, _, _, rfl, .optional longWord, rfl⟩ (by decide)

theorem Measure.tags : Tags Measure.variants Measure.known where
  reads := .cons ImageCheck.reads.map <| .cons SoundCheck.reads.map <|
    .cons (.make ⟨_, _, rfl, .plain .choice rfl, rfl⟩ (by decide)) .nil
  untagged := by decide

theorem Action.tagged {dec : Decoder Action} (reads : Form.action.Reads dec) :
    Tags (Action.variants dec) Action.known where
  reads :=
    .cons (.make ⟨_, _, rfl, .optional .condition, _, _, rfl, .plain (.actions reads) rfl,
      _, _, rfl, .optional (.actions reads), rfl⟩ (by decide)) <|
    .cons (.make ⟨_, _, rfl, .optional .condition, _, _, rfl, .plain (.actions reads) rfl,
      _, _, rfl, .optional word, rfl⟩ (by decide)) <|
    .cons (.make ⟨_, _, rfl, .plain word rfl, _, _, rfl, .plain (.actions reads) rfl, rfl⟩ (by decide)) <|
    .cons (.make ⟨_, _, rfl, .optional string, rfl⟩ (by decide)) <|
    .cons (.make ⟨_, _, rfl, .optional string, rfl⟩ (by decide)) <|
    .cons (.make ⟨_, _, rfl, .optional string, rfl⟩ (by decide)) <|
    .cons (ReadsBy.map <| .make ⟨_, _, rfl, .plain integer rfl, _, _, rfl, .plain integer rfl,
      _, _, rfl, .plain .choice rfl, _, _, rfl, .optional byte, rfl⟩ (by decide)) <|
    .cons (ReadsBy.map <| .make ⟨_, _, rfl, .plain integer rfl, _, _, rfl, .plain integer rfl,
      _, _, rfl, .plain integer rfl, _, _, rfl, .plain integer rfl, _, _, rfl, .optional longWord, rfl⟩
      (by decide)) <|
    .cons (ReadsBy.map <| .make ⟨_, _, rfl, .plain string rfl, rfl⟩ (by decide)) <|
    .cons (ReadsBy.map <| .make ⟨_, _, rfl, .plain string rfl, rfl⟩ (by decide)) <|
    .cons (ReadsBy.map <| .make ⟨_, _, rfl, .plain longWord rfl, _, _, rfl, .optional longWord, rfl⟩
      (by decide)) <|
    .cons (ReadsBy.map <| .make ⟨_, _, rfl, .plain .choice rfl, _, _, rfl, .plain string rfl, rfl⟩
      (by decide)) <|
    .cons SoundCheck.reads.map.map <| .cons ImageCheck.reads.map.map .nil
  untagged := by decide

theorem TemplateFile.reads : ReadsBy (Form.template.known none) TemplateFile.decoder :=
  .make ⟨_, _, rfl, .plain string rfl, _, _, rfl, .optional .point, rfl⟩ (by decide)

theorem RunOptions.reads : ReadsBy (Form.options.known none) RunOptions.decoder :=
  .make ⟨_, _, rfl, .plain bool rfl, _, _, rfl, .plain longWord rfl, _, _, rfl, .plain word rfl, rfl⟩
    (by decide)

theorem CacheSettings.reads : ReadsBy (Form.matcher.known none) CacheSettings.decoder :=
  .make ⟨_, _, rfl, .plain longWord rfl, _, _, rfl, .plain longWord rfl, rfl⟩ (by decide)

namespace Scenario

/-- The fields of a scenario, with a device of which the last member of a name counts. -/
def normalFields : Fields
    [Option String, List Action, List (String × TemplateFile), RunOptions, CacheSettings, Value] :=
  let (name, actions, templates, options, cache, _, ()) := fields
  (name, actions, templates, options, cache, .withDefault "device" Decoder.normal .null, ())

theorem read_normal {find : String → Option Draft} : Record.read s find normalFields =
    (Record.read s find fields).map fun (name, actions, templates, options, cache, device, ()) =>
      (name, actions, templates, options, cache, device.normal, ()) := by
  have device : Record.value s find (.withDefault "device" Decoder.normal .null) =
      (Record.value s find (.withDefault "device" .value .null)).map Value.normal := by
    simp only [Record.value, Field.withDefault]
    cases find "device" with
    | none => rfl
    | some d => exact toOption_map ..
  simp only [normalFields, fields, Record.read, device, Option.map_bind, Option.bind_map, Option.map_map,
    Function.comp_def]

theorem reads : ReadsBy (Form.scenario.known none) decoder := by
  refine ⟨_, normalFields, fun (name, actions, templates, options, cache, device, ()) =>
      { name, actions, templates, options, cache, device },
    ⟨_, _, rfl, .optional string, _, _, rfl, .plain (.actions .action) rfl, _, _, rfl, .plain .templates rfl,
      _, _, rfl, .plain .options rfl, _, _, rfl, .plain .matcher rfl, _, _, rfl, .plain .device rfl, rfl⟩,
    by decide, fun room origin members distinct => ?_⟩
  have row : (Record.decoder normalFields ⟨room + 1, origin⟩ (.object members none)).toOption =
      (Record.decoder fields ⟨room + 1, origin⟩ (.object members none)).toOption.map
        fun (name, actions, templates, options, cache, device, ()) =>
          (name, actions, templates, options, cache, device.normal, ()) := by
    ext row
    rw [toOption_eq_some, Record.decoder_object (by decide) distinct, read_normal, Option.map_eq_some_iff,
      Option.map_eq_some_iff]
    simp only [toOption_eq_some, Record.decoder_object (by decide : fields.names.Nodup) distinct]
    exact ⟨fun ⟨fits, row, read, same⟩ => ⟨row, ⟨fits, read⟩, same⟩,
      fun ⟨row, ⟨fits, read⟩, same⟩ => ⟨fits, row, read, same⟩⟩
  rw [row, Option.map_map]
  exact toOption_map ..

end Scenario

namespace Condition

/-- A condition agrees if the members that it knows are alike, and those of its measurement can be kept
or not. -/
theorem agrees (distinct : Distinct members) (distinct' : Distinct members')
    (alike : ∀ m ∈ Form.condition.known (find members "type"),
      Alike room m (find members m.name) (find members' m.name))
    (keeps : Keeps room (measured members) ↔ Keeps room (measured members')) :
    Condition.decoder.Agrees ⟨room + 1, origin⟩ (.object members none) (.object members' none) := by
  have expects : DescribedBy expectation [Member.optional "operator", Member.optional "value"] :=
    ⟨_, _, rfl, .optional .choice, _, _, rfl, .optional double, rfl⟩
  have filtered {name : String} (other : name ∉ ["operator", "value"])
      (members : List (Option String × Draft)) : find (measured members) name = find members name :=
    Draft.find_filter (f := fun name => name ∉ [some "operator", some "value"]) (by simpa using other)
  have others : ∀ members ∈ [] :: Measure.known, ∀ m ∈ Member.plain "type" :: members,
      m.name ∉ ["operator", "value"] := by decide
  have measures (kept : Keeps room (measured members)) :
      Measure.variants.decoder.Agrees ⟨room + 1, .member⟩ (.object (measured members) none)
        (.object (measured members') none) := by
    refine Measure.tags.agrees distinct.filter distinct'.filter (fun m member => ?_)
      (iff_of_true kept.filter (keeps.mp kept).filter)
    rw [filtered (by decide)] at member
    have other : m.name ∉ ["operator", "value"] := others _ (taggedMembers_listed ..) m member
    rw [filtered other, filtered other]
    refine alike m ?_
    rcases List.mem_cons.mp member with rfl | member
    · exact List.mem_cons_self
    · exact List.mem_cons_of_mem _ (List.mem_cons_of_mem _ (List.mem_cons_of_mem _ member))
  have expected : ∀ m ∈ [Member.optional "operator", Member.optional "value"],
      Alike room m (find members m.name) (find members' m.name) := by
    refine fun m member => alike m (List.mem_cons_of_mem _ ?_)
    exact List.mem_append_left (taggedMembers _ _ _) member
  rw [Decoder.Agrees]
  ext c
  rw [toOption_eq_some, toOption_eq_some, decoder_object distinct, decoder_object distinct', ← keeps,
    read_eq expects expected]
  refine and_congr_right fun kept => and_congr_right fun _ => ?_
  rw [← toOption_eq_some, ← toOption_eq_some, measures kept]

end Condition

end

end Screenplay
