import Screenplay.Proofs.Records
import Screenplay.Proofs.Validity

/-!
What the parts of the published schema allow. A schema allows what each of its keywords allows
(`Schema.allows_iff`), so that an object is allowed if its members are and an alternative is chosen
by its tag (`Schema.meets_oneOf`).
-/
namespace Screenplay.Schema
open Json (Value Draft)
open Verdict

/-- A schema of the document finds a value right. -/
def Allows (keywords : Keywords) (d : Draft) : Prop := ∃ depth, judge document depth (.object keywords) d = some true

/-- A schema of the document finds a value wrong. -/
def Refuses (keywords : Keywords) (d : Draft) : Prop := ∃ depth, judge document depth (.object keywords) d = some false

/-- Every keyword is satisfied, beside the properties of these names. -/
def Meets (names : List String) (keywords : Keywords) (d : Draft) : Prop :=
  ∀ k ∈ keywords, ∃ depth, keyword (judge document depth) document names k.1 k.2 d = some true

variable {keywords rest : Keywords} {names : List String} {d : Draft}

/-- What holds of each member at some depth holds of all at one depth. -/
theorem exists_depth {α : Type} {l : List α} {P : Nat → α → Prop}
    (deeper : ∀ {n m : Nat} {a : α}, n ≤ m → P n a → P m a) (each : ∀ a ∈ l, ∃ n, P n a) :
    ∃ n, ∀ a ∈ l, P n a := by
  induction l with
  | nil => exact ⟨0, nofun⟩
  | cons a rest ih =>
    rw [List.forall_mem_cons] at each
    obtain ⟨n, first⟩ := each.1
    obtain ⟨m, later⟩ := ih each.2
    refine ⟨max n m, List.forall_mem_cons.mpr ⟨deeper (le_max_left n m) first, ?_⟩⟩
    exact fun b member => deeper (le_max_right n m) (later b member)

theorem not_refuses_of_allows (allows : Allows keywords d) : ¬ Refuses keywords d := by
  rintro ⟨n, refused⟩
  obtain ⟨m, allowed⟩ := allows
  have first := judge_mono (le_max_left n m) _ _ _ refused
  cases first.symm.trans (judge_mono (le_max_right n m) _ _ _ allowed)

theorem judge_deeper {n m : Nat} {v : Value} {b : Bool} (deeper : n ≤ m) (reached : judge document n v d = some b) :
    judge document m v d = some b :=
  judge_mono deeper v d b reached

theorem keyword_deeper {n m : Nat} {k : String × Value} {b : Bool} (deeper : n ≤ m)
    (reached : keyword (judge document n) document names k.1 k.2 d = some b) :
    keyword (judge document m) document names k.1 k.2 d = some b :=
  keyword_mono (fun v d => judge_mono deeper v d) b reached

/-- A schema allows what its keywords allow. -/
theorem allows_iff : Allows keywords d ↔ Meets (declared keywords) keywords d := by
  constructor
  · rintro ⟨_ | depth, allowed⟩ k member
    · cases allowed
    · rw [judge, every_eq_true, List.forall_mem_map] at allowed
      exact ⟨depth, allowed k member⟩
  · intro meets
    obtain ⟨depth, all⟩ := exists_depth (P := fun n (k : String × Value) =>
      keyword (judge document n) document (declared keywords) k.1 k.2 d = some true) keyword_deeper meets
    refine ⟨depth + 1, ?_⟩
    rw [judge, every_eq_true, List.forall_mem_map]
    exact all

/-- One keyword is enough to refuse a value. -/
theorem refuses_of_keyword {k : String × Value} {depth : Nat} (member : k ∈ keywords)
    (refused : keyword (judge document depth) document (declared keywords) k.1 k.2 d = some false) :
    Refuses keywords d := by
  refine ⟨depth + 1, ?_⟩
  rw [judge, every_eq_false, List.mem_map]
  exact ⟨k, member, refused⟩

/-- A keyword that says something of the value, and rightly. -/
theorem meets_assertion {name : String} {v : Value} (assertion : Assertion) (depth : Nat)
    (named : Assertion.ofName? name = some assertion)
    (holds : assertion.holds (judge document depth) document names v d = some true) : Meets names [(name, v)] d := by
  rintro k member
  rw [List.mem_singleton.mp member]
  refine ⟨depth, ?_⟩
  rw [keyword, named]
  exact holds

/-! ## Keywords that describe -/

theorem meets_append : Meets names (keywords ++ rest) d ↔ Meets names keywords d ∧ Meets names rest d :=
  List.forall_mem_append

theorem meets_describing {name : String} {v : Value} (describing : Assertion.ofName? name = none) :
    Meets names [(name, v)] d := by
  rintro k member
  rw [List.mem_singleton.mp member]
  exact ⟨0, by rw [keyword, describing]⟩

theorem allows_describe {text : String} : Allows (describe text keywords) d ↔ Allows keywords d := by
  have same : declared (describe text keywords) = declared keywords := rfl
  have split : describe text keywords = [("description", .text text)] ++ keywords := rfl
  rw [allows_iff, allows_iff, same, split, meets_append]
  exact and_iff_right (meets_describing rfl)

theorem allows_withDefault {v : Value} : Allows (withDefault v keywords) d ↔ Allows keywords d := by
  have same : declared (withDefault v keywords) = declared keywords := by
    unfold declared withDefault
    rw [List.lookup_append]
    cases keywords.lookup "properties" <;> rfl
  rw [allows_iff, allows_iff, same, withDefault, meets_append]
  exact and_iff_left (meets_describing rfl)

/-- Nothing is said of the value. -/
theorem allows_nothing : Allows [] d := allows_iff.mpr nofun

/-! ## References -/

theorem target_definitions : ∀ definition ∈ definitions,
    target? document ("#/$defs/" ++ definition.1) = some (.object definition.2) := by
  simp only [definitions, List.forall_mem_cons]
  refine ⟨rfl, rfl, rfl, rfl, rfl, rfl, rfl, rfl, rfl, rfl, rfl, rfl, rfl, nofun⟩

theorem meets_reference {name : String} (defined : (name, keywords) ∈ definitions) (allows : Allows keywords d) :
    Meets names (reference name) d := by
  obtain ⟨depth, allowed⟩ := allows
  have there := target_definitions _ defined
  refine meets_assertion .ref depth rfl ?_
  simp only [Assertion.holds, there]
  exact allowed

theorem allows_reference {name : String} (defined : (name, keywords) ∈ definitions) (allows : Allows keywords d) :
    Allows (reference name) d :=
  allows_iff.mpr (meets_reference defined allows)

/-! ## Types and names -/

theorem meets_type {name : String} (typed : hasType name d = some true) : Meets names (ofType name) d := by
  refine meets_assertion .type 0 rfl ?_
  simp [Assertion.holds, typeNames, typed, any_eq_true]

/-- A name that is listed. -/
theorem allows_choice {list : List String} {name : String} (listed : name ∈ list) :
    Allows (choice list) (.text (some name)) := by
  refine allows_iff.mpr (meets_append.mpr ⟨meets_type rfl, ?_⟩)
  refine meets_assertion .enum 0 rfl ?_
  simp only [Assertion.holds, any_eq_true, List.map_map, List.mem_map]
  exact ⟨name, listed, by simp [equals]⟩

/-- A whole number within its bounds. -/
theorem allows_whole {format : String} {least greatest : Option Nat} {n : Int}
    (above : ∀ b ∈ least, (b : Int) ≤ n) (below : ∀ b ∈ greatest, n ≤ (b : Int)) :
    Allows (whole format least greatest) (.number (some (.whole n))) := by
  have minimum : Assertion.ofName? "minimum" = some .minimum := rfl
  have maximum : Assertion.ofName? "maximum" = some .maximum := rfl
  rw [allows_iff, whole]
  refine meets_append.mpr ⟨meets_append.mpr ⟨meets_append.mpr ⟨meets_type rfl, meets_describing rfl⟩, ?_⟩, ?_⟩
  · rintro k member
    obtain ⟨b, bound, rfl⟩ : ∃ b ∈ least, ("minimum", Value.whole b) = k := by
      simpa [Option.mem_toList] using member
    exact ⟨0, by simp [keyword, minimum, Assertion.holds, bounded, above b bound]⟩
  · rintro k member
    obtain ⟨b, bound, rfl⟩ : ∃ b ∈ greatest, ("maximum", Value.whole b) = k := by
      simpa [Option.mem_toList] using member
    exact ⟨0, by simp [keyword, maximum, Assertion.holds, bounded, below b bound]⟩

/-! ## What may be `null` -/

theorem meets_anyOf {choices : List Keywords} (chosen : keywords ∈ choices) (allows : Allows keywords d) :
    Meets names [("anyOf", .list (choices.map .object))] d := by
  obtain ⟨depth, allowed⟩ := allows
  refine meets_assertion .anyOf depth rfl ?_
  simp only [Assertion.holds, any_eq_true, List.map_map, List.mem_map]
  exact ⟨keywords, chosen, allowed⟩

/-- Whatever is allowed is still allowed. -/
theorem allows_nullable (allows : Allows keywords d) : Allows (nullable keywords) d := by
  unfold nullable
  split
  · rename_i name rest
    have type : Assertion.ofName? "type" = some .type := rfl
    obtain ⟨⟨depth, typed⟩, others⟩ := List.forall_mem_cons.mp (allows_iff.mp allows)
    refine allows_iff.mpr (List.forall_mem_cons.mpr ⟨⟨0, ?_⟩, others⟩)
    simp only [keyword, type, Assertion.holds, typeNames, any_eq_true, List.map_cons, List.map_nil,
      List.mem_singleton] at typed
    simp [keyword, type, Assertion.holds, typeNames, any_eq_true, ← typed]
  · have chosen : keywords ∈ [keywords, ofType "null"] := by simp
    exact allows_iff.mpr (meets_anyOf chosen allows)

/-! ## Lists and objects -/

theorem meets_items {items : List Draft} {cut : Option Json.Break} (each : ∀ d ∈ items, Allows keywords d) :
    Meets names [("items", .object keywords)] (.list items cut) := by
  obtain ⟨depth, all⟩ := exists_depth
    (P := fun n d => judge document n (.object keywords) d = some true) judge_deeper each
  refine meets_assertion .items depth rfl ?_
  simp only [Assertion.holds, every_eq_true, List.forall_mem_map]
  exact all

theorem allows_listOf {items : List Draft} {cut : Option Json.Break} (each : ∀ d ∈ items, Allows keywords d) :
    Allows (listOf keywords) (.list items cut) :=
  allows_iff.mpr (meets_append.mpr ⟨meets_type rfl, meets_items each⟩)

variable {members : List (Option String × Draft)} {cut : Option Json.Break}

theorem effective_subset (members : List (Option String × Draft)) : effective members ⊆ members := by
  induction members with
  | nil => exact fun _ member => member
  | cons m rest ih =>
    rw [effective]
    split
    · exact List.subset_cons_of_subset m ih
    · exact List.cons_subset_cons m ih

/-- Of every name there is a member that counts. -/
theorem mem_effective {name : String} (named : some name ∈ members.map Prod.fst) :
    some name ∈ (effective members).map Prod.fst := by
  induction members with
  | nil => exact named
  | cons m rest ih =>
    rw [List.map_cons, List.mem_cons] at named
    rw [effective]
    split
    · rename_i repeated
      rw [Bool.and_eq_true, List.contains_iff_mem] at repeated
      rcases named with here | later
      · exact ih (here ▸ repeated.2)
      · exact ih later
    · rw [List.map_cons, List.mem_cons]
      exact named.imp_right ih

theorem mem_of_member {name : String} (found : member? members name = some d) : (some name, d) ∈ members :=
  effective_subset members (Json.mem_of_lookup found)

theorem member_isSome {name : String} (there : (some name, d) ∈ members) : (member? members name).isSome = true := by
  have named := mem_effective (List.mem_map_of_mem (f := Prod.fst) there)
  rw [Option.isSome_iff_ne_none, member?, Ne, List.lookup_eq_none_iff]
  intro none
  obtain ⟨m, member, same⟩ := List.mem_map.mp named
  simpa [same] using none m member

/-- The tag of an object that has one tag only. -/
theorem member_eq {name : String} (there : (some name, d) ∈ members)
    (only : ∀ d', (some name, d') ∈ members → d' = d) : member? members name = some d := by
  obtain ⟨d', found⟩ := Option.isSome_iff_exists.mp (member_isSome there)
  rw [found, only d' (mem_of_member found)]

/-- The member of a property is allowed, and it is there if it has to be. -/
def Property.Fulfilled (p : Property) (members : List (Option String × Draft)) : Prop :=
  (∀ d, (some p.name, d) ∈ members → Allows p.schema d) ∧ (p.required = true → ∃ d, (some p.name, d) ∈ members)

theorem meets_object {properties : List Property} (each : ∀ p ∈ properties, p.Fulfilled members) :
    Meets names (object properties) (.object members cut) := by
  refine meets_append.mpr ⟨meets_append.mpr ⟨meets_type rfl, ?_⟩, ?_⟩
  · have all : ∀ p ∈ properties, ∃ depth, ((member? members p.name).map
        (judge document depth (.object p.schema))).getD (some true) = some true := by
      intro p property
      rcases found : member? members p.name with _ | d
      · exact ⟨0, rfl⟩
      · exact (each p property).1 d (mem_of_member found)
    obtain ⟨depth, all⟩ := exists_depth (fun {n m p} deeper holds => by
      rcases found : member? members p.name with _ | d
      · rfl
      · rw [found] at holds
        exact judge_deeper deeper holds) all
    refine meets_assertion .properties depth rfl ?_
    simp only [Assertion.holds, every_eq_true, List.forall_mem_map, List.map_map]
    exact all
  · split
    · exact List.forall_mem_nil _
    · refine meets_assertion .required 0 rfl ?_
      simp only [Assertion.holds, Option.some.injEq, List.all_eq_true, List.forall_mem_map]
      intro p property
      obtain ⟨property, required⟩ := List.mem_filter.mp property
      obtain ⟨d, there⟩ := (each p property).2 required
      exact member_isSome there

/-- An object of arbitrary names. -/
theorem meets_additional (each : ∀ m ∈ members, Allows keywords m.2) :
    Meets names [("additionalProperties", .object keywords)] (.object members cut) := by
  obtain ⟨depth, all⟩ := exists_depth
    (P := fun n (m : Option String × Draft) => judge document n (.object keywords) m.2 = some true)
    judge_deeper fun m counts => each m (effective_subset members counts)
  refine meets_assertion .additionalProperties depth rfl ?_
  simp only [Assertion.holds, every_eq_true, List.forall_mem_map]
  intro m counts
  split
  · rfl
  · exact all m counts

/-! ## Alternatives -/

/-- The tag that a schema asks for. -/
def tagName (keywords : Keywords) : Option String := do
  let properties ← keywords.lookup "properties"
  let tag ← properties.get? "type"
  let .text name ← tag.get? "const" | none
  return name

/-- A schema that asks for another tag refuses the object. -/
theorem refuses_of_tag {name tag : String} (asks : tagName keywords = some name) (differ : name ≠ tag)
    (tagged : member? members "type" = some (.text (some tag))) : Refuses keywords (.object members cut) := by
  have get {v w : Value} {name : String} (found : v.get? name = some w) :
      ∃ list, v = .object list ∧ (name, w) ∈ list := by
    cases v with
    | object list => exact ⟨list, rfl, Json.mem_of_lookup found⟩
    | _ => cases found
  simp only [tagName, Option.bind_eq_bind, Option.bind_eq_some_iff] at asks
  obtain ⟨properties, declares, schema, typed, const, compares, same⟩ := asks
  obtain ⟨list, rfl, listed⟩ := get typed
  obtain ⟨keywords', rfl, compared⟩ := get compares
  have const' : const = .text name := by
    cases const <;> simp_all [pure]
  subst const'
  have key : Assertion.ofName? "const" = some .const := rfl
  have key' : Assertion.ofName? "properties" = some .properties := rfl
  have wrong : Refuses keywords' (.text (some tag)) :=
    refuses_of_keyword compared (show keyword (judge document 0) _ _ _ _ _ = _ by
      simp [keyword, key, Assertion.holds, equals, differ.symm])
  obtain ⟨depth, refused⟩ := wrong
  refine refuses_of_keyword (Json.mem_of_lookup declares) (show keyword (judge document depth) _ _ _ _ _ = _ from ?_)
  simp only [keyword, key', Assertion.holds, every_eq_false, List.mem_map]
  exact ⟨("type", .object keywords'), listed, by rw [tagged]; exact refused⟩

/-- Of alternatives with different tags the tag chooses one. -/
theorem meets_oneOf {choices : List Keywords} {tag : String} (asking : ∀ c ∈ choices, (tagName c).isSome = true)
    (distinct : (choices.map tagName).Nodup) (chosen : keywords ∈ choices) (asks : tagName keywords = some tag)
    (tagged : member? members "type" = some (.text (some tag))) (allows : Allows keywords (.object members cut)) :
    Meets names [("oneOf", .list (choices.map .object))] (.object members cut) := by
  have decided : ∀ c ∈ choices, ∃ depth,
      judge document depth (.object c) (.object members cut) = some (tagName c == some tag) := by
    intro c choice
    obtain ⟨name, named⟩ := Option.isSome_iff_exists.mp (asking c choice)
    by_cases same : name = tag
    · subst same
      rw [List.inj_on_of_nodup_map distinct choice chosen (named.trans asks.symm), asks, beq_self_eq_true]
      exact allows
    · have other : (tagName c == some tag) = false := by simp [named, same]
      rw [other]
      exact refuses_of_tag named same tagged
  obtain ⟨depth, all⟩ := exists_depth (P := fun n c =>
    judge document n (.object c) (.object members cut) = some (tagName c == some tag)) judge_deeper decided
  have verdicts : (choices.map .object).map (judge document depth · (.object members cut)) =
      (choices.map tagName).map fun name => some (name == some tag) := by
    rw [List.map_map, List.map_map]
    exact List.map_congr_left all
  have once : (choices.map tagName).count (some tag) = 1 :=
    List.count_eq_one_of_mem distinct (asks ▸ List.mem_map_of_mem chosen)
  refine meets_assertion .oneOf depth rfl ?_
  simp only [Assertion.holds, verdicts, one]
  have counted : ((choices.map tagName).map fun name => some (name == some tag)).count (some true) = 1 := by
    rw [← once, List.count_eq_countP, List.count_eq_countP, List.countP_map]
    exact List.countP_congr fun name _ => by simp
  rw [if_neg (by simp), counted]
  rfl

end Screenplay.Schema
