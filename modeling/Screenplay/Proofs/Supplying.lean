import Screenplay.Proofs.Conditions

/-!
What an object that was read has among its members. Names that nobody knows may be repeated; a field
that was read stands there once (`Draft.Once`), and what has no default is not missing
(`Record.supplied_of_decoder`).
-/
namespace Screenplay.Json

variable {α : Type}

namespace Draft

/-- There is at most one member of the name, the one that is found. -/
def Once (members : List (Option String × Draft)) (name : String) : Prop :=
  ∀ d, (some name, d) ∈ members → find members name = some d

variable {members rest : List (Option String × Draft)} {name other : String} {d : Draft}

theorem not_mem_of_find_eq_none (missing : find members name = none) : (some name, d) ∉ members :=
  fun member => find_eq_none_iff.mp missing (List.mem_map_of_mem (f := Prod.fst) member)

theorem mem_of_find_eq_some (found : find members name = some d) : (some name, d) ∈ members := mem_of_lookup found

theorem once_cons_other (differ : other ≠ name) (once : Once rest other) : Once ((some name, d) :: rest) other := by
  intro d' member
  rw [find_cons_other differ]
  rcases List.mem_cons.mp member with same | later
  · cases same
    exact absurd rfl differ
  · exact once d' later

/-- A member of a new name. -/
theorem once_cons (missing : find rest name = none) (once : Once rest other) :
    Once ((some name, d) :: rest) other := by
  by_cases same : other = name
  · subst same
    intro d' member
    rcases List.mem_cons.mp member with same | later
    · cases same
      exact find_cons_self
    · exact absurd later (not_mem_of_find_eq_none missing)
  · exact once_cons_other same once

end Draft

/-! ## Lists and tables -/

namespace Decoder

variable {dec : Decoder α} {s : Setting} {cut : Option Break}

theorem reads_of_list {items : List Draft} {values : List α} (decoded : list dec s (.list items cut) = .ok values) :
    ∀ d ∈ items, ∃ s a, dec s d = .ok a := by
  simp only [list, bind_ok] at decoded
  obtain ⟨inner, -, values, read, -⟩ := decoded
  induction items generalizing values with
  | nil => exact List.forall_mem_nil _
  | cons d rest ih =>
    simp only [List.mapM_cons, bind_ok] at read
    obtain ⟨a, first, values, later, -⟩ := read
    exact List.forall_mem_cons.mpr ⟨⟨inner, a, first⟩, ih values later⟩

theorem reads_of_go {members : List (Option String × Draft)} {done entries : List (String × α)}
    (read : table.go dec s members done = .ok entries) : ∀ m ∈ members, ∃ a, dec s m.2 = .ok a := by
  induction members generalizing done with
  | nil => exact List.forall_mem_nil _
  | cons m rest ih =>
    obtain ⟨_ | name, d⟩ := m
    · cases read
    simp only [table.go, bind_ok] at read
    obtain ⟨a, first, later⟩ := read
    exact List.forall_mem_cons.mpr ⟨⟨a, first⟩, ih later⟩

theorem reads_of_table {members : List (Option String × Draft)} {entries : List (String × α)}
    (decoded : table dec s (.object members cut) = .ok entries) : ∀ m ∈ members, ∃ s a, dec s m.2 = .ok a := by
  simp only [table, bind_ok] at decoded
  obtain ⟨inner, -, entries, read, -⟩ := decoded
  exact fun m member => ⟨inner, reads_of_go read m member⟩

end Decoder

/-! ## Records -/

namespace Record

open Draft (find Once)

variable {types : List Type} {fields : Fields types} {s : Setting} {name : String} {d : Draft}
  {seen seen' seen'' : Seen types} {members : List (Option String × Draft)}

/-- A field that was taken in is not found again. -/
theorem find_of_takes (takes : Takes s name d fields seen seen') {find : String → Option Draft}
    (filled : Filled s find fields seen' seen'') : find name = none := by
  induction types with
  | nil => cases takes
  | cons _ types ih =>
    obtain ⟨field, fields⟩ := fields
    obtain ⟨a, seen⟩ := seen
    obtain ⟨a', seen'⟩ := seen'
    obtain ⟨a'', seen''⟩ := seen''
    by_cases here : name = field.name
    · simp only [Takes, if_pos here] at takes
      obtain ⟨-, ⟨x, -, rfl⟩, -⟩ := takes
      rcases found : find field.name with _ | d'
      · rw [here, found]
      · rw [Filled, found] at filled
        cases filled.1.1
    · simp only [Takes, if_neg here] at takes
      exact ih takes.2 filled.2

/-- Members that were taken in are looked up, each field once. -/
theorem filled_of_acceptAll (declared : fields.names.Nodup)
    (accepted : acceptAll s fields members seen = .ok seen') :
    Filled s (find members) fields seen seen' ∧ ∀ name ∈ fields.names, Once members name := by
  induction members generalizing seen with
  | nil =>
    cases accepted
    exact ⟨filled_nothing.mpr rfl, fun _ _ => nofun⟩
  | cons member rest ih =>
    obtain ⟨_ | name, d⟩ := member
    · cases accepted
    rw [Draft.find_cons]
    by_cases known : name ∈ fields.names
    · obtain ⟨result, result_eq, meets⟩ := accept_eq_some s d seen known
      simp only [acceptAll, result_eq, bind_ok, meets] at accepted
      obtain ⟨seen₁, takes, accepted⟩ := accepted
      obtain ⟨filled, once⟩ := ih accepted
      have missing := find_of_takes takes filled
      exact ⟨(takes_filled declared missing known).mp ⟨seen₁, takes, filled⟩,
        fun other field => Draft.once_cons missing (once other field)⟩
    · simp only [acceptAll, accept_eq_none known, bind_ok] at accepted
      obtain ⟨_, _, accepted⟩ := accepted
      obtain ⟨filled, once⟩ := ih accepted
      have differ {other : String} (field : other ∈ fields.names) : other ≠ name :=
        fun same => known (same ▸ field)
      refine ⟨(filled_congr fun other field => ?_).mpr filled, fun other field => ?_⟩
      · exact if_neg (differ field)
      · exact Draft.once_cons_other (differ field) (once other field)

/-- The fields can be read from members, or else have a default. -/
def Supplied (members : List (Option String × Draft)) : {types : List Type} → Fields types → Prop
  | [], _ => True
  | _ :: _, (field, fields) =>
    (∀ d, (some field.name, d) ∈ members → ∃ s a, field.decoder s d = .ok a) ∧
    (field.absent = none → ∃ d, (some field.name, d) ∈ members) ∧ Supplied members fields

theorem supplied_of_read {row : Row types} (once : ∀ name ∈ fields.names, Once members name)
    (read : read s (find members) fields = some row) : Supplied members fields := by
  induction types with
  | nil => trivial
  | cons _ types ih =>
    obtain ⟨field, fields⟩ := fields
    rw [Fields.names, List.forall_mem_cons] at once
    simp only [Record.read, Option.bind_eq_some_iff, Option.map_eq_some_iff] at read
    obtain ⟨a, own, row, later, -⟩ := read
    refine ⟨fun d member => ?_, fun required => ?_, ih once.2 later⟩
    · rw [value, once.1 d member] at own
      exact ⟨s, a, toOption_eq_some.mp own⟩
    · rcases found : find members field.name with _ | d
      · rw [value, found, required] at own
        cases own
      · exact ⟨d, Draft.mem_of_find_eq_some found⟩

/-- What is taken in and completed supplies the fields. -/
theorem supplied_of_filled {row : Row types} (once : ∀ name ∈ fields.names, Once members name)
    (filled : Filled s (find members) fields (unseen types) seen) (completed : complete fields seen = .ok row) :
    Supplied members fields :=
  supplied_of_read once (filled_complete.mp ⟨seen, filled, completed⟩)

theorem supplied_of_decoder {cut : Option Break} {row : Row types} (declared : fields.names.Nodup)
    (decoded : decoder fields s (.object members cut) = .ok row) : Supplied members fields := by
  simp only [decoder, bind_ok] at decoded
  obtain ⟨inner, -, seen, accepted, -, -, completed⟩ := decoded
  obtain ⟨filled, once⟩ := filled_of_acceptAll declared accepted
  exact supplied_of_filled once filled completed

/-- Members that were filtered out do not matter if no field has their names. -/
theorem supplied_of_filter {f : Option String → Bool} (passes : ∀ name ∈ fields.names, f (some name) = true)
    (supplied : Supplied (members.filter fun m => f m.1) fields) : Supplied members fields := by
  induction types with
  | nil => trivial
  | cons _ types ih =>
    obtain ⟨field, fields⟩ := fields
    rw [Fields.names, List.forall_mem_cons] at passes
    obtain ⟨reads, present, later⟩ := supplied
    refine ⟨fun d member => reads d (List.mem_filter.mpr ⟨member, passes.1⟩), fun required => ?_, ih passes.2 later⟩
    obtain ⟨d, member⟩ := present required
    exact ⟨d, (List.mem_filter.mp member).1⟩

end Record

/-! ## Tagged unions -/

namespace Variants

open Draft (find Once)

variable {v : Variants α} {s : Setting} {members : List (Option String × Draft)}

/-- The tag was found once and all else was kept. -/
theorem of_gather {tag tag' : Option (Decoder α)} {kept kept' : List (String × Value)}
    (gathered : v.gather s members tag kept = .ok (tag', kept')) :
    (∃ values, Draft.keepMembers s.room (untagged members) = .ok values ∧ kept' = kept.reverse ++ values) ∧
    (match find members "type" with
      | none => tag' = tag
      | some d => tag = none ∧ ∃ variant, v.select s d = .ok variant ∧ tag' = some variant) ∧
    Once members "type" := by
  induction members generalizing tag kept with
  | nil =>
    cases gathered
    exact ⟨⟨[], rfl, (List.append_nil _).symm⟩, rfl, nofun⟩
  | cons member rest ih =>
    obtain ⟨_ | name, d⟩ := member
    · cases gathered
    by_cases tagged : name = "type"
    · subst tagged
      have others : untagged ((some "type", d) :: rest) = untagged rest := by simp [untagged]
      cases tag with
      | some tag => simp [gather] at gathered
      | none =>
        simp only [gather, if_true, bind_ok] at gathered
        obtain ⟨variant, selected, gathered⟩ := gathered
        obtain ⟨keeps, own, once⟩ := ih gathered
        rcases found : find rest "type" with _ | d'
        · rw [found] at own
          rw [others, Draft.find_cons_self]
          exact ⟨keeps, ⟨rfl, variant, selected, own⟩, Draft.once_cons found once⟩
        · rw [found] at own
          cases own.1
    · have others : untagged ((some name, d) :: rest) = (some name, d) :: untagged rest := by
        simp [untagged, tagged]
      simp only [gather, if_neg tagged, bind_ok] at gathered
      obtain ⟨w, first, gathered⟩ := gathered
      obtain ⟨⟨values, later, rfl⟩, own, once⟩ := ih gathered
      rw [others, Draft.find_cons_other (Ne.symm tagged)]
      refine ⟨⟨(name, w) :: values, ?_, ?_⟩, own, Draft.once_cons_other (Ne.symm tagged) once⟩
      · exact bind_ok.mpr ⟨w, first, bind_ok.mpr ⟨values, later, rfl⟩⟩
      · rw [List.reverse_cons, List.append_assoc, List.singleton_append]

/-- An object that is read as a tagged union has one tag, and the record that it selects is read from
the other members. -/
theorem of_decoder {cut : Option Break} {a : α} (decoded : v.decoder s (.object members cut) = .ok a) :
    Once members "type" ∧ ∃ s' tag variant, find members "type" = some tag ∧ v.select s' tag = .ok variant ∧
      variant { s with origin := .member } (.object (untagged members) none) = .ok a := by
  simp only [decoder, bind_ok] at decoded
  obtain ⟨inner, -, ⟨tag, kept⟩, gathered, -, -, chosen⟩ := decoded
  obtain ⟨⟨values, keeps, rfl⟩, own, once⟩ := of_gather gathered
  refine ⟨once, inner, ?_⟩
  rcases found : find members "type" with _ | d
  · rw [found] at own
    subst own
    cases chosen
  · rw [found] at own
    obtain ⟨-, variant, selected, rfl⟩ := own
    rw [← Draft.ofMembers_of_keep keeps]
    exact ⟨d, variant, rfl, selected, chosen⟩

end Variants

end Screenplay.Json

/-! ## Conditions -/

namespace Screenplay.Condition
open Json
open Draft (find Once)

variable {s : Setting} {members : List (Option String × Draft)}

/-- The expectation was looked up and all else was kept. -/
theorem of_gather {seen seen' : Seen [Option Comparison, Option Float]} {kept kept' : List (String × Value)}
    (gathered : gather s members seen kept = .ok (seen', kept')) :
    (∃ values, Draft.keepMembers s.room (measured members) = .ok values ∧ kept' = kept.reverse ++ values) ∧
    Record.Filled s (find members) expectation seen seen' ∧ ∀ name ∈ expectation.names, Once members name := by
  induction members generalizing seen kept with
  | nil =>
    cases gathered
    exact ⟨⟨[], rfl, (List.append_nil _).symm⟩, Record.filled_nothing.mpr rfl, fun _ _ => nofun⟩
  | cons member rest ih =>
    obtain ⟨_ | name, d⟩ := member
    · cases gathered
    by_cases known : name ∈ expectation.names
    · have others : measured ((some name, d) :: rest) = measured rest := by
        rw [measured, List.filter_cons, if_neg]
        · rfl
        · simpa [expectation_names, Decidable.or_iff_not_imp_left] using known
      obtain ⟨result, accepted, meets⟩ := Record.accept_eq_some s d seen known
      simp only [gather, accepted, bind_ok, meets] at gathered
      obtain ⟨seen₁, takes, gathered⟩ := gathered
      obtain ⟨keeps, filled, once⟩ := ih gathered
      have missing := Record.find_of_takes takes filled
      rw [others, Draft.find_cons]
      exact ⟨keeps, (Record.takes_filled expectation_declared missing known).mp ⟨seen₁, takes, filled⟩,
        fun other field => Draft.once_cons missing (once other field)⟩
    · have others : measured ((some name, d) :: rest) = (some name, d) :: measured rest := by
        rw [measured, List.filter_cons, if_pos]
        · rfl
        · simpa [expectation_names] using known
      simp only [gather, Record.accept_eq_none known, bind_ok] at gathered
      obtain ⟨w, first, gathered⟩ := gathered
      obtain ⟨⟨values, later, rfl⟩, filled, once⟩ := ih gathered
      have differ {other : String} (field : other ∈ expectation.names) : other ≠ name :=
        fun same => known (same ▸ field)
      rw [others, Draft.find_cons]
      refine ⟨⟨(name, w) :: values, ?_, ?_⟩, (Record.filled_congr fun other field => ?_).mpr filled,
        fun other field => Draft.once_cons_other (differ field) (once other field)⟩
      · exact bind_ok.mpr ⟨w, first, bind_ok.mpr ⟨values, later, rfl⟩⟩
      · rw [List.reverse_cons, List.append_assoc, List.singleton_append]
      · exact if_neg (differ field)

/-- An object that is read as a condition supplies the expectation, and a measurement is read from the
other members. -/
theorem of_decoder {cut : Option Json.Break} {c : Condition} (decoded : decoder s (.object members cut) = .ok c) :
    Record.Supplied members expectation ∧
      Measure.variants.decoder { s with origin := .member } (.object (measured members) none) = .ok c.measure := by
  simp only [decoder, bind_ok] at decoded
  obtain ⟨inner, -, ⟨seen, kept⟩, gathered, -, -, row, completed, measure, measures, ⟨⟩⟩ := decoded
  obtain ⟨⟨values, keeps, rfl⟩, filled, once⟩ := of_gather gathered
  refine ⟨Record.supplied_of_filled once filled completed, ?_⟩
  rw [← Draft.ofMembers_of_keep keeps]
  exact measures

end Screenplay.Condition
