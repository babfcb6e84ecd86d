import Mathlib.Data.List.Perm.Basic
import Mathlib.Data.List.Nodup
import Mathlib.Data.String.Basic
import Screenplay.Proofs.Records

/-!
Objects of arbitrary names. Their members are put in the order of the names, so the order in which
different names were written does not show.
-/
namespace Screenplay.Json

variable {α : Type}

/-- Members of different names may be put in either order. -/
theorem putMember_comm {name other : String} (differ : name ≠ other) (a b : α)
    (entries : List (String × α)) :
    putMember name a (putMember other b entries) = putMember other b (putMember name a entries) := by
  induction entries with
  | nil => grind [putMember]
  | cons entry rest ih => grind [putMember]

namespace Draft

/-- Puts members in the order of their names. -/
def sorted (entries : List (String × α)) : List (String × α) :=
  entries.foldl (fun done entry => putMember entry.1 entry.2 done) []

/-- The values of members that all have names. -/
def collect (read : Draft → Option α) : List (Option String × Draft) → Option (List (String × α))
  | [] => some []
  | (none, _) :: _ => none
  | (some name, d) :: rest =>
    (read d).bind fun a => (collect read rest).map fun entries => (name, a) :: entries

variable {read : Draft → Option α} {members members' rest : List (Option String × Draft)}
  {entries entries' : List (String × α)} {name : Option String} {d d' : Draft}

theorem collect_cons_eq_some : collect read ((name, d) :: rest) = some entries ↔
    ∃ own a later, name = some own ∧ read d = some a ∧ collect read rest = some later ∧
      entries = (own, a) :: later := by
  cases name with
  | none => simp [collect]
  | some name =>
    simp only [collect, Option.bind_eq_some_iff, Option.map_eq_some_iff, Option.some.injEq]
    constructor
    · rintro ⟨a, read, later, collected, rfl⟩
      exact ⟨name, a, later, rfl, read, collected, rfl⟩
    · rintro ⟨name, a, later, rfl, read, collected, rfl⟩
      exact ⟨a, read, later, collected, rfl⟩

/-- The names of what is collected. -/
theorem names_of_collect (collected : collect read members = some entries) :
    entries.map (some ·.1) = members.map Prod.fst := by
  induction members generalizing entries with
  | nil => cases collected; rfl
  | cons member rest ih =>
    obtain ⟨name, d⟩ := member
    obtain ⟨name, a, entries, rfl, _, later, rfl⟩ := collect_cons_eq_some.mp collected
    rw [List.map_cons, List.map_cons, ih later]

theorem collect_perm (perm : members.Perm members') (collected : collect read members = some entries) :
    ∃ entries', collect read members' = some entries' ∧ entries.Perm entries' := by
  induction perm generalizing entries with
  | nil => exact ⟨entries, collected, .refl _⟩
  | cons member perm ih =>
    obtain ⟨name, d⟩ := member
    obtain ⟨name, a, entries, rfl, first, later, rfl⟩ := collect_cons_eq_some.mp collected
    obtain ⟨entries', later', perm⟩ := ih later
    exact ⟨_, collect_cons_eq_some.mpr ⟨name, a, entries', rfl, first, later', rfl⟩, perm.cons _⟩
  | swap member other rest =>
    obtain ⟨name, d⟩ := member
    obtain ⟨name', d'⟩ := other
    obtain ⟨name', a', _, rfl, first, later', rfl⟩ := collect_cons_eq_some.mp collected
    obtain ⟨name, a, entries, rfl, second, later, rfl⟩ := collect_cons_eq_some.mp later'
    have behind := collect_cons_eq_some.mpr ⟨name', a', entries, rfl, first, later, rfl⟩
    exact ⟨_, collect_cons_eq_some.mpr ⟨name, a, _, rfl, second, behind, rfl⟩, .swap ..⟩
  | trans _ _ ih ih' =>
    obtain ⟨entries', collected', perm⟩ := ih collected
    obtain ⟨entries'', collected'', perm'⟩ := ih' collected'
    exact ⟨entries'', collected'', perm.trans perm'⟩

theorem sorted_perm (perm : entries.Perm entries') (distinct : (entries.map (some ·.1)).Nodup) :
    sorted entries = sorted entries' := by
  refine perm.foldl_eq' ?_ []
  intro entry inside other inside' done
  by_cases same : entry.1 = other.1
  · have equal : entry = other := List.inj_on_of_nodup_map distinct inside inside' (congrArg some same)
    rw [equal]
  · exact (putMember_comm same _ _ _).symm

/-- The members of an object, in the order of their names. -/
def tabulate (read : Draft → Option α) (members : List (Option String × Draft)) :
    Option (List (String × α)) :=
  (collect read members).map sorted

/-- Different names may be written in any order. -/
theorem tabulate_perm (distinct : Distinct members) (perm : members.Perm members') :
    tabulate read members = tabulate read members' := by
  have forth {members members' : List (Option String × Draft)} {table : List (String × α)}
      (distinct : Distinct members) (perm : members.Perm members')
      (tabulated : tabulate read members = some table) : tabulate read members' = some table := by
    obtain ⟨entries, collected, rfl⟩ := Option.map_eq_some_iff.mp tabulated
    obtain ⟨entries', collected', perm⟩ := collect_perm perm collected
    rw [tabulate, collected', Option.map_some, sorted_perm perm]
    rw [names_of_collect collected]
    exact distinct
  have distinct' : Distinct members' := (perm.map Prod.fst).nodup_iff.mp distinct
  exact Option.ext fun table => ⟨forth distinct perm, forth distinct' perm.symm⟩

/-- A table depends on what is read of each member only. -/
theorem tabulate_cons_congr (same : read d = read d') :
    tabulate read ((name, d) :: rest) = tabulate read ((name, d') :: rest) := by
  cases name with
  | none => rfl
  | some name => rw [tabulate, tabulate, collect, collect, same]

end Draft

open Draft (collect sorted tabulate)

theorem toOption_bind {ε β : Type} (x : Except ε α) (f : α → Except ε β) :
    (x >>= f).toOption = x.toOption.bind fun a => (f a).toOption := by
  cases x <;> rfl

theorem toOption_map {ε β : Type} (x : Except ε α) (f : α → β) :
    (x.map f).toOption = x.toOption.map f := by
  cases x <;> rfl

namespace Decoder

variable {decoder : Decoder α} {s : Setting} {members : List (Option String × Draft)}
  {room : Nat} {origin : Origin}

theorem table_go {done : List (String × α)} : (table.go decoder s members done).toOption =
    (collect (fun d => (decoder s d).toOption) members).map
      (List.foldl (fun done entry => putMember entry.1 entry.2 done) done) := by
  induction members generalizing done with
  | nil => rfl
  | cons member rest ih =>
    obtain ⟨_ | name, d⟩ := member
    · rfl
    · rw [table.go, toOption_bind, collect]
      simp only [ih]
      cases (decoder s d).toOption with
      | none => rfl
      | some a => simp [Option.map_map, Function.comp_def]

theorem table_object : (table decoder ⟨room + 1, origin⟩ (.object members none)).toOption =
    tabulate (fun d => (decoder ⟨room, origin⟩ d).toOption) members := by
  have steps : table decoder ⟨room + 1, origin⟩ (.object members none) =
      table.go decoder ⟨room, origin⟩ members [] >>= fun entries => .ok entries := rfl
  rw [steps, toOption_bind, table_go]
  exact Option.bind_fun_some _

/-- A value of which the last member of a name counts. -/
def normal : Decoder Value := fun s d => (value s d).map Value.normal

theorem keepMembers_collect : (Draft.keepMembers room members).toOption =
    collect (fun d => (d.keep room).toOption) members := by
  induction members with
  | nil => rfl
  | cons member rest ih =>
    obtain ⟨_ | name, d⟩ := member
    · rfl
    · simp only [Draft.keepMembers, toOption_bind, ih, collect, Option.map_eq_bind]
      rfl

theorem normalMembers_foldl {values done : List (String × Value)} :
    Value.normalMembers values done =
      (values.map fun m => (m.1, m.2.normal)).foldl (fun done m => putMember m.1 m.2 done) done := by
  induction values generalizing done with
  | nil => rfl
  | cons value rest ih => rw [Value.normalMembers, ih]; rfl

theorem collect_map {β : Type} {read : Draft → Option α} {f : α → β} :
    collect (fun d => (read d).map f) members =
      (collect read members).map (List.map fun m => (m.1, f m.2)) := by
  induction members with
  | nil => rfl
  | cons member rest ih =>
    obtain ⟨_ | name, d⟩ := member
    · rfl
    · rw [collect, collect, ih]
      cases read d with
      | none => rfl
      | some a => simp [Option.map_map, Function.comp_def]

theorem normal_object : (normal ⟨room + 1, origin⟩ (.object members none)).toOption =
    (tabulate (fun d => (normal ⟨room, origin⟩ d).toOption) members).map Value.object := by
  have steps : normal ⟨room + 1, origin⟩ (.object members none) =
      (Draft.keepMembers room members >>= fun values => .ok (.object values)).map Value.normal := rfl
  have read : (fun d => (normal ⟨room, origin⟩ d).toOption) =
      fun d => ((d.keep room).toOption).map Value.normal := funext fun d => toOption_map ..
  rw [steps, toOption_map, toOption_bind, keepMembers_collect, read, tabulate, collect_map]
  cases collect (fun d => (d.keep room).toOption) members with
  | none => rfl
  | some values => simp [Except.toOption, Value.normal, normalMembers_foldl, sorted]

/-! ## Lists -/

theorem toOption_mapM {ε β : Type} {f : α → Except ε β} {items : List α} :
    (items.mapM f).toOption = items.mapM fun a => (f a).toOption := by
  induction items with
  | nil => rfl
  | cons a rest ih =>
    rw [List.mapM_cons, List.mapM_cons, toOption_bind]
    simp only [toOption_bind, ih]
    rfl

theorem list_list {items : List Draft} : (list decoder ⟨room + 1, origin⟩ (.list items none)).toOption =
    items.mapM fun d => (decoder ⟨room, origin⟩ d).toOption := by
  have steps : list decoder ⟨room + 1, origin⟩ (.list items none) =
      items.mapM (decoder ⟨room, origin⟩) >>= fun values => .ok values := rfl
  rw [steps, toOption_bind, toOption_mapM]
  exact Option.bind_fun_some _

theorem keepItems_normal {items : List Draft} :
    (Draft.keepItems room items).toOption.map Value.normalItems =
      items.mapM fun d => (normal ⟨room, origin⟩ d).toOption := by
  induction items with
  | nil => rfl
  | cons d rest ih =>
    have first : (normal ⟨room, origin⟩ d).toOption = (d.keep room).toOption.map Value.normal :=
      toOption_map ..
    rw [List.mapM_cons, ← ih, first, Draft.keepItems]
    cases d.keep room with
    | error => rfl
    | ok v => cases Draft.keepItems room rest <;> rfl

theorem normal_list {items : List Draft} : (normal ⟨room + 1, origin⟩ (.list items none)).toOption =
    (items.mapM fun d => (normal ⟨room, origin⟩ d).toOption).map Value.list := by
  have steps : normal ⟨room + 1, origin⟩ (.list items none) =
      (Draft.keepItems room items >>= fun values => .ok (.list values)).map Value.normal := rfl
  rw [steps, ← keepItems_normal, toOption_map, toOption_bind]
  cases Draft.keepItems room items <;> rfl

/-- A list depends on what is read of each item only. -/
theorem mapM_item_congr {β γ : Type} {f : β → Option γ} {before after : List β} {b b' : β} (same : f b = f b') :
    (before ++ b :: after).mapM f = (before ++ b' :: after).mapM f := by
  rw [List.mapM_append, List.mapM_append, List.mapM_cons, List.mapM_cons, same]

end Decoder

end Screenplay.Json
