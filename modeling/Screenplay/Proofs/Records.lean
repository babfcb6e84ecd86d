import Screenplay.Json.Decoder

/-!
Reading objects by look-up. A record whose members have different names is read by looking up each of
its fields (`Record.decoder_object`), so neither the order of its members nor what stands under other
names shows in it. A tagged union is read as the record that its tag selects, once the other members
could be kept (`Variants.decoder_object`).
-/
namespace Screenplay.Json

variable {α : Type}

theorem bind_ok {ε β : Type} {x : Except ε α} {f : α → Except ε β} {b : β} :
    x >>= f = .ok b ↔ ∃ a, x = .ok a ∧ f a = .ok b := by
  cases x with
  | error e => exact ⟨nofun, fun ⟨_, ok, _⟩ => nomatch ok⟩
  | ok a => exact ⟨fun ok => ⟨a, rfl, ok⟩, fun ⟨_, same, ok⟩ => by cases same; exact ok⟩

theorem toOption_eq_some {ε : Type} {x : Except ε α} {a : α} : x.toOption = some a ↔ x = .ok a := by
  cases x with
  | error e => simp [Except.toOption]
  | ok b => simp [Except.toOption]

theorem mem_of_lookup {κ : Type} [BEq κ] [LawfulBEq κ] {l : List (κ × α)} {k : κ} {a : α}
    (found : l.lookup k = some a) : (k, a) ∈ l := by
  obtain ⟨before, after, same, -⟩ := List.lookup_eq_some_iff.mp found
  exact same ▸ by simp

namespace Draft

/-- The member of a name. -/
def find (members : List (Option String × Draft)) (name : String) : Option Draft :=
  members.lookup (some name)

/-- No two members have the same name. -/
def Distinct (members : List (Option String × Draft)) : Prop := (members.map Prod.fst).Nodup

instance (members : List (Option String × Draft)) : Decidable (Distinct members) :=
  inferInstanceAs (Decidable (members.map Prod.fst).Nodup)

variable {members rest : List (Option String × Draft)} {name other : String} {d : Draft}

theorem find_cons_self : find ((some name, d) :: rest) name = some d := by
  simp [find]

theorem find_cons_unlike {own : Option String} (differ : own ≠ some name) :
    find ((own, d) :: rest) name = find rest name := by
  have unlike : (some name == own) = false := beq_false_of_ne differ.symm
  rw [find, List.lookup_cons, unlike]
  rfl

theorem find_cons_other (differ : other ≠ name) : find ((some name, d) :: rest) other = find rest other :=
  find_cons_unlike (by simpa using differ.symm)

theorem find_cons : find ((some name, d) :: rest) =
    fun other => if other = name then some d else find rest other := by
  funext other
  by_cases same : other = name
  · rw [same, find_cons_self, if_pos rfl]
  · rw [find_cons_other same, if_neg same]

theorem find_eq_none_iff : find members name = none ↔ some name ∉ members.map Prod.fst := by
  rw [find, List.lookup_eq_none_iff, List.mem_map]
  constructor
  · rintro unlike ⟨member, inside, same⟩
    exact absurd same.symm (by simpa using unlike member inside)
  · intro unlike member inside
    have differ : some name ≠ member.1 := fun same => unlike ⟨member, inside, same.symm⟩
    simpa using differ

theorem Distinct.tail {member : Option String × Draft} (distinct : Distinct (member :: rest)) :
    Distinct rest :=
  (List.nodup_cons.mp distinct).2

theorem Distinct.find_tail (distinct : Distinct ((some name, d) :: rest)) : find rest name = none :=
  find_eq_none_iff.mpr (List.nodup_cons.mp distinct).1

theorem find_eq_some_iff (distinct : Distinct members) : find members name = some d ↔ (some name, d) ∈ members := by
  induction members with
  | nil => exact ⟨nofun, nofun⟩
  | cons member rest ih =>
    obtain ⟨own, d'⟩ := member
    rw [List.mem_cons, Prod.mk.injEq]
    by_cases here : own = some name
    · subst here
      have once : (some name, d) ∉ rest := fun inside =>
        find_eq_none_iff.mp distinct.find_tail (List.mem_map_of_mem inside)
      rw [find_cons_self, Option.some.injEq, or_iff_left once]
      exact ⟨fun same => ⟨rfl, same.symm⟩, fun same => same.2.symm⟩
    · rw [find_cons_unlike here, ih distinct.tail]
      exact (or_iff_right fun same => here same.1.symm).symm

theorem find_filter {f : Option String → Bool} (passes : f (some name) = true) :
    find (members.filter fun m => f m.1) name = find members name := by
  induction members with
  | nil => rfl
  | cons member rest ih =>
    obtain ⟨own, d⟩ := member
    by_cases here : own = some name
    · subst here
      rw [List.filter_cons, if_pos passes, find_cons_self, find_cons_self]
    · rw [List.filter_cons, find_cons_unlike here]
      split
      · rw [find_cons_unlike here, ih]
      · exact ih

theorem Distinct.filter {f : Option String × Draft → Bool} (distinct : Distinct members) :
    Distinct (members.filter f) :=
  (List.filter_sublist.map Prod.fst).nodup distinct

end Draft

/-! ## Records -/

namespace Fields

/-- The names of the fields in the order of declaration. -/
def names : {types : List Type} → Fields types → List String
  | [], _ => []
  | _ :: _, (field, fields) => field.name :: names fields

end Fields

namespace Record

open Draft (find Distinct)

/-- The value of a field that is looked up. -/
def value (s : Setting) (find : String → Option Draft) (field : Field α) : Option α :=
  match find field.name with
  | some d => (field.decoder s d).toOption
  | none => field.absent

/-- The row whose values are looked up. -/
def read (s : Setting) (find : String → Option Draft) : {types : List Type} → Fields types →
    Option (Row types)
  | [], _ => some ()
  | _ :: _, (field, fields) =>
    (value s find field).bind fun a => (read s find fields).map fun row => (a, row)

/-- Every member has a name, and what is under a name that no field has can be passed over. -/
def Fits (names : List String) (members : List (Option String × Draft)) : Prop :=
  ∀ m ∈ members, ∃ name, m.1 = some name ∧ (name ∉ names → m.2.skip = .ok ())

/-- The fields seen after some members were taken in that are looked up. -/
def Filled (s : Setting) (find : String → Option Draft) : {types : List Type} → Fields types →
    Seen types → Seen types → Prop
  | [], _, _, _ => True
  | _ :: _, (field, fields), (a, seen), (a', seen') =>
    (match find field.name with
      | none => a' = a
      | some d => a = none ∧ ∃ x, field.decoder s d = .ok x ∧ a' = some x) ∧
    Filled s find fields seen seen'

variable {types : List Type} {fields : Fields types} {s : Setting} {name : String} {d : Draft}
  {seen seen' : Seen types} {members : List (Option String × Draft)}

theorem filled_nothing : Filled s (fun _ => none) fields seen seen' ↔ seen' = seen := by
  induction types with
  | nil => exact ⟨fun _ => rfl, fun _ => trivial⟩
  | cons α types ih =>
    obtain ⟨field, fields⟩ := fields
    obtain ⟨a, seen⟩ := seen
    obtain ⟨a', seen'⟩ := seen'
    simp only [Filled, ih, Prod.mk.injEq]

/-- What is under a name that no field has does not count. -/
theorem filled_congr {find find' : String → Option Draft}
    (same : ∀ name ∈ fields.names, find' name = find name) :
    Filled s find' fields seen seen' ↔ Filled s find fields seen seen' := by
  induction types with
  | nil => exact Iff.rfl
  | cons α types ih =>
    obtain ⟨field, fields⟩ := fields
    obtain ⟨a, seen⟩ := seen
    obtain ⟨a', seen'⟩ := seen'
    rw [Fields.names, List.forall_mem_cons] at same
    rw [Filled, Filled, same.1, ih same.2]

theorem accept_eq_none (other : name ∉ fields.names) : accept s name d fields seen = none := by
  induction types with
  | nil => rfl
  | cons α types ih =>
    obtain ⟨field, fields⟩ := fields
    obtain ⟨a, seen⟩ := seen
    rw [Fields.names, List.mem_cons, not_or] at other
    simp only [accept, if_neg other.1, ih other.2, Option.map_none]

/-- The member of a name was taken in. -/
def Takes (s : Setting) (name : String) (d : Draft) : {types : List Type} → Fields types →
    Seen types → Seen types → Prop
  | [], _, _, _ => False
  | _ :: _, (field, fields), (a, seen), (a', seen') =>
    if name = field.name then a = none ∧ (∃ x, field.decoder s d = .ok x ∧ a' = some x) ∧ seen' = seen
    else a' = a ∧ Takes s name d fields seen seen'

theorem accept_eq_some (s : Setting) (d : Draft) (seen : Seen types) (known : name ∈ fields.names) :
    ∃ result, accept s name d fields seen = some result ∧
      ∀ seen', result = .ok seen' ↔ Takes s name d fields seen seen' := by
  induction types with
  | nil => cases known
  | cons α types ih =>
    obtain ⟨field, fields⟩ := fields
    obtain ⟨a, seen⟩ := seen
    by_cases here : name = field.name
    · simp only [accept, Takes, if_pos here]
      refine ⟨_, rfl, fun (a', seen') => ?_⟩
      cases a with
      | some a => simp
      | none => rcases field.decoder s d with e | x <;> simp [Except.map, eq_comm]
    · have later : name ∈ fields.names := (List.mem_cons.mp known).resolve_left here
      obtain ⟨result, accepted, meets⟩ := ih seen later
      simp only [accept, Takes, if_neg here, accepted, Option.map_some]
      refine ⟨_, rfl, fun (a', seen') => ?_⟩
      rw [← meets]
      cases result <;> simp [Except.map, eq_comm]

/-- Taking in a member and then those that are looked up. -/
theorem takes_filled (declared : fields.names.Nodup) {find : String → Option Draft}
    (once : find name = none) (known : name ∈ fields.names) :
    (∃ seen₁, Takes s name d fields seen seen₁ ∧ Filled s find fields seen₁ seen') ↔
      Filled s (fun other => if other = name then some d else find other) fields seen seen' := by
  induction types with
  | nil => cases known
  | cons α types ih =>
    obtain ⟨field, fields⟩ := fields
    obtain ⟨a, seen⟩ := seen
    obtain ⟨a', seen'⟩ := seen'
    obtain ⟨apart, declared⟩ := List.nodup_cons.mp declared
    by_cases here : name = field.name
    · have later : Filled s (fun other => if other = name then some d else find other) fields seen seen' ↔
          Filled s find fields seen seen' := by
        apply filled_congr
        rintro other member
        have differ : other ≠ name := fun same => apart (by rwa [← here, ← same])
        exact if_neg differ
      rw [here] at once later ⊢
      simp only [Takes, Filled, if_true, later, once]
      constructor
      · rintro ⟨⟨a₁, seen₁⟩, ⟨rfl, taken, rfl⟩, rfl, filled⟩
        exact ⟨⟨rfl, taken⟩, filled⟩
      · rintro ⟨⟨rfl, taken⟩, filled⟩
        exact ⟨(a', seen), ⟨rfl, taken, rfl⟩, rfl, filled⟩
    · have known' : name ∈ fields.names := (List.mem_cons.mp known).resolve_left here
      simp only [Takes, Filled, if_neg here, if_neg (Ne.symm here), ← ih declared known']
      constructor
      · rintro ⟨⟨a₁, seen₁⟩, ⟨rfl, taken⟩, own, filled⟩
        exact ⟨own, seen₁, taken, filled⟩
      · rintro ⟨own, seen₁, taken, filled⟩
        exact ⟨(a, seen₁), ⟨rfl, taken⟩, own, filled⟩

/-- Members of different names are taken in if each of them can be, in whatever order. -/
theorem acceptAll_ok (declared : fields.names.Nodup) (distinct : Distinct members) :
    acceptAll s fields members seen = .ok seen' ↔
      Fits fields.names members ∧ Filled s (find members) fields seen seen' := by
  induction members generalizing seen with
  | nil =>
    have nothing : find [] = fun _ => none := rfl
    rw [acceptAll, nothing, filled_nothing]
    simp [Fits, eq_comm]
  | cons member rest ih =>
    obtain ⟨_ | name, d⟩ := member
    · simp [acceptAll, Fits]
    have fits : Fits fields.names ((some name, d) :: rest) ↔
        (name ∉ fields.names → d.skip = .ok ()) ∧ Fits fields.names rest := by
      simp [Fits]
    rw [fits, Draft.find_cons]
    by_cases known : name ∈ fields.names
    · obtain ⟨result, accepted, meets⟩ := accept_eq_some s d seen known
      simp only [acceptAll, accepted, bind_ok, meets, ih distinct.tail]
      rw [← takes_filled declared distinct.find_tail known]
      simp only [known, not_true_eq_false, false_implies, true_and]
      exact ⟨fun ⟨seen₁, taken, fits, filled⟩ => ⟨fits, seen₁, taken, filled⟩,
        fun ⟨fits, seen₁, taken, filled⟩ => ⟨seen₁, taken, fits, filled⟩⟩
    · have same : Filled s (fun other => if other = name then some d else find rest other) fields seen seen' ↔
          Filled s (find rest) fields seen seen' := by
        apply filled_congr
        rintro other member
        have differ : other ≠ name := fun same => known (by rwa [← same])
        exact if_neg differ
      simp only [acceptAll, accept_eq_none known, bind_ok, ih distinct.tail, same]
      simp only [known, not_false_eq_true, true_implies, and_assoc]
      exact ⟨fun ⟨(), skipped, rest⟩ => ⟨skipped, rest⟩, fun ⟨skipped, rest⟩ => ⟨(), skipped, rest⟩⟩

/-- What was not seen is filled in. -/
theorem filled_complete {find : String → Option Draft} {row : Row types} :
    (∃ seen, Filled s find fields (unseen types) seen ∧ complete fields seen = .ok row) ↔
      read s find fields = some row := by
  induction types with
  | nil => exact ⟨fun _ => rfl, fun _ => ⟨(), trivial, rfl⟩⟩
  | cons α types ih =>
    obtain ⟨field, fields⟩ := fields
    obtain ⟨x, row⟩ := row
    have own : value s find field = some x ↔ ∃ a, (match find field.name with
        | none => a = none
        | some d => (none : Option α) = none ∧ ∃ x, field.decoder s d = .ok x ∧ a = some x) ∧
        a.or field.absent = some x := by
      rw [value]
      rcases find field.name with _ | d
      · simp
      · simp only [toOption_eq_some]
        constructor
        · exact fun decoded => ⟨some x, ⟨trivial, x, decoded, rfl⟩, rfl⟩
        · rintro ⟨_, ⟨_, _, decoded, rfl⟩, found⟩
          cases found
          exact decoded
    have completed (a : Option α) (seen : Seen types) :
        @complete (α :: types) (field, fields) (a, seen) = .ok (x, row) ↔
          a.or field.absent = some x ∧ complete fields seen = .ok row := by
      rw [and_comm]
      rcases a with _ | a <;> rcases absent : field.absent with _ | b <;>
        simp [complete, absent, bind_ok, pure, Except.pure, throw, throwThe, MonadExceptOf.throw]
    simp only [read, Option.bind_eq_some_iff, Option.map_eq_some_iff, Prod.mk.injEq, ← ih, unseen]
    constructor
    · rintro ⟨⟨a, seen⟩, ⟨filled, later⟩, whole⟩
      obtain ⟨found, rest⟩ := (completed a seen).mp whole
      exact ⟨x, own.mpr ⟨a, filled, found⟩, row, ⟨seen, later, rest⟩, rfl, rfl⟩
    · rintro ⟨_, found, _, ⟨seen, later, rest⟩, rfl, rfl⟩
      obtain ⟨a, filled, found⟩ := own.mp found
      exact ⟨(a, seen), ⟨filled, later⟩, (completed a seen).mpr ⟨found, rest⟩⟩

/-- A record is read by looking up each of its fields. -/
theorem decoder_object {room : Nat} {origin : Origin} (declared : fields.names.Nodup)
    (distinct : Distinct members) {row : Row types} :
    decoder fields ⟨room + 1, origin⟩ (.object members none) = .ok row ↔
      Fits fields.names members ∧ read ⟨room, origin⟩ (find members) fields = some row := by
  have steps : decoder fields ⟨room + 1, origin⟩ (.object members none) =
      acceptAll ⟨room, origin⟩ fields members (unseen types) >>= fun seen => complete fields seen := rfl
  rw [steps, bind_ok, ← filled_complete]
  simp only [acceptAll_ok declared distinct]
  exact ⟨fun ⟨seen, ⟨fits, filled⟩, completed⟩ => ⟨fits, seen, filled, completed⟩,
    fun ⟨fits, seen, filled, completed⟩ => ⟨seen, ⟨fits, filled⟩, completed⟩⟩

end Record

/-! ## Keeping -/

namespace Draft

mutual

/-- What is kept of a draft is all that there is in it. -/
theorem ofValue_of_keep {room : Nat} {d : Draft} {v : Value} (kept : d.keep room = .ok v) :
    ofValue v = d := by
  cases d with
  | null | bool => cases kept; rfl
  | number n =>
    cases n with
    | none => cases kept
    | some n => cases kept; rfl
  | text s =>
    cases s with
    | none => cases kept
    | some s => cases kept; rfl
  | broken b => cases kept
  | list items cut =>
    simp only [keep, bind_ok] at kept
    obtain ⟨room, _, values, items, ⟨⟩, closes, same⟩ := kept
    cases same
    cases cut with
    | none => rw [ofValue, ofItems_of_keep items]
    | some b => cases closes
  | object members cut =>
    simp only [keep, bind_ok] at kept
    obtain ⟨room, _, values, members, ⟨⟩, closes, same⟩ := kept
    cases same
    cases cut with
    | none => rw [ofValue, ofMembers_of_keep members]
    | some b => cases closes

theorem ofItems_of_keep {room : Nat} {items : List Draft} {values : List Value}
    (kept : keepItems room items = .ok values) : ofItems values = items := by
  cases items with
  | nil => cases kept; rfl
  | cons d rest =>
    simp only [keepItems, bind_ok] at kept
    obtain ⟨v, first, vs, later, same⟩ := kept
    cases same
    rw [ofItems, ofValue_of_keep first, ofItems_of_keep later]

theorem ofMembers_of_keep {room : Nat} {members : List (Option String × Draft)}
    {values : List (String × Value)} (kept : keepMembers room members = .ok values) :
    ofMembers values = members := by
  cases members with
  | nil => cases kept; rfl
  | cons member rest =>
    obtain ⟨_ | name, d⟩ := member
    · cases kept
    simp only [keepMembers, bind_ok] at kept
    obtain ⟨v, first, vs, later, same⟩ := kept
    cases same
    rw [ofMembers, ofValue_of_keep first, ofMembers_of_keep later]

end

mutual

/-- There is nothing to stumble over in a value. -/
theorem skip_ofValue (v : Value) : (ofValue v).skip = .ok () := by
  cases v with
  | null | bool | number | text => rfl
  | list items => rw [ofValue, skip, skipItems_ofItems items]; rfl
  | object members => rw [ofValue, skip, skipMembers_ofMembers members]; rfl

theorem skipItems_ofItems (items : List Value) : skipItems (ofItems items) = .ok () := by
  cases items with
  | nil => rfl
  | cons v rest => rw [ofItems, skipItems, skip_ofValue v, skipItems_ofItems rest]; rfl

theorem skipMembers_ofMembers (members : List (String × Value)) :
    skipMembers (ofMembers members) = .ok () := by
  cases members with
  | nil => rfl
  | cons member rest =>
    obtain ⟨name, v⟩ := member
    rw [ofMembers, skipMembers, skip_ofValue v, skipMembers_ofMembers rest]; rfl

end

/-- The draft can be kept. -/
def Kept (room : Nat) (d : Draft) : Prop := ∃ v, d.keep room = .ok v

/-- Every member has a name and can be kept. -/
def Keeps (room : Nat) (members : List (Option String × Draft)) : Prop :=
  ∀ m ∈ members, m.1.isSome = true ∧ m.2.Kept room

theorem keepMembers_ok {room : Nat} {members : List (Option String × Draft)} :
    (∃ values, keepMembers room members = .ok values) ↔ Keeps room members := by
  induction members with
  | nil => simp [keepMembers, Keeps]
  | cons member rest ih =>
    obtain ⟨_ | name, d⟩ := member
    · simp [keepMembers, Keeps]
    have keeps : Keeps room ((some name, d) :: rest) ↔ d.Kept room ∧ Keeps room rest := by
      simp [Keeps]
    rw [keeps, ← ih]
    simp only [keepMembers, bind_ok, Kept]
    constructor
    · rintro ⟨_, v, first, vs, later, _⟩
      exact ⟨⟨v, first⟩, vs, later⟩
    · rintro ⟨⟨v, first⟩, vs, later⟩
      exact ⟨_, v, first, vs, later, rfl⟩

variable {room : Nat} {d : Draft} {members : List (Option String × Draft)}

theorem skip_of_kept (kept : d.Kept room) : d.skip = .ok () := by
  obtain ⟨v, keeps⟩ := kept
  rw [← ofValue_of_keep keeps]
  exact skip_ofValue v

/-- What can be kept can be passed over. -/
theorem Keeps.fits (keeps : Keeps room members) (names : List String) : Record.Fits names members := by
  intro m inside
  obtain ⟨named, kept⟩ := keeps m inside
  obtain ⟨name, own⟩ := Option.isSome_iff_exists.mp named
  exact ⟨name, own, fun _ => skip_of_kept kept⟩

theorem Keeps.filter {f : Option String × Draft → Bool} (keeps : Keeps room members) :
    Keeps room (members.filter f) :=
  fun m inside => keeps m (List.mem_filter.mp inside).1

end Draft

/-! ## Tagged unions -/

namespace Variants

open Draft (find Distinct Keeps)

/-- The members under other names. -/
def untagged (members : List (Option String × Draft)) : List (Option String × Draft) :=
  members.filter fun m => m.1 ≠ some "type"

variable {v : Variants α} {s : Setting} {members : List (Option String × Draft)}

theorem gather_ok {tag tag' : Option (Decoder α)} {kept kept' : List (String × Value)}
    (distinct : Distinct members) :
    v.gather s members tag kept = .ok (tag', kept') ↔
      (∃ values, Draft.keepMembers s.room (untagged members) = .ok values ∧ kept' = kept.reverse ++ values) ∧
      (match find members "type" with
        | none => tag' = tag
        | some d => tag = none ∧ ∃ variant, v.select s d = .ok variant ∧ tag' = some variant) := by
  induction members generalizing tag kept with
  | nil =>
    simp only [gather, untagged, List.filter_nil, Draft.keepMembers, find, List.lookup_nil,
      Except.ok.injEq, Prod.mk.injEq]
    constructor
    · rintro ⟨rfl, rfl⟩
      exact ⟨⟨[], rfl, (List.append_nil _).symm⟩, rfl⟩
    · rintro ⟨⟨values, rfl, rfl⟩, rfl⟩
      exact ⟨rfl, (List.append_nil _).symm⟩
  | cons member rest ih =>
    obtain ⟨_ | name, d⟩ := member
    · simp [gather, untagged, Draft.keepMembers]
    by_cases tagged : name = "type"
    · subst tagged
      have others : untagged ((some "type", d) :: rest) = untagged rest := by simp [untagged]
      have once := distinct.find_tail
      rw [others, Draft.find_cons_self]
      cases tag with
      | some tag => simp [gather]
      | none =>
        simp only [gather, if_true, bind_ok, ih distinct.tail, once, true_and]
        constructor
        · rintro ⟨variant, selected, keeps, same⟩
          exact ⟨keeps, variant, selected, same⟩
        · rintro ⟨keeps, variant, selected, same⟩
          exact ⟨variant, selected, keeps, same⟩
    · have others : untagged ((some name, d) :: rest) = (some name, d) :: untagged rest := by
        simp [untagged, tagged]
      rw [others, Draft.find_cons_other (Ne.symm tagged)]
      simp only [gather, if_neg tagged, bind_ok, ih distinct.tail, Draft.keepMembers]
      constructor
      · rintro ⟨w, first, ⟨values, later, rfl⟩, own⟩
        refine ⟨⟨(name, w) :: values, ⟨w, first, values, later, rfl⟩, ?_⟩, own⟩
        rw [List.reverse_cons, List.append_assoc, List.singleton_append]
      · rintro ⟨⟨_, ⟨w, first, values, later, ⟨⟩⟩, rfl⟩, own⟩
        refine ⟨w, first, ⟨values, later, ?_⟩, own⟩
        rw [List.reverse_cons, List.append_assoc, List.singleton_append]

/-- A tagged union is read as the record that its tag selects, if all else can be kept. -/
theorem decoder_object {room : Nat} {origin : Origin} (distinct : Distinct members) {a : α} :
    v.decoder ⟨room + 1, origin⟩ (.object members none) = .ok a ↔
      Keeps room (untagged members) ∧ ∃ tag variant, find members "type" = some tag ∧
        v.select ⟨room, origin⟩ tag = .ok variant ∧
        variant ⟨room + 1, .member⟩ (.object (untagged members) none) = .ok a := by
  have steps : v.decoder ⟨room + 1, origin⟩ (.object members none) =
      v.gather ⟨room, origin⟩ members none [] >>= fun seen =>
        seen.1.elim (.error (.mismatch (.missingField "type"))) fun variant =>
          variant ⟨room + 1, .member⟩ (.ofValue (.object seen.2)) := by
    have same : v.decoder ⟨room + 1, origin⟩ (.object members none) =
        v.gather ⟨room, origin⟩ members none [] >>= _ := rfl
    rw [same]
    congr
    funext ⟨tag, kept⟩
    cases tag <;> rfl
  rw [steps, bind_ok, ← Draft.keepMembers_ok]
  constructor
  · rintro ⟨⟨_ | variant, kept⟩, gathered, chosen⟩
    · cases chosen
    obtain ⟨⟨values, keeps, rfl⟩, own⟩ := (gather_ok distinct).mp gathered
    rcases tagged : find members "type" with _ | tag
    · rw [tagged] at own
      cases own
    rw [tagged] at own
    obtain ⟨_, _, selected, ⟨⟩⟩ := own
    refine ⟨⟨_, keeps⟩, tag, variant, rfl, selected, ?_⟩
    rw [← Draft.ofMembers_of_keep keeps]
    exact chosen
  · rintro ⟨⟨values, keeps⟩, tag, variant, tagged, selected, chosen⟩
    refine ⟨(some variant, values), (gather_ok distinct).mpr ⟨⟨values, keeps, rfl⟩, ?_⟩, ?_⟩
    · rw [tagged]
      exact ⟨rfl, variant, selected, rfl⟩
    · rw [← Draft.ofMembers_of_keep keeps] at chosen
      exact chosen

end Variants

end Screenplay.Json
