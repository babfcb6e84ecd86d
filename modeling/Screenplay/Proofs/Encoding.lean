import Mathlib.Data.List.Nodup
import Screenplay.Proofs.Spelling
import Screenplay.Json.Decoder

/-!
Reading what was written. A decoder restores what a value was written for if it gives it back wherever
the value may nest deep enough (`Decoder.Restores`). It is enough to see this for the members of a record
(`Record.make_restores`), for the variant that a tag selects (`Variants.restores`) and for the entries of
a table (`Decoder.Restores.table`); then the text of the value is read as what it was written for
(`Decoder.Restores.decode_print`).
-/
namespace Screenplay.Json

namespace Value

mutual

/-- How many lists and objects stand inside each other. -/
def depth : Value → Nat
  | .list items => itemDepth items + 1
  | .object members => memberDepth members + 1
  | _ => 0

def itemDepth : List Value → Nat
  | [] => 0
  | v :: rest => max v.depth (itemDepth rest)

def memberDepth : List (String × Value) → Nat
  | [] => 0
  | (_, v) :: rest => max v.depth (memberDepth rest)

end

/-- Every whole number is one of 64 bits. -/
def Bounded (v : Value) : Prop := ∀ n, .whole n ∈ v.numbers → Fits64 n

/-- No double is infinite or not a number. -/
def Finite (v : Value) : Prop := ∀ x, .double x ∈ v.numbers → x.isFinite = true

/-- Reading the text of a double in it gives the double back. -/
def Inverts (v : Value) : Prop := ∀ x, .double x ∈ v.numbers → Json.Inverts x

theorem memberDepth_le {members : List (String × Value)} {room : Nat} :
    memberDepth members ≤ room ↔ ∀ m ∈ members, m.2.depth ≤ room := by
  induction members with
  | nil => simp [memberDepth]
  | cons member rest ih => rw [memberDepth, Nat.max_le, ih, List.forall_mem_cons]

theorem bounded_object {members : List (String × Value)} :
    (object members).Bounded ↔ ∀ m ∈ members, m.2.Bounded := by
  induction members with
  | nil => simp [Bounded, numbers, memberNumbers]
  | cons member rest ih =>
    rw [List.forall_mem_cons, ← ih]
    simp only [Bounded, numbers, memberNumbers, List.mem_append]
    exact ⟨fun all => ⟨fun n own => all n (.inl own), fun n later => all n (.inr later)⟩,
      fun ⟨first, rest⟩ n member => member.elim (first n) (rest n)⟩

theorem Bounded.legible {v : Value} (bounded : v.Bounded) (finite : v.Finite) (inverts : v.Inverts) :
    v.Legible := by
  intro n member
  cases n with
  | whole n => exact bounded n member
  | double x => exact ⟨finite x member, inverts x member⟩

end Value

theorem putMember_last {α : Type} {name : String} {a : α} {entries : List (String × α)}
    (above : ∀ entry ∈ entries, entry.1 < name) : putMember name a entries = entries ++ [(name, a)] := by
  induction entries with
  | nil => rfl
  | cons entry rest ih =>
    obtain ⟨other, b⟩ := entry
    rw [List.forall_mem_cons] at above
    have before : ¬ name < other := String.lt_asymm above.1
    have differ : name ≠ other := fun same => String.lt_irrefl name (by simpa [same] using above.1)
    rw [putMember, if_neg before, if_neg differ, ih above.2]
    rfl

/-! ## Keeping -/

namespace Draft

mutual

/-- A value that does not nest too deep can be kept. -/
theorem keep_ofValue (v : Value) (room : Nat) (shallow : v.depth ≤ room) : (ofValue v).keep room = .ok v := by
  cases v with
  | null | bool | number | text => rfl
  | list items =>
    obtain ⟨room, rfl⟩ := Nat.exists_eq_add_one.mpr (Nat.zero_lt_of_lt shallow)
    rw [ofValue, keep, enter, bind_ok]
    exact ⟨room, rfl, bind_ok.mpr ⟨items, keepItems_ofItems items room (Nat.le_of_succ_le_succ shallow), rfl⟩⟩
  | object members =>
    obtain ⟨room, rfl⟩ := Nat.exists_eq_add_one.mpr (Nat.zero_lt_of_lt shallow)
    rw [ofValue, keep, enter, bind_ok]
    exact ⟨room, rfl,
      bind_ok.mpr ⟨members, keepMembers_ofMembers members room (Nat.le_of_succ_le_succ shallow), rfl⟩⟩

theorem keepItems_ofItems (items : List Value) (room : Nat) (shallow : Value.itemDepth items ≤ room) :
    keepItems room (ofItems items) = .ok items := by
  cases items with
  | nil => rfl
  | cons v rest =>
    obtain ⟨first, later⟩ := Nat.max_le.mp shallow
    rw [ofItems, keepItems, keep_ofValue v room first, keepItems_ofItems rest room later]
    rfl

theorem keepMembers_ofMembers (members : List (String × Value)) (room : Nat)
    (shallow : Value.memberDepth members ≤ room) : keepMembers room (ofMembers members) = .ok members := by
  cases members with
  | nil => rfl
  | cons member rest =>
    obtain ⟨name, v⟩ := member
    obtain ⟨first, later⟩ := Nat.max_le.mp shallow
    rw [ofMembers, keepMembers, keep_ofValue v room first, keepMembers_ofMembers rest room later]
    rfl

end

variable {members front back : List (String × Value)} {room : Nat} {name : String}

theorem keeps_ofMembers (shallow : Value.memberDepth members ≤ room) : Keeps room (ofMembers members) :=
  keepMembers_ok.mp ⟨members, keepMembers_ofMembers members room shallow⟩

theorem names_ofMembers : (ofMembers members).map Prod.fst = (members.map Prod.fst).map some := by
  induction members with
  | nil => rfl
  | cons member rest ih =>
    obtain ⟨name, v⟩ := member
    rw [ofMembers, List.map_cons, List.map_cons, List.map_cons, ih]

theorem distinct_ofMembers (distinct : (members.map Prod.fst).Nodup) : Distinct (ofMembers members) := by
  rw [Distinct, names_ofMembers]
  exact distinct.map fun _ _ => Option.some.inj

theorem ofMembers_append : ofMembers (front ++ back) = ofMembers front ++ ofMembers back := by
  induction front with
  | nil => rfl
  | cons m front ih =>
    obtain ⟨name, v⟩ := m
    rw [List.cons_append, ofMembers, ofMembers, ih, List.cons_append]

theorem find_append (other : name ∉ front.map Prod.fst) :
    find (ofMembers (front ++ back)) name = find (ofMembers back) name := by
  induction front with
  | nil => rfl
  | cons m front ih =>
    obtain ⟨own, v⟩ := m
    obtain ⟨differ, later⟩ := not_or.mp fun same => other (List.mem_cons.mpr same)
    rw [List.cons_append, ofMembers, find_cons_other differ, ih later]

theorem mem_ofMembers {own : Option String} {d : Draft} (inside : (own, d) ∈ ofMembers members) :
    ∃ name, own = some name ∧ name ∈ members.map Prod.fst := by
  have named : own ∈ (ofMembers members).map Prod.fst := List.mem_map_of_mem inside
  rw [names_ofMembers] at named
  obtain ⟨name, listed, same⟩ := List.mem_map.mp named
  exact ⟨name, same.symm, listed⟩

/-- Only members of some names are left if all others are taken away. -/
theorem filter_ofMembers {f : Option String → Bool} (all : ∀ name ∈ members.map Prod.fst, f (some name) = true) :
    (ofMembers members).filter (fun m => f m.1) = ofMembers members := by
  rw [List.filter_eq_self]
  intro m inside
  obtain ⟨name, own, listed⟩ := mem_ofMembers inside
  rw [own]
  exact all name listed

end Draft

/-! ## What is restored -/

variable {α β : Type}

/-- The value is read as `a` wherever it may nest deep enough. -/
structure Decoder.Restores (dec : Decoder α) (v : Value) (a : α) : Prop where
  reads : ∀ room origin, v.depth ≤ room → dec ⟨room, origin⟩ (.ofValue v) = .ok a
  bounded : v.Bounded

namespace Decoder

/-- A whole text is read as what its value was written for. -/
theorem Restores.decode_print {dec : Decoder α} {v : Value} {a : α} (restores : dec.Restores v a)
    (finite : v.Finite) (inverts : v.Inverts) (shallow : v.depth ≤ maximalNesting) :
    (Manuscript.ofGlyphs (Glyph.ofString v.print)).decode dec = .ok a := by
  rw [Manuscript.ofGlyphs_print (restores.bounded.legible finite inverts), Manuscript.decode]
  exact bind_ok.mpr ⟨a, restores.reads maximalNesting .text shallow, rfl⟩

namespace Restores

variable {dec : Decoder α} {v : Value} {a : α}

theorem map {f : α → β} (restores : dec.Restores v a) : Restores (fun s d => (dec s d).map f) v (f a) where
  reads room origin shallow := by rw [restores.reads room origin shallow]; rfl
  bounded := restores.bounded

/-! ### Values without members -/

theorem bool (b : Bool) : Decoder.bool.Restores (.bool b) b := ⟨fun _ _ _ => rfl, nofun⟩

theorem string (s : String) : Decoder.string.Restores (.text s) s := ⟨fun _ _ _ => rfl, nofun⟩

theorem double (x : Float) : Decoder.double.Restores (.double x) x where
  reads _ _ _ := rfl
  bounded _ member := nomatch List.mem_singleton.mp member

theorem whole {least greatest n : Int} (low : least ≤ n) (high : n ≤ greatest) (fits : Fits64 n) :
    (Decoder.whole least greatest).Restores (.whole n) n where
  reads _ _ _ := if_pos ⟨low, high⟩
  bounded m member := by
    cases List.mem_singleton.mp member
    exact fits

/-- A number without a sign is read back if it fits the type. -/
theorem unsigned {ofNat : Nat → α} {size n : Nat} (fits : n < size) (small : size ≤ UInt64.size)
    (same : ofNat n = a) :
    Restores (fun s d => (Decoder.whole 0 (size - 1) s d).map fun n => ofNat n.toNat) (.whole n) a := by
  subst same
  have most : UInt64.size = 18446744073709551616 := rfl
  have least : Int64.minValue.toInt = -9223372036854775808 := by decide
  have fits64 : Fits64 n := ⟨by omega, by omega⟩
  exact (whole (Int.natCast_nonneg n) (by omega) fits64).map

theorem byte (n : UInt8) : Decoder.byte.Restores (.whole n.toNat) n :=
  unsigned n.toNat_lt (by decide) UInt8.ofNat_toNat

theorem word (n : UInt32) : Decoder.word.Restores (.whole n.toNat) n :=
  unsigned n.toNat_lt (by decide) UInt32.ofNat_toNat

theorem longWord (n : UInt64) : Decoder.longWord.Restores (.whole n.toNat) n :=
  unsigned n.toNat_lt (Nat.le_refl _) UInt64.ofNat_toNat

theorem integer (n : Int32) : Decoder.integer.Restores (.whole n.toInt) n := by
  have low : Int32.minValue.toInt ≤ n.toInt := n.minValue_le_toInt
  have high : n.toInt ≤ Int32.maxValue.toInt := n.toInt_le
  have fits : Fits64 n.toInt := by
    have least : Int32.minValue.toInt = -2147483648 := by decide
    have greatest : Int32.maxValue.toInt = 2147483647 := by decide
    have least64 : Int64.minValue.toInt = -9223372036854775808 := by decide
    have most : UInt64.size = 18446744073709551616 := rfl
    exact ⟨by omega, by omega⟩
  have restores := (whole low high fits).map (f := Int32.ofInt)
  rwa [Int32.ofInt_toInt] at restores

theorem choice {names : List (String × α)} {name : String} (listed : names.lookup name = some a) :
    (Decoder.choice names).Restores (.text name) a where
  reads _ origin _ := by
    show named names name = .ok a
    rw [named, listed]
  bounded := nofun

theorem null : (Decoder.optional dec).Restores .null none := ⟨fun _ _ _ => rfl, nofun⟩

theorem some (restores : dec.Restores v a) (solid : v ≠ .null) : (Decoder.optional dec).Restores v (some a) where
  reads room origin shallow := by
    have read := restores.reads room origin shallow
    cases v with
    | null => exact absurd rfl solid
    | _ => rw [Decoder.optional, read] <;> first | rfl | nofun
  bounded := restores.bounded

theorem optional {write : α → Value} (restores : ∀ a, dec.Restores (write a) a) (solid : ∀ a, write a ≠ .null)
    (o : Option α) : (Decoder.optional dec).Restores (.ofOption write o) o := by
  cases o with
  | none => exact null
  | some a => exact (restores a).some (solid a)

/-! ### Lists and tables -/

theorem nil : (Decoder.list dec).Restores (.list []) [] where
  reads room origin shallow := by
    obtain ⟨room, rfl⟩ := Nat.exists_eq_add_one.mpr (Nat.zero_lt_of_lt shallow)
    rfl
  bounded := nofun

theorem cons {rest : List Value} {as : List α} (first : dec.Restores v a)
    (later : (Decoder.list dec).Restores (.list rest) as) :
    (Decoder.list dec).Restores (.list (v :: rest)) (a :: as) where
  reads room origin shallow := by
    obtain ⟨room, rfl⟩ := Nat.exists_eq_add_one.mpr (Nat.zero_lt_of_lt shallow)
    obtain ⟨own, others⟩ := Nat.max_le.mp (Nat.le_of_succ_le_succ shallow)
    have steps (items : List Draft) : Decoder.list dec ⟨room + 1, origin⟩ (.list items none) =
        items.mapM (dec ⟨room, origin⟩) >>= fun values => .ok values := rfl
    have read := later.reads (room + 1) origin (Nat.succ_le_succ others)
    rw [Draft.ofValue, steps, bind_ok] at read ⊢
    obtain ⟨_, read, ⟨⟩⟩ := read
    refine ⟨a :: as, ?_, rfl⟩
    rw [Draft.ofItems, List.mapM_cons, first.reads room origin own, read]
    rfl
  bounded n member := (List.mem_append.mp member).elim (first.bounded n) (later.bounded n)

/-- Entries that come in the order of their names are put one behind the other. -/
theorem table_go {write : α → Value} {s : Setting} {entries done : List (String × α)}
    (sorted : (done ++ entries).Pairwise (·.1 < ·.1))
    (read : ∀ entry ∈ entries, dec s (.ofValue (write entry.2)) = .ok entry.2) :
    table.go dec s (Draft.ofMembers (entries.map fun entry => (entry.1, write entry.2))) done =
      .ok (done ++ entries) := by
  induction entries generalizing done with
  | nil => rw [List.append_nil]; rfl
  | cons entry rest ih =>
    obtain ⟨name, a⟩ := entry
    rw [List.forall_mem_cons] at read
    have above : ∀ entry ∈ done, entry.1 < name := fun entry member =>
      (List.pairwise_append.mp sorted).2.2 entry member _ List.mem_cons_self
    have next : done ++ (name, a) :: rest = (done ++ [(name, a)]) ++ rest := by simp
    rw [next] at sorted ⊢
    rw [← ih sorted read.2, ← putMember_last above, List.map_cons, Draft.ofMembers, table.go, read.1]
    rfl

theorem table {write : α → Value} {entries : List (String × α)} (sorted : entries.Pairwise (·.1 < ·.1))
    (restores : ∀ a, dec.Restores (write a) a) :
    (Decoder.table dec).Restores (.object (entries.map fun entry => (entry.1, write entry.2))) entries where
  reads room origin shallow := by
    obtain ⟨room, rfl⟩ := Nat.exists_eq_add_one.mpr (Nat.zero_lt_of_lt shallow)
    have each := Value.memberDepth_le.mp (Nat.le_of_succ_le_succ shallow)
    refine bind_ok.mpr ⟨⟨room, origin⟩, rfl, bind_ok.mpr ⟨entries, ?_, rfl⟩⟩
    exact table_go sorted fun entry member => (restores entry.2).reads room origin (each _ (List.mem_map_of_mem member))
  bounded := by
    rw [Value.bounded_object]
    intro m member
    obtain ⟨entry, _, rfl⟩ := List.mem_map.mp member
    exact (restores entry.2).bounded

end Restores

end Decoder

/-! ## Records and tagged unions -/

namespace Record

open Draft (find ofMembers)

variable {types : List Type} {fields : Fields types} {s : Setting} {members : List (String × Value)}
  {row : Row types} {room : Nat} {origin : Origin}

/-- The members are written in the order of the fields, and each field restores its value. -/
inductive Writes : {types : List Type} → Fields types → List (String × Value) → Row types → Prop where
  | nil : @Writes [] () [] ()
  | cons {α : Type} {types : List Type} {field : Field α} {fields : Fields types} {v : Value} {a : α}
    {rest : List (String × Value)} {row : Row types} (restores : field.decoder.Restores v a)
    (later : Writes fields rest row) : @Writes (α :: types) (field, fields) ((field.name, v) :: rest) (a, row)

theorem read_congr {find find' : String → Option Draft} (same : ∀ name ∈ fields.names, find' name = find name) :
    read s find' fields = read s find fields := by
  induction types with
  | nil => rfl
  | cons _ types ih =>
    obtain ⟨field, fields⟩ := fields
    rw [Fields.names, List.forall_mem_cons] at same
    rw [read, read, ih same.2, value, value, same.1]

theorem Writes.names_eq (writes : Writes fields members row) : members.map Prod.fst = fields.names := by
  induction writes with
  | nil => rfl
  | cons restores writes ih => rw [List.map_cons, ih]; rfl

theorem Writes.bounded (writes : Writes fields members row) : (Value.object members).Bounded := by
  rw [Value.bounded_object]
  induction writes with
  | nil => nofun
  | cons restores writes ih => exact List.forall_mem_cons.mpr ⟨restores.bounded, ih⟩

theorem Writes.read (writes : Writes fields members row) (declared : fields.names.Nodup)
    (shallow : Value.memberDepth members ≤ room) :
    read ⟨room, origin⟩ (find (ofMembers members)) fields = some row := by
  induction writes with
  | nil => rfl
  | @cons _ _ field fields v a rest row restores writes ih =>
    obtain ⟨apart, declared⟩ := List.nodup_cons.mp declared
    obtain ⟨own, others⟩ := Nat.max_le.mp shallow
    have first : value ⟨room, origin⟩ (find (ofMembers ((field.name, v) :: rest))) field = some a := by
      rw [value, ofMembers, Draft.find_cons_self]
      exact toOption_eq_some.mpr (restores.reads room origin own)
    have later : Record.read ⟨room, origin⟩ (find (ofMembers ((field.name, v) :: rest))) fields = some row := by
      rw [← ih declared others]
      exact read_congr fun name known => Draft.find_cons_other fun same => apart (same ▸ known)
    rw [Record.read, first, later]
    rfl

/-- A record is restored from the members of its fields. -/
theorem make_restores {f : Row types → α} {a : α} (declared : fields.names.Nodup)
    (writes : Writes fields members row) (made : f row = a) : (make fields f).Restores (.object members) a where
  reads room origin shallow := by
    obtain ⟨room, rfl⟩ := Nat.exists_eq_add_one.mpr (Nat.zero_lt_of_lt shallow)
    have shallow : Value.memberDepth members ≤ room := Nat.le_of_succ_le_succ shallow
    have distinct : Draft.Distinct (ofMembers members) := Draft.distinct_ofMembers (writes.names_eq ▸ declared)
    have read : decoder fields ⟨room + 1, origin⟩ (.object (ofMembers members) none) = .ok row :=
      (decoder_object declared distinct).mpr ⟨(Draft.keeps_ofMembers shallow).fits _, writes.read declared shallow⟩
    rw [make, Draft.ofValue, read, ← made]
    rfl
  bounded := writes.bounded

end Record

/-- What was written behind a tag is restored by the variant that the tag selects. -/
theorem Variants.restores {v : Variants α} {tag : String} {members : List (String × Value)} {variant : Decoder α}
    {a : α} (distinct : ("type" :: members.map Prod.fst).Nodup)
    (selects : ∀ s, v.select s (.text (some tag)) = .ok variant)
    (record : variant.Restores (.object members) a) :
    v.decoder.Restores (.object (("type", .text tag) :: members)) a where
  reads room origin shallow := by
    obtain ⟨room, rfl⟩ := Nat.exists_eq_add_one.mpr (Nat.zero_lt_of_lt shallow)
    have shallow : Value.memberDepth members ≤ room := (Nat.max_le.mp (Nat.le_of_succ_le_succ shallow)).2
    have others : untagged (Draft.ofMembers (("type", .text tag) :: members)) = Draft.ofMembers members := by
      rw [untagged, Draft.ofMembers, List.filter_cons, if_neg (by simp)]
      refine Draft.filter_ofMembers (f := fun name => decide (name ≠ some "type")) fun name listed => ?_
      have differ : name ≠ "type" := fun same => (List.nodup_cons.mp distinct).1 (same ▸ listed)
      simpa using differ
    have apart : Draft.Distinct (Draft.ofMembers (("type", .text tag) :: members)) := Draft.distinct_ofMembers distinct
    rw [Draft.ofValue, decoder_object apart, others]
    exact ⟨Draft.keeps_ofMembers shallow, _, variant, Draft.find_cons_self, selects _,
      record.reads (room + 1) .member (Nat.succ_le_succ shallow)⟩
  bounded := Value.bounded_object.mpr <| List.forall_mem_cons.mpr ⟨nofun, Value.bounded_object.mp record.bounded⟩

end Screenplay.Json
