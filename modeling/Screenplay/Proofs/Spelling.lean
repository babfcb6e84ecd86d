import Mathlib.Data.List.Forall2
import Screenplay.Proofs.Numerals

/-!
Reading the text of a value. Escaped characters are read as the characters (`Draft.readText_escaped`), and
the text of a value as that value, whatever ends it (`Draft.readValue_print`).
-/
namespace Screenplay.Json

namespace Draft

variable {gs rest after : List Glyph} {c : Char} {p : Piece} {ps : List Piece} {cs : List Char}

/-! ## Strings -/

/-- The piece that a character is written as. -/
inductive Stands : Char → Piece → Prop where
  | plain (c : Char) : Stands c (.char c)
  | control (c : Char) (small : c.toNat < 0x20) : Stands c (.unit c.toNat)

/-- A character is read as it was escaped. -/
theorem pieces_escape (c : Char) (gs : List Glyph) :
    ∃ p, Stands c p ∧ pieces ((escape c).map .char ++ gs) = (p :: (pieces gs).1, (pieces gs).2) := by
  have hex : ∀ n < 0x20, unit? (.char '0') (.char '0') (.char (hexDigit (n / 16))) (.char (hexDigit n)) =
      some n := by decide
  unfold escape
  split
  iterate 7 exact ⟨_, .plain _, rfl⟩
  split
  · rename_i small
    refine ⟨_, .control c small, ?_⟩
    simp only [List.map_cons, List.map_nil, List.cons_append, List.nil_append]
    rw [pieces, hex _ small]
  · rename_i quote backslash _ _ _ _ _ large
    refine ⟨_, .plain c, ?_⟩
    show pieces (.char c :: gs) = _
    rw [pieces, if_neg large]
    · exact quote
    all_goals
      intros
      exact backslash ‹_›

theorem pieces_escaped (cs : List Char) (rest : List Glyph) :
    ∃ ps, List.Forall₂ Stands cs ps ∧
      pieces ((cs.flatMap escape).map .char ++ .char '"' :: rest) = (ps, .ok rest) := by
  induction cs with
  | nil => exact ⟨[], .nil, rfl⟩
  | cons c cs ih =>
    obtain ⟨ps, stand, later⟩ := ih
    obtain ⟨p, stands, first⟩ := pieces_escape c ((cs.flatMap escape).map .char ++ .char '"' :: rest)
    refine ⟨p :: ps, .cons stands stand, ?_⟩
    rw [List.flatMap_cons, List.map_append, List.append_assoc, first, later]

theorem not_high_of_small {n : Nat} (small : n < 0x20) : isHighSurrogate n = false := by
  simp [isHighSurrogate]
  omega

theorem hasLoneSurrogate_stand (stand : List.Forall₂ Stands cs ps) (complete : Bool) :
    hasLoneSurrogate complete ps = false := by
  induction stand with
  | nil => rfl
  | @cons c p cs ps stands _ ih =>
    cases stands with
    | plain => exact ih
    | control small =>
      have low : isLowSurrogate c.toNat = false := by simp [isLowSurrogate]; omega
      unfold hasLoneSurrogate
      simpa [low, not_high_of_small small] using ih

theorem characters_unit {n : Nat} (single : isHighSurrogate n = false) :
    characters (.unit n :: ps) = (characters ps).map (Char.ofNat n :: ·) := by
  rcases ps with _ | ⟨_ | _ | _, ps⟩ <;> simp [characters, single]

theorem characters_stand (stand : List.Forall₂ Stands cs ps) : characters ps = some cs := by
  induction stand with
  | nil => rfl
  | @cons c p cs ps stands _ ih =>
    cases stands with
    | plain => rw [characters, ih]; rfl
    | control small => rw [characters_unit (not_high_of_small small), ih, Option.map_some, Char.ofNat_toNat]

/-- An escaped string is read as the string. -/
theorem readText_escaped (s : String) (rest : List Glyph) :
    readText ((s.toList.flatMap escape).map .char ++ .char '"' :: rest) = .ok (some s, rest) := by
  obtain ⟨ps, stand, read⟩ := pieces_escaped s.toList rest
  simp only [readText, read, hasLoneSurrogate_stand stand, characters_stand stand, Option.map_some,
    String.ofList_toList]
  rfl

/-! ## Steps of the reader -/

variable {fuel : Nat} {d : Draft} {g : Glyph}

theorem skipBlanks_cons (dark : isBlank g = false) : skipBlanks (g :: gs) = g :: gs := by
  rw [skipBlanks, List.dropWhile_cons, dark]
  rfl

/-- Something begins here, so that neither a list nor an object ends. -/
def Begins (gs : List Glyph) : Prop :=
  ∃ c rest, gs = .char c :: rest ∧ isBlank (.char c) = false ∧ c ≠ ']' ∧ c ≠ '\x7d'

theorem Begins.append (begins : Begins gs) (rest : List Glyph) : Begins (gs ++ rest) := by
  obtain ⟨c, tail, rfl, own⟩ := begins
  exact ⟨c, tail ++ rest, rfl, own⟩

theorem readValue_text {s : Option String} (read : readText gs = .ok (s, rest)) :
    readValue (fuel + 1) (.char '"' :: gs) = (.text s, some rest) := by
  rw [readValue, skipBlanks_cons (by decide)]
  simp only [read]

/-- No character but a digit or a minus sign begins a number. -/
theorem first_ne {n : Numeral} {c c' : Char} (read : readNumeral (.char c :: gs) = .ok (n, after))
    (other : c' ≠ '-' ∧ c'.isDigit = false) : c ≠ c' := by
  rintro rfl
  obtain ⟨c, tail, ⟨⟩, first⟩ := first_of_readNumeral read
  exact first.elim other.1 fun digit => Bool.false_ne_true (other.2.symm.trans digit)

theorem Begins.of_readNumeral {n : Numeral} (read : readNumeral gs = .ok (n, after)) : Begins gs := by
  obtain ⟨c, tail, rfl, _⟩ := first_of_readNumeral read
  have blank : c ≠ ' ' ∧ c ≠ '\n' ∧ c ≠ '\t' ∧ c ≠ '\r' :=
    ⟨first_ne read (by decide), first_ne read (by decide), first_ne read (by decide),
      first_ne read (by decide)⟩
  exact ⟨c, tail, rfl, by simpa [isBlank, and_assoc] using blank, first_ne read (by decide),
    first_ne read (by decide)⟩

theorem readValue_number {n : Numeral} (read : readNumeral gs = .ok (n, rest)) :
    readValue (fuel + 1) gs = (.number n.value, some rest) := by
  obtain ⟨c, tail, rfl, dark, _⟩ := Begins.of_readNumeral read
  obtain ⟨c, tail, ⟨⟩, first⟩ := first_of_readNumeral read
  rw [readValue, skipBlanks_cons dark]
  split
  case h_1 same => cases same
  case h_8 same =>
    cases same
    rw [if_pos first, read]
  case h_9 same => cases same
  all_goals
    rename_i same
    cases same
    exact absurd rfl (first_ne read (by decide))

theorem readValue_list (begins : Begins gs) : readValue (fuel + 1) (.char '[' :: gs) =
    (.list (readItems fuel gs).1 (readItems fuel gs).2.1, (readItems fuel gs).2.2) := by
  obtain ⟨c, tail, rfl, dark, bracket, _⟩ := begins
  rw [readValue, skipBlanks_cons (by decide)]
  simp only [skipBlanks_cons dark]
  split
  · rename_i same
    cases same
    exact absurd rfl bracket
  · rename_i same
    cases same
  · rfl

theorem readValue_object (begins : Begins gs) : readValue (fuel + 1) (.char '\x7b' :: gs) =
    (.object (readMembers fuel gs).1 (readMembers fuel gs).2.1, (readMembers fuel gs).2.2) := by
  obtain ⟨c, tail, rfl, dark, _, brace⟩ := begins
  rw [readValue, skipBlanks_cons (by decide)]
  simp only [skipBlanks_cons dark]
  split
  · rename_i same
    cases same
    exact absurd rfl brace
  · rfl

theorem readItems_last (read : readValue fuel gs = (d, some (.char ']' :: rest))) :
    readItems (fuel + 1) gs = ([d], none, some rest) := by
  rw [readItems, read]
  simp only [skipBlanks_cons (g := .char ']') (by decide)]

theorem readItems_more (read : readValue fuel gs = (d, some (.char ',' :: rest))) :
    readItems (fuel + 1) gs =
      (d :: (readItems fuel rest).1, (readItems fuel rest).2.1, (readItems fuel rest).2.2) := by
  rw [readItems, read]
  simp only [skipBlanks_cons (g := .char ',') (by decide)]

theorem ofString_quote (s : String) (rest : List Glyph) : Glyph.ofString (quote s) ++ rest =
    .char '"' :: ((s.toList.flatMap escape).map .char ++ .char '"' :: rest) := by
  simp [quote, Glyph.ofString]

theorem readValue_quote (s : String) (rest : List Glyph) :
    readValue (fuel + 1) (Glyph.ofString (quote s) ++ rest) = (.text (some s), some rest) := by
  rw [ofString_quote]
  exact readValue_text (readText_escaped s rest)

theorem readMembers_last (name : String) (read : readValue fuel gs = (d, some (.char '\x7d' :: rest))) :
    readMembers (fuel + 1) (Glyph.ofString (quote name) ++ .char ':' :: gs) = ([(some name, d)], none, some rest) := by
  rw [ofString_quote, readMembers, skipBlanks_cons (by decide)]
  simp only [readText_escaped, skipBlanks_cons (g := .char ':') (by decide), read,
    skipBlanks_cons (g := .char '\x7d') (by decide)]

theorem readMembers_more (name : String) (read : readValue fuel gs = (d, some (.char ',' :: rest))) :
    readMembers (fuel + 1) (Glyph.ofString (quote name) ++ .char ':' :: gs) =
      ((some name, d) :: (readMembers fuel rest).1, (readMembers fuel rest).2.1.map Break.afterComma,
        (readMembers fuel rest).2.2) := by
  rw [ofString_quote, readMembers, skipBlanks_cons (by decide)]
  simp only [readText_escaped, skipBlanks_cons (g := .char ':') (by decide), read,
    skipBlanks_cons (g := .char ',') (by decide)]

end Draft

/-! ## Values -/

namespace Value

mutual

/-- The numbers in a value. -/
def numbers : Value → List Number
  | .number n => [n]
  | .list items => itemNumbers items
  | .object members => memberNumbers members
  | _ => []

def itemNumbers : List Value → List Number
  | [] => []
  | v :: rest => v.numbers ++ itemNumbers rest

def memberNumbers : List (String × Value) → List Number
  | [] => []
  | (_, v) :: rest => v.numbers ++ memberNumbers rest

end

/-- All numbers have a text that is read as the number. -/
def Legible (v : Value) : Prop := ∀ n ∈ v.numbers, n.Legible

end Value

namespace Draft

variable {rest : List Glyph} {fuel : Nat}

theorem begins_quote (s : String) : Begins (Glyph.ofString (quote s)) :=
  ⟨'"', _, by simpa using ofString_quote s [], by decide⟩

theorem begins_print {v : Value} (legible : v.Legible) : Begins (Glyph.ofString v.print) := by
  cases v with
  | null => exact ⟨'n', _, rfl, by decide⟩
  | bool b => cases b <;> exact ⟨_, _, rfl, by decide⟩
  | number n =>
    obtain ⟨numeral, read, _⟩ := readNumeral_text (legible n List.mem_cons_self)
    exact .of_readNumeral read
  | text s => exact begins_quote s
  | list items =>
    rw [Value.print, Glyph.ofString_append, Glyph.ofString_append]
    exact ⟨'[', _, rfl, by decide⟩
  | object members =>
    rw [Value.print, Glyph.ofString_append, Glyph.ofString_append]
    exact ⟨'\x7b', _, rfl, by decide⟩

/-- The texts of some items between the brackets. -/
def itemGlyphs (items : List Value) : List Glyph := Glyph.ofString (",".intercalate (Value.printItems items))

/-- The texts of some members between the braces. -/
def memberGlyphs (members : List (String × Value)) : List Glyph :=
  Glyph.ofString (",".intercalate (Value.printMembers members))

theorem itemGlyphs_one (v : Value) : itemGlyphs [v] = Glyph.ofString v.print := by
  rw [itemGlyphs, Value.printItems, Value.printItems, String.intercalate_singleton]

theorem itemGlyphs_cons (v w : Value) (items : List Value) : itemGlyphs (v :: w :: items) =
    Glyph.ofString v.print ++ .char ',' :: itemGlyphs (w :: items) := by
  rw [itemGlyphs, Value.printItems, Value.printItems, String.intercalate_cons_cons, Glyph.ofString_append,
    Glyph.ofString_append, List.append_assoc]
  rfl

theorem memberGlyphs_one (name : String) (v : Value) :
    memberGlyphs [(name, v)] = Glyph.ofString (quote name) ++ .char ':' :: Glyph.ofString v.print := by
  rw [memberGlyphs, Value.printMembers, Value.printMembers, String.intercalate_singleton, Glyph.ofString_append,
    Glyph.ofString_append, List.append_assoc]
  rfl

theorem memberGlyphs_cons (name : String) (v : Value) (m : String × Value) (members : List (String × Value)) :
    memberGlyphs ((name, v) :: m :: members) = Glyph.ofString (quote name) ++ .char ':' ::
      (Glyph.ofString v.print ++ .char ',' :: memberGlyphs (m :: members)) := by
  obtain ⟨name', w⟩ := m
  rw [memberGlyphs, Value.printMembers, Value.printMembers, String.intercalate_cons_cons, Glyph.ofString_append,
    Glyph.ofString_append, Glyph.ofString_append, Glyph.ofString_append]
  simp only [List.append_assoc]
  rfl

theorem ofString_list (items : List Value) :
    Glyph.ofString (Value.list items).print = .char '[' :: (itemGlyphs items ++ [.char ']']) := by
  rw [Value.print, Glyph.ofString_append, Glyph.ofString_append, List.append_assoc]
  rfl

theorem ofString_object (members : List (String × Value)) :
    Glyph.ofString (Value.object members).print = .char '\x7b' :: (memberGlyphs members ++ [.char '\x7d']) := by
  rw [Value.print, Glyph.ofString_append, Glyph.ofString_append, List.append_assoc]
  rfl

theorem begins_items {v : Value} (legible : v.Legible) (items : List Value) : Begins (itemGlyphs (v :: items)) := by
  cases items with
  | nil => rw [itemGlyphs_one]; exact begins_print legible
  | cons w items => rw [itemGlyphs_cons]; exact (begins_print legible).append _

theorem begins_members (name : String) (v : Value) (members : List (String × Value)) :
    Begins (memberGlyphs ((name, v) :: members)) := by
  cases members with
  | nil => rw [memberGlyphs_one]; exact (begins_quote name).append _
  | cons m members => rw [memberGlyphs_cons]; exact (begins_quote name).append _

mutual

/-- The text of a value is read as the value, whatever ends it. -/
theorem readValue_print (v : Value) (legible : v.Legible) (fuel : Nat)
    (enough : (Glyph.ofString v.print).length < fuel) (rest : List Glyph) (stops : Stops rest) :
    readValue fuel (Glyph.ofString v.print ++ rest) = (.ofValue v, some rest) := by
  obtain ⟨fuel, rfl⟩ := Nat.exists_eq_add_one.mpr (Nat.zero_lt_of_lt enough)
  cases v with
  | null => rfl
  | bool b => cases b <;> rfl
  | number n =>
    obtain ⟨numeral, read, value⟩ := readNumeral_text (legible n List.mem_cons_self)
    rw [Value.print, readValue_number (readNumeral_append stops read), value]
    rfl
  | text s => exact readValue_quote s rest
  | list items =>
    cases items with
    | nil => rfl
    | cons v items =>
      have first : v.Legible := fun n member => legible n (List.mem_append_left _ member)
      rw [ofString_list] at enough ⊢
      rw [List.cons_append, List.append_assoc, readValue_list ((begins_items first items).append _),
        List.singleton_append, readItems_print (v :: items) nofun legible fuel (by simpa using enough) rest]
      rfl
  | object members =>
    cases members with
    | nil => rfl
    | cons m members =>
      obtain ⟨name, v⟩ := m
      rw [ofString_object] at enough ⊢
      rw [List.cons_append, List.append_assoc, readValue_object ((begins_members name v members).append _),
        List.singleton_append,
        readMembers_print ((name, v) :: members) nofun legible fuel (by simpa using enough) rest]
      rfl

theorem readItems_print (items : List Value) (some : items ≠ [])
    (legible : ∀ n ∈ Value.itemNumbers items, n.Legible) (fuel : Nat)
    (enough : (itemGlyphs items).length + 1 < fuel) (rest : List Glyph) :
    readItems fuel (itemGlyphs items ++ .char ']' :: rest) = (ofItems items, none, .some rest) := by
  obtain ⟨fuel, rfl⟩ := Nat.exists_eq_add_one.mpr (Nat.zero_lt_of_lt enough)
  cases items with
  | nil => exact absurd rfl some
  | cons v items =>
    have first : v.Legible := fun n member => legible n (List.mem_append_left _ member)
    cases items with
    | nil =>
      rw [itemGlyphs_one] at enough ⊢
      exact readItems_last (readValue_print v first fuel (by omega) _ (.bracket rest))
    | cons w items =>
      rw [itemGlyphs_cons, List.length_append, List.length_cons] at enough
      rw [itemGlyphs_cons, List.append_assoc, List.cons_append,
        readItems_more (readValue_print v first fuel (by omega) _ (.comma _)),
        readItems_print (w :: items) nofun (fun n member => legible n (List.mem_append_right _ member)) fuel
          (by omega) rest]
      rfl

theorem readMembers_print (members : List (String × Value)) (some : members ≠ [])
    (legible : ∀ n ∈ Value.memberNumbers members, n.Legible) (fuel : Nat)
    (enough : (memberGlyphs members).length + 1 < fuel) (rest : List Glyph) :
    readMembers fuel (memberGlyphs members ++ .char '\x7d' :: rest) = (ofMembers members, none, .some rest) := by
  obtain ⟨fuel, rfl⟩ := Nat.exists_eq_add_one.mpr (Nat.zero_lt_of_lt enough)
  cases members with
  | nil => exact absurd rfl some
  | cons m members =>
    obtain ⟨name, v⟩ := m
    have first : v.Legible := fun n member => legible n (List.mem_append_left _ member)
    cases members with
    | nil =>
      rw [memberGlyphs_one, List.length_append, List.length_cons] at enough
      rw [memberGlyphs_one, List.append_assoc, List.cons_append]
      exact readMembers_last name (readValue_print v first fuel (by omega) _ (.brace rest))
    | cons m members =>
      rw [memberGlyphs_cons, List.length_append, List.length_cons, List.length_append, List.length_cons] at enough
      rw [memberGlyphs_cons, List.append_assoc, List.cons_append, List.append_assoc, List.cons_append,
        readMembers_more name (readValue_print v first fuel (by omega) _ (.comma _)),
        readMembers_print (m :: members) nofun (fun n member => legible n (List.mem_append_right _ member)) fuel
          (by omega) rest]
      rfl

end

end Draft

/-- A whole text that is the text of a value. -/
theorem Manuscript.ofGlyphs_print {v : Value} (legible : v.Legible) :
    Manuscript.ofGlyphs (Glyph.ofString v.print) = ⟨.ofValue v, false⟩ := by
  have read := Draft.readValue_print v legible (2 * (Glyph.ofString v.print).length + 2) (by omega) [] .nothing
  rw [List.append_nil] at read
  rw [Manuscript.ofGlyphs, read]
  rfl

end Screenplay.Json
