import Screenplay.Json.Draft
import Screenplay.Json.Printer
import Screenplay.Proofs.Records

/-!
Reading the text of a number. What is read of a number does not depend on what follows it, as long as
that ends the number (`Draft.readNumeral_append`); the text of a whole number is read as that number.
-/
namespace Screenplay.Json

/-- What may follow a value: nothing, a comma or a closing bracket. -/
inductive Stops : List Glyph → Prop where
  | nothing : Stops []
  | comma (rest : List Glyph) : Stops (.char ',' :: rest)
  | bracket (rest : List Glyph) : Stops (.char ']' :: rest)
  | brace (rest : List Glyph) : Stops (.char '\x7d' :: rest)

namespace Draft

variable {gs rest after : List Glyph} {g : Glyph} {n : Numeral} {negative : Bool}

/-! ## The parts of a number -/

theorem digits_append (stops : Stops rest) : digits (gs ++ rest) = ((digits gs).1, (digits gs).2 ++ rest) := by
  induction gs with
  | nil => cases stops <;> rfl
  | cons g gs ih =>
    cases digit : digit? g with
    | none => simp [digits, digit]
    | some d => simp [digits, digit, ih]

theorem readFraction_cons : readFraction (g :: gs) =
    if g = .char '.' then
      if (digits gs).1.isEmpty then .error (numberBreak (digits gs).2)
      else .ok (some (digits gs).1, (digits gs).2)
    else .ok (none, g :: gs) := by
  unfold readFraction
  split <;> simp_all

theorem readFraction_append {fraction : Option (List Nat)} (stops : Stops rest)
    (read : readFraction gs = .ok (fraction, after)) : readFraction (gs ++ rest) = .ok (fraction, after ++ rest) := by
  rcases gs with _ | ⟨g, gs⟩
  · cases read
    cases stops <;> rfl
  rw [readFraction_cons] at read
  rw [List.cons_append, readFraction_cons, digits_append stops]
  split at read
  · rw [if_pos ‹_›]
    split at read
    · cases read
    · cases read
      rw [if_neg ‹_›]
  · rw [if_neg ‹_›]
    cases read
    rfl

theorem exponentSign_cons : exponentSign (g :: gs) =
    if g = .char '+' then (false, gs) else if g = .char '-' then (true, gs) else (false, g :: gs) := by
  unfold exponentSign
  split <;> simp_all

theorem exponentSign_append (some : gs ≠ []) :
    exponentSign (gs ++ rest) = ((exponentSign gs).1, (exponentSign gs).2 ++ rest) := by
  rcases gs with _ | ⟨g, gs⟩
  · exact absurd rfl some
  rw [List.cons_append, exponentSign_cons, exponentSign_cons]
  split
  · rfl
  · split <;> rfl

/-- The digits of an exponent as a number. -/
def exponentValue (negative : Bool) (ds : List Nat) : Int :=
  let n : Nat := ds.foldl (fun n (d : Nat) => n * 10 + d) 0
  if negative then -(n : Int) else n

theorem readExponent_cons : readExponent (g :: gs) =
    if g = .char 'e' ∨ g = .char 'E' then
      if (digits (exponentSign gs).2).1.isEmpty then .error (numberBreak (digits (exponentSign gs).2).2)
      else .ok (some (exponentValue (exponentSign gs).1 (digits (exponentSign gs).2).1),
        (digits (exponentSign gs).2).2)
    else .ok (none, g :: gs) := by
  cases g with
  | stray => rfl
  | char c =>
    simp only [readExponent, Glyph.char.injEq]
    rfl

theorem readExponent_append {exponent : Option Int} (stops : Stops rest)
    (read : readExponent gs = .ok (exponent, after)) : readExponent (gs ++ rest) = .ok (exponent, after ++ rest) := by
  rcases gs with _ | ⟨g, gs⟩
  · cases read
    cases stops <;> rfl
  rw [readExponent_cons] at read
  rw [List.cons_append, readExponent_cons]
  split at read
  · rw [if_pos ‹_›]
    have some : gs ≠ [] := by
      rintro rfl
      cases read
    rw [exponentSign_append some, digits_append stops]
    split at read
    · cases read
    · cases read
      rw [if_neg ‹_›]
  · rw [if_neg ‹_›]
    cases read
    rfl

/-! ## Numbers -/

/-- Reads what follows the sign of a number. -/
def readMagnitude (negative : Bool) (gs : List Glyph) : Except Break (Numeral × List Glyph) :=
  match (digits gs).1 with
  | [] => .error (numberBreak (digits gs).2)
  | 0 :: _ :: _ => .error (Break.all .malformed)
  | whole => do
    let (fraction, rest) ← readFraction (digits gs).2
    let (exponent, rest) ← readExponent rest
    return ({ negative, whole, fraction, exponent }, rest)

theorem readNumeral_cons : readNumeral (g :: gs) =
    if g = .char '-' then readMagnitude true gs else readMagnitude false (g :: gs) := by
  unfold readNumeral
  split
  rename_i signed
  split at signed
  · rename_i same
    cases same
    cases signed
    rw [if_pos rfl, readMagnitude]
    rcases digits gs with ⟨_ | ⟨_ | d, _ | _⟩, rest⟩ <;> rfl
  · rename_i plain
    cases signed
    rw [if_neg fun minus => plain gs (by rw [minus]), readMagnitude]
    rcases digits (g :: gs) with ⟨_ | ⟨_ | d, _ | _⟩, rest⟩ <;> rfl

/-- Digits that may stand before the point: at least one, and a zero only alone. -/
def Leading : List Nat → Prop
  | [] => False
  | 0 :: _ :: _ => False
  | _ => True

theorem readMagnitude_ok : readMagnitude negative gs = .ok (n, after) ↔
    Leading (digits gs).1 ∧ n.negative = negative ∧ n.whole = (digits gs).1 ∧
      ∃ rest, readFraction (digits gs).2 = .ok (n.fraction, rest) ∧
        readExponent rest = .ok (n.exponent, after) := by
  obtain ⟨sign, digits', fraction, exponent⟩ := n
  have parts {whole : List Nat} {behind : List Glyph} :
      (readFraction behind >>= fun (fraction, rest) => readExponent rest >>= fun (exponent, rest) =>
        (.ok (⟨negative, whole, fraction, exponent⟩, rest) : Except Break (Numeral × List Glyph))) =
          .ok (⟨sign, digits', fraction, exponent⟩, after) ↔
        True ∧ sign = negative ∧ digits' = whole ∧
          ∃ rest, readFraction behind = .ok (fraction, rest) ∧ readExponent rest = .ok (exponent, after) := by
    rw [true_and, bind_ok]
    constructor
    · rintro ⟨⟨fraction, rest⟩, first, later⟩
      obtain ⟨⟨exponent, rest'⟩, second, ⟨⟩⟩ := bind_ok.mp later
      exact ⟨rfl, rfl, rest, first, second⟩
    · rintro ⟨rfl, rfl, rest, first, second⟩
      exact ⟨_, first, bind_ok.mpr ⟨_, second, rfl⟩⟩
  rw [readMagnitude]
  rcases digits gs with ⟨_ | ⟨_ | d, _ | ⟨d', whole⟩⟩, behind⟩
  · exact ⟨nofun, fun ⟨leading, _⟩ => leading.elim⟩
  · exact parts
  · exact ⟨nofun, fun ⟨leading, _⟩ => leading.elim⟩
  · exact parts
  · exact parts

theorem readMagnitude_append (stops : Stops rest) (read : readMagnitude negative gs = .ok (n, after)) :
    readMagnitude negative (gs ++ rest) = .ok (n, after ++ rest) := by
  obtain ⟨leading, sign, whole, behind, fraction, exponent⟩ := readMagnitude_ok.mp read
  refine readMagnitude_ok.mpr ?_
  rw [digits_append stops]
  exact ⟨leading, sign, whole, _, readFraction_append stops fraction, readExponent_append stops exponent⟩

/-- A number is read alike whatever follows it. -/
theorem readNumeral_append (stops : Stops rest) (read : readNumeral gs = .ok (n, after)) :
    readNumeral (gs ++ rest) = .ok (n, after ++ rest) := by
  rcases gs with _ | ⟨g, gs⟩
  · cases read
  rw [readNumeral_cons] at read
  rw [List.cons_append, readNumeral_cons]
  split at read
  · rw [if_pos ‹_›]
    exact readMagnitude_append stops read
  · rw [if_neg ‹_›]
    exact readMagnitude_append stops read

/-- A number begins with a sign or a digit. -/
theorem first_of_readNumeral (read : readNumeral gs = .ok (n, after)) :
    ∃ c rest, gs = .char c :: rest ∧ (c = '-' ∨ c.isDigit = true) := by
  rcases gs with _ | ⟨g, gs⟩
  · cases read
  rw [readNumeral_cons] at read
  split at read
  · exact ⟨'-', gs, by rw [‹g = _›], .inl rfl⟩
  have leading := (readMagnitude_ok.mp read).1
  rcases g with c | _
  · refine ⟨c, gs, rfl, .inr ?_⟩
    rw [digits, digit?] at leading
    by_cases range : '0' ≤ c ∧ c ≤ '9'
    · simpa [Char.isDigit, Char.le_def] using range
    · rw [if_neg range] at leading
      exact leading.elim
  · exact leading.elim

theorem readNumeral_unsigned (some : Leading (digits gs).1) : readNumeral gs = readMagnitude false gs := by
  rcases gs with _ | ⟨g, gs⟩
  · exact some.elim
  rw [readNumeral_cons, if_neg]
  rintro rfl
  exact some.elim

end Draft

/-! ## Whole numbers -/

theorem Glyph.ofString_append (s t : String) : ofString (s ++ t) = ofString s ++ ofString t := by
  rw [ofString, String.toList_append, List.map_append]
  rfl

/-- The digits of a number as numbers. -/
def decimal (m : Nat) : List Nat := (Nat.toDigits 10 m).map fun c => c.toNat - '0'.toNat

theorem decimal_value (m : Nat) : (decimal m).foldl (fun n d => n * 10 + d) 0 = m := by
  have value := Nat.ofDigitChars_ten_toDigits (n := m)
  rw [Nat.ofDigitChars_eq_foldl] at value
  rw [decimal, List.foldl_map]
  simpa only [Nat.mul_comm] using value

theorem decimal_step {m : Nat} (more : 10 ≤ m) : decimal m = decimal (m / 10) ++ [m % 10] := by
  have digit : (m % 10).digitChar.toNat - '0'.toNat = m % 10 := by
    have all : ∀ d < 10, d.digitChar.toNat - '0'.toNat = d := by decide
    exact all _ (Nat.mod_lt _ (by decide))
  rw [decimal, Nat.toDigits_eq_if (by decide), if_neg (Nat.not_lt.mpr more), List.map_append,
    List.map_singleton, digit]
  rfl

theorem decimal_digit {m : Nat} (one : m < 10) : decimal m = [m] := by
  have all : ∀ d < 10, decimal d = [d] := by decide
  exact all m one

/-- A number other than zero does not begin with a zero. -/
theorem decimal_head {m : Nat} (positive : 0 < m) : ∃ d rest, decimal m = (d + 1) :: rest := by
  induction m using Nat.strongRecOn with
  | ind m ih =>
    by_cases one : m < 10
    · exact ⟨m - 1, [], by rw [decimal_digit one, Nat.sub_add_cancel positive]⟩
    · obtain ⟨d, rest, first⟩ := ih (m / 10) (Nat.div_lt_self positive (by decide)) (by omega)
      exact ⟨d, rest ++ [m % 10], by rw [decimal_step (by omega), first]; rfl⟩

theorem decimal_leading (m : Nat) : Draft.Leading (decimal m) := by
  rcases Nat.eq_zero_or_pos m with rfl | positive
  · rw [decimal_digit (by decide)]
    trivial
  · obtain ⟨d, rest, first⟩ := decimal_head positive
    rw [first]
    trivial

theorem digits_chars {cs : List Char} (all : ∀ c ∈ cs, c.isDigit = true) :
    Draft.digits (cs.map .char) = (cs.map fun c => c.toNat - '0'.toNat, []) := by
  induction cs with
  | nil => rfl
  | cons c rest ih =>
    rw [List.forall_mem_cons] at all
    have digit : Draft.digit? (.char c) = some (c.toNat - '0'.toNat) := by
      have range : '0' ≤ c ∧ c ≤ '9' := by simpa [Char.isDigit, Char.le_def] using all.1
      rw [Draft.digit?, if_pos range]
    simp only [List.map_cons, Draft.digits, digit, ih all.2]

theorem digits_repr (m : Nat) : Draft.digits (Glyph.ofString m.repr) = (decimal m, []) := by
  rw [Glyph.ofString, Nat.repr_eq_ofList_toDigits, String.toList_ofList]
  exact digits_chars fun c member => Nat.isDigit_of_mem_toDigits (by decide) (by decide) member

namespace Numeral

theorem le_foldl (n : Nat) (ds : List Nat) : n ≤ ds.foldl (fun n d => n * 10 + d) n := by
  induction ds generalizing n with
  | nil => exact Nat.le_refl n
  | cons d rest ih => exact Nat.le_trans (by omega) (ih (n * 10 + d))

/-- Digits that fit are all gathered. -/
theorem gather_of_lt {n : Nat} {ds : List Nat} (fits : ds.foldl (fun n d => n * 10 + d) n < UInt64.size) :
    gather n ds = (ds.foldl (fun n d => n * 10 + d) n, []) := by
  induction ds generalizing n with
  | nil => rfl
  | cons d rest ih =>
    have next : n * 10 + d < UInt64.size := Nat.lt_of_le_of_lt (le_foldl _ rest) fits
    rw [gather, if_pos next]
    exact ih fits

theorem gather_decimal {m : Nat} (fits : m < UInt64.size) : gather 0 (decimal m) = (m, []) := by
  rw [gather_of_lt, decimal_value]
  rwa [decimal_value]

end Numeral

/-- A whole number of 64 bits, with or without a sign. -/
def Fits64 (n : Int) : Prop := Int64.minValue.toInt ≤ n ∧ n < UInt64.size

/-- The text of a whole number is read as that number. -/
theorem readNumeral_whole {n : Int} (fits : Fits64 n) : ∃ numeral,
    Draft.readNumeral (Glyph.ofString (Number.whole n).text) = .ok (numeral, []) ∧
      numeral.value = some (.whole n) := by
  have magnitude (negative : Bool) (m : Nat) : Draft.readMagnitude negative (Glyph.ofString m.repr) =
      .ok (⟨negative, decimal m, none, none⟩, []) := by
    refine Draft.readMagnitude_ok.mpr ?_
    rw [digits_repr]
    exact ⟨decimal_leading m, rfl, rfl, [], rfl, rfl⟩
  have least : Int64.minValue.toInt = -9223372036854775808 := by decide
  have most : UInt64.size = 18446744073709551616 := rfl
  obtain ⟨low, high⟩ := fits
  rw [Number.text, Int.repr_eq_if]
  by_cases sign : 0 ≤ n
  · refine ⟨⟨false, decimal n.toNat, none, none⟩, ?_, ?_⟩
    · rw [if_pos sign, Draft.readNumeral_unsigned, magnitude]
      rw [digits_repr]
      exact decimal_leading _
    · have same : (n.toNat : Int) = n := Int.toNat_of_nonneg sign
      simp [Numeral.value, Numeral.gather_decimal (m := n.toNat) (by omega), same]
  · refine ⟨⟨true, decimal (-n).toNat, none, none⟩, ?_, ?_⟩
    · rw [if_neg sign, Glyph.ofString_append]
      show Draft.readNumeral (.char '-' :: Glyph.ofString (-n).toNat.repr) = _
      rw [Draft.readNumeral_cons, if_pos rfl, magnitude]
    · have same : ((-n).toNat : Int) = -n := Int.toNat_of_nonneg (by omega)
      have small : n < 0 ∧ -9223372036854775808 ≤ n := by omega
      simp [Numeral.value, Numeral.gather_decimal (m := (-n).toNat) (by omega), small, same]

/-! ## Doubles -/

/-- Reading the text of a double gives the double back. -/
def Inverts (x : Float) : Prop := ∀ text, Decimal.Layout.json.text x = some text →
  ∃ numeral, Draft.readNumeral (Glyph.ofString text) = .ok (numeral, []) ∧ numeral.value = some (.double x)

theorem ofFloat_isSome {x : Float} (finite : x.isFinite = true) : (Decimal.Double.ofFloat? x).isSome = true := by
  have exponent : x.toBits.toNat / Nat.pow 2 52 % Nat.pow 2 11 ≠ 2047 := by
    intro same
    have full : @Float.Model.UnpackedFloat.unpackExponent .binary64 x.toBits.toBitVec = -1#11 := by
      apply BitVec.eq_of_toNat_eq
      simpa [Float.Model.UnpackedFloat.unpackExponent, Nat.shiftRight_eq_div_pow] using same
    have parts : Float.Model.UnpackedFloat.unpack .binary64 x.toBits.toBitVec =
        if @Float.Model.UnpackedFloat.unpackExponent .binary64 x.toBits.toBitVec = -1#11 then
          if @Float.Model.UnpackedFloat.unpackMantissa .binary64 x.toBits.toBitVec = 0 then .infinity _
          else .notANumber
        else _ := rfl
    have infinite : (Float.Model.UnpackedFloat.unpack .binary64 x.toBits.toBitVec).isFinite = false := by
      rw [parts, if_pos full]
      split
      · rfl
      · rfl
    exact Bool.false_ne_true (infinite.symm.trans finite)
  rw [Decimal.Double.ofFloat?, if_neg exponent]
  split <;> rfl

/-- A number that has a text of its own, which is read as the number. -/
def Number.Legible : Number → Prop
  | .whole n => Fits64 n
  | .double x => x.isFinite = true ∧ Inverts x

theorem readNumeral_text {n : Number} (legible : n.Legible) : ∃ numeral,
    Draft.readNumeral (Glyph.ofString n.text) = .ok (numeral, []) ∧ numeral.value = some n := by
  cases n with
  | whole n => exact readNumeral_whole legible
  | double x =>
    obtain ⟨text, own⟩ : ∃ text, Decimal.Layout.json.text x = some text := by
      rw [← Option.isSome_iff_exists, Decimal.Layout.text, Option.isSome_map]
      exact ofFloat_isSome legible.1
    rw [Number.text, own, Option.getD_some]
    exact legible.2 text own

end Screenplay.Json
