import Screenplay.Proofs.Records
import Screenplay.Scenario.Decode

/-!
Reading conditions by look-up: the expectation is found under its two names, and everything else is
the measurement.
-/
namespace Screenplay.Condition
open Json
open Draft (find Distinct Keeps)

/-- The members that do not belong to the expectation. -/
def measured (members : List (Option String × Draft)) : List (Option String × Draft) :=
  members.filter fun m => m.1 ∉ [some "operator", some "value"]

theorem expectation_names : expectation.names = ["operator", "value"] := rfl

theorem expectation_declared : expectation.names.Nodup := by decide

variable {s : Setting} {room : Nat} {origin : Origin} {members : List (Option String × Draft)}

theorem gather_ok {seen seen' : Seen [Option Comparison, Option Float]} {kept kept' : List (String × Value)}
    (distinct : Distinct members) :
    gather s members seen kept = .ok (seen', kept') ↔
      (∃ values, Draft.keepMembers s.room (measured members) = .ok values ∧ kept' = kept.reverse ++ values) ∧
      Record.Filled s (find members) expectation seen seen' := by
  induction members generalizing seen kept with
  | nil =>
    have nothing : find [] = fun _ => none := rfl
    rw [gather, nothing, Record.filled_nothing]
    simp only [measured, List.filter_nil, Draft.keepMembers, Except.ok.injEq, Prod.mk.injEq]
    constructor
    · rintro ⟨rfl, rfl⟩
      exact ⟨⟨[], rfl, (List.append_nil _).symm⟩, rfl⟩
    · rintro ⟨⟨values, rfl, rfl⟩, rfl⟩
      exact ⟨rfl, (List.append_nil _).symm⟩
  | cons member rest ih =>
    obtain ⟨_ | name, d⟩ := member
    · simp [gather, measured, Draft.keepMembers]
    by_cases known : name ∈ expectation.names
    · have others : measured ((some name, d) :: rest) = measured rest := by
        rw [measured, List.filter_cons, if_neg]
        · rfl
        · simpa [expectation_names, Decidable.or_iff_not_imp_left] using known
      obtain ⟨result, accepted, meets⟩ := Record.accept_eq_some s d seen known
      rw [others, Draft.find_cons, ← Record.takes_filled expectation_declared distinct.find_tail known]
      simp only [gather, accepted, bind_ok, meets, ih distinct.tail]
      constructor
      · rintro ⟨seen₁, taken, keeps, filled⟩
        exact ⟨keeps, seen₁, taken, filled⟩
      · rintro ⟨keeps, seen₁, taken, filled⟩
        exact ⟨seen₁, taken, keeps, filled⟩
    · have others : measured ((some name, d) :: rest) = (some name, d) :: measured rest := by
        rw [measured, List.filter_cons, if_pos]
        · rfl
        · simpa [expectation_names] using known
      have same : Record.Filled s (find ((some name, d) :: rest)) expectation seen seen' ↔
          Record.Filled s (find rest) expectation seen seen' := by
        apply Record.filled_congr
        rintro other member
        exact Draft.find_cons_other fun same => known (same ▸ member)
      rw [others, same]
      simp only [gather, Record.accept_eq_none known, bind_ok, ih distinct.tail, Draft.keepMembers]
      constructor
      · rintro ⟨w, first, ⟨values, later, rfl⟩, filled⟩
        refine ⟨⟨(name, w) :: values, ⟨w, first, values, later, rfl⟩, ?_⟩, filled⟩
        rw [List.reverse_cons, List.append_assoc, List.singleton_append]
      · rintro ⟨⟨_, ⟨w, first, values, later, ⟨⟩⟩, rfl⟩, filled⟩
        refine ⟨w, first, ⟨values, later, ?_⟩, filled⟩
        rw [List.reverse_cons, List.append_assoc, List.singleton_append]

/-- A condition is read as an expectation, looked up, and a measurement, which all else is, if it can
be kept. -/
theorem decoder_object (distinct : Distinct members) {c : Condition} :
    decoder ⟨room + 1, origin⟩ (.object members none) = .ok c ↔
      Keeps room (measured members) ∧
      Record.read ⟨room, origin⟩ (find members) expectation = some (c.operator, c.value, ()) ∧
      Measure.variants.decoder ⟨room + 1, .member⟩ (.object (measured members) none) = .ok c.measure := by
  have steps : decoder ⟨room + 1, origin⟩ (.object members none) =
      gather ⟨room, origin⟩ members (Record.unseen _) [] >>= fun taken =>
        Record.complete expectation taken.1 >>= fun row =>
          Measure.variants.decoder ⟨room + 1, .member⟩ (.ofValue (.object taken.2)) >>= fun measure =>
            .ok { measure, operator := row.1, value := row.2.1 } := rfl
  rw [steps, bind_ok, ← Draft.keepMembers_ok, ← Record.filled_complete]
  constructor
  · rintro ⟨⟨seen, kept⟩, gathered, completed⟩
    obtain ⟨⟨values, keeps, rfl⟩, filled⟩ := (gather_ok distinct).mp gathered
    obtain ⟨⟨operator, value, ⟨⟩⟩, completes, measures⟩ := bind_ok.mp completed
    obtain ⟨measure, measures', ⟨⟩⟩ := bind_ok.mp measures
    refine ⟨⟨_, keeps⟩, ⟨seen, filled, completes⟩, ?_⟩
    rw [← Draft.ofMembers_of_keep keeps]
    exact measures'
  · rintro ⟨⟨values, keeps⟩, ⟨seen, filled, completed⟩, measures⟩
    refine ⟨(seen, values), (gather_ok distinct).mpr ⟨⟨values, keeps, rfl⟩, filled⟩, ?_⟩
    refine bind_ok.mpr ⟨_, completed, bind_ok.mpr ⟨c.measure, ?_, rfl⟩⟩
    rw [← Draft.ofMembers_of_keep keeps] at measures
    exact measures

end Screenplay.Condition
