import Mathlib
import Screenplay.CommandLine.Session
import Screenplay.Proofs.Accepting

/-!
What the command line answers. A run that breaks off has recorded a failed leaf last, unless it got
too deep (`RunSetup.keeps_blame`), and the check of a scenario rules that out. So the exit status
and the report that is printed say the same of every run (`CommandLine.play_agrees`).
-/
namespace Screenplay
open Json (Value)

variable {ω : Type}

/-! ### Faults and failed leaves -/

/-- The leaf that was recorded last failed. -/
structure Report.EndsInFailure (r : Report) : Prop where
  counted : 0 < r.failed
  last : ∃ leaf, r.outcomes.back? = some leaf ∧ leaf.status = .failed

theorem Report.endsInFailure_record (r : Report) (path : List Nat) (action : String)
    (error : Option String) : (r.record path action .failed error).EndsInFailure where
  counted := Nat.succ_pos _
  last := ⟨⟨path, action, .failed, error⟩, by simp [record], rfl⟩

theorem Report.EndsInFailure.unsuccessful {r : Report} (failed : r.EndsInFailure) :
    r.success = false := by
  have some : r.failed ≠ 0 := Nat.ne_of_gt failed.counted
  simp [success, some]

/-- A leaf is to blame for a fault, unless the run got too deep. -/
def RunFault.Blames (f : RunFault) (r : Report) : Prop :=
  (∃ maxDepth, f = .tooDeep maxDepth) ∨ r.EndsInFailure

/-- A task that breaks off the run is recorded as failed. -/
theorem RunSetup.answered_endsInFailure {p : RunSetup ω} {s s' : RunState ω} {path : List Nat}
    {index : Nat} {task : Task} {answer : Except String Outcome} {f : RunFault}
    (answered : p.answered s path index task answer = (.ends (.fault f), s')) :
    s'.report.EndsInFailure := by
  cases answer with
  | error error =>
    cases answered
    exact Report.endsInFailure_record _ _ _ _
  | ok outcome =>
    simp only [RunSetup.answered] at answered
    split at answered
    · cases answered
    split at answered
    next stops =>
      have failure : outcome.success = false := by
        simp only [Bool.and_eq_true, Bool.not_eq_true'] at stops
        exact stops.1
      simp only [failure] at answered
      cases answered
      exact Report.endsInFailure_record _ _ _ _
    · split at answered <;> cases answered

theorem Moves.blames {p : RunSetup ω} {top : OpenSequence} {parents : Stack} {s t : RunState ω}
    {f : RunFault} (moves : Moves p top parents s (.over (.fault f) t)) : f.Blames t.report := by
  generalize broken : Progress.over (.fault f) t = after at moves
  cases moves with
  | once | countedEnough | countedPass | whileEnough | whileFalse | whilePass => cases broken
  | branchNone | branch | whileLoop | loop => cases broken
  | stoppedBetween | stopped | whileAbandoned | branchAbandoned => cases broken
  | branchTooDeep | whileTooDeep | loopTooDeep =>
    cases broken
    exact .inl ⟨_, rfl⟩
  | @leaf a x s' here running leaf evaluated =>
    cases x with
    | done | jump => cases broken
    | ends e =>
      cases broken
      cases evaluated with
      | task call outcome => exact .inr (RunSetup.answered_endsInFailure outcome)
      | branchTooDeep | branch => simp [Action.isControl] at leaf
      | whileTooDeep | whileLoop | loopTooDeep | loop => simp [Action.isControl] at leaf

/-- A run that breaks off has something to blame. -/
theorem RunSetup.keeps_blame (p : RunSetup ω) :
    p.Keeps (fun _ _ => True) fun ending s => ∀ f, ending = .fault f → f.Blames s.report where
  step := by
    intro top parents s after _ moves
    rcases after with ⟨rest, t⟩ | ⟨ending, t⟩
    · exact trivial
    · rintro f rfl
      exact moves.blames
  finish := by
    rintro s _ f ⟨⟩

/-- A run of an accepted scenario breaks off only at a leaf that failed. -/
theorem Engine.fault_endsInFailure {sc : Scenario} {e : Engine} {performer : Performer ω} {world : ω}
    {atPause : AtPause} {fuel : Nat} {record : RunRecord ω} {f : RunFault} {report : Report}
    (valid : sc.validate = .ok ()) (maxDepth : e.options.maxDepth = sc.options.maxDepth)
    (ran : e.execute performer sc.actions world atPause fuel = .ran record)
    (broken : record.result = some (.fault f report)) : report.EndsInFailure := by
  obtain ⟨run, control, ⟨ending, s⟩, _, walked, rfl⟩ := Engine.ran_iff.mp ran
  have begun := Stack.begun_once sc.actions
  cases ending with
  | finished | stopped | terminated | abandoned => cases broken
  | fault f =>
    cases broken
    have admitted := (RunSetup.keeps_admitted valid maxDepth).walked walked begun .top
    rcases (RunSetup.keeps_blame _).walked walked begun trivial f rfl with ⟨depth, rfl⟩ | failed
    · exact absurd rfl (admitted depth)
    · exact failed

/-! ### Scenarios that were loaded -/

theorem Scenario.validate_of_glyphs {context : String} {text : List Json.Glyph} {sc : Scenario}
    (loads : Scenario.ofGlyphs context text = .ok sc) : sc.validate = .ok () := by
  rw [ofGlyphs] at loads
  split at loads
  next => cases loads
  next decoded _ =>
    split at loads
    next valid =>
      cases loads
      exact valid
    next => cases loads

/-- A scenario that was loaded from a file is accepted by the check. -/
theorem Scenario.validate_of_wholeFile {files : Files} {path : String} {sc : Scenario}
    (loads : Scenario.ofWholeFile files path = .ok sc) : sc.validate = .ok () := by
  rw [ofWholeFile] at loads
  split at loads
  next => cases loads
  next => exact validate_of_glyphs loads

/-! ### Answers -/

namespace CommandLine

/-- A member of the object that is printed. -/
def Output.get? (o : Output) (name : String) : Option Value :=
  match o with
  | .json v => v.get? name
  | .nothing | .text _ => none

/-- The exit status and the printed report of an answer tell how a run ended. -/
structure Answer.Agrees (answer : Answer) (result : RunResult) : Prop where
  printed : answer.output = .json result.report.toJson
  success : answer.status.code = 0 ↔ answer.output.get? "success" = some (.bool true)
  fault : answer.status.code = 2 ↔ ∃ f report, result = .fault f report
  /-- A fault is not a success, and the last leaf of the report failed. -/
  broken : answer.status.code = 2 → answer.output.get? "success" = some (.bool false) ∧
    ∃ leaves last, answer.output.get? "outcomes" = some (.list (leaves ++ [last])) ∧
      last.get? "status" = some (.text "failed")
  otherwise : answer.status.code ≠ 0 → answer.status.code ≠ 2 →
    answer.status.code = 1 ∧ answer.output.get? "success" = some (.bool false)

theorem get?_success (r : Report) :
    (Output.json r.toJson).get? "success" = some (.bool r.success) := rfl

theorem get?_outcomes (r : Report) :
    (Output.json r.toJson).get? "outcomes" =
      some (.list (r.outcomes.toList.map ActionRecord.toJson)) := rfl

theorem get?_status (r : ActionRecord) : r.toJson.get? "status" = some (.text r.status.name) := rfl

/-- The last leaf of a report is the last one that is printed. -/
theorem outcomes_of_endsInFailure {r : Report} (failed : r.EndsInFailure) :
    ∃ leaves last, (Output.json r.toJson).get? "outcomes" = some (.list (leaves ++ [last])) ∧
      last.get? "status" = some (.text "failed") := by
  obtain ⟨leaf, last, status⟩ := failed.last
  rw [← Array.getLast?_toList] at last
  obtain ⟨before, split⟩ := List.getLast?_eq_some_iff.mp last
  refine ⟨before.map ActionRecord.toJson, leaf.toJson, ?_, ?_⟩
  · rw [get?_outcomes, split, List.map_append, List.map_cons, List.map_nil]
  · rw [get?_status, status]
    rfl

/-- What is answered for a result agrees with it if faults come after failures. -/
theorem answerOf_agrees {result : RunResult}
    (failed : ∀ f report, result = .fault f report → report.EndsInFailure) :
    (answerOf result).Agrees result := by
  cases result with
  | fault f report =>
    have failed := failed f report rfl
    have unsuccessful : (Output.json report.toJson).get? "success" = some (.bool false) := by
      rw [get?_success, failed.unsuccessful]
    refine ⟨rfl, ⟨nofun, ?_⟩, ⟨fun _ => ⟨f, report, rfl⟩, fun _ => rfl⟩, ?_, ?_⟩
    · intro successful
      cases unsuccessful.symm.trans successful
    · exact fun _ => ⟨unsuccessful, outcomes_of_endsInFailure failed⟩
    · exact fun _ other => absurd rfl other
  | ok report =>
    have printed := get?_success report
    cases outcome : report.success with
    | true =>
      have answer : answerOf (.ok report) = ⟨.success, .json report.toJson, none⟩ := by
        simp only [answerOf, outcome, if_true]
      rw [outcome] at printed
      rw [answer]
      refine ⟨rfl, ⟨fun _ => printed, fun _ => rfl⟩, ⟨nofun, ?_⟩, nofun, ?_⟩
      · rintro ⟨f, r, ⟨⟩⟩
      · exact fun other => absurd rfl other
    | false =>
      have answer : answerOf (.ok report) = ⟨.failure, .json report.toJson, none⟩ := by
        simp only [answerOf, outcome, Bool.false_eq_true, if_false]
      rw [outcome] at printed
      rw [answer]
      refine ⟨rfl, ⟨nofun, ?_⟩, ⟨nofun, ?_⟩, nofun, fun _ _ => ⟨rfl, printed⟩⟩
      · intro successful
        cases printed.symm.trans successful
      · rintro ⟨f, r, ⟨⟩⟩

/-- The scenario is run as the command line wants it, and what comes of it is answered. -/
theorem play_eq {path : String} {a : Arguments} {host : Host} {sc : Scenario}
    {templates : TemplateLibrary} {fuel : Nat} {record : RunRecord (Nat × Context Desktop)}
    {result : RunResult} (loads : Scenario.ofWholeFile host.files path = .ok sc)
    (templatesLoad : sc.loadTemplates host.files (Path.parent path) = .ok templates)
    (ran : Engine.execute { options := (adjust a sc).options }
      (Desktop.executor.performer.interrupted host.interrupt) sc.actions
      (0, desktopContext a (adjust a sc) templates host) .goOn fuel = .ran record)
    (ended : record.result = some result) (enough : fuel ≤ stepLimit) :
    play path a host = answerOf result := by
  have within : Engine.execute { options := (adjust a sc).options }
      (Desktop.executor.performer.interrupted host.interrupt) sc.actions
      (0, desktopContext a (adjust a sc) templates host) .goOn stepLimit = .ran record := by
    obtain ⟨run, control, walk, accepted, walked, rfl⟩ := Engine.ran_iff.mp ran
    exact Engine.ran_iff.mpr ⟨run, control, walk, accepted, RunSetup.walk_mono enough walked, rfl⟩
  have adjusted : (adjust a sc).loadTemplates host.files (Path.parent path) = .ok templates :=
    templatesLoad
  have actions : (adjust a sc).actions = sc.actions := rfl
  rw [play, loads]
  simp only [adjusted, actions, within]
  obtain ⟨engine, world, events, given, paused⟩ := record
  cases ended
  rfl

/-- Whenever a scenario loads and its run ends, whoever performs it and whenever it is asked to stop,
the exit status and the printed report of the answer agree with how the run ended. If the templates
load too this is the answer for a run on the desktop of the host, with an interruption or without one,
whatever its clock shows. -/
theorem play_agrees {path : String} {a : Arguments} {files : Files} {sc : Scenario}
    {templates : TemplateLibrary} (loads : Scenario.ofWholeFile files path = .ok sc)
    (templatesLoad : sc.loadTemplates files (Path.parent path) = .ok templates) :
    (∀ (ω : Type) (performer : Performer ω) (world : ω) (atPause : AtPause) (fuel : Nat)
      (record : RunRecord ω) (result : RunResult),
      Engine.execute { options := (adjust a sc).options } performer sc.actions world atPause fuel =
        .ran record → record.result = some result → (answerOf result).Agrees result) ∧
    ∀ (host : Host) (fuel : Nat) (record : RunRecord (Nat × Context Desktop)) (result : RunResult),
      host.files = files → fuel ≤ stepLimit →
      Engine.execute { options := (adjust a sc).options }
        (Desktop.executor.performer.interrupted host.interrupt) sc.actions
        (0, desktopContext a (adjust a sc) templates host) .goOn fuel = .ran record →
      record.result = some result → play path a host = answerOf result := by
  have valid := Scenario.validate_of_wholeFile loads
  constructor
  · intro ω performer world atPause fuel record result ran ended
    refine answerOf_agrees ?_
    rintro f report rfl
    exact Engine.fault_endsInFailure valid rfl ran ended
  · rintro host fuel record result rfl enough ran ended
    exact play_eq loads templatesLoad ran ended enough

/-- A file with a scenario that asks for a sound. -/
def soundFiles : Files where
  entries := [(["a"], .file
    { content := .bytes ("\x7b\"actions\":[\x7b\"type\":\"test\"\x7d,\x7b\"type\":\"sound-check\"\x7d]\x7d".toList.map
        fun c => c.toNat.toUInt8)
      size := 52
      modified := 0 })]

/-- The file holds two leaves. -/
theorem ofWholeFile_soundFiles : Scenario.ofWholeFile soundFiles "a" =
    .ok { actions := [.test none, .task (.soundCheck { minLevel := none, durationMs := none })] } := by
  cbv

/-- The scenario breaks off at the sound, which the desktop cannot hear, if the command line asks for
it. -/
theorem play_agrees_broken :
    ∃ f report,
      play "a" { stopOnFailure := true } { files := soundFiles } = answerOf (.fault f report) ∧
      (play "a" { stopOnFailure := true } { files := soundFiles }).status.code = 2 ∧
      (play "a" { stopOnFailure := true } { files := soundFiles }).Agrees (.fault f report) ∧
      report.outcomes.size = 2 := by
  let a : Arguments := { stopOnFailure := true }
  let sc : Scenario :=
    { actions := [.test none, .task (.soundCheck { minLevel := none, durationMs := none })] }
  have loads : Scenario.ofWholeFile soundFiles "a" = .ok sc := ofWholeFile_soundFiles
  have templatesLoad : sc.loadTemplates soundFiles (Path.parent "a") = .ok [] := rfl
  obtain ⟨record, f, report, ran, ended, visited⟩ : ∃ record f report,
      Engine.execute { options := (adjust a sc).options }
        (Desktop.executor.performer.interrupted none) sc.actions
        (0, desktopContext a (adjust a sc) [] { files := soundFiles }) .goOn 9 = .ran record ∧
      record.result = some (.fault f report) ∧ report.outcomes.size = 2 :=
    ⟨_, _, _, rfl, rfl, rfl⟩
  obtain ⟨agrees, answer⟩ := play_agrees (a := a) loads templatesLoad
  have answered := answer { files := soundFiles } _ _ _ rfl (by decide) ran ended
  exact ⟨f, report, answered, congrArg (·.status.code) answered,
    answered.symm ▸ agrees _ _ _ _ _ _ _ ran ended, visited⟩

end CommandLine

end Screenplay
