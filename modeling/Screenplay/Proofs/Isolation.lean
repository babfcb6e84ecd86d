import Screenplay.Proofs.DryRun

/-!
Dry runs and the device. A dry run makes no call of the device and does not open it, and neither what
it tells and reports nor what it logs depends on which device there is, whatever the screen and the clock
do meanwhile (`Desktop.dry_run_isolated`).
-/
namespace Screenplay

namespace Desktop

variable {d d' : Desktop} {c c' : Context Desktop}

/-- Two dry runs that began with the desktops `d` and `d'` have come to the same: they see the same
scene and have logged the same, and each desktop but for its log is as it was. -/
structure Apart (d d' : Desktop) (c c' : Context Desktop) : Prop where
  scene : c'.scene = c.scene
  log : c'.executor.log = c.executor.log
  left : c.executor = { d with log := c.executor.log }
  right : c'.executor = { d' with log := c'.executor.log }

/-- Dry runs are compared by all but their devices. -/
def isolation (d d' : Desktop) : Likeness (Context Desktop) (Context Desktop) where
  worlds := Apart d d'
  pauses := True

namespace Apart

theorem inScene (apart : Apart d d' c c') (scene : Scene) :
    Apart d d' { c with scene } { c' with scene } :=
  { apart with scene := rfl }

theorem dryRun (apart : Apart d d' c c') (dry : d.dryRun = true) : c.executor.dryRun = true := by
  rw [apart.left]
  exact dry

theorem dryRun' (apart : Apart d d' c c') (dry : d'.dryRun = true) : c'.executor.dryRun = true := by
  rw [apart.right]
  exact dry

/-- A reply that comes at once and changes nothing. -/
theorem still {α : Type} {result : α} (apart : Apart d d' c c') :
    ({ result, world := c } : Reply (Context Desktop) α).Alike (isolation d d') { result, world := c' } :=
  Reply.Alike.still (show (isolation d d').worlds c c' from apart)

theorem matchInScene (apart : Apart d d' c c') (check : ImageCheck) (frame : Frame) :
    (Executor.matchInScene check frame c).Alike (isolation d d')
      (Executor.matchInScene check frame c') := by
  rw [Executor.matchInScene, Executor.matchInScene, apart.scene]
  exact Reply.mapWorld_alike _ (show ∀ scene, (isolation d d').worlds _ _ from apart.inScene)

/-- A task is performed alike, whatever the devices would do. -/
theorem perform (apart : Apart d d' c c') (dry : d.dryRun = true) (dry' : d'.dryRun = true) (task : Task) :
    (Desktop.perform task c).Alike (isolation d d') (Desktop.perform task c') := by
  cases task with
  | click | drag | input | key | wait =>
    simp only [Desktop.perform, inContext_really (apart.dryRun dry), inContext_really (apart.dryRun' dry')]
    exact apart.still
  | log level message =>
    have logged : Apart d d'
        { c with executor := { c.executor with log := (level, message) :: c.executor.log } }
        { c' with executor := { c'.executor with log := (level, message) :: c'.executor.log } } := by
      refine ⟨apart.scene, congrArg (List.cons _) apart.log, ?_, ?_⟩
      · rw [apart.left]
      · rw [apart.right]
    exact logged.still
  | soundCheck check => exact apart.still
  | imageMatch check =>
    simp only [Desktop.perform, matchOnScreen, apart.scene]
    rcases c.scene.capture with ⟨error | frame, scene⟩
    · exact (apart.inScene scene).still
    · have found : Reply.Alike (isolation d d') _ _ := (apart.inScene scene).matchInScene check frame
      apply found.answering
      rw [found.result]

/-- A condition is judged alike; a dry run measures nothing. -/
theorem assess (apart : Apart d d' c c') (dry : d.dryRun = true) (dry' : d'.dryRun = true)
    (condition : Condition) :
    (executor.assess condition c).Alike (isolation d d') (executor.assess condition c') := by
  obtain ⟨measure, operator, value⟩ := condition
  cases measure with
  | image check =>
    simp only [Executor.assess, executor, apart.scene]
    rcases c.scene.capture with ⟨error | frame, scene⟩
    · exact (apart.inScene scene).still
    · have found : Reply.Alike (isolation d d') _ _ := (apart.inScene scene).matchInScene check frame
      apply found.answering
      rw [found.result]
  | sound check => exact apart.still
  | system probe =>
    simp only [Executor.assess, executor, Desktop.probe, inContext_measure (apart.dryRun dry),
      inContext_measure (apart.dryRun' dry')]
    exact apart.still

theorem judge (apart : Apart d d' c c') (dry : d.dryRun = true) (dry' : d'.dryRun = true)
    (condition : Condition) :
    (executor.judge condition c).Alike (isolation d d') (executor.judge condition c') := by
  have assessed : Reply.Alike (isolation d d') _ _ := apart.assess dry dry' condition
  apply assessed.answering
  rw [assessed.result]

end Apart

/-- Whatever two devices are like, dry runs of the same actions in the same scene tell the same, report
the same and log the same, and neither makes a call of its device. Both may be asked to stop during a
call. -/
theorem dry_run_isolated (e : Engine) (actions : List Action) {c c' : Context Desktop}
    (dry : c.executor.dryRun = true) (dry' : c'.executor.dryRun = true)
    (scene : c'.scene = c.scene) (log : c'.executor.log = c.executor.log) (interrupt : Option Nat)
    (atPause : AtPause) (fuel : Nat) :
    (e.execute (executor.performer.interrupted interrupt) actions (0, c) atPause fuel).Alike
      (isolation c.executor c'.executor).counted
      (e.execute (executor.performer.interrupted interrupt) actions (0, c') atPause fuel) := by
  apply Engine.execute_alike
  · exact fun overlooked => absurd trivial overlooked
  · exact ⟨rfl, scene, log, rfl, rfl⟩
  · rintro task ⟨n, w⟩ ⟨_, w'⟩ _ _ ⟨rfl, apart⟩
    exact (Apart.perform apart dry dry' task).counted _ interrupt
  · rintro condition ⟨n, w⟩ ⟨_, w'⟩ _ _ ⟨rfl, apart⟩
    exact (Apart.judge apart dry dry' condition).counted _ interrupt

/-- A dry run before a screen that flickers, with a device that refuses every call and whose pointer
stands where the rehearsal would break off its loop. -/
def refusing : Context Desktop :=
  { flickering with
    executor := { dryRun := true, device := { cursor := (5, 7), fails := fun _ _ => true } } }

/-- The same without a device. -/
def bare : Context Desktop :=
  { flickering with executor := { dryRun := true, device := { attached := false } } }

/-- A rehearsal goes its two rounds either way, although it is asked to stop in the last call. -/
theorem dry_run_isolated_rehearsal :
    let perform (c : Context Desktop) := Engine.execute {} (executor.performer.interrupted (some 7))
      Scenario.rehearsal.actions (0, c) .goOn 20
    bare.executor.dryRun = true ∧ refusing.executor.dryRun = true ∧ refusing.scene = bare.scene ∧
      (perform bare).record?.map (·.events.size) = some 18 ∧
      (perform bare).Alike (isolation bare.executor refusing.executor).counted (perform refusing) := by
  intro perform
  have told : (perform bare).record?.map (·.events.size) = some 18 := by decide +kernel
  have dry : bare.executor.dryRun = true := rfl
  have dry' : refusing.executor.dryRun = true := rfl
  have same := dry_run_isolated {} Scenario.rehearsal.actions dry dry' rfl rfl (some 7) .goOn 20
  exact ⟨dry, dry', rfl, told, same⟩

end Desktop

end Screenplay
