import Screenplay.Proofs.Contents
import Screenplay.Proofs.DryRun
import Screenplay.Proofs.ImageCheck
import Screenplay.Proofs.Playing
import Screenplay.Proofs.Timeless

/-!
Dry runs as previews. With a device that never fails, what a run does for real leaves its course as it
is: the tasks succeed either way, and what the desktop measures decides nothing while no condition
compares it with a value. So a dry run tells, reports and logs what the run itself does
(`Desktop.dry_run_previews`), also if it takes more or less time, as long as no search runs out of it and
nothing that is remembered grows too old (`Engine.InTime`).
-/
namespace Screenplay

variable {α β : Type}

/-! ### A device that never fails -/

namespace Desktop

/-- Nothing that is done on the desktop fails, and no number makes the program crash. -/
structure Able (d : Desktop) : Prop where
  reliable : d.device.Reliable
  wraps : d.overflow = .wraps

/-- The desktop after some calls of a device that never fails. -/
structure Serves (d d' : Desktop) : Prop where
  able : d'.Able
  dryRun : d'.dryRun = d.dryRun
  log : d'.log = d.log

/-- Where nothing fails the activity comes to its end. -/
def Goes (activity : Activity α) : Prop :=
  ∀ (d : Desktop) (asleep : Array Desktop), d.Able →
    ∃ a d' asleep', (activity.run.run d).run asleep = ((.ok a, d'), asleep') ∧ d.Serves d'

namespace Goes

theorem pure (a : α) : Goes (Pure.pure a) := fun d asleep able => ⟨a, d, asleep, rfl, able, rfl, rfl⟩

theorem bind {first : Activity α} {next : α → Activity β} (goes : Goes first)
    (goesOn : ∀ a, Goes (next a)) : Goes (first >>= next) := by
  intro d asleep able
  obtain ⟨a, d₁, asleep₁, ran, serves⟩ := goes d asleep able
  obtain ⟨b, d₂, asleep₂, ran', serves'⟩ := goesOn a d₁ asleep₁ serves.able
  refine ⟨b, d₂, asleep₂, ?_, serves'.able, serves'.dryRun.trans serves.dryRun,
    serves'.log.trans serves.log⟩
  rw [run_bind, ran]
  exact ran'

theorem get : Goes (MonadState.get : Activity Desktop) := fun d asleep able =>
  ⟨d, d, asleep, rfl, able, rfl, rfl⟩

/-- What comes of an answer of the device. -/
def answered (blame : DeviceError → DesktopError) : Except DeviceError Unit → Activity Unit
  | .ok () => Pure.pure ()
  | .error e => throw (blame e)

theorem attempt (blame : DeviceError → DesktopError) (c : DeviceCall) :
    Goes (Desktop.attempt blame c) := by
  intro d asleep able
  obtain ⟨device, called, reliable⟩ := able.reliable.call c
  refine ⟨(), { d with device }, asleep, ?_, ⟨reliable, able.wraps⟩, rfl, rfl⟩
  have done : ((Desktop.attempt blame c).run.run d).run asleep =
      (fun answer : Except DeviceError Unit × InputDevice =>
        ((answered blame answer.1).run.run { d with device := answer.2 }).run asleep) (d.device.call c) := rfl
  rw [done, called]
  rfl

theorem call (c : DeviceCall) : Goes (Desktop.call c) := attempt .device c

theorem sleep : Goes Desktop.sleep := fun d asleep able =>
  ⟨(), d, asleep.push d, rfl, able, rfl, rfl⟩

/-- A number that does not fit its word is gone over. -/
theorem checkFits (fits : Bool) : Goes (Desktop.checkFits fits) := by
  rintro ⟨dryRun, device, isOpen, log, overflow⟩ asleep ⟨reliable, wraps⟩
  cases wraps
  exact ⟨(), _, asleep, rfl, ⟨reliable, rfl⟩, rfl, rfl⟩

theorem ensureOpen : Goes Desktop.ensureOpen := by
  rw [Desktop.ensureOpen]
  apply get.bind
  intro d
  split
  · exact pure ()
  · exact (attempt _ _).bind fun _ d asleep able =>
      ⟨(), { d with isOpen := true }, asleep, rfl, ⟨able.reliable, able.wraps⟩, rfl, rfl⟩

theorem forM {γ : Type} {act : γ → Activity Unit} (goes : ∀ x, Goes (act x)) (xs : List γ) :
    Goes (xs.forM act) := by
  induction xs with
  | nil => exact pure ()
  | cons x rest ih => exact (goes x).bind fun _ => ih

theorem click (x y : Int32) (button : MouseButton) (count : Option UInt8) :
    Goes (Desktop.click x y button count) :=
  ensureOpen.bind fun _ => (call _).bind fun _ => forM call _

theorem drag (fromX fromY toX toY : Int32) (durationMs : UInt64) :
    Goes (Desktop.drag fromX fromY toX toY durationMs) := by
  refine ensureOpen.bind fun _ => (call _).bind fun _ => (call _).bind fun _ => ?_
  have move {i : Nat} {rest : Activity Unit} (goes : Goes rest) :=
    (checkFits (dragFits fromX toX (i + 1) && dragFits fromY toY (i + 1))).bind fun _ =>
      ensureOpen.bind fun _ =>
        (call (.moveMouse (dragCoordinate fromX toX (i + 1)) (dragCoordinate fromY toY (i + 1)))).bind
          fun _ => goes
  refine (forM (fun i => move ?_) _).bind fun _ => ensureOpen.bind fun _ => call _
  split
  · exact pure ()
  · exact sleep

theorem typeText (text : String) : Goes (Desktop.typeText text) :=
  ensureOpen.bind fun _ => call _

theorem keySequence (text : String) : Goes (Desktop.keySequence text) :=
  ensureOpen.bind fun _ => forM (fun _ => call _) _

/-- A measurement for real. -/
theorem measure (probe : SystemProbe) : Goes (Desktop.measure probe) := by
  refine get.bind fun d => ?_
  split
  · exact pure _
  refine ensureOpen.bind fun _ => ?_
  cases probe <;> exact (call _).bind fun _ => get.bind fun _ => pure _

theorem really {activity : Activity Unit} (goes : Goes activity) : Goes (Desktop.really activity) := by
  refine get.bind fun d => ?_
  split
  · exact pure ()
  · exact goes

end Goes

/-- An activity that comes to its end leaves the scene alone and may sleep. -/
theorem inContext_goes {activity : Activity α} (goes : Goes activity) (next : α → β)
    {c : Context Desktop} (able : c.executor.Able) :
    ∃ a executor asleep, (inContext activity next c).result = .ok (next a) ∧
      (inContext activity next c).world = { c with executor } ∧ c.executor.Serves executor ∧
      (inContext activity next c).signals = List.map Signal.pause asleep := by
  obtain ⟨a, executor, asleep, ran, serves⟩ := goes c.executor #[] able
  refine ⟨a, executor, asleep.toList.map fun executor => { c with executor }, ?_⟩
  simp only [inContext, ran, lastSignals, List.append_nil, List.map_map]
  exact ⟨trivial, trivial, serves, rfl⟩

end Desktop

/-! ### Scenes at different times -/

/-- The image check that a call makes. -/
def Call.imageCheck? : Call → Option ImageCheck
  | .perform (.imageMatch check) => some check
  | .judge ⟨.image check, _, _⟩ => some check
  | _ => none

namespace Scene

/-- The clock does not end the next search if it is for this check, and nothing that is remembered is too
old for it. -/
structure InTime (s : Scene) (check : ImageCheck) : Prop where
  untimed : s.Untimed check
  lasts : s.cache.LastsAt (s.clock s.searches).now

/-- The scenes differ at most in their clocks and in the times at which places were put in. -/
structure Resembles (s s' : Scene) : Prop where
  screen : s'.screen = s.screen
  files : s'.files = s.files
  templates : s'.templates = s.templates
  memory : s'.cache.timeless = s.cache.timeless

/-- What is done in the scenes is compared by what it comes to; how often someone could act meanwhile does
not matter. -/
def resemblance : Likeness Scene Scene where
  worlds := Resembles
  pauses := False

namespace Resembles

variable {s s' : Scene}

theorem capture (resembles : s.Resembles s') :
    s'.capture.1 = s.capture.1 ∧ s.capture.2.Resembles s'.capture.2 := by
  simp only [Scene.capture, resembles.screen, resembles.files]
  exact ⟨trivial, rfl, rfl, resembles.templates, resembles.memory⟩

/-- A search comes to the same in time. -/
theorem matchImage {check : ImageCheck} (resembles : s.Resembles s') (intime : s.InTime check)
    (intime' : s'.InTime check) (frame : Frame) :
    (s.matchImage check frame).Alike resemblance (s'.matchImage check frame) := by
  rw [Scene.matchImage, Scene.matchImage, resembles.templates]
  split
  next => exact Reply.Alike.still (show resemblance.worlds s s' from resembles)
  next template known =>
    have found := Quest.finding_timeless (q := s.quest check frame template) intime.untimed intime.lasts
    have found' :=
      Quest.finding_timeless (q := s'.quest check frame template) intime'.untimed intime'.lasts
    have same : ((s'.quest check frame template).finding s'.cache).timeless =
        ((s.quest check frame template).finding s.cache).timeless := by
      rw [← found, ← found', resembles.memory]
      rfl
    have result := congrArg Finding.result same
    have memory := congrArg Finding.cache same
    simp only [Finding.timeless, Quest.finding, Scene.quest] at result memory
    constructor
    case result => simp only [result]
    case world => exact ⟨resembles.screen, resembles.files, rfl, memory⟩
    case signals =>
      dsimp only
      rw [← List.map_replicate (f := Signal.pause), ← List.map_replicate (f := Signal.pause)]
      exact .of_pauses (fun counts => counts) _ _

end Resembles

/-- Nothing that is remembered grows too old for the searches to come. -/
def Outlasts (s : Scene) : Prop := s.cache.Outlasts s.clock s.searches

/-- A search adds no time but its own, whichever it is. -/
theorem Outlasts.matchImage {s : Scene} (outlasts : s.Outlasts) (check : ImageCheck) (frame : Frame) :
    (s.matchImage check frame).world.Outlasts ∧ (s.matchImage check frame).world.clock = s.clock := by
  rw [Scene.matchImage]
  split
  next => exact ⟨outlasts, rfl⟩
  next template known =>
    have renewed := LocationCache.Renewed.finding (s.quest check frame template) s.cache
    exact ⟨LocationCache.Outlasts.renewed outlasts renewed, rfl⟩

end Scene

namespace Desktop

/-- What a call does to the scene: nothing, or it looks at the screen and may search what it sees. -/
inductive Renders (s : Scene) : Scene → Prop where
  | nothing : Renders s s
  | look : Renders s s.capture.2
  | search (check : ImageCheck) (frame : Frame) :
    Renders s (s.capture.2.matchImage check frame).world

theorem renders_after (call : Call) (c : Context Desktop) :
    Renders c.scene (executor.performer.after call c).scene := by
  have looked {shown : Except CaptureError Frame} (same : c.scene.capture.1 = shown) :
      c.scene.capture = (shown, c.scene.capture.2) := Prod.ext same rfl
  cases call with
  | perform task =>
    cases task with
    | click | drag | input | key | wait | log | soundCheck => exact .nothing
    | imageMatch check =>
      change Renders c.scene (matchOnScreen check c).world.scene
      rw [matchOnScreen]
      rcases shown : c.scene.capture.1 with error | frame <;> rw [looked shown]
      · exact .look
      · exact .search check frame
  | judge condition =>
    obtain ⟨measure, operator, value⟩ := condition
    cases measure with
    | sound | system => exact .nothing
    | image check =>
      change Renders c.scene (executor.assess ⟨.image check, operator, value⟩ c).world.scene
      rw [Executor.assess]
      rcases shown : c.scene.capture.1 with error | frame <;> rw [looked shown]
      · exact .look
      · exact .search check frame

theorem Renders.outlasts {s s' : Scene} (renders : Renders s s') (outlasts : s.Outlasts) :
    s'.Outlasts ∧ s'.clock = s.clock := by
  cases renders with
  | nothing | look => exact ⟨outlasts, rfl⟩
  | search check frame => exact Scene.Outlasts.matchImage (s := s.capture.2) outlasts check frame

end Desktop

/-! ### Calls in the preview and in the run -/

namespace Desktop

/-- A dry run and a run with a device that never fails have come to the same. -/
structure Previewing (c c' : Context Desktop) : Prop where
  dryRun : c.executor.dryRun = true
  able : c'.executor.Able
  log : c'.executor.log = c.executor.log
  scene : c.scene.Resembles c'.scene

/-- A preview is compared with the run by all but the device, the times and the pauses. -/
def preview : Likeness (Context Desktop) (Context Desktop) where
  worlds := Previewing
  pauses := False

namespace Previewing

variable {c c' : Context Desktop}

/-- A reply that comes at once and changes nothing. -/
theorem still {result : α} (previewing : Previewing c c') :
    ({ result, world := c } : Reply (Context Desktop) α).Alike preview { result, world := c' } :=
  Reply.Alike.still (show preview.worlds c c' from previewing)

/-- The same is seen on the screen. -/
theorem shown (previewing : Previewing c c') :
    ∃ shown, c.scene.capture = (shown, c.scene.capture.2) ∧
      c'.scene.capture = (shown, c'.scene.capture.2) ∧
      Previewing { c with scene := c.scene.capture.2 } { c' with scene := c'.scene.capture.2 } := by
  obtain ⟨same, resembles⟩ := previewing.scene.capture
  exact ⟨c.scene.capture.1, rfl, Prod.ext same rfl, { previewing with scene := resembles }⟩

/-- What is done for real comes to its end, and no more of it shows than of what is not done. -/
theorem done {activity : Activity α} {next : α → β} {a : α} (previewing : Previewing c c')
    (dry : inContext activity next c = { result := .ok (next a), world := c }) (goes : Goes activity) :
    (∃ a', (inContext activity next c').result = .ok (next a')) ∧
      Previewing (inContext activity next c).world (inContext activity next c').world ∧
      Signals.Alike preview (inContext activity next c).signals (inContext activity next c').signals := by
  obtain ⟨a', executor, asleep, result, world, serves, signals⟩ := inContext_goes goes next previewing.able
  rw [dry, world, signals]
  exact ⟨⟨a', result⟩,
    { previewing with able := serves.able, log := serves.log.trans previewing.log },
    .of_pauses (fun counts => counts) [] asleep⟩

theorem act (previewing : Previewing c c') {activity : Activity Unit} (goes : Goes activity)
    (next : Unit → β) :
    (inContext (really activity) next c).Alike preview (inContext (really activity) next c') := by
  have dry := inContext_really previewing.dryRun activity next
  obtain ⟨⟨⟨⟩, result⟩, worlds, signals⟩ := previewing.done dry goes.really
  exact ⟨by rw [result, dry], worlds, signals⟩

theorem matchInScene {check : ImageCheck} (previewing : Previewing c c') (intime : c.scene.InTime check)
    (intime' : c'.scene.InTime check) (frame : Frame) :
    (Executor.matchInScene check frame c).Alike preview (Executor.matchInScene check frame c') := by
  have found := previewing.scene.matchImage intime intime' frame
  exact ⟨found.result, { previewing with scene := found.world },
    found.signals.map id fun _ _ scene => { previewing with scene }⟩

/-- A task goes in the preview as it goes in the run. -/
theorem perform {task : Task} (previewing : Previewing c c')
    (intime : ∀ check, (Call.perform task).imageCheck? = some check → c.scene.InTime check)
    (intime' : ∀ check, (Call.perform task).imageCheck? = some check → c'.scene.InTime check) :
    (Desktop.perform task c).Alike preview (Desktop.perform task c') := by
  cases task with
  | click x y button count => exact previewing.act (.click x y button count) _
  | drag fromX fromY toX toY => exact previewing.act (.drag fromX fromY toX toY _) _
  | input text => exact previewing.act (.typeText text) _
  | key text => exact previewing.act (.keySequence text) _
  | wait => exact previewing.act .sleep _
  | log level message =>
    have logged : Previewing
        { c with executor := { c.executor with log := (level, message) :: c.executor.log } }
        { c' with executor := { c'.executor with log := (level, message) :: c'.executor.log } } :=
      { previewing with
        able := ⟨previewing.able.reliable, previewing.able.wraps⟩
        log := congrArg (List.cons _) previewing.log }
    exact logged.still
  | soundCheck => exact previewing.still
  | imageMatch check =>
    obtain ⟨error | frame, looked, looked', screen⟩ := previewing.shown
    · rw [Desktop.perform, Desktop.perform, matchOnScreen, matchOnScreen, looked, looked']
      exact screen.still
    · have before := intime check rfl
      have before' := intime' check rfl
      have found := screen.matchInScene ⟨before.untimed, before.lasts⟩ ⟨before'.untimed, before'.lasts⟩ frame
      rw [Desktop.perform, Desktop.perform, matchOnScreen, matchOnScreen, looked, looked']
      exact found.answering (by rw [found.result])

/-- A measurement that is compared with nothing decides nothing. -/
theorem assess {condition : Condition} (previewing : Previewing c c')
    (intime : ∀ check, (Call.judge condition).imageCheck? = some check → c.scene.InTime check)
    (intime' : ∀ check, (Call.judge condition).imageCheck? = some check → c'.scene.InTime check)
    (free : ∀ probe, condition.measure = .system probe → condition.value = none) :
    (executor.assess condition c).Alike preview (executor.assess condition c') := by
  obtain ⟨measure, operator, value⟩ := condition
  cases measure with
  | image check =>
    obtain ⟨error | frame, looked, looked', screen⟩ := previewing.shown
    · have same : c'.scene.capture.2.screen = c.scene.capture.2.screen := screen.scene.screen
      simp only [Executor.assess]
      rw [looked, looked']
      dsimp only
      rw [same]
      exact screen.still
    · have before := intime check rfl
      have before' := intime' check rfl
      have found := screen.matchInScene ⟨before.untimed, before.lasts⟩ ⟨before'.untimed, before'.lasts⟩ frame
      simp only [Executor.assess, executor]
      rw [looked, looked']
      exact found.answering (by rw [found.result])
  | sound => exact previewing.still
  | system probe =>
    obtain rfl : value = none := free probe rfl
    have dry := inContext_measure previewing.dryRun probe
      fun value => ({ success := true, value := some value } : ProbeReading)
    obtain ⟨⟨measured, result⟩, worlds, signals⟩ := previewing.done dry (.measure probe)
    refine ⟨?_, worlds, signals⟩
    simp only [Executor.assess, executor, Desktop.probe, dry, result]
    cases operator <;> rfl

theorem judge {condition : Condition} (previewing : Previewing c c')
    (intime : ∀ check, (Call.judge condition).imageCheck? = some check → c.scene.InTime check)
    (intime' : ∀ check, (Call.judge condition).imageCheck? = some check → c'.scene.InTime check)
    (free : ∀ probe, condition.measure = .system probe → condition.value = none) :
    (executor.judge condition c).Alike preview (executor.judge condition c') := by
  have assessed := previewing.assess intime intime' free
  exact assessed.answering (by rw [assessed.result])

end Previewing

end Desktop

/-! ### Runs in time -/

/-- In a run of the actions on the desktop no search is ended by the clock, and nothing that is
remembered is too old when a search asks for it. -/
def Engine.InTime (e : Engine) (actions : List Action) (interrupt : Option Nat) (c : Context Desktop) :
    Prop :=
  ∀ call w check,
    e.Asks (Desktop.executor.performer.interrupted interrupt) actions (0, c) .goOn call w →
    call.imageCheck? = some check → w.2.scene.InTime check

namespace Desktop

theorem keeps_outlasting {p : RunSetup (Nat × Context Desktop)} {interrupt : Option Nat}
    {clock : Nat → Stopwatch} (desktop : p.performer = executor.performer.interrupted interrupt) :
    p.Keeps (fun _ s => s.world.2.scene.Outlasts ∧ s.world.2.scene.clock = clock) fun _ _ => True where
  step := by
    rintro top parents s (⟨rest, t⟩ | ⟨ending, t⟩) ⟨outlasts, same⟩ moves
    · rcases moves.notes with ⟨_, ended⟩ | notes
      · cases ended
      cases notes with
      | quiet world =>
        change t.world = s.world at world
        change t.world.2.scene.Outlasts ∧ t.world.2.scene.clock = clock
        rw [world]
        exact ⟨outlasts, same⟩
      | @call call _ _ _ _ _ world =>
        have later : t.world = (s.world.1 + 1, executor.performer.after call s.world.2) := by
          have made : t.world = p.performer.after call s.world := world
          rw [made, desktop, Performer.after_interrupted]
        change t.world.2.scene.Outlasts ∧ t.world.2.scene.clock = clock
        rw [later, ← same]
        exact (renders_after call s.world.2).outlasts outlasts
    · trivial
  finish := fun _ _ => trivial

/-- A run is in time if its searches have enough of it and if it takes no longer than what is remembered
lives. -/
theorem inTime_of_outlasts (e : Engine) {actions : List Action} (interrupt : Option Nat)
    {c : Context Desktop} (outlasts : c.scene.Outlasts)
    (untimed : ∀ call check, call ∈ Action.allCalls actions → call.imageCheck? = some check →
      check.budgetMs = 0 ∨ ∀ search tick, (c.scene.clock search).elapsed tick < check.budgetMs.toNat) :
    e.InTime actions interrupt c := by
  intro call w check asks looks
  have inside := asks.mem
  obtain ⟨accepted, reaches, asks⟩ := asks
  obtain ⟨later, clock⟩ :=
    (keeps_outlasting rfl).reached reaches (Stack.begun_once actions) ⟨outlasts, rfl⟩
  refine ⟨?_, later.held _ (Nat.le_refl _)⟩
  rw [Scene.Untimed, clock]
  exact (untimed call check inside looks).imp id fun enough => enough _

/-- A dry run tells, reports and logs what the run with a device that never fails does, in the same scene
but each by its own clock: as long as no measurement of the system is compared with a value, both are in
time, and numbers wrap. Both may be asked to stop during a call. -/
theorem dry_run_previews (e : Engine) {actions : List Action} {c c' : Context Desktop}
    {interrupt : Option Nat} (dry : c.executor.dryRun = true)
    (reliable : c'.executor.device.Reliable) (wraps : c'.executor.overflow = .wraps)
    (log : c'.executor.log = c.executor.log) (scene : c'.scene = { c.scene with clock := c'.scene.clock })
    (free : ∀ condition probe, .judge condition ∈ Action.allCalls actions →
      condition.measure = .system probe → condition.value = none)
    (intime : e.InTime actions interrupt c) (intime' : e.InTime actions interrupt c') (fuel : Nat) :
    (e.execute (executor.performer.interrupted interrupt) actions (0, c) .goOn fuel).Alike preview.counted
      (e.execute (executor.performer.interrupted interrupt) actions (0, c') .goOn fuel) := by
  apply Engine.execute_alike
  · exact fun _ => rfl
  · refine ⟨rfl, dry, ⟨reliable, wraps⟩, log, ?_⟩
    rw [scene]
    exact ⟨rfl, rfl, rfl, rfl⟩
  · rintro task ⟨n, w⟩ ⟨_, w'⟩ asks asks' ⟨rfl, worlds⟩
    have previewing : Previewing w w' := worlds
    exact (previewing.perform (intime _ _ · asks) (intime' _ _ · asks')).counted _ interrupt
  · rintro condition ⟨n, w⟩ ⟨_, w'⟩ asks asks' ⟨rfl, worlds⟩
    have previewing : Previewing w w' := worlds
    have judged := previewing.judge (intime _ _ · asks) (intime' _ _ · asks') fun probe =>
      free condition probe asks.mem
    exact judged.counted _ interrupt

/-- Acts and waits if there is a pointer, and then looks four times for a template. -/
def tour : List Action :=
  [.branch (some ⟨.system .cursorX, none, none⟩) [.task (.click 10 20 .left (some 2)), .task (.wait 500 none)]
      none,
    .repeatWhile (some ⟨.system .screenWidth, some .less, none⟩) [.fail none] none,
    .loop 4 [.task (.imageMatch ⟨"ok", none, none, false, none, none⟩)]]

/-- A desktop that has just been set up, before a screen that flickers. -/
def onTour (dryRun : Bool) (clock : Nat → Stopwatch) : Context Desktop :=
  ⟨{ dryRun }, { flickering.scene with clock }⟩

def takeTour (dryRun : Bool) (clock : Nat → Stopwatch) : Attempt (Nat × Context Desktop) :=
  Engine.execute {} (executor.performer.interrupted none) tour (0, onTour dryRun clock) .goOn 20

/-- A clock on which the searches take up to nine seconds each. -/
def slow (search : Nat) : Stopwatch :=
  ⟨min (10000 * search) 200000, fun tick => min (100 * tick) 9000, min (10000 * search) 200000 + 9000⟩

/-- The preview of a tour takes no time. The tour itself takes its time, moves the pointer and clicks
twice, and tells the same: the screen fails at two looks, and the dot that the first search finds at the
second is remembered at the last. -/
theorem dry_run_previews_tour :
    (takeTour true fun _ => .still 0).Alike preview.counted (takeTour false slow) ∧
      (takeTour true fun _ => .still 0).record?.map (·.events.size) = some 20 ∧
      (takeTour false slow).record?.map (·.world.2.executor.device.calls.length) = some 6 := by
  have free : ∀ condition probe, .judge condition ∈ Action.allCalls tour →
      condition.measure = .system probe → condition.value = none := by
    intro condition probe member measured
    simp only [Action.allCalls, Action.calls, Action.elseCalls, Condition.calls, tour, List.append_nil,
      List.cons_append, List.nil_append, List.mem_cons, Call.judge.injEq, reduceCtorEq,
      List.not_mem_nil, or_false, false_or] at member
    rcases member with rfl | rfl <;> rfl
  have budget : ∀ call check, call ∈ Action.allCalls tour → call.imageCheck? = some check →
      check.budgetMs = 10000 := by
    intro call check member looks
    simp only [Action.allCalls, Action.calls, Action.elseCalls, Condition.calls, tour, List.append_nil,
      List.cons_append, List.nil_append, List.mem_cons, List.not_mem_nil, or_false] at member
    rcases member with rfl | rfl | rfl | rfl | rfl <;> cases looks
    rfl
  have intime (dryRun : Bool) {clock : Nat → Stopwatch}
      (young : (LocationCache.empty 32 300000).Outlasts clock 0)
      (enough : ∀ search tick, (clock search).elapsed tick < 10000) :
      Engine.InTime {} tour none (onTour dryRun clock) := by
    refine inTime_of_outlasts _ _ young fun call check member looks => .inr ?_
    rw [budget call check member looks]
    exact enough
  have still : (LocationCache.empty 32 300000).Outlasts (fun _ => .still 0) 0 :=
    LocationCache.outlasts_empty fun _ _ _ => Nat.zero_le _
  have short : (LocationCache.empty 32 300000).Outlasts slow 0 := by
    refine LocationCache.outlasts_empty fun earlier later _ => ?_
    have recent : (slow later).now - (slow earlier).ended ≤ 200000 :=
      (Nat.sub_le _ _).trans (Nat.min_le_right _ _)
    exact recent.trans (by decide)
  have same : (takeTour true fun _ => .still 0).Alike preview.counted (takeTour false slow) := by
    unfold takeTour
    apply dry_run_previews
    case reliable => exact ⟨rfl, fun _ _ => rfl⟩
    case free => exact free
    case intime => exact intime true still fun _ _ => Nat.zero_lt_succ _
    case intime' =>
      exact intime false short fun _ _ => Nat.lt_of_le_of_lt (Nat.min_le_right _ _) (by decide)
    all_goals rfl
  have told : (takeTour true fun _ => .still 0).record?.map (·.events.size) = some 20 := by decide +kernel
  have made : (takeTour false slow).record?.map (·.world.2.executor.device.calls.length) = some 6 := by
    decide +kernel
  exact ⟨same, told, made⟩

end Desktop

end Screenplay
