import Screenplay.Proofs.Accepting
import Screenplay.Proofs.Watching
import Screenplay.Device.Desktop

/-!
Dry runs. A desktop in a dry run touches no device, so all that can go wrong in a run comes from the
scenario or from the screen. What the check of a scenario accepts does not go wrong, and a screen
that shows nothing breaks nothing off (`Scenario.validate_dry_run`).
-/
namespace Screenplay

/-! ### What the desktop does in a dry run -/

namespace Desktop

variable {β : Type} {d : Desktop} {c : Context Desktop}

/-- Nothing is done for real. -/
theorem run_really (dry : d.dryRun = true) (activity : Activity Unit) (asleep : Array Desktop) :
    ((really activity).run.run d).run asleep = ((.ok (), d), asleep) := by
  obtain ⟨dryRun, device, isOpen, log, overflow⟩ := d
  cases dry
  rfl

/-- Nothing is measured. -/
theorem run_measure (dry : d.dryRun = true) (probe : SystemProbe) (asleep : Array Desktop) :
    ((measure probe).run.run d).run asleep = ((.ok 0.0, d), asleep) := by
  obtain ⟨dryRun, device, isOpen, log, overflow⟩ := d
  cases dry
  rfl

theorem inContext_really (dry : c.executor.dryRun = true) (activity : Activity Unit)
    (next : Unit → β) :
    inContext (really activity) next c = { result := .ok (next ()), world := c } := by
  simp only [inContext, run_really dry]
  rfl

theorem inContext_measure (dry : c.executor.dryRun = true) (probe : SystemProbe) (next : Float → β) :
    inContext (measure probe) next c = { result := .ok (next 0.0), world := c } := by
  simp only [inContext, run_measure dry]
  rfl

/-- That there is no sound to sample is not that a template is unknown. -/
theorem noSound_ne_unknownTemplate (name : String) : noSound ≠ Scene.unknownTemplate name := by
  have unknown : (Scene.unknownTemplate name).toList.head? = some 'U' := by
    have opening : "Unknown template '".toList.head? = some 'U' := rfl
    have parts : (Scene.unknownTemplate name).toList =
        ("Unknown template '" ++ name).toList ++ "'".toList := String.toList_append
    have front : ("Unknown template '" ++ name).toList =
        "Unknown template '".toList ++ name.toList := String.toList_append
    rw [parts, front, List.append_assoc, List.head?_append, opening, Option.some_or]
  intro same
  rw [← same] at unknown
  cases (show noSound.toList.head? = some 's' from rfl).symm.trans unknown

end Desktop

namespace Scene

variable {s : Scene} {check : ImageCheck} {frame : Frame}

theorem capture_templates : s.capture.2.templates = s.templates := rfl

theorem matchImage_templates : (s.matchImage check frame).world.templates = s.templates := by
  rw [matchImage]
  split <;> rfl

/-- A search for a known template comes to something. -/
theorem matchImage_known (known : (s.templates.lookup check.template).isSome = true) :
    ∃ reading, (s.matchImage check frame).result = .ok reading := by
  rw [matchImage]
  split
  next unknown => simp [unknown] at known
  next => exact ⟨_, rfl⟩

end Scene

/-! ### What an accepted scenario asks of a dry run -/

namespace Scenario

variable {sc : Scenario} {c c' : Context Desktop} {depth : Nat}

/-- A desktop in a dry run, in a scene with every template that the scenario names. -/
structure Rehearses (sc : Scenario) (c : Context Desktop) : Prop where
  dryRun : c.executor.dryRun = true
  known : ∀ name, (sc.templates.lookup name).isSome = true →
    (c.scene.templates.lookup name).isSome = true

theorem load_name {fs : Files} {base : String} {entry : String × TemplateFile}
    {loaded : String × Template} (load : TemplateFile.load fs base entry = .ok loaded) :
    loaded.1 = entry.1 := by
  obtain ⟨name, file⟩ := entry
  delta TemplateFile.load at load
  dsimp only at load
  split at load
  · cases load
    rfl
  · cases load

/-- Every template that the scenario names is among those that were loaded for it. -/
theorem loadTemplates_known {fs : Files} {base name : String} {library : TemplateLibrary}
    (loaded : sc.loadTemplates fs base = .ok library)
    (declared : (sc.templates.lookup name).isSome = true) : (library.lookup name).isSome = true := by
  rw [loadTemplates] at loaded
  generalize sc.templates = entries at loaded declared
  induction entries generalizing library with
  | nil => simp at declared
  | cons entry rest ih =>
    rw [List.mapM_cons] at loaded
    rcases first : TemplateFile.load fs base entry with e | ⟨key, template⟩
    · rw [first] at loaded
      cases loaded
    rcases others : rest.mapM (TemplateFile.load fs base) with e | library'
    · rw [first, others] at loaded
      cases loaded
    rw [first, others] at loaded
    cases loaded
    obtain rfl : key = entry.1 := load_name first
    rw [List.lookup_cons] at declared ⊢
    by_cases same : name = entry.1
    · simp [same]
    · have other : (name == entry.1) = false := beq_false_of_ne same
      rw [other] at declared ⊢
      exact ih others declared

theorem rehearses_of_loaded {fs : Files} {base : String} (dryRun : c.executor.dryRun = true)
    (loaded : sc.loadTemplates fs base = .ok c.scene.templates) : sc.Rehearses c :=
  ⟨dryRun, fun _ => loadTemplates_known loaded⟩

theorem Rehearses.stays (rehearses : sc.Rehearses c) (executor : c'.executor.dryRun = c.executor.dryRun)
    (templates : c'.scene.templates = c.scene.templates) : sc.Rehearses c' where
  dryRun := executor.trans rehearses.dryRun
  known := fun name declared => templates ▸ rehearses.known name declared

/-- Looking at the screen changes nothing else. -/
theorem Rehearses.captured {shown : Except CaptureError Frame} {scene : Scene}
    (rehearses : sc.Rehearses c) (captured : c.scene.capture = (shown, scene)) :
    sc.Rehearses { c with scene } := by
  have same : c.scene.capture.2.templates = c.scene.templates := Scene.capture_templates
  rw [captured] at same
  exact rehearses.stays rfl same

theorem checkImage_declared {check : ImageCheck} (accepted : sc.checkImage check = .ok ()) :
    (sc.templates.lookup check.template).isSome = true := by
  rw [checkImage] at accepted
  split at accepted
  next => cases accepted
  next declared => simpa using declared

/-- A search with accepted options comes to something, whatever the screen shows. -/
theorem Rehearses.matchInScene {check : ImageCheck} (rehearses : sc.Rehearses c)
    (accepted : sc.checkImage check = .ok ()) (frame : Frame) :
    (∃ reading, (Executor.matchInScene check frame c).result = .ok reading) ∧
      sc.Rehearses (Executor.matchInScene check frame c).world := by
  constructor
  · exact Scene.matchImage_known (rehearses.known _ (checkImage_declared accepted))
  · exact rehearses.stays rfl Scene.matchImage_templates

/-- An accepted task can be run. -/
theorem Rehearses.perform {task : Task} (rehearses : sc.Rehearses c)
    (accepted : sc.checkAction depth (.task task) = .ok ()) :
    (∃ outcome, (Desktop.perform task c).result = .ok outcome) ∧
      sc.Rehearses (Desktop.perform task c).world := by
  cases task with
  | click | drag | input | key | wait =>
    simp only [Desktop.perform, Desktop.inContext_really rehearses.dryRun]
    exact ⟨⟨.ok, rfl⟩, rehearses⟩
  | log level message => exact ⟨⟨.ok, rfl⟩, rehearses.stays rfl rfl⟩
  | soundCheck check => exact ⟨⟨_, rfl⟩, rehearses⟩
  | imageMatch check =>
    rcases captured : c.scene.capture with ⟨error | frame, scene⟩
    · simp only [Desktop.perform, Desktop.matchOnScreen, captured]
      exact ⟨⟨_, rfl⟩, rehearses.captured captured⟩
    · obtain ⟨⟨reading, found⟩, later⟩ :=
        (rehearses.captured captured).matchInScene accepted frame
      simp only [Desktop.perform, Desktop.matchOnScreen, captured, found]
      exact ⟨⟨_, rfl⟩, later⟩

/-- An accepted condition can be judged, unless the screen shows nothing or it asks for sound. -/
theorem Rehearses.assess {condition : Condition} (rehearses : sc.Rehearses c)
    (accepted : sc.checkCondition condition = .ok ()) :
    ((∃ holds, (Desktop.executor.assess condition c).result = .ok holds) ∨
      (∃ screen error, (Desktop.executor.assess condition c).result = .error (.capture screen error)) ∨
      (Desktop.executor.assess condition c).result = .error (.executor Desktop.noSound)) ∧
      sc.Rehearses (Desktop.executor.assess condition c).world := by
  obtain ⟨asked, operator, value⟩ := condition
  cases asked with
  | image check =>
    rcases captured : c.scene.capture with ⟨error | frame, scene⟩
    · simp only [Executor.assess, captured]
      exact ⟨.inr (.inl ⟨_, _, rfl⟩), rehearses.captured captured⟩
    · obtain ⟨⟨reading, found⟩, later⟩ :=
        (rehearses.captured captured).matchInScene accepted frame
      simp only [Executor.assess, captured, Desktop.executor, found]
      exact ⟨.inl ⟨_, rfl⟩, later⟩
  | sound check => exact ⟨.inr (.inr rfl), rehearses⟩
  | system probe =>
    simp only [Executor.assess, Desktop.executor, Desktop.probe,
      Desktop.inContext_measure rehearses.dryRun]
    refine ⟨.inl ?_, rehearses⟩
    cases value with
    | some rhs => cases operator <;> exact ⟨_, rfl⟩
    | none =>
      cases operator with
      | none => exact ⟨_, rfl⟩
      | some comparison => simp [checkCondition] at accepted

end Scenario

/-! ### Whole runs -/

/-- The check of the scenario accepted what is asked for. -/
def Scenario.AcceptsCall (sc : Scenario) : Call → Prop
  | .perform task => ∃ depth, sc.checkAction depth (.task task) = .ok ()
  | .judge condition => sc.checkCondition condition = .ok ()

/-- An accepted sequence asks only for what is accepted. -/
theorem Scenario.Accepts.asks {sc : Scenario} {depth : Nat} {q : OpenSequence} {call : Call}
    (accepts : sc.Accepts depth q) (asks : q.Asks call) : sc.AcceptsCall call := by
  cases asks with
  | task here => exact ⟨depth, accepts.actions _ (List.mem_of_getElem? here)⟩
  | branch here => exact Scenario.accepts_branch (accepts.actions _ (List.mem_of_getElem? here))
  | pass kind => exact accepts.condition _ _ _ kind

theorem Scenario.Rehearses.after {sc : Scenario} {c : Context Desktop} {call : Call}
    (rehearses : sc.Rehearses c) (accepted : sc.AcceptsCall call) :
    sc.Rehearses (Desktop.executor.performer.after call c) := by
  cases call with
  | perform task =>
    obtain ⟨depth, accepted⟩ := accepted
    exact (rehearses.perform accepted).2
  | judge condition => exact (rehearses.assess accepted).2

/-- No condition that was judged was taken for false because its template is unknown or because it
compares with nothing. -/
def Watched.WellJudged (w : Watched (Nat × Context Desktop)) : Prop :=
  ∀ condition n c, (.judge condition, n, c) ∈ w.calls →
    (Desktop.executor.assess condition c).result ≠ .error .noValue ∧
      ∀ name, (Desktop.executor.assess condition c).result ≠
        .error (.executor (Scene.unknownTemplate name))

theorem Watched.WellJudged.call {w w' : Watched (Nat × Context Desktop)} {sc : Scenario} {call : Call}
    (judged : w.WellJudged) (rehearses : sc.Rehearses w.world.2) (accepted : sc.AcceptsCall call)
    (calls : w'.calls = w.calls ++ [(call, w.world)]) : w'.WellJudged := by
  intro condition n c member
  rw [calls] at member
  rcases List.mem_append.mp member with before | last
  · exact judged condition n c before
  obtain ⟨rfl, same⟩ : .judge condition = call ∧ (n, c) = w.world := by simpa using last
  obtain rfl : c = w.world.2 := congrArg Prod.snd same
  rcases (rehearses.assess accepted).1 with ⟨holds, result⟩ | ⟨screen, error, result⟩ | result
  all_goals rw [result]
  · exact ⟨nofun, fun _ => nofun⟩
  · exact ⟨nofun, fun _ => nofun⟩
  · refine ⟨nofun, fun name same => Desktop.noSound_ne_unknownTemplate name ?_⟩
    exact JudgementError.executor.inj (Except.error.inj same)

/-- A dry run of an accepted scenario goes on over failures and never breaks off. -/
theorem RunSetup.keeps_rehearsing {p : RunSetup (Nat × Context Desktop)} {sc : Scenario}
    {interrupt : Option Nat} (desktop : p.performer = Desktop.executor.performer.interrupted interrupt)
    (valid : sc.validate = .ok ()) (maxDepth : p.options.maxDepth = sc.options.maxDepth)
    (goesOn : p.options.stopOnFailure = false) :
    p.watched.Keeps
      (fun stack s => Stack.Descends sc.actions stack ∧ sc.Rehearses s.world.world.2 ∧ s.world.WellJudged)
      (fun ending s => (∀ f, ending ≠ .fault f) ∧ s.world.WellJudged) where
  step := by
    rintro top parents s after ⟨descends, rehearses, judged⟩ moves
    have accepts := descends.accepted valid top parents rfl
    have next := (p.watched.keeps_descends sc.actions).step top parents s after descends moves
    rcases moves.notes with ⟨t, rfl⟩ | notes
    · cases moves.concludes with
      | abandoned asks during =>
        have calls := (Performer.mem_seen_watched during).2
        exact ⟨by simp, judged.call rehearses (accepts.asks asks) calls⟩
    have kept : sc.Rehearses after.state.world.world.2 ∧ after.state.world.WellJudged := by
      cases notes with
      | quiet world =>
        rw [world]
        exact ⟨rehearses, judged⟩
      | @call call _ _ _ _ asks world =>
        have accepted := accepts.asks asks
        have watched : after.state.world = ⟨p.performer.after call s.world.world,
            s.world.calls ++ [(call, s.world.world)]⟩ :=
          world.trans (p.performer.after_watched call s.world)
        constructor
        · rw [watched, desktop, Performer.after_interrupted]
          exact rehearses.after accepted
        · exact judged.call rehearses accepted (by rw [watched])
    rcases after with ⟨rest, t⟩ | ⟨ending, t⟩
    · exact ⟨next, kept⟩
    refine ⟨?_, kept.2⟩
    rintro f rfl
    cases moves.concludes with
    | broken breaks =>
      cases breaks with
      | @raised task error here raises =>
        obtain ⟨depth, accepted⟩ := accepts.asks (.task here)
        obtain ⟨⟨outcome, ran⟩, _⟩ := rehearses.perform accepted
        have raises' : (p.performer.perform task s.world.world).result = .error error := raises
        rw [desktop, Performer.interrupted, Reply.result_counted] at raises'
        cases ran.symm.trans raises'
      | failed here fails failure stops => cases goesOn.symm.trans stops
      | tooDeep here control deep =>
        exact descends.not_tooDeep (s := s) valid maxDepth (.tooDeep here control deep)
  finish := fun s holds => ⟨by simp, holds.2.2⟩

/-- A dry run of an accepted scenario with its templates gives back no fault when failures do not end it,
whatever the screen shows or fails to show at each look, however long the searches take and whenever it
is asked to stop. No condition is taken for false in it because its template is unknown or because it
compares with nothing. -/
theorem Scenario.validate_dry_run {sc : Scenario} {e : Engine} {c : Context Desktop}
    {interrupt : Option Nat} {atPause : AtPause} {fuel : Nat} {record : RunRecord (Nat × Context Desktop)}
    (valid : sc.validate = .ok ()) (options : e.options = { sc.options with stopOnFailure := false })
    (dryRun : c.executor.dryRun = true)
    (templates : ∀ name, (sc.templates.lookup name).isSome = true →
      (c.scene.templates.lookup name).isSome = true)
    (ran : e.execute (Desktop.executor.performer.interrupted interrupt) sc.actions (0, c) atPause fuel =
      .ran record) :
    (∀ f report, record.result ≠ some (.fault f report)) ∧
      ∃ seen, e.execute (Desktop.executor.performer.interrupted interrupt).watched sc.actions ⟨(0, c), []⟩
          atPause fuel = .ran seen ∧
        seen.unwatched = record ∧ seen.world.WellJudged := by
  obtain ⟨seen, watched, rfl⟩ := Engine.execute_watched.mp ran
  obtain ⟨run, control, ⟨ending, s⟩, _, walked, rfl⟩ := Engine.ran_iff.mp watched
  have keeps := RunSetup.keeps_rehearsing
    (p := e.setup (Desktop.executor.performer.interrupted interrupt) sc.actions run atPause)
    rfl valid (by simp [Engine.setup, options]) (by simp [Engine.setup, options])
  obtain ⟨unbroken, judged⟩ := keeps.walked walked (Stack.begun_once sc.actions)
    ⟨.top, ⟨dryRun, templates⟩, by simp [Engine.opening, Watched.WellJudged]⟩
  refine ⟨?_, _, watched, rfl, ?_⟩
  · intro f report result
    cases ending with
    | fault f => exact unbroken f rfl
    | finished | stopped | terminated | abandoned => cases result
  · cases ending <;> exact judged

/-- A scenario that measures, looks for a template and acts. -/
def Scenario.rehearsal : Scenario where
  actions := [.repeatWhile (some ⟨.system .cursorX, some .less, some 1.0⟩)
      [.task (.click 10 20 .left none),
        .branch (some ⟨.image ⟨"ok", none, none, false, none, none⟩, none, none⟩) []
          (some [.task (.imageMatch ⟨"ok", none, none, false, none, none⟩)])] (some 2)]
  templates := [("ok", ⟨"ok.png", none⟩)]

/-- A dot as a template and on the screen. -/
def dot : Frame := ⟨1, 1, .gray, #[10]⟩

/-- A dry run before a screen that shows something only every other time, with a clock on which the
first search has no time left. -/
def flickering : Context Desktop where
  executor := { dryRun := true }
  scene :=
    { screen := .live "camera" (fun n => if n % 2 = 0 then .error (.other "busy") else .ok dot) 0
      templates := [("ok", ⟨dot, none⟩)]
      clock := fun search => ⟨20000 * search, fun _ => if search = 0 then 10000 else 5, 20000 * search + 5⟩ }

/-- The condition on the image fails both times that it is judged, as the screen shows nothing. The first
search has no time; the second finds the dot, and the run is asked to stop meanwhile. Nothing breaks
off. -/
theorem Scenario.validate_dry_run_rehearsal :
    ∃ record, Engine.execute { options := Scenario.rehearsal.options }
        (Desktop.executor.performer.interrupted (some 7)) Scenario.rehearsal.actions (0, flickering) .goOn
        20 = .ran record ∧
      (∀ f report, record.result ≠ some (.fault f report)) ∧
      (∃ report, record.result = some (.ok report) ∧ report.failed = 1) ∧
      ∃ seen : RunRecord (Watched (Nat × Context Desktop)),
        seen.unwatched = record ∧ seen.world.WellJudged := by
  have told : (Engine.execute { options := Scenario.rehearsal.options }
        (Desktop.executor.performer.interrupted (some 7)) Scenario.rehearsal.actions (0, flickering) .goOn
        20).record?.map (·.result.map (·.report.failed)) = some (some 1) := by decide +kernel
  obtain ⟨record, recorded, told⟩ := Option.map_eq_some_iff.mp told
  obtain ⟨result, ended, failed⟩ := Option.map_eq_some_iff.mp told
  have ran := Attempt.record?_eq_some.mp recorded
  have templates : ∀ name, (rehearsal.templates.lookup name).isSome = true →
      (flickering.scene.templates.lookup name).isSome = true := by
    intro name declared
    by_cases known : name = "ok"
    · subst known
      rfl
    · have other : (name == "ok") = false := beq_false_of_ne known
      simp [rehearsal, List.lookup_cons, other] at declared
  obtain ⟨unbroken, seen, _, same, judged⟩ := validate_dry_run rfl rfl rfl templates ran
  cases result with
  | fault f report => exact absurd ended (unbroken f report)
  | ok report => exact ⟨record, ran, unbroken, ⟨report, ended, failed⟩, seen, same, judged⟩

end Screenplay
