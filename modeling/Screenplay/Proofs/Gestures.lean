import Screenplay.Proofs.Playing

/-!
Gestures: clicks, texts and key sequences. For real each of them records its calls up to the first that
fails (`Gesture.records`). Whatever fails in a sequence of gestures, the device is opened at most once, and
before any other call is made (`Gesture.after_opensFirst`).
-/
namespace Screenplay

/-- A task that only makes calls of the device. -/
inductive Gesture where
  | click (x y : Int32) (button : MouseButton) (count : Option UInt8)
  | input (text : String)
  | key (text : String)
  deriving DecidableEq, Repr

namespace Gesture

open Desktop

def task : Gesture → Task
  | click x y button count => .click x y button count
  | input text => .input text
  | key text => .key text

/-- The calls that a gesture consists of. -/
def calls : Gesture → List DeviceCall
  | click x y button count =>
    .moveMouse x y :: List.replicate (max (count.getD 1).toNat 1) (.button (deviceButton button) .click)
  | input text => [.text text]
  | key text => (KeyToken.scan text.toList).map KeyToken.call

/-- What gestures leave behind that are made one after the other, whatever comes of each. -/
def after : List Gesture → Context Desktop → Context Desktop
  | [], c => c
  | g :: rest, c => after rest (perform g.task c).world

/-- Why a gesture fails at a call. -/
def blame (d : InputDevice) (call : DeviceCall) : DesktopError :=
  if call.method = .create then .notOpened (d.refusal call) else .device (d.refusal call)

/-- What is recorded of a gesture, and what comes of it: the calls before the first that fails. -/
structure Records (g : Gesture) (c : Context Desktop) (made : List DeviceCall) : Prop where
  recorded : (perform g.task c).world.executor.device.calls = made.reverse ++ c.executor.device.calls
  begins : made <+: c.executor.opening ++ g.calls
  granted : c.executor.device.Grants made
  /-- The call after them fails, and the gesture with it. -/
  ended : ∀ next, made ++ [next] <+: c.executor.opening ++ g.calls →
    ¬ c.executor.device.Grants (made ++ [next]) ∧
      (perform g.task c).result = .error (blame c.executor.device next).message
  succeeds : (perform g.task c).result = .ok .ok ↔
    c.executor.device.Grants (c.executor.opening ++ g.calls)
  fails : (∃ message, (perform g.task c).result = .error message) ↔
    ¬ c.executor.device.Grants (c.executor.opening ++ g.calls)

variable {c : Context Desktop}

theorem create_not_mem_calls (g : Gesture) : .create ∉ g.calls := by
  cases g with
  | click x y button count => simp [calls]
  | input text => simp [calls]
  | key text =>
    intro inside
    obtain ⟨token, -, same⟩ := List.mem_map.mp inside
    cases token <;> cases same

/-- What a gesture does once the device is open. -/
theorem plays (o : Overflow) (g : Gesture) : ∃ activity : Activity Unit, Plays o activity g.calls ∧
    ∀ c, perform g.task c =
      inContext (really (ensureOpen >>= fun _ => activity)) (fun () => Outcome.ok) c := by
  cases g with
  | click x y button count =>
    have clicks := Plays.forM (o := o) (List.replicate (max (count.getD 1).toNat 1)
      (DeviceCall.button (deviceButton button) .click)) fun c member =>
        Plays.call (c := c) (List.eq_of_mem_replicate member ▸ nofun)
    rw [List.flatMap_singleton'] at clicks
    exact ⟨_, (Plays.call (c := .moveMouse x y) nofun).bind clicks, fun c => rfl⟩
  | input text => exact ⟨_, Plays.call (c := .text text) nofun, fun c => rfl⟩
  | key text =>
    have tokens := Plays.forM (o := o) (KeyToken.scan text.toList) fun token _ =>
      Plays.call (c := KeyToken.call token) (by cases token <;> nofun)
    rw [← List.map_eq_flatMap] at tokens
    exact ⟨_, tokens, fun c => rfl⟩

/-- What a gesture comes to for real. -/
theorem perform_task (g : Gesture) (real : c.executor.dryRun = false) :
    let reply := perform g.task c
    let calls := c.executor.opening ++ g.calls
    reply.result = ((answer (c.executor.device.play calls)).map fun () => .ok).mapError
        DesktopError.message ∧
      reply.world = { c with executor := c.executor.playing calls } := by
  obtain ⟨activity, plays, performs⟩ := g.plays c.executor.overflow
  intro reply calls
  have answered := inContext_opening plays (fun () => Outcome.ok) real
  rw [← performs c] at answered
  exact ⟨answered.1, answered.2.1⟩

/-- The calls that play out as the schedule lets them are those that are recorded. -/
theorem records (g : Gesture) (real : c.executor.dryRun = false) :
    g.Records c (c.executor.device.play (c.executor.opening ++ g.calls)).made := by
  obtain ⟨result, world⟩ := g.perform_task real
  constructor
  case recorded =>
    rw [world]
    exact InputDevice.play_calls _ _
  case begins => exact InputDevice.made_begins _ _
  case granted => exact InputDevice.made_grants _ _
  case ended =>
    intro next begins
    refine ⟨InputDevice.not_grants_next begins, ?_⟩
    rw [result, answer, InputDevice.failed_of_next begins]
    rfl
  all_goals
    rw [← InputDevice.played_iff, result, answer]
    cases (c.executor.device.play (c.executor.opening ++ g.calls)).failed <;>
      simp [Except.map, Except.mapError]

/-- A device that never fails records all of a gesture. -/
theorem recorded_of_reliable (g : Gesture) (real : c.executor.dryRun = false)
    (reliable : c.executor.device.Reliable) : (perform g.task c).world.executor.device.calls =
      (c.executor.opening ++ g.calls).reverse ++ c.executor.device.calls := by
  rw [(g.records real).recorded, InputDevice.made_of_played (reliable.played _)]

/-! ### Opening the device -/

theorem dryRun_perform (g : Gesture) (real : c.executor.dryRun = false) :
    (perform g.task c).world.executor.dryRun = false := by
  rw [(g.perform_task real).2]
  exact real

theorem dryRun_after (gestures : List Gesture) (real : c.executor.dryRun = false) :
    (after gestures c).executor.dryRun = false := by
  induction gestures generalizing c with
  | nil => exact real
  | cons g rest ih => exact ih (g.dryRun_perform real)

/-- What is recorded on a desktop begins with opening the device, unless it is open, and does not open
it again. -/
def OpensFirst (d : Desktop) (recorded : List DeviceCall) : Prop :=
  recorded = [] ∨ ∃ others, recorded = d.opening ++ others ∧ .create ∉ others

/-- After a gesture the device is open, or nothing was recorded. -/
theorem perform_opens (g : Gesture) (real : c.executor.dryRun = false) :
    let made := (c.executor.device.play (c.executor.opening ++ g.calls)).made
    let later := (perform g.task c).world.executor
    (made = [] ∧ later.isOpen = c.executor.isOpen) ∨
      (later.isOpen = true ∧ ∃ others, made = c.executor.opening ++ others ∧ .create ∉ others) := by
  intro made later
  have isOpen : later.isOpen = (c.executor.isOpen || decide (.create ∈ made)) := by
    rw [show later = c.executor.playing (c.executor.opening ++ g.calls) from
      congrArg Context.executor (g.perform_task real).2]
    rfl
  have begins : made <+: c.executor.opening ++ g.calls := InputDevice.made_begins _ _
  clear_value made later
  rw [opening] at begins ⊢
  by_cases opened : c.executor.isOpen = true
  · rw [if_pos opened] at begins ⊢
    refine .inr ⟨by rw [isOpen, opened, Bool.true_or], made, rfl, fun inside => ?_⟩
    exact g.create_not_mem_calls (begins.subset inside)
  · rw [if_neg opened] at begins ⊢
    cases made with
    | nil => exact .inl ⟨rfl, by simpa using isOpen⟩
    | cons first others =>
      obtain ⟨rfl, later⟩ := List.cons_prefix_cons.mp begins
      refine .inr ⟨by simp [isOpen], others, rfl, fun inside => ?_⟩
      exact g.create_not_mem_calls (later.subset inside)

/-- Over a sequence of gestures the device is opened before all else, and once. -/
theorem after_opensFirst (gestures : List Gesture) (real : c.executor.dryRun = false) :
    ∃ recorded, (after gestures c).executor.device.calls =
      recorded.reverse ++ c.executor.device.calls ∧ OpensFirst c.executor recorded := by
  induction gestures generalizing c with
  | nil => exact ⟨[], rfl, .inl rfl⟩
  | cons g rest ih =>
    obtain ⟨later, calls, opens⟩ := ih (g.dryRun_perform real)
    have recorded := (g.records real).recorded
    have first := g.perform_opens real
    generalize (c.executor.device.play (c.executor.opening ++ g.calls)).made = made at recorded first
    refine ⟨made ++ later, ?_, ?_⟩
    · rw [after, calls, recorded, List.reverse_append, List.append_assoc]
    rcases first with ⟨rfl, same⟩ | ⟨opened, others, rfl, once⟩
    · rwa [OpensFirst, opening, same] at opens
    · rw [OpensFirst, opening, if_pos opened] at opens
      refine .inr ⟨others ++ later, List.append_assoc .., ?_⟩
      rw [List.mem_append]
      rintro (early | late)
      · exact once early
      · rcases opens with rfl | ⟨others', rfl, once'⟩
        · cases late
        · exact once' late

/-- Each of the gestures in a sequence records its calls before the first that fails, and fails just if
one of them does; with a device that never fails it records them all. The device is opened before all
else, and once. -/
theorem after_recorded (gestures : List Gesture) (real : c.executor.dryRun = false) :
    (∀ earlier g, earlier ++ [g] <+: gestures →
      (∃ made, g.Records (after earlier c) made) ∧
      ∀ device : InputDevice, device.Reliable →
        let tireless := { after earlier c with executor := { (after earlier c).executor with device } }
        (perform g.task tireless).world.executor.device.calls =
          ((after earlier c).executor.opening ++ g.calls).reverse ++ device.calls) ∧
    ∃ recorded, (after gestures c).executor.device.calls =
      recorded.reverse ++ c.executor.device.calls ∧ OpensFirst c.executor recorded := by
  refine ⟨fun earlier g _ => ?_, after_opensFirst gestures real⟩
  have still := dryRun_after earlier real
  exact ⟨⟨_, g.records still⟩, fun device reliable => g.recorded_of_reliable still reliable⟩

/-- A desktop whose device opens at the second attempt and does not click a third time. -/
def faulty : Context Desktop :=
  ⟨{ dryRun := false,
     device := { fails := fun m n => m = .create && n = 0 || m = .button && n = 2 } }, {}⟩

/-- The text is lost, and the third click. -/
theorem after_recorded_retried :
    faulty.executor.dryRun = false ∧
    (click 1 2 .left (some 3)).Records (after [input "lost"] faulty)
      [.create, .moveMouse 1 2, .button .left .click, .button .left .click] ∧
    ∃ recorded, (after [input "lost", click 1 2 .left (some 3), input "kept"]
      faulty).executor.device.calls = recorded.reverse ∧ OpensFirst faulty.executor recorded := by
  obtain ⟨each, recorded, calls, opens⟩ :=
    after_recorded [input "lost", click 1 2 .left (some 3), input "kept"] (c := faulty) rfl
  obtain ⟨⟨made, records⟩, -⟩ := each [input "lost"] (click 1 2 .left (some 3)) ⟨[input "kept"], rfl⟩
  have same : made.reverse = [.button .left .click, .button .left .click, .moveMouse 1 2, .create] := by
    have before : (after [input "lost"] faulty).executor.device.calls = [] := by decide +kernel
    have ended := records.recorded
    rw [before, List.append_nil] at ended
    rw [← ended]
    decide +kernel
  rw [List.reverse_eq_iff.mp same] at records
  exact ⟨rfl, records, recorded, calls.trans (List.append_nil _), opens⟩

end Gesture

end Screenplay
