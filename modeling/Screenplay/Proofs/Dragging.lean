import Mathlib.Tactic
import Screenplay.Proofs.Playing
import Screenplay.Proofs.Steering

/-!
Drags. For real a drag makes a list of calls up to the first that fails (`Desktop.perform_drag`). If the
difference of its ends overflows it goes astray, or the program crashes over it before the first move
with the button held (`Desktop.drag_steady_iff`). A press is not followed by the call for the release
just if the program crashes or one of these moves fails (`Desktop.drag_unreleased_iff`).
-/
namespace Screenplay.Desktop

variable {o : Overflow} {fromX fromY toX toY : Int32} {call : DeviceCall} {d : Desktop}
  {c : Context Desktop}

/-- The program crashes over the way of a drag, unless a call fails before. -/
def DragCrashes (o : Overflow) (fromX fromY toX toY : Int32) : Prop :=
  o = .crashes ∧ ¬ (Fits32 (toX.toInt - fromX.toInt) ∧ Fits32 (toY.toInt - fromY.toInt))

instance (o : Overflow) (fromX fromY toX toY : Int32) : Decidable (DragCrashes o fromX fromY toX toY) :=
  inferInstanceAs (Decidable (_ ∧ _))

/-- A move of a drag. -/
def dragMove (fromX fromY toX toY : Int32) (i : Nat) : DeviceCall :=
  .moveMouse (dragCoordinate fromX toX (i + 1)) (dragCoordinate fromY toY (i + 1))

/-- The moves of a drag with the button held. -/
def dragMoves (fromX fromY toX toY : Int32) : List DeviceCall :=
  (List.range dragSteps).map (dragMove fromX fromY toX toY)

/-- What a drag does before it moves with the button held. -/
def dragStart (fromX fromY : Int32) : List DeviceCall :=
  [.moveMouse fromX fromY, .button .left .press]

/-- What a drag does after that, unless the program crashes. -/
def dragRest (o : Overflow) (fromX fromY toX toY : Int32) : List DeviceCall :=
  if DragCrashes o fromX fromY toX toY then []
  else dragMoves fromX fromY toX toY ++ [.button .left .release]

/-- The calls of a drag on an open device. -/
def dragCalls (o : Overflow) (fromX fromY toX toY : Int32) : List DeviceCall :=
  dragStart fromX fromY ++ dragRest o fromX fromY toX toY

/-- What a drag comes to when all its calls are made. -/
def dragEnding (o : Overflow) (fromX fromY toX toY : Int32) : Except DesktopError Unit :=
  if DragCrashes o fromX fromY toX toY then .error .overflow else .ok ()

theorem method_of_mem_dragMoves (moved : call ∈ dragMoves fromX fromY toX toY) :
    call.method = .moveMouse := by
  obtain ⟨i, -, rfl⟩ := List.mem_map.mp moved
  rfl

theorem length_dragMoves : (dragMoves fromX fromY toX toY).length = dragSteps := by
  rw [dragMoves, List.length_map, List.length_range]

/-- The check before a move stops a drag just if the program crashes over its way. -/
theorem dragCrashes_iff {i : Nat} (inside : i < dragSteps) : DragCrashes o fromX fromY toX toY ↔
    o = .crashes ∧ (dragFits fromX toX (i + 1) && dragFits fromY toY (i + 1)) = false := by
  have positive : 1 ≤ i + 1 := Nat.le_add_left 1 i
  rw [DragCrashes, ← Bool.not_eq_true, Bool.and_eq_true, dragFits_iff positive inside,
    dragFits_iff positive inside]

/-- What a drag does once the device is open. -/
theorem drag_plays (o : Overflow) (fromX fromY toX toY : Int32) (durationMs : UInt64) :
    ∃ activity : Activity Unit,
      drag fromX fromY toX toY durationMs = (ensureOpen >>= fun _ => activity) ∧
        Plays o activity (dragCalls o fromX fromY toX toY) (dragEnding o fromX fromY toX toY) := by
  refine ⟨_, rfl, ?_⟩
  rw [dragCalls, dragRest, dragEnding]
  have opening {rest : Activity Unit} {cs : List DeviceCall} {ending : Except DesktopError Unit}
      (plays : Plays o rest cs ending) := (Plays.call (c := .moveMouse fromX fromY) nofun).bind
    ((Plays.call (c := .button .left .press) nofun).bind plays)
  by_cases crashes : DragCrashes o fromX fromY toX toY
  · -- the first of the checks ends it
    obtain ⟨rfl, overflows⟩ := (dragCrashes_iff (i := 0) (by decide)).mp crashes
    rw [if_pos crashes, if_pos crashes, List.append_nil]
    refine opening (Plays.bind_error (Plays.bind_error (Plays.bind_error ?_)))
    rw [overflows]
    exact .crash
  have pause : Plays o (unless durationMs.toNat / dragSteps = 0 do sleep) [] := by
    split
    · exact .nothing
    · exact .sleep
  have fits {i : Nat} (inside : i < dragSteps) : o = .wraps ∨
      (dragFits fromX toX (i + 1) && dragFits fromY toY (i + 1)) = true := by
    have goesOn := mt (dragCrashes_iff inside).mpr crashes
    rw [not_and, Bool.not_eq_false] at goesOn
    cases o with
    | wraps => exact .inl rfl
    | crashes => exact .inr (goesOn rfl)
  have moves := Plays.forM (List.range dragSteps) fun i member =>
    (Plays.checkFits (fits (List.mem_range.mp member))).bind (Plays.ensureOpen.bind
      ((Plays.call (c := dragMove fromX fromY toX toY i) nofun).bind pause))
  have release := Plays.ensureOpen.bind (Plays.call (o := o) (c := .button .left .release) nofun)
  have whole := opening (moves.bind release)
  simp only [List.nil_append, List.append_nil, ← List.map_eq_flatMap] at whole
  rw [if_neg crashes, if_neg crashes]
  exact whole

/-- What a drag comes to for real. -/
theorem perform_drag (fromX fromY toX toY : Int32) (durationMs : Option UInt64)
    (real : c.executor.dryRun = false) :
    let reply := perform (.drag fromX fromY toX toY durationMs) c
    let o := c.executor.overflow
    let calls := c.executor.opening ++ dragCalls o fromX fromY toX toY
    let answered := answer (c.executor.device.play calls) (dragEnding o fromX fromY toX toY)
    reply.result = (answered.map fun () => .ok).mapError DesktopError.message ∧
      reply.world = { c with executor := c.executor.playing calls } ∧
      (reply.signals.any Signal.isCrash = true ↔ answered = .error .overflow) := by
  obtain ⟨activity, drags, plays⟩ :=
    drag_plays c.executor.overflow fromX fromY toX toY (durationMs.getD 0)
  have answered := inContext_opening plays (fun () => Outcome.ok) real
  rw [← drags] at answered
  exact answered

/-- No failure of the device is a crash. -/
theorem answer_overflow_iff {p : Played} {ending : Except DesktopError Unit} :
    answer p ending = .error .overflow ↔ p.failed = none ∧ ending = .error .overflow := by
  rcases p with ⟨made, _ | ⟨call, e⟩, device⟩
  · simp [answer]
  · by_cases create : call.method = .create <;> simp [answer, create]

theorem dragEnding_overflow_iff : dragEnding o fromX fromY toX toY = .error .overflow ↔
    DragCrashes o fromX fromY toX toY := by
  rw [dragEnding]
  split <;> simp [*]

/-! ### Steady drags -/

/-- With a device that makes every call a drag moves to the start, presses, makes its moves and
releases, and the last move goes to the end, unless the program crashes: then it ends after the press.
The drag is steady just if the differences of its ends do not overflow. -/
theorem drag_steady_iff (fromX fromY toX toY : Int32) (durationMs : Option UInt64)
    (real : c.executor.dryRun = false) (reliable : c.executor.device.Reliable) :
    let reply := perform (.drag fromX fromY toX toY durationMs) c
    let made := c.executor.device.calls.reverse ++ c.executor.opening ++ dragStart fromX fromY
    (¬ DragCrashes c.executor.overflow fromX fromY toX toY →
      reply.result = .ok .ok ∧ reply.signals.any Signal.isCrash = false ∧
      reply.world.executor.device.calls.reverse =
        made ++ dragMoves fromX fromY toX toY ++ [.button .left .release]) ∧
    (DragCrashes c.executor.overflow fromX fromY toX toY →
      reply.signals.any Signal.isCrash = true ∧
      reply.world.executor.device.calls.reverse = made) ∧
    (dragCoordinate fromX toX dragSteps = toX ∧ dragCoordinate fromY toY dragSteps = toY) ∧
    (Steady fromX toX ∧ Steady fromY toY ↔
      Fits32 (toX.toInt - fromX.toInt) ∧ Fits32 (toY.toInt - fromY.toInt)) := by
  intro reply made
  obtain ⟨result, world, crash⟩ := perform_drag fromX fromY toX toY durationMs real
  have played := reliable.played
    (c.executor.opening ++ dragCalls c.executor.overflow fromX fromY toX toY)
  have calls : reply.world.executor.device.calls.reverse =
      made ++ dragRest c.executor.overflow fromX fromY toX toY := by
    rw [world]
    change (c.executor.device.play _).device.calls.reverse = _
    rw [InputDevice.play_calls, InputDevice.made_of_played played, List.reverse_append,
      List.reverse_reverse, dragCalls]
    simp only [made, List.append_assoc]
  rw [answer_overflow_iff, dragEnding_overflow_iff, and_iff_right played] at crash
  refine ⟨fun goesOn => ⟨?_, ?_, ?_⟩, fun crashes => ⟨crash.mpr crashes, ?_⟩,
    ⟨dragCoordinate_last .., dragCoordinate_last ..⟩, ?_⟩
  · rw [result, answer, played, dragEnding, if_neg goesOn]
    rfl
  · exact Bool.eq_false_iff.mpr (mt crash.mp goesOn)
  · rw [calls, dragRest, if_neg goesOn, List.append_assoc made]
  · rw [calls, dragRest, if_pos crashes, List.append_nil]
  · rw [steady_iff, steady_iff]

/-- A drag through the whole range of the coordinates is steady, also where numbers are checked. -/
theorem drag_steady_corner :
    let c : Context Desktop := ⟨{ dryRun := false, overflow := .crashes }, {}⟩
    (perform (.drag (-1) 0 2147483646 (-2147483648) none) c).result = .ok .ok ∧
      Steady (-1) 2147483646 ∧ Steady 0 (-2147483648) := by
  intro c
  obtain ⟨goesOn, -, -, steady_iff⟩ := drag_steady_iff (-1) 0 2147483646 (-2147483648) none
    (c := c) rfl ⟨rfl, fun _ _ => rfl⟩
  have fits : Fits32 ((2147483646 : Int32).toInt - (-1 : Int32).toInt) ∧
      Fits32 ((-2147483648 : Int32).toInt - (0 : Int32).toInt) := by decide
  exact ⟨(goesOn fun crashes => crashes.2 fits).1, steady_iff.mpr fits⟩

/-- From here to there is too far: the drag sets out in the other direction, or the program crashes with
the button held. -/
theorem drag_unsteady_far :
    let reply (overflow : Overflow) :=
      perform (.drag (-2000000000) 0 2000000000 0 none) ⟨{ dryRun := false, overflow }, {}⟩
    (2000000000 - (-2000000000) : Int32) = -294967296 ∧
    (reply .crashes).signals.any Signal.isCrash = true ∧
    (reply .crashes).world.executor.device.calls =
      [.button .left .press, .moveMouse (-2000000000) 0, .create] ∧
    (reply .wraps).result = .ok .ok ∧
    (reply .wraps).world.executor.device.calls.reverse[3]? = some (.moveMouse (-2029496730) 0) := by
  decide +kernel

/-! ### The button -/

theorem dragStart_played {device : InputDevice} :
    (device.play (dragStart fromX fromY)).failed = none ↔
      device.fails .moveMouse (device.attemptsAt .moveMouse) = false ∧
        device.fails .button (device.attemptsAt .button) = false := by
  have move : DeviceCall.method (.moveMouse fromX fromY) ≠ .create := nofun
  have press : DeviceCall.method (.button .left .press) ≠ .create := nofun
  have split : dragStart fromX fromY = [.moveMouse fromX fromY] ++ [.button .left .press] := rfl
  rw [split, InputDevice.play_append_failed, InputDevice.play_alone _ press,
    InputDevice.play_alone _ move]
  refine and_congr_right fun works => ?_
  have moved := (InputDevice.play_alone device move).mpr works
  obtain ⟨-, fails, attempts⟩ := InputDevice.play_device moved
  rw [fails, attempts]
  rfl

/-- The device opens, if it has to, and the drag gets as far as holding the button. -/
theorem press_made_iff : .button .left .press ∈
      (d.device.play (d.opening ++ dragCalls o fromX fromY toX toY)).made ↔
    (d.device.play (d.opening ++ dragStart fromX fromY)).failed = none := by
  have new : .button .left .press ∉ d.opening ++ [.moveMouse fromX fromY] := by
    rw [List.mem_append, List.mem_singleton]
    rintro (first | move)
    · cases eq_create_of_mem_opening first
    · cases move
  have made := InputDevice.mem_made_iff (d := d.device) new
    (dragRest o fromX fromY toX toY)
  rw [List.append_assoc, List.append_assoc] at made
  exact made

/-- Unless the program crashes the call for the release is the one after all the others. -/
theorem release_tried_iff (goesOn : ¬ DragCrashes o fromX fromY toX toY) : .button .left .release ∈
      (d.device.play (d.opening ++ dragCalls o fromX fromY toX toY)).tried ↔
    (d.device.play (d.opening ++ dragStart fromX fromY ++
      dragMoves fromX fromY toX toY)).failed = none := by
  have new : .button .left .release ∉ d.opening ++ dragStart fromX fromY ++
      dragMoves fromX fromY toX toY := by
    rw [List.mem_append, List.mem_append]
    rintro ((first | started) | moved)
    · cases eq_create_of_mem_opening first
    · simp [dragStart] at started
    · cases method_of_mem_dragMoves moved
  have tried := InputDevice.mem_tried_iff (d := d.device) new []
  simp only [dragCalls, dragRest, if_neg goesOn, List.append_assoc] at tried ⊢
  exact tried

/-- Where the program crashes there is no call for the release. -/
theorem release_not_tried (crashes : DragCrashes o fromX fromY toX toY) : .button .left .release ∉
    (d.device.play (d.opening ++ dragCalls o fromX fromY toX toY)).tried := by
  intro tried
  have inside := InputDevice.mem_of_tried tried
  rw [dragCalls, dragRest, if_pos crashes, List.append_nil, List.mem_append] at inside
  rcases inside with first | started
  · cases eq_create_of_mem_opening first
  · simp [dragStart] at started

theorem start_played_iff (d : Desktop) (fromX fromY : Int32) :
    (d.device.play (d.opening ++ dragStart fromX fromY)).failed = none ↔
      (d.isOpen = true ∨ d.device.Serves .create) ∧
      d.device.fails .moveMouse (d.device.attemptsAt .moveMouse) = false ∧
      d.device.fails .button (d.device.attemptsAt .button) = false := by
  rw [InputDevice.play_append_failed, opening_played, dragStart_played]
  refine and_congr_right fun opens => ?_
  obtain ⟨-, fails, attempts⟩ := InputDevice.play_device (opening_played.mpr opens)
  rw [fails, attempts, attempts, d.countP_opening (m := .moveMouse) nofun,
    d.countP_opening (m := .button) nofun]
  rfl

theorem moves_played_iff :
    (d.device.play (d.opening ++ dragStart fromX fromY ++
      dragMoves fromX fromY toX toY)).failed = none ↔
    (d.device.play (d.opening ++ dragStart fromX fromY)).failed = none ∧
      ∀ i < dragSteps, d.device.fails .moveMouse
        (d.device.attemptsAt .moveMouse + (i + 1)) = false := by
  rw [InputDevice.play_append_failed,
    InputDevice.play_alike (m := .moveMouse) (fun _ => method_of_mem_dragMoves) nofun, length_dragMoves]
  refine and_congr_right fun started => forall₂_congr fun i within => ?_
  obtain ⟨-, fails, attempts⟩ := InputDevice.play_device started
  have moved : (d.opening ++ dragStart fromX fromY).countP (·.method = .moveMouse) = 1 := by
    rw [List.countP_append, d.countP_opening (m := .moveMouse) nofun]
    rfl
  rw [fails, attempts, moved, Nat.add_assoc, Nat.add_comm 1]

/-- A drag for real presses the button just if the device is open or opens, moves to the start and
presses. The button is then left held just if the program crashes over the way of the drag or one of the
moves to the end fails. -/
theorem drag_unreleased_iff (fromX fromY toX toY : Int32) (durationMs : Option UInt64)
    (real : c.executor.dryRun = false) :
    let reply := perform (.drag fromX fromY toX toY durationMs) c
    let device := c.executor.device
    let o := c.executor.overflow
    let played := device.play (c.executor.opening ++ dragCalls o fromX fromY toX toY)
    (reply.signals.any Signal.isCrash = true ↔
      played.failed = none ∧ DragCrashes o fromX fromY toX toY) ∧
      (reply.signals.any Signal.isCrash = false →
        reply.result = ((answer played).map fun () => .ok).mapError DesktopError.message) ∧
      reply.world.executor.device = played.device ∧
      (.button .left .press ∈ played.made ∧ .button .left .release ∉ played.tried ↔
        ((c.executor.isOpen = true ∨ device.Serves .create) ∧
          device.fails .moveMouse (device.attemptsAt .moveMouse) = false ∧
          device.fails .button (device.attemptsAt .button) = false) ∧
        (DragCrashes o fromX fromY toX toY ∨
          ∃ i < dragSteps,
            device.fails .moveMouse (device.attemptsAt .moveMouse + (i + 1)) = true)) := by
  intro reply device o played
  obtain ⟨result, world, crash⟩ := perform_drag fromX fromY toX toY durationMs real
  rw [answer_overflow_iff, dragEnding_overflow_iff] at crash
  refine ⟨crash, fun returns => ?_, by rw [world]; rfl, ?_⟩
  · have kept : answer played (dragEnding o fromX fromY toX toY) = answer played := by
      have goesOn := mt crash.mpr (Bool.eq_false_iff.mp returns)
      rcases failed : played.failed with _ | f
      · rw [answer, answer, failed, dragEnding, if_neg fun crashes => goesOn ⟨failed, crashes⟩]
      · rw [answer, answer, failed]
    rw [result, ← kept]
  rw [press_made_iff, ← start_played_iff _ fromX fromY]
  refine and_congr_right fun started => ?_
  by_cases crashes : DragCrashes o fromX fromY toX toY
  · exact iff_of_true (release_not_tried crashes) (.inl crashes)
  · rw [release_tried_iff crashes, moves_played_iff]
    simp [started, crashes, device]

/-- A desktop that has just been set up, with a pointer that moves once and then never again. -/
def stuck : Context Desktop :=
  ⟨{ dryRun := false, device := { fails := fun m n => m = .moveMouse && n ≠ 0 } }, {}⟩

theorem drag_unreleased_stuck :
    let played := stuck.executor.device.play (stuck.executor.opening ++ dragCalls .wraps 1 2 3 4)
    stuck.executor.dryRun = false ∧ (perform (.drag 1 2 3 4 none) stuck).world.executor.device =
      played.device ∧ .button .left .press ∈ played.made ∧ .button .left .release ∉ played.tried := by
  obtain ⟨-, -, device, held_iff⟩ := drag_unreleased_iff 1 2 3 4 none (c := stuck) rfl
  exact ⟨rfl, device, held_iff.mpr ⟨⟨.inr ⟨fun _ => rfl, rfl⟩, rfl, rfl⟩, .inr ⟨0, by decide, rfl⟩⟩⟩

/-- The last call is the press, and the button is not asked for anything else. -/
theorem not_released_stuck :
    let reply := perform (.drag 1 2 3 4 none) stuck
    reply.result = .error "move_mouse failed" ∧
      reply.world.executor.device.calls = [.button .left .press, .moveMouse 1 2, .create] ∧
      reply.world.executor.device.attemptsAt .button = 1 := by
  decide +kernel

end Screenplay.Desktop
