import Mathlib.Tactic
import Screenplay.Device.Desktop

/-!
Activities as lists of calls. A device makes calls one after the other up to the first that fails
(`InputDevice.play`), and which one that is is told by its schedule alone, from the attempts at each
method (`InputDevice.played_iff`). An activity on an open device is such a list, whatever it sleeps
between the calls (`Desktop.Plays`); one that has to open the device first makes one more call
(`Desktop.run_opening`).
-/
namespace Screenplay

/-! ### Calls one after the other -/

/-- What becomes of calls that are made one after the other. -/
structure Played where
  /-- The calls that succeeded, in their order. -/
  made : List DeviceCall
  /-- The call that failed and ended it. -/
  failed : Option (DeviceCall × DeviceError)
  device : InputDevice

/-- The calls that were made, whether they succeeded or not. -/
def Played.tried (p : Played) : List DeviceCall := p.made ++ p.failed.toList.map Prod.fst

namespace InputDevice

/-- Makes calls one after the other up to the first that fails. -/
def play (d : InputDevice) : List DeviceCall → Played
  | [] => { made := [], failed := none, device := d }
  | c :: rest =>
    match d.call c with
    | (.ok (), device) => { device.play rest with made := c :: (device.play rest).made }
    | (.error e, device) => { made := [], failed := some (c, e), device }

/-- Asked now, the device makes the call. -/
def Serves (d : InputDevice) (c : DeviceCall) : Prop :=
  (c.method = .create → d.attached = true) ∧ d.fails c.method (d.attemptsAt c.method) = false

/-- Why the device does not make a call. -/
def refusal (d : InputDevice) (c : DeviceCall) : DeviceError :=
  if c.method = .create ∧ !d.attached then .noDevice else .failed c.method

/-- By its schedule the device makes all these calls, one after the other. -/
def Grants (d : InputDevice) (cs : List DeviceCall) : Prop :=
  ∀ pre c post, cs = pre ++ c :: post → (c.method = .create → d.attached = true) ∧
    d.fails c.method (d.attemptsAt c.method + pre.countP (·.method = c.method)) = false

variable {d : InputDevice} {c : DeviceCall} {cs pre post : List DeviceCall} {m : DeviceMethod}

theorem attemptsAt_tryOnce (d : InputDevice) (tried m : DeviceMethod) :
    (d.tryOnce tried).attemptsAt m = d.attemptsAt m + if m = tried then 1 else 0 := by
  have others : ∀ attempts : List (DeviceMethod × Nat), m ≠ tried →
      (attempts.filter fun a => a.1 != tried).lookup m = attempts.lookup m := by
    intro attempts other
    induction attempts with
    | nil => rfl
    | cons a rest ih =>
      obtain ⟨method, n⟩ := a
      by_cases same : method = tried
      · have unlike : (m == method) = false := beq_false_of_ne (same ▸ other)
        rw [List.filter_cons_of_neg (by simp [same]), ih, List.lookup_cons, unlike]
      · rw [List.filter_cons_of_pos (by simpa using same), List.lookup_cons, List.lookup_cons, ih]
  by_cases same : m = tried
  · subst same
    simp [attemptsAt, tryOnce]
  · have unlike : (m == tried) = false := beq_false_of_ne same
    rw [if_neg same, attemptsAt, tryOnce, List.lookup_cons, unlike]
    simp only [others d.attempts same]
    rfl

/-- A call that is made is recorded and counts as an attempt; the schedule stays as it is. -/
theorem Serves.call (serves : d.Serves c) :
    ∃ device, d.call c = (.ok (), device) ∧ device.calls = c :: d.calls ∧
      device.attached = d.attached ∧ device.fails = d.fails ∧
      ∀ m, device.attemptsAt m = d.attemptsAt m + if m = c.method then 1 else 0 := by
  obtain ⟨attached, works⟩ := serves
  have opens : ¬ (c.method = .create ∧ (!d.attached) = true) := by
    rintro ⟨create, detached⟩
    rw [attached create] at detached
    cases detached
  unfold InputDevice.call
  rw [if_neg opens]
  dsimp only
  rw [if_neg (by simp [works])]
  exact ⟨_, rfl, rfl, rfl, rfl, attemptsAt_tryOnce d c.method⟩

/-- A call that fails is not recorded. -/
theorem call_of_not_serves (refuses : ¬ d.Serves c) :
    ∃ device, d.call c = (.error (d.refusal c), device) ∧ device.calls = d.calls := by
  unfold refusal
  by_cases detached : c.method = .create ∧ (!d.attached) = true
  · unfold InputDevice.call
    rw [if_pos detached, if_pos detached]
    exact ⟨_, rfl, rfl⟩
  have fails : d.fails c.method (d.attemptsAt c.method) = true := by
    by_contra works
    refine refuses ⟨fun create => ?_, by simpa using works⟩
    by_contra without
    exact detached ⟨create, by simpa using without⟩
  unfold InputDevice.call
  rw [if_neg detached, if_neg detached]
  dsimp only
  rw [if_pos fails]
  exact ⟨_, rfl, rfl⟩

/-- A device that makes every call. -/
structure Reliable (d : InputDevice) : Prop where
  attached : d.attached = true
  succeeds : ∀ m n, d.fails m n = false

theorem Reliable.call (reliable : d.Reliable) (c : DeviceCall) :
    ∃ d', d.call c = (.ok (), d') ∧ d'.Reliable := by
  have serves : d.Serves c := ⟨fun _ => reliable.attached, reliable.succeeds _ _⟩
  obtain ⟨device, called, -, attached, fails, -⟩ := serves.call
  refine ⟨device, called, attached.trans reliable.attached, ?_⟩
  rw [fails]
  exact reliable.succeeds

theorem Reliable.played (reliable : d.Reliable) (cs : List DeviceCall) :
    (d.play cs).failed = none := by
  induction cs generalizing d with
  | nil => rfl
  | cons c rest ih =>
    obtain ⟨device, called, reliable'⟩ := reliable.call c
    simp only [play, called, ih reliable']

/-- A list of calls is played out just if its first call is made and then the rest is played out. -/
theorem play_cons_failed : (d.play (c :: cs)).failed = none ↔
    d.Serves c ∧ ((d.call c).2.play cs).failed = none := by
  by_cases serves : d.Serves c
  · obtain ⟨device, called, -⟩ := serves.call
    simp only [play, called, serves, true_and]
  · obtain ⟨device, called, -⟩ := call_of_not_serves serves
    simp [play, called, serves]

/-- What comes after calls that were all made goes on with the device as they left it. -/
theorem play_append_of_played (played : (d.play pre).failed = none) (post : List DeviceCall) :
    d.play (pre ++ post) = { (d.play pre).device.play post with
      made := pre ++ ((d.play pre).device.play post).made } := by
  induction pre generalizing d with
  | nil => rfl
  | cons c rest ih =>
    obtain ⟨serves, others⟩ := play_cons_failed.mp played
    obtain ⟨device, called, -⟩ := serves.call
    rw [called] at others
    simp only [List.cons_append, play, called, ih others]

/-- What comes after a call that failed is not tried. -/
theorem play_append_of_failed (failed : (d.play pre).failed ≠ none) (post : List DeviceCall) :
    d.play (pre ++ post) = d.play pre := by
  induction pre generalizing d with
  | nil => exact absurd rfl failed
  | cons c rest ih =>
    by_cases serves : d.Serves c
    · obtain ⟨device, called, -⟩ := serves.call
      have later : (device.play rest).failed ≠ none := by simpa only [play, called] using failed
      simp only [List.cons_append, play, called, ih later]
    · obtain ⟨device, called, -⟩ := call_of_not_serves serves
      simp only [List.cons_append, play, called]

theorem play_append_failed : (d.play (pre ++ post)).failed = none ↔
    (d.play pre).failed = none ∧ ((d.play pre).device.play post).failed = none := by
  by_cases played : (d.play pre).failed = none
  · rw [play_append_of_played played]
    simp only [played, true_and]
  · rw [play_append_of_failed played]
    simp only [played, false_and]

/-- Calls that are all made leave the schedule as it is and count as attempts. -/
theorem play_device (played : (d.play cs).failed = none) :
    (d.play cs).device.attached = d.attached ∧ (d.play cs).device.fails = d.fails ∧
      ∀ m, (d.play cs).device.attemptsAt m = d.attemptsAt m + cs.countP (·.method = m) := by
  induction cs generalizing d with
  | nil => exact ⟨rfl, rfl, fun m => rfl⟩
  | cons c rest ih =>
    obtain ⟨serves, others⟩ := play_cons_failed.mp played
    obtain ⟨device, called, -, attached, fails, attempts⟩ := serves.call
    rw [called] at others
    obtain ⟨attached', fails', attempts'⟩ := ih others
    have same : (d.play (c :: rest)).device = (device.play rest).device := by simp only [play, called]
    rw [same]
    refine ⟨attached'.trans attached, fails'.trans fails, fun m => ?_⟩
    rw [attempts' m, attempts m, List.countP_cons]
    by_cases method : m = c.method
    · simp [method]
      omega
    · simp [method, Ne.symm method]

/-- A call that is made leaves the schedule of those after it as it is. -/
theorem Serves.grants_iff (serves : d.Serves c) (cs : List DeviceCall) :
    d.Grants (c :: cs) ↔ (d.call c).2.Grants cs := by
  obtain ⟨device, called, -, attached, fails, attempts⟩ := serves.call
  have shifted (pre : List DeviceCall) (m : DeviceMethod) :
      device.attemptsAt m + pre.countP (·.method = m) =
        d.attemptsAt m + (c :: pre).countP (·.method = m) := by
    rw [attempts m, List.countP_cons]
    simp only [decide_eq_true_eq, eq_comm (a := m)]
    omega
  rw [called]
  constructor
  · intro grants pre c' post split
    rw [attached, fails, shifted]
    exact grants (c :: pre) c' post (congrArg (c :: ·) split)
  · intro grants pre c' post split
    cases pre with
    | nil =>
      obtain ⟨rfl, rfl⟩ := List.cons.inj split
      exact serves
    | cons first pre =>
      obtain ⟨rfl, later⟩ := List.cons.inj split
      rw [← attached, ← fails, ← shifted]
      exact grants pre c' post later

/-- Whether a list of calls is played out is told by the schedule. -/
theorem played_iff : (d.play cs).failed = none ↔ d.Grants cs := by
  induction cs generalizing d with
  | nil => simp [play, Grants]
  | cons c rest ih =>
    rw [play_cons_failed, ih]
    refine ⟨fun ⟨serves, grants⟩ => (serves.grants_iff rest).mpr grants, fun grants => ?_⟩
    have serves : d.Serves c := grants [] c rest rfl
    exact ⟨serves, (serves.grants_iff rest).mp grants⟩

/-- Calls of one method succeed as far as the schedule lets the next attempts at it. -/
theorem play_alike (alike : ∀ c ∈ cs, c.method = m) (opened : m ≠ .create) :
    (d.play cs).failed = none ↔ ∀ i < cs.length, d.fails m (d.attemptsAt m + i) = false := by
  have earlier (pre : List DeviceCall) (inside : pre ⊆ cs) : pre.countP (·.method = m) = pre.length :=
    List.countP_eq_length.mpr fun c member => decide_eq_true (alike c (inside member))
  rw [played_iff]
  constructor
  · intro grants i within
    have split : cs = cs.take i ++ cs[i] :: cs.drop (i + 1) := by simp
    have granted := (grants _ _ _ split).2
    rwa [alike _ (List.getElem_mem within), earlier _ (List.take_subset i cs), List.length_take,
      Nat.min_eq_left within.le] at granted
  · rintro works pre c post rfl
    have method : c.method = m := alike c (by simp)
    rw [method, earlier pre (List.subset_append_left _ _)]
    exact ⟨fun create => absurd create opened, works pre.length (by simp)⟩

/-- A single call goes as the next attempt at its method. -/
theorem play_alone (d : InputDevice) (opened : c.method ≠ .create) :
    (d.play [c]).failed = none ↔ d.fails c.method (d.attemptsAt c.method) = false := by
  have alike : ∀ c' ∈ [c], c'.method = c.method := by simp
  rw [play_alike alike opened]
  simp only [List.length_singleton, Nat.lt_one_iff, forall_eq, Nat.add_zero]

/-! ### Which calls are made -/

/-- What is tried begins the list. -/
theorem tried_begins (d : InputDevice) (cs : List DeviceCall) : (d.play cs).tried <+: cs := by
  induction cs generalizing d with
  | nil => exact List.prefix_refl _
  | cons c rest ih =>
    rw [play]
    rcases d.call c with ⟨e | _, device⟩
    · exact ⟨rest, rfl⟩
    · exact (List.prefix_cons_inj c).mpr (ih device)

theorem made_begins (d : InputDevice) (cs : List DeviceCall) : (d.play cs).made <+: cs :=
  (List.prefix_append _ _).trans (tried_begins d cs)

theorem made_of_played (played : (d.play cs).failed = none) : (d.play cs).made = cs := by
  have whole := congrArg Played.made (play_append_of_played played [])
  rwa [List.append_nil, play, List.append_nil] at whole

theorem mem_of_tried (tried : c ∈ (d.play cs).tried) : c ∈ cs := (tried_begins d cs).subset tried

/-- The calls that succeeded are recorded, the latest first. -/
theorem play_calls (d : InputDevice) (cs : List DeviceCall) :
    (d.play cs).device.calls = (d.play cs).made.reverse ++ d.calls := by
  induction cs generalizing d with
  | nil => rfl
  | cons c rest ih =>
    by_cases serves : d.Serves c
    · obtain ⟨device, called, calls, -⟩ := serves.call
      simp only [play, called, ih device, calls, List.reverse_cons, List.append_assoc,
        List.singleton_append]
    · obtain ⟨device, called, calls⟩ := call_of_not_serves serves
      simp only [play, called, calls, List.reverse_nil, List.nil_append]

/-- The calls that are made are granted by the schedule. -/
theorem made_grants (d : InputDevice) (cs : List DeviceCall) : d.Grants (d.play cs).made := by
  induction cs generalizing d with
  | nil => simp [play, Grants]
  | cons c rest ih =>
    by_cases serves : d.Serves c
    · obtain ⟨device, called, -⟩ := serves.call
      have later := (serves.grants_iff (device.play rest).made).mpr
      rw [called] at later
      simp only [play, called]
      exact later (ih device)
    · obtain ⟨device, called, -⟩ := call_of_not_serves serves
      simp [play, called, Grants]

/-- The schedule does not grant one call more than are made. -/
theorem not_grants_next (begins : (d.play cs).made ++ [c] <+: cs) :
    ¬ d.Grants ((d.play cs).made ++ [c]) := by
  intro grants
  generalize same : (d.play cs).made = made at begins grants
  obtain ⟨post, rfl⟩ := begins
  rw [play_append_of_played (played_iff.mpr grants)] at same
  have lengths := congrArg List.length same
  simp at lengths

theorem failed_refusal {e : DeviceError} (failed : (d.play cs).failed = some (c, e)) :
    e = d.refusal c := by
  induction cs generalizing d with
  | nil => cases failed
  | cons first rest ih =>
    by_cases serves : d.Serves first
    · obtain ⟨device, called, -, attached, -⟩ := serves.call
      simp only [play, called] at failed
      rw [ih failed, refusal, refusal, attached]
    · obtain ⟨device, called, -⟩ := call_of_not_serves serves
      simp only [play, called] at failed
      cases failed
      rfl

/-- The call that fails is the one after those that are made. -/
theorem failed_of_next (begins : (d.play cs).made ++ [c] <+: cs) :
    (d.play cs).failed = some (c, d.refusal c) := by
  rcases ended : (d.play cs).failed with _ | ⟨c', e⟩
  · rw [made_of_played ended] at begins
    have := begins.length_le
    simp at this
  · have tried := tried_begins d cs
    simp only [Played.tried, ended, Option.toList_some, List.map_cons, List.map_nil] at tried
    have same := List.prefix_of_prefix_length_le tried begins (by simp)
    obtain rfl : c' = c := by simpa using same
    rw [failed_refusal ended]

/-- A call is tried just if all that come before it are made. -/
theorem mem_tried_iff (new : c ∉ pre) (post : List DeviceCall) :
    c ∈ (d.play (pre ++ c :: post)).tried ↔ (d.play pre).failed = none := by
  constructor
  · intro tried
    by_contra failed
    rw [play_append_of_failed failed] at tried
    exact new (mem_of_tried tried)
  · intro played
    have first : c ∈ ((d.play pre).device.play (c :: post)).tried := by
      rw [play]
      rcases (d.play pre).device.call c with ⟨_ | _, device⟩ <;> simp [Played.tried]
    rw [play_append_of_played played, Played.tried, List.append_assoc]
    exact List.mem_append_right _ first

/-- A call is made just if all up to it are. -/
theorem mem_made_iff (new : c ∉ pre) (post : List DeviceCall) :
    c ∈ (d.play (pre ++ c :: post)).made ↔ (d.play (pre ++ [c])).failed = none := by
  have split : pre ++ c :: post = pre ++ [c] ++ post := by simp
  constructor
  · intro made
    by_contra failed
    rw [split, play_append_of_failed failed] at made
    obtain ⟨f, ended⟩ := Option.ne_none_iff_exists'.mp failed
    have tried := tried_begins d (pre ++ [c])
    have shorter := tried.length_le
    simp only [Played.tried, ended, Option.toList_some, List.map_cons, List.map_nil,
      List.length_append, List.length_singleton] at shorter
    have earlier : (d.play (pre ++ [c])).made <+: pre :=
      List.prefix_of_prefix_length_le ((List.prefix_append _ _).trans tried) (List.prefix_append _ _)
        (by omega)
    exact new (earlier.subset made)
  · intro played
    rw [split, play_append_of_played played]
    simp

end InputDevice

/-! ### Activities -/

namespace Desktop

variable {α β γ : Type} {activity first next : Activity Unit} {cs cs' : List DeviceCall}
  {ending : Except DesktopError Unit} {o : Overflow} {d : Desktop}

theorem run_bind (first : Activity α) (next : α → Activity β) (d : Desktop) (asleep : Array Desktop) :
    ((first >>= next).run.run d).run asleep =
      match (first.run.run d).run asleep with
      | ((.ok a, d), asleep) => ((next a).run.run d).run asleep
      | ((.error e, d), asleep) => ((.error e, d), asleep) := by
  simp only [ExceptT.run_bind, StateT.run_bind]
  rcases (first.run.run d).run asleep with ⟨⟨_ | _, _⟩, _⟩ <;> rfl

/-- What calls come to, if they come to this when all are made. The error of a call says whether the
device could not be opened. -/
def answer (p : Played) (ending : Except DesktopError Unit := .ok ()) : Except DesktopError Unit :=
  match p.failed with
  | none => ending
  | some (c, e) => .error (if c.method = .create then .notOpened e else .device e)

/-- The desktop after calls. -/
def playing (d : Desktop) (cs : List DeviceCall) : Desktop :=
  { d with
    device := (d.device.play cs).device
    isOpen := d.isOpen || decide (.create ∈ (d.device.play cs).made) }

/-- On an open device the activity makes these calls up to the first that fails; if none does, it comes
to this ending. -/
def Plays (o : Overflow) (activity : Activity Unit) (cs : List DeviceCall)
    (ending : Except DesktopError Unit := .ok ()) : Prop :=
  ∀ (d : Desktop) (asleep : Array Desktop), d.isOpen = true → d.overflow = o → ∃ asleep',
    (activity.run.run d).run asleep =
      ((answer (d.device.play cs) ending, { d with device := (d.device.play cs).device }), asleep')

/-- The call that a desktop makes first for whatever it does. -/
def opening (d : Desktop) : List DeviceCall := if d.isOpen then [] else [.create]

theorem opening_played : (d.device.play d.opening).failed = none ↔
    d.isOpen = true ∨ d.device.Serves .create := by
  rw [opening]
  split
  next opened => simp [opened, InputDevice.play]
  next closed =>
    rw [InputDevice.play_cons_failed]
    simp [closed, InputDevice.play]

theorem eq_create_of_mem_opening {c : DeviceCall} (first : c ∈ d.opening) : c = .create := by
  rw [opening] at first
  split at first
  · cases first
  · exact List.mem_singleton.mp first

/-- Opening the device is no attempt at anything else. -/
theorem countP_opening (d : Desktop) {m : DeviceMethod} (other : m ≠ .create) :
    d.opening.countP (·.method = m) = 0 := by
  rw [List.countP_eq_zero]
  intro c first
  rw [eq_create_of_mem_opening first, decide_eq_true_eq]
  exact other.symm

theorem run_attempt (blame : DeviceError → DesktopError) (c : DeviceCall) (d : Desktop)
    (asleep : Array Desktop) : ((attempt blame c).run.run d).run asleep =
      ((match (d.device.call c).1 with
        | .ok () => .ok ()
        | .error e => .error (blame e), { d with device := (d.device.call c).2 }), asleep) := by
  have done : ((attempt blame c).run.run d).run asleep =
      (fun answered : Except DeviceError Unit × InputDevice =>
        (((match answered.1 with
          | .ok () => pure ()
          | .error e => throw (blame e) : Activity Unit).run.run
            { d with device := answered.2 }).run asleep)) (d.device.call c) := rfl
  rw [done]
  rcases d.device.call c with ⟨_ | _, device⟩ <;> rfl

namespace Plays

theorem nothing : Plays o (pure ()) [] := fun _ asleep _ _ => ⟨asleep, rfl⟩

theorem sleep : Plays o Desktop.sleep [] := fun d asleep _ _ => ⟨asleep.push d, rfl⟩

/-- There is nothing to open. -/
theorem ensureOpen : Plays o Desktop.ensureOpen [] := by
  intro d asleep opened _
  obtain ⟨dryRun, device, isOpen, log, overflow⟩ := d
  cases opened
  exact ⟨asleep, rfl⟩

theorem call {c : DeviceCall} (opened : c.method ≠ .create) : Plays o (Desktop.call c) [c] := by
  intro d asleep _ _
  refine ⟨asleep, ?_⟩
  rw [Desktop.call, run_attempt, InputDevice.play]
  rcases d.device.call c with ⟨e | _, device⟩
  · simp only [answer, if_neg opened]
  · rfl

/-- Numbers that fit their words, or that may wrap, are gone over. -/
theorem checkFits {fits : Bool} (goesOn : o = .wraps ∨ fits = true) : Plays o (Desktop.checkFits fits) [] := by
  rintro d asleep _ rfl
  refine ⟨asleep, ?_⟩
  have quiet : ¬ (d.overflow = .crashes ∧ (!fits) = true) := by
    rintro ⟨checked, overflows⟩
    rcases goesOn with wraps | fit
    · cases wraps.symm.trans checked
    · rw [fit] at overflows
      cases overflows
  have checked : ((Desktop.checkFits fits).run.run d).run asleep =
      ((if d.overflow = .crashes ∧ !fits then throw .overflow else pure () : Activity Unit).run.run d).run
        asleep := rfl
  rw [checked, if_neg quiet]
  rfl

theorem crash : Plays .crashes (Desktop.checkFits false) [] (.error .overflow) := by
  intro d asleep _ checked
  obtain ⟨dryRun, device, isOpen, log, overflow⟩ := d
  cases checked
  exact ⟨asleep, rfl⟩

theorem bind (plays : Plays o first cs) (playsOn : Plays o next cs' ending) :
    Plays o (first >>= fun _ => next) (cs ++ cs') ending := by
  intro d asleep opened overflow
  obtain ⟨asleep₁, ran⟩ := plays d asleep opened overflow
  rw [run_bind, ran]
  by_cases played : (d.device.play cs).failed = none
  · obtain ⟨asleep₂, ran'⟩ :=
      playsOn { d with device := (d.device.play cs).device } asleep₁ opened overflow
    refine ⟨asleep₂, ?_⟩
    simp only [answer, played] at ran' ⊢
    rw [ran', InputDevice.play_append_of_played played]
  · refine ⟨asleep₁, ?_⟩
    obtain ⟨f, ended⟩ := Option.ne_none_iff_exists'.mp played
    rw [InputDevice.play_append_of_failed played]
    simp only [answer, ended]

/-- What would come after an error does not come. -/
theorem bind_error {e : DesktopError} (plays : Plays o first cs (.error e)) :
    Plays o (first >>= fun _ => next) cs (.error e) := by
  intro d asleep opened overflow
  obtain ⟨asleep₁, ran⟩ := plays d asleep opened overflow
  refine ⟨asleep₁, ?_⟩
  rw [run_bind, ran]
  rcases ended : (d.device.play cs).failed with _ | ⟨c, e'⟩ <;> simp only [answer, ended]

theorem forM {act : γ → Activity Unit} {calls : γ → List DeviceCall} (xs : List γ)
    (plays : ∀ x ∈ xs, Plays o (act x) (calls x)) : Plays o (xs.forM act) (xs.flatMap calls) := by
  induction xs with
  | nil => exact nothing
  | cons x rest ih =>
    exact (plays x List.mem_cons_self).bind (ih fun y later => plays y (List.mem_cons_of_mem x later))

end Plays

theorem run_ensureOpen (closed : d.isOpen = false) (asleep : Array Desktop) :
    (ensureOpen.run.run d).run asleep =
      ((match (d.device.call .create).1 with
        | .ok () => (.ok (), { d with device := (d.device.call .create).2, isOpen := true })
        | .error e => (.error (.notOpened e), { d with device := (d.device.call .create).2 })),
        asleep) := by
  have opens : (ensureOpen.run.run d).run asleep =
      ((attempt .notOpened .create >>= fun _ =>
        (modify fun d => { d with isOpen := true } : Activity Unit)).run.run d).run asleep := by
    obtain ⟨dryRun, device, isOpen, log, overflow⟩ := d
    cases closed
    rfl
  rw [opens, run_bind, run_attempt]
  rcases d.device.call .create with ⟨_ | _, device⟩ <;> rfl

/-- Whatever is done for real begins with opening the device, unless it is open. -/
theorem run_opening (plays : Plays d.overflow activity cs ending) (asleep : Array Desktop) :
    ∃ asleep', ((ensureOpen >>= fun _ => activity).run.run d).run asleep =
      ((answer (d.device.play (d.opening ++ cs)) ending, d.playing (d.opening ++ cs)), asleep') := by
  by_cases opened : d.isOpen = true
  · obtain ⟨asleep', ran⟩ := Plays.ensureOpen.bind plays d asleep opened rfl
    refine ⟨asleep', ?_⟩
    rw [ran, opening, playing, if_pos opened, opened, Bool.true_or]
  · have closed : d.isOpen = false := by simpa using opened
    rw [run_bind, run_ensureOpen closed, opening, if_neg opened, playing, closed, Bool.false_or,
      List.singleton_append]
    rcases created : d.device.call .create with ⟨e | _, device⟩
    · refine ⟨asleep, ?_⟩
      simp [InputDevice.play, created, answer, DeviceCall.method]
    · obtain ⟨asleep', ran⟩ := plays { d with device, isOpen := true } asleep rfl rfl
      refine ⟨asleep', ?_⟩
      simp only [ran]
      simp [InputDevice.play, created, answer]

theorem crashes_lastSignals {ω : Type} (world : ω) (result : Except DesktopError α) :
    (lastSignals world result).any Signal.isCrash = true ↔ result = .error .overflow := by
  rcases result with (_ | _ | _) | _ <;> simp [lastSignals, Signal.isCrash]

/-- What is done for real in a context. -/
theorem inContext_opening {c : Context Desktop} (plays : Plays c.executor.overflow activity cs ending)
    (next : Unit → β) (real : c.executor.dryRun = false) :
    let reply := inContext (really (ensureOpen >>= fun _ => activity)) next c
    let calls := c.executor.opening ++ cs
    let answered := answer (c.executor.device.play calls) ending
    reply.result = (answered.map next).mapError DesktopError.message ∧
      reply.world = { c with executor := c.executor.playing calls } ∧
      (reply.signals.any Signal.isCrash = true ↔ answered = .error .overflow) := by
  have act : ((really (ensureOpen >>= fun _ => activity)).run.run c.executor).run #[] =
      ((ensureOpen >>= fun _ => activity).run.run c.executor).run #[] := by
    obtain ⟨⟨dryRun, device, isOpen, log, overflow⟩, scene⟩ := c
    cases real
    rfl
  obtain ⟨asleep, ran⟩ := run_opening plays #[]
  have pauses : (asleep.toList.map fun executor => Signal.pause { c with executor }).any Signal.isCrash =
      false := by
    simp [Signal.isCrash]
  intro reply calls answered
  simp only [reply, answered, calls, inContext, act, ran]
  refine ⟨?_, trivial, ?_⟩
  · rcases answer (c.executor.device.play (c.executor.opening ++ cs)) ending with _ | _ <;> rfl
  · rw [List.any_append, pauses, Bool.false_or]
    exact crashes_lastSignals _ _

end Desktop

end Screenplay
