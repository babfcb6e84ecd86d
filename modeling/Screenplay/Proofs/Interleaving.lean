import Mathlib.Data.List.Induction
import Screenplay.Run.Shared

/-!
Calls to one engine whose steps come in any order. The lock is held by one call at a time, the flag is
set for one run at a time, and the token in place is that of the run that was published last
(`Shared.Sound`).
-/
namespace Screenplay

namespace Phase

/-- A call in this phase has the lock. -/
def locks : Phase → Bool
  | .execute .entering | .execute .leaving | .execute .claiming | .execute .rewinding
  | .execute .publishing => true
  | .stop .looking | .stop .seeing | .stop (.telling _) | .stop .cancelling | .stop .leaving => true
  | _ => false

/-- The run of a call in this phase is in flight: the flag was set for it and is not cleared. -/
def flies : Phase → Bool
  | .execute .claiming | .execute .rewinding | .execute .publishing | .execute (.running _) => true
  | _ => false

end Phase

namespace Shared

/-! ### What a step can do -/

/-- The steps that can be taken. -/
inductive Goes (m : Shared) : Turn → Shared → Prop where
  | call {c stops} (fresh : m.calls c = none) :
    Goes m (.call c stops) (m.put c (if stops then .stop .waiting else .execute .waiting))
  | enter {c} (here : m.calls c = some (.execute .waiting)) (free : m.holder = none) :
    Goes m (.next c) { m.put c (.execute .entering) with holder := some c }
  | turnAway {c} (here : m.calls c = some (.execute .entering)) (busy : m.cells.running = true) :
    Goes m (.next c) (m.put c (.execute .leaving))
  | refuse {c} (here : m.calls c = some (.execute .leaving)) :
    Goes m (.next c) (m.give c (.execute .refused))
  | claim {c} (here : m.calls c = some (.execute .entering)) (idle : m.cells.running = false) :
    Goes m (.next c) (m.set c (.execute .claiming) { m.cells with running := true })
  | rewind {c} (here : m.calls c = some (.execute .claiming)) :
    Goes m (.next c) (m.set c (.execute .rewinding) { m.cells with current := 0 })
  | renew {c} (here : m.calls c = some (.execute .rewinding)) :
    Goes m (.next c) (m.set c (.execute .publishing)
      { m.cells with token := m.cells.made, made := m.cells.made + 1 })
  | publish {c} (here : m.calls c = some (.execute .publishing)) :
    Goes m (.next c) (m.give c (.execute (.running m.cells.token)))
  | reach {c t} (here : m.calls c = some (.execute (.running t))) (index : Nat) :
    Goes m (.reach c index) { m with cells := { m.cells with current := index } }
  | tell {c t} (here : m.calls c = some (.execute (.running t))) (event : Event) :
    Goes m (.tell c event) { m with cells := { m.cells with events := m.cells.events.push event } }
  | close {c t} (here : m.calls c = some (.execute (.running t))) :
    Goes m (.close c) (m.set c (.execute .closed) { m.cells with running := false })
  | drop {c} (here : m.calls c = some (.execute .waiting)) :
    Goes m (.close c) (m.put c (.execute .closed))
  | approach {c} (here : m.calls c = some (.stop .waiting)) (free : m.holder = none) :
    Goes m (.next c) { m.put c (.stop .looking) with holder := some c }
  | see {c} (here : m.calls c = some (.stop .looking)) (busy : m.cells.running = true) :
    Goes m (.next c) (m.put c (.stop .seeing))
  | miss {c} (here : m.calls c = some (.stop .looking)) (idle : m.cells.running = false) :
    Goes m (.next c) (m.put c (.stop .leaving))
  | read {c} (here : m.calls c = some (.stop .seeing)) :
    Goes m (.next c) (m.put c (.stop (.telling m.cells.current)))
  | request {c index} (here : m.calls c = some (.stop (.telling index))) :
    Goes m (.next c) (m.set c (.stop .cancelling)
      { m.cells with events := m.cells.events.push (.stopRequested index) })
  | cancel {c} (here : m.calls c = some (.stop .cancelling)) :
    Goes m (.next c) (m.set c (.stop .leaving)
      { m.cells with cancelled := m.cells.token :: m.cells.cancelled })
  | part {c} (here : m.calls c = some (.stop .leaving)) :
    Goes m (.next c) (m.give c (.stop .done))

variable {m m' : Shared} {c d : Nat} {phase : Phase} {turn : Turn}

theorem goOn_goes (here : m.calls c = some phase) (went : m.goOn c phase = some m') :
    m.Goes (.next c) m' := by
  have taken {after : Phase} (took : m.take c after = some m') :
      m.holder = none ∧ m' = { m.put c after with holder := some c } := by
    rw [take] at took
    split at took
    next free => exact ⟨free, (Option.some.inj took).symm⟩
    next => cases took
  rcases phase with execution | stopping
  · cases execution with
    | waiting =>
      obtain ⟨free, rfl⟩ := taken went
      exact .enter here free
    | entering =>
      rw [goOn] at went
      split at went
      next busy =>
        cases went
        exact .turnAway here busy
      next idle =>
        cases went
        exact .claim here (by simpa using idle)
    | leaving => cases went; exact .refuse here
    | claiming => cases went; exact .rewind here
    | rewinding => cases went; exact .renew here
    | publishing => cases went; exact .publish here
    | refused | running | closed => cases went
  · cases stopping with
    | waiting =>
      obtain ⟨free, rfl⟩ := taken went
      exact .approach here free
    | looking =>
      rw [goOn] at went
      split at went
      next busy =>
        cases went
        exact .see here busy
      next idle =>
        cases went
        exact .miss here (by simpa using idle)
    | seeing => cases went; exact .read here
    | telling index => cases went; exact .request here
    | cancelling => cases went; exact .cancel here
    | leaving => cases went; exact .part here
    | done => cases went

/-- Every step that is taken is one of these. -/
theorem step_goes (stepped : m.step turn = some m') : m.Goes turn m' := by
  cases turn with
  | call c stops =>
    rw [step] at stepped
    split at stepped
    next fresh =>
      cases stepped
      exact .call fresh
    next => cases stepped
  | next c =>
    rw [step] at stepped
    split at stepped
    next => cases stepped
    next phase here => exact goOn_goes here stepped
  | reach c index =>
    rw [step] at stepped
    split at stepped
    next t here =>
      cases stepped
      exact .reach here index
    next => cases stepped
  | tell c event =>
    rw [step] at stepped
    split at stepped
    next t here =>
      cases stepped
      exact .tell here event
    next => cases stepped
  | close c =>
    rw [step] at stepped
    split at stepped
    next t here =>
      cases stepped
      exact .close here
    next here =>
      cases stepped
      exact .drop here
    next => cases stepped

/-! ### Who has the lock and whose run is in flight -/

/-- The call is in a phase of this kind. -/
def Has (m : Shared) (kind : Phase → Bool) (c : Nat) : Prop :=
  ∃ phase, m.calls c = some phase ∧ kind phase = true

/-- The run of the call is in flight. -/
abbrev InFlight (m : Shared) (c : Nat) : Prop := m.Has Phase.flies c

variable {kind : Phase → Bool} {before : Phase}

theorem has_iff (here : m.calls c = some phase) : m.Has kind c ↔ kind phase = true := by
  simp [Has, here]

theorem has_put : (m.put c phase).Has kind d ↔ if d = c then kind phase = true else m.Has kind d := by
  by_cases same : d = c <;> simp [Has, put, same]

/-- A step within one kind of phases. -/
theorem has_within (here : m.calls c = some before) (same : kind before = kind phase) :
    (m.put c phase).Has kind d ↔ m.Has kind d := by
  rw [has_put]
  split
  next mover => rw [mover, has_iff here, same]
  next => rfl

/-- A call that was just made. -/
theorem has_call {stops : Bool} (fresh : m.calls c = none)
    (execution : kind (.execute .waiting) = false) (stopping : kind (.stop .waiting) = false) :
    (m.put c (if stops then .stop .waiting else .execute .waiting)).Has kind d ↔ m.Has kind d := by
  rw [has_put]
  split
  next mover => cases stops <;> simp [mover, Has, fresh, execution, stopping]
  next => rfl

/-- One call has the lock, at most. -/
def Locked (m : Shared) : Prop := ∀ c, m.Has Phase.locks c ↔ m.holder = some c

theorem Locked.same (locked : m.Locked) (kept : ∀ d, m'.Has Phase.locks d ↔ m.Has Phase.locks d)
    (holder : m'.holder = m.holder) : m'.Locked := fun d => by rw [kept, holder, locked]

theorem Locked.took (locked : m.Locked) (free : m.holder = none)
    (moved : ∀ d, m'.Has Phase.locks d ↔ if d = c then true = true else m.Has Phase.locks d)
    (holder : m'.holder = some c) : m'.Locked := by
  intro d
  rw [moved, holder]
  split
  next mover => simp [mover]
  next other =>
    rw [locked, free]
    simpa using fun same => other same.symm

theorem Locked.gave (locked : m.Locked) (here : m.calls c = some before) (had : before.locks = true)
    (moved : ∀ d, m'.Has Phase.locks d ↔ if d = c then false = true else m.Has Phase.locks d)
    (holder : m'.holder = none) : m'.Locked := by
  intro d
  have mine : m.holder = some c := (locked c).mp ((has_iff here).mpr had)
  rw [moved, holder]
  split
  next => simp
  next other =>
    rw [locked, mine]
    simpa using fun same => other same.symm

theorem Goes.locked (goes : m.Goes turn m') (locked : m.Locked) : m'.Locked := by
  cases goes with
  | call fresh => exact locked.same (fun d => has_call fresh rfl rfl) rfl
  | enter here free | approach here free => exact locked.took free (fun d => has_put) rfl
  | refuse here | publish here | part here => exact locked.gave here rfl (fun d => has_put) rfl
  | turnAway here | claim here | rewind here | renew here | close here | drop here | see here
  | miss here | read here | request here | cancel here =>
    exact locked.same (fun d => has_within here rfl) rfl
  | reach | tell => exact locked.same (fun d => Iff.rfl) rfl

/-- One run is in flight, at most, and the flag says whether one is. -/
structure Flown (m : Shared) : Prop where
  single : ∀ c d, m.InFlight c → m.InFlight d → c = d
  flag : m.cells.running = true ↔ ∃ c, m.InFlight c

theorem Flown.same (flown : m.Flown) (kept : ∀ d, m'.InFlight d ↔ m.InFlight d)
    (flag : m'.cells.running = m.cells.running) : m'.Flown where
  single := fun c d first second => flown.single c d ((kept c).mp first) ((kept d).mp second)
  flag := by simp only [flag, flown.flag, kept]

theorem Goes.flown (goes : m.Goes turn m') (flown : m.Flown) : m'.Flown := by
  cases goes with
  | call fresh => exact flown.same (fun d => has_call fresh rfl rfl) rfl
  | enter here | approach here | refuse here | publish here | part here | turnAway here
  | rewind here | renew here | drop here | see here | miss here | read here | request here
  | cancel here =>
    exact flown.same (fun d => has_within here rfl) rfl
  | reach | tell => exact flown.same (fun d => Iff.rfl) rfl
  | @claim c here idle =>
    have none : ∀ d, ¬ m.InFlight d := by
      intro d flies
      cases idle.symm.trans (flown.flag.mpr ⟨d, flies⟩)
    have only (d : Nat) : (m.set c (.execute .claiming) { m.cells with running := true }).InFlight d ↔
        d = c := by
      refine has_put.trans ?_
      split
      next mover => exact iff_of_true rfl mover
      next other => simpa [other] using none d
    exact ⟨fun c' d first second => ((only c').mp first).trans ((only d).mp second).symm,
      iff_of_true rfl ⟨c, (only c).mpr rfl⟩⟩
  | @close c t here =>
    have mine : m.InFlight c := (has_iff here).mpr rfl
    have none (d : Nat) :
        ¬ (m.set c (.execute .closed) { m.cells with running := false }).InFlight d := by
      refine fun flies => ?_
      have moved := has_put.mp flies
      split at moved
      next => cases moved
      next other => exact other (flown.single d c moved mine)
    exact ⟨fun c' d first => absurd first (none c'), iff_of_false (by simp [set]) fun ⟨d, flies⟩ =>
      none d flies⟩

/-- What a call knows of the cells: how far it is published, or that its own token is in place. -/
def Knows (cells : Cells) : Phase → Prop
  | .execute .rewinding => cells.current = 0
  | .execute .publishing => cells.current = 0 ∧ cells.token ∉ cells.cancelled ∧ 0 < cells.token
  | .execute (.running t) => t = cells.token ∧ 0 < t
  | _ => True

/-- What holds whenever everyone has taken some steps. -/
structure Sound (m : Shared) : Prop where
  locked : m.Locked
  flown : m.Flown
  /-- Tokens are numbered as they are made. -/
  token : m.cells.token < m.cells.made
  cancelled : ∀ t ∈ m.cells.cancelled, t < m.cells.made
  knows : ∀ c phase, m.calls c = some phase → Knows m.cells phase

theorem calls_put {after : Phase} (here : (m.put c phase).calls d = some after) :
    d = c ∧ after = phase ∨ d ≠ c ∧ m.calls d = some after := by
  rw [put] at here
  by_cases same : d = c
  · exact .inl ⟨same, by simpa [same] using here.symm⟩
  · exact .inr ⟨same, by simpa [same] using here⟩

/-- Two calls do not have the lock at once. -/
theorem Sound.lock_single (sound : m.Sound) (first : m.Has Phase.locks c)
    (second : m.Has Phase.locks d) : c = d :=
  Option.some.inj (((sound.locked c).mp first).symm.trans ((sound.locked d).mp second))

theorem knows_quiet (cells : Cells) (quiet : phase.flies = false) : Knows cells phase := by
  rcases phase with execution | stopping
  · cases execution with
    | claiming | rewinding | publishing | running => cases quiet
    | waiting | entering | leaving | refused | closed => trivial
  · trivial

theorem Goes.knows (goes : m.Goes turn m') (sound : m.Sound) :
    ∀ d phase, m'.calls d = some phase → Knows m'.cells phase := by
  intro d after there
  -- a call that is not in flight together with another one
  have alone {c : Nat} {before : Phase} (here : m.calls c = some before) (flies : before.flies = true)
      (other : d ≠ c) (there : m.calls d = some after) : after.flies = false := by
    refine Bool.eq_false_iff.mpr fun also => other ?_
    exact sound.flown.single d c ((has_iff there).mpr also) ((has_iff here).mpr flies)
  cases goes with
  | @call c stops fresh =>
    rcases calls_put there with ⟨rfl, rfl⟩ | ⟨other, there⟩
    · cases stops <;> trivial
    · exact sound.knows d after there
  | enter | turnAway | refuse | claim | close | drop | approach | see | miss | read | request | part =>
    rcases calls_put there with ⟨rfl, rfl⟩ | ⟨other, there⟩
    · trivial
    · exact sound.knows d after there
  | tell => exact sound.knows d after there
  | rewind here =>
    rcases calls_put there with ⟨rfl, rfl⟩ | ⟨other, there⟩
    · rfl
    · exact knows_quiet _ (alone here rfl other there)
  | renew here =>
    rcases calls_put there with ⟨rfl, rfl⟩ | ⟨other, there⟩
    · have fresh : m.cells.made ∉ m.cells.cancelled := fun member =>
        Nat.lt_irrefl _ (sound.cancelled _ member)
      exact ⟨sound.knows _ _ here, fresh, Nat.zero_lt_of_lt sound.token⟩
    · exact knows_quiet _ (alone here rfl other there)
  | publish here =>
    rcases calls_put there with ⟨rfl, rfl⟩ | ⟨other, there⟩
    · exact ⟨rfl, (sound.knows _ _ here).2.2⟩
    · exact sound.knows d after there
  | @reach c t here index =>
    by_cases mover : d = c
    · subst mover
      cases here.symm.trans there
      exact sound.knows d _ here
    · exact knows_quiet _ (alone here rfl mover there)
  | @cancel c here =>
    rcases calls_put there with ⟨rfl, rfl⟩ | ⟨other, there⟩
    · trivial
    rcases after with execution | stopping
    · cases execution with
      | publishing =>
        exact absurd (sound.lock_single ((has_iff there).mpr rfl) ((has_iff here).mpr rfl)) other
      | waiting | entering | leaving | refused | claiming | rewinding | running | closed =>
        exact sound.knows d _ there
    · trivial

theorem Goes.sound (goes : m.Goes turn m') (sound : m.Sound) : m'.Sound := by
  refine ⟨goes.locked sound.locked, goes.flown sound.flown, ?_, ?_, goes.knows sound⟩
  · cases goes with
    | renew => exact Nat.lt_succ_self _
    | _ => exact sound.token
  · cases goes with
    | renew => exact fun t member => Nat.lt_succ_of_lt (sound.cancelled t member)
    | cancel =>
      intro t member
      rcases List.mem_cons.mp member with rfl | earlier
      · exact sound.token
      · exact sound.cancelled t earlier
    | _ => exact sound.cancelled

theorem sound_start : ({} : Shared).Sound where
  locked := by simp [Locked, Has]
  flown := ⟨by simp [InFlight, Has], by simp [InFlight, Has]⟩
  token := Nat.zero_lt_one
  cancelled := by simp
  knows := by simp

/-! ### Courses of steps -/

/-- The state after these steps, from the beginning. -/
abbrev after (turns : List Turn) : Option Shared := ({} : Shared).run turns

theorem run_concat {turns : List Turn} :
    m.run (turns ++ [turn]) = some m' ↔ ∃ between, m.run turns = some between ∧
      between.step turn = some m' := by
  induction turns generalizing m with
  | nil =>
    simp only [List.nil_append, run, Option.some.injEq, exists_eq_left']
    cases m.step turn <;> simp
  | cons first rest ih =>
    simp only [List.cons_append, run]
    cases m.step first with
    | none => simp
    | some next => exact ih

/-- What holds at the beginning and is kept by every step holds after any steps. -/
theorem after_keeps (holds : List Turn → Shared → Prop) (start : holds [] {})
    (kept : ∀ turns m turn m', after turns = some m → holds turns m → m.step turn = some m' →
      holds (turns ++ [turn]) m')
    {turns : List Turn} (ran : after turns = some m) : holds turns m := by
  induction turns using List.reverseRecOn generalizing m with
  | nil =>
    cases ran
    exact start
  | append_singleton turns turn ih =>
    obtain ⟨between, ran, stepped⟩ := run_concat.mp ran
    exact kept turns between turn m ran (ih ran) stepped

theorem sound_after {turns : List Turn} (ran : after turns = some m) : m.Sound :=
  after_keeps (fun _ m => m.Sound) sound_start
    (fun _ _ _ _ _ sound stepped => (step_goes stepped).sound sound) ran

end Shared

end Screenplay
