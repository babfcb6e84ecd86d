import Screenplay.Proofs.Cancelling

/-!
Who owns an engine when the steps of all calls come in any order (`Shared.Orderly`): one run at a time,
and each request has to do with one run. The calls that nobody interrupts do what `Control` says.
-/
namespace Screenplay

/-- Who takes the step. -/
def Turn.caller : Turn → Nat
  | .call c _ | .next c | .reach c _ | .tell c _ | .close c => c

/-- An execution in this phase was not turned away, or it was dropped. -/
def Phase.began : Phase → Bool
  | .execute .claiming | .execute .rewinding | .execute .publishing | .execute (.running _)
  | .execute .closed => true
  | _ => false

namespace Shared

variable {m m' : Shared} {c d : Nat} {phase : Phase} {turn : Turn} {turns : List Turn}

/-! ### What a call changes -/

/-- Among these steps those of this call change no cell. -/
def Quiet (turns : List Turn) (c : Nat) : Prop :=
  ∀ before turn m m', before ++ [turn] <+: turns → turn.caller = c → after before = some m →
    m.step turn = some m' → m'.cells = m.cells

theorem quiet_start : Quiet [] c := by
  intro before turn m m' shorter
  simp at shorter

theorem Quiet.concat (quiet : Quiet turns c) (ran : after turns = some m)
    (stepped : m.step turn = some m') (kept : turn.caller = c → m'.cells = m.cells) :
    Quiet (turns ++ [turn]) c := by
  intro before turn' m₁ m₁' shorter mine ran₁ stepped₁
  rcases List.prefix_concat_iff.mp shorter with whole | shorter
  · obtain ⟨rfl, same⟩ := List.append_inj' whole rfl
    cases List.singleton_inj.mp same
    cases ran.symm.trans ran₁
    cases stepped.symm.trans stepped₁
    exact kept mine
  · exact quiet before turn' m₁ m₁' shorter mine ran₁ stepped₁

theorem Goes.began (goes : m.Goes turn m') (before : m.Has Phase.began c) : m'.Has Phase.began c := by
  cases goes with
  | call fresh => exact (has_call fresh rfl rfl).mpr before
  | reach | tell => exact before
  | claim | drop =>
    refine has_put.mpr ?_
    split
    next => rfl
    next => exact before
  | enter here | turnAway here | refuse here | rewind here | renew here | publish here | close here
  | approach here | see here | miss here | read here | request here | cancel here | part here =>
    refine (?_ : _ ↔ m.Has Phase.began c).mpr before
    exact has_within here rfl

/-- Cells are changed by executions that have begun and by requests that pursue a run. -/
theorem Goes.changes (goes : m.Goes turn m') :
    m'.cells = m.cells ∨ m'.Has Phase.began turn.caller ∨ m.Has Phase.pursues turn.caller := by
  cases goes with
  | call | enter | turnAway | refuse | publish | drop | approach | see | miss | read | part =>
    exact .inl rfl
  | claim | rewind | renew | close => exact .inr (.inl ⟨_, if_pos rfl, rfl⟩)
  | reach here | tell here => exact .inr (.inl ⟨_, here, rfl⟩)
  | request here | cancel here => exact .inr (.inr ⟨_, here, rfl⟩)

/-- A call that changes a cell is an execution that has begun or a request that saw a run. -/
theorem quiet_after (ran : after turns = some m) (c : Nat) :
    Quiet turns c ∨ m.Has Phase.began c ∨ ∃ d t, Saw turns c d t := by
  refine after_keeps (fun turns m => Quiet turns c ∨ m.Has Phase.began c ∨ ∃ d t, Saw turns c d t)
    (.inl quiet_start) ?_ ran
  intro turns m turn m' ran holds stepped
  have goes := step_goes stepped
  rcases holds with quiet | began | ⟨d, t, saw⟩
  · by_cases mine : turn.caller = c
    · subst mine
      rcases goes.changes with same | began | pursues
      · exact .inl (quiet.concat ran stepped fun _ => same)
      · exact .inr (.inl began)
      · obtain ⟨d, saw⟩ := (remembers_after ran).sees _ pursues
        exact .inr (.inr ⟨d, _, (saw_concat ran).mpr (.inl saw)⟩)
    · exact .inl (quiet.concat ran stepped fun own => absurd own mine)
  · exact .inr (.inl (goes.began began))
  · exact .inr (.inr ⟨d, t, (saw_concat ran).mpr (.inl saw)⟩)

theorem quiet_of_refused {execution : Execution} (ran : after turns = some m)
    (here : m.calls c = some (.execute execution))
    (refused : execution = .leaving ∨ execution = .refused) : Quiet turns c := by
  rcases quiet_after ran c with quiet | began | ⟨d, t, saw⟩
  · exact quiet
  · rcases refused with rfl | rfl <;> cases (has_iff here).mp began
  · -- only requests see runs
    rcases (remembers_after ran).heeds c d t saw with ⟨pursues, _⟩ | ⟨parts, _⟩
    · cases (has_iff here).mp pursues
    · cases (has_iff here).mp parts

theorem quiet_of_unseen {stopping : Stopping} (ran : after turns = some m)
    (here : m.calls c = some (.stop stopping)) (unseen : ∀ d t, ¬ Saw turns c d t) :
    Quiet turns c := by
  rcases quiet_after ran c with quiet | began | ⟨d, t, saw⟩
  · exact quiet
  · cases (has_iff here).mp began
  · exact absurd saw (unseen d t)

/-! ### Calls that are not interrupted -/

/-- What the cells come to when the runs are numbered as they are accepted: the token of the first run
is 1. -/
def control (m : Shared) : Control where
  active := if m.cells.running then some (m.cells.token - 1) else none
  accepted := m.cells.made - 1
  current := m.cells.current
  cancelled := m.cells.cancelled.map (· - 1)

/-- The call takes so many steps, and nobody else takes one. -/
abbrev alone (m : Shared) (c n : Nat) : Option Shared := m.run (List.replicate n (.next c))

theorem alone_succ {before : Shared} {n : Nat} (here : before.calls c = some phase)
    (went : before.goOn c phase = some m) : before.alone c (n + 1) = m.alone c n := by
  simp only [alone, List.replicate_succ, run, step, here, went]

theorem put_self : (m.put c phase).calls c = some phase := if_pos rfl

theorem set_self {cells : Cells} : (m.set c phase cells).calls c = some phase := if_pos rfl

theorem give_self : (m.give c phase).calls c = some phase := if_pos rfl

theorem take_free (free : m.holder = none) (c : Nat) (phase : Phase) :
    ∃ m', m.take c phase = some m' ∧ m'.calls c = some phase ∧ m'.cells = m.cells := by
  rw [take, free]
  exact ⟨_, rfl, put_self, rfl⟩

theorem goOn_entering (busy : m.cells.running = true) :
    m.goOn c (.execute .entering) = some (m.put c (.execute .leaving)) := if_pos busy

theorem goOn_claims (idle : m.cells.running = false) :
    m.goOn c (.execute .entering) =
      some (m.set c (.execute .claiming) { m.cells with running := true }) := by
  rw [goOn, if_neg (by simp [idle])]

/-- Without a run in flight an execution is accepted. -/
theorem alone_accepted (waits : m.calls c = some (.execute .waiting)) (free : m.holder = none)
    (idle : m.cells.running = false) :
    ∃ m', m.alone c 5 = some m' ∧ m'.calls c = some (.execute (.running m.cells.made)) ∧
      m'.cells = { m.cells with
        running := true, current := 0, token := m.cells.made, made := m.cells.made + 1 } := by
  obtain ⟨entered, took, here, same⟩ := take_free free c (.execute .entering)
  rw [← same] at idle ⊢
  rw [alone_succ waits took, alone_succ here (goOn_claims idle), alone_succ set_self rfl,
    alone_succ set_self rfl, alone_succ set_self rfl]
  exact ⟨_, rfl, give_self, rfl⟩

/-- With a run in flight it is refused. -/
theorem alone_refused (waits : m.calls c = some (.execute .waiting)) (free : m.holder = none)
    (busy : m.cells.running = true) :
    ∃ m', m.alone c 3 = some m' ∧ m'.calls c = some (.execute .refused) ∧ m'.cells = m.cells := by
  obtain ⟨entered, took, here, same⟩ := take_free free c (.execute .entering)
  rw [← same] at busy ⊢
  rw [alone_succ waits took, alone_succ here (goOn_entering busy), alone_succ put_self rfl]
  exact ⟨_, rfl, give_self, rfl⟩

/-- A request that finds a run in flight tells so and cancels its token. -/
theorem alone_stopped (waits : m.calls c = some (.stop .waiting)) (free : m.holder = none)
    (busy : m.cells.running = true) :
    ∃ m', m.alone c 6 = some m' ∧ m'.calls c = some (.stop .done) ∧
      m'.cells = { m.cells with
        events := m.cells.events.push (.stopRequested m.cells.current)
        cancelled := m.cells.token :: m.cells.cancelled } := by
  obtain ⟨entered, took, here, same⟩ := take_free free c (.stop .looking)
  rw [← same] at busy ⊢
  have saw : entered.goOn c (.stop .looking) = some (entered.put c (.stop .seeing)) := by
    rw [goOn, if_pos busy]
  rw [alone_succ waits took, alone_succ here saw, alone_succ put_self rfl, alone_succ put_self rfl,
    alone_succ set_self rfl, alone_succ set_self rfl]
  exact ⟨_, rfl, give_self, rfl⟩

/-- One that finds none does nothing. -/
theorem alone_missed (waits : m.calls c = some (.stop .waiting)) (free : m.holder = none)
    (idle : m.cells.running = false) :
    ∃ m', m.alone c 3 = some m' ∧ m'.calls c = some (.stop .done) ∧ m'.cells = m.cells := by
  obtain ⟨entered, took, here, same⟩ := take_free free c (.stop .looking)
  rw [← same] at idle ⊢
  have missed : entered.goOn c (.stop .looking) = some (entered.put c (.stop .leaving)) := by
    rw [goOn, if_neg (by simp [idle])]
  rw [alone_succ waits took, alone_succ here missed, alone_succ put_self rfl]
  exact ⟨_, rfl, give_self, rfl⟩

/-- A call that is not interrupted runs or is refused as `Control` says. -/
theorem control_accept (sound : m.Sound) (waits : m.calls c = some (.execute .waiting))
    (free : m.holder = none) :
    (∃ m' run, m.alone c 5 = some m' ∧ m'.calls c = some (.execute (.running (run + 1))) ∧
      m.control.accept = some (run, m'.control)) ∨
    ∃ m', m.alone c 3 = some m' ∧ m'.calls c = some (.execute .refused) ∧ m'.cells = m.cells ∧
      m.control.accept = none := by
  obtain ⟨made, same⟩ : ∃ made, m.cells.made = made + 1 :=
    Nat.exists_eq_add_one.mpr (Nat.zero_lt_of_lt sound.token)
  rcases flag : m.cells.running with _ | _
  · obtain ⟨m', ran, here, cells⟩ := alone_accepted waits free flag
    refine .inl ⟨m', made, ran, same ▸ here, ?_⟩
    simp [control, Control.accept, cells, flag, same]
  · obtain ⟨m', ran, here, cells⟩ := alone_refused waits free flag
    refine .inr ⟨m', ran, here, cells, ?_⟩
    simp [control, Control.accept, flag]

/-- A request that is not interrupted does what `Control` says, and tells it. -/
theorem control_requestStop (waits : m.calls c = some (.stop .waiting)) (free : m.holder = none) :
    ∃ n m', m.alone c n = some m' ∧ m'.calls c = some (.stop .done) ∧
      m.control.requestStop.2 = m'.control ∧
      m'.cells.events.toList =
        m.cells.events.toList ++ (m.control.requestStop.1.map Event.stopRequested).toList := by
  rcases flag : m.cells.running with _ | _
  · obtain ⟨m', ran, here, cells⟩ := alone_missed waits free flag
    refine ⟨3, m', ran, here, ?_⟩
    simp [control, Control.requestStop, cells, flag]
  · obtain ⟨m', ran, here, cells⟩ := alone_stopped waits free flag
    refine ⟨6, m', ran, here, ?_⟩
    simp [control, Control.requestStop, cells, flag]

theorem control_release {t : Nat} (flies : m.calls c = some (.execute (.running t))) :
    ∃ m', m.step (.close c) = some m' ∧ m'.control = m.control.release := by
  refine ⟨m.set c (.execute .closed) { m.cells with running := false }, by rw [step, flies], ?_⟩
  simp [control, Control.release, set]

theorem control_reach {t : Nat} (flies : m.calls c = some (.execute (.running t))) (index : Nat) :
    ∃ m', m.step (.reach c index) = some m' ∧ m'.control = m.control.reach index :=
  ⟨_, by rw [step, flies], rfl⟩

/-- The token of a run is cancelled exactly if `Control` says that the run was asked to stop. -/
theorem control_isCancelled {run : Nat} (ran : after turns = some m) :
    m.control.isCancelled run = true ↔ run + 1 ∈ m.cells.cancelled := by
  have positive : ∀ t ∈ m.cells.cancelled, 0 < t := by
    intro t member
    obtain ⟨s, d, saw⟩ := (remembers_after ran).cancelled t member
    obtain ⟨before, m₁, _, ran₁, here⟩ := saw.had
    exact ((sound_after ran₁).knows d _ here).2
  simp only [control, Control.isCancelled, List.contains_iff_mem, List.mem_map]
  constructor
  · rintro ⟨t, member, rfl⟩
    rwa [Nat.sub_add_cancel (positive t member)]
  · exact fun member => ⟨_, member, rfl⟩

/-! ### Any order of calls -/

/-- What holds after these steps, and of the steps that come next. -/
structure Orderly (turns : List Turn) (m : Shared) : Prop where
  /-- At most one run is in flight. -/
  single : ∀ c d, m.InFlight c → m.InFlight d → c = d
  flag : m.cells.running = true ↔ ∃ c, m.InFlight c
  /-- An execution that finds a run in flight is refused. -/
  turnsAway : ∀ c d, m.calls c = some (.execute .entering) → m.InFlight d →
    m.step (.next c) = some (m.put c (.execute .leaving))
  refuses : ∀ c, m.calls c = some (.execute .leaving) →
    m.step (.next c) = some (m.give c (.execute .refused))
  /-- An execution that is refused has changed nothing. -/
  refused : ∀ c execution, m.calls c = some (.execute execution) →
    execution = .leaving ∨ execution = .refused → Quiet turns c
  /-- A request that finds no run in flight has nothing to do. -/
  misses : ∀ s, m.calls s = some (.stop .looking) → (∀ c, ¬ m.InFlight c) →
    m.step (.next s) = some (m.put s (.stop .leaving))
  /-- A request that saw no run has changed nothing. -/
  unseen : ∀ s stopping, m.calls s = some (.stop stopping) → (∀ c t, ¬ Saw turns s c t) →
    Quiet turns s
  /-- A request that finds a run in flight sees it with its token. -/
  sees : ∀ s c, m.calls s = some (.stop .looking) → m.InFlight c →
    ∃ t, m.calls c = some (.execute (.running t)) ∧
      m.step (.next s) = some (m.put s (.stop .seeing)) ∧ Saw (turns ++ [.next s]) s c t
  /-- A request sees one run. -/
  once : ∀ s c d t u, Saw turns s c t → Saw turns s d u → c = d ∧ t = u
  /-- A token belongs to one run. -/
  owns : ∀ c d t, Had turns c t → Had turns d t → c = d
  /-- A token is cancelled by a request that saw its run. -/
  cancels : ∀ turn m', m.step turn = some m' → m'.cells.cancelled = m.cells.cancelled ∨
    ∃ s c t, turn = .next s ∧ Saw turns s c t ∧ m'.cells.cancelled = t :: m.cells.cancelled
  /-- A request that has nothing left to do has cancelled the token of the run that it saw. -/
  heeds : ∀ s c t, Saw turns s c t → m.Has Phase.parts s → t ∈ m.cells.cancelled
  /-- The token of a run is cancelled only if a request saw the run. -/
  through : ∀ c t, Had turns c t → t ∈ m.cells.cancelled → ∃ s, Saw turns s c t
  /-- The token of any other run is another one. -/
  spares : ∀ s c d t u, Saw turns s c t → Had turns d u → d ≠ c → u ≠ t
  /-- When a run is over no run is in flight. -/
  closes : ∀ c t, m.calls c = some (.execute (.running t)) →
    ∃ m', m.step (.close c) = some m' ∧ ∀ d, ¬ m'.InFlight d
  /-- An execution that finds no run in flight sets out for a run of its own. -/
  admits : ∀ c, m.calls c = some (.execute .entering) → (∀ d, ¬ m.InFlight d) →
    m.step (.next c) = some (m.set c (.execute .claiming) { m.cells with running := true })
  /-- A run begins at the first position, with a token that no run had and nobody cancelled. -/
  begins : ∀ c, m.calls c = some (.execute .publishing) →
    ∃ t, m.step (.next c) = some (m.give c (.execute (.running t))) ∧ m.cells.current = 0 ∧
      t ∉ m.cells.cancelled ∧ ∀ d, ¬ Had turns d t
  /-- Whoever has the lock can go on. -/
  goesOn : ∀ c, m.holder = some c → ∃ m', m.step (.next c) = some m'
  /-- With the lock free and no run in flight the next execution is accepted. -/
  accepts : ∀ c, m.calls c = some (.execute .waiting) → m.holder = none → (∀ d, ¬ m.InFlight d) →
    ∃ m' t, m.alone c 5 = some m' ∧ m'.calls c = some (.execute (.running t)) ∧
      m'.cells.current = 0 ∧ t ∉ m'.cells.cancelled

/-- The flag is not set if no run is in flight. -/
theorem Sound.idle (sound : m.Sound) (none : ∀ c, ¬ m.InFlight c) : m.cells.running = false :=
  Bool.eq_false_iff.mpr fun busy =>
    let ⟨c, flies⟩ := sound.flown.flag.mp busy
    none c flies

theorem Sound.goesOn (sound : m.Sound) (holds : m.holder = some c) :
    ∃ m', m.step (.next c) = some m' := by
  obtain ⟨phase, here, locks⟩ := (sound.locked c).mpr holds
  simp only [step, here]
  rcases phase with execution | stopping
  · cases execution with
    | entering =>
      rw [goOn]
      split <;> exact ⟨_, rfl⟩
    | leaving | claiming | rewinding | publishing => exact ⟨_, rfl⟩
    | waiting | refused | running | closed => cases locks
  · cases stopping with
    | looking | seeing | telling | cancelling | leaving => exact ⟨_, rfl⟩
    | waiting | done => cases locks

/-- The token that is about to be published was not published before. -/
theorem Remembers.fresh (remembers : Remembers turns m)
    (here : m.calls c = some (.execute .publishing)) : ¬ Had turns d m.cells.token := by
  intro had
  obtain rfl := (remembers.owns d _ had).2 rfl c ⟨_, here, rfl⟩
  rcases remembers.stays c _ had with there | there <;> cases here.symm.trans there

/-- However the steps of all calls come, they are orderly. -/
theorem orderly_after (ran : after turns = some m) : Orderly turns m := by
  have sound := sound_after ran
  have remembers := remembers_after ran
  constructor
  case single => exact sound.flown.single
  case flag => exact sound.flown.flag
  case turnsAway =>
    intro c d here flies
    simp only [step, here, goOn_entering (sound.flown.flag.mpr ⟨d, flies⟩)]
  case refuses =>
    intro c here
    simp only [step, here, goOn]
  case refused => exact fun c execution here => quiet_of_refused ran here
  case misses =>
    intro s here none
    simp [step, here, goOn, sound.idle none]
  case unseen => exact fun s stopping here => quiet_of_unseen ran here
  case sees =>
    intro s c here flies
    have running := sound.running_of_locked here rfl flies
    refine ⟨m.cells.token, running, ?_, (saw_concat ran).mpr (.inr ⟨rfl, here, running⟩)⟩
    simp [step, here, goOn, sound.flown.flag.mpr ⟨c, flies⟩]
  case once => exact fun s c d t u => Saw.unique
  case owns => exact fun c d t => Had.unique
  case cancels =>
    intro turn m' stepped
    rcases (step_goes stepped).cancels with same | ⟨s, rfl, here, more⟩
    · exact .inl same
    · obtain ⟨c, saw⟩ := remembers.sees s ⟨_, here, rfl⟩
      exact .inr ⟨s, c, _, rfl, saw, more⟩
  case heeds =>
    intro s c t saw parts
    rcases remembers.heeds s c t saw with ⟨⟨phase, here, pursues⟩, _⟩ | ⟨_, member⟩
    · cases (parts_of_pursues phase pursues).symm.trans ((has_iff here).mp parts)
    · exact member
  case through =>
    intro c t had member
    obtain ⟨s, d, saw⟩ := remembers.cancelled t member
    exact ⟨s, had.unique saw.had ▸ saw⟩
  case spares =>
    rintro s c d t u saw had other rfl
    exact other (had.unique saw.had)
  case closes =>
    intro c t here
    have stepped : m.step (.close c) =
        some (m.set c (.execute .closed) { m.cells with running := false }) := by rw [step, here]
    refine ⟨_, stepped, fun d flies => ?_⟩
    cases ((step_goes stepped).sound sound).flown.flag.mpr ⟨d, flies⟩
  case admits =>
    intro c here none
    simp only [step, here, goOn_claims (sound.idle none)]
  case begins =>
    intro c here
    obtain ⟨first, uncancelled, _⟩ := sound.knows c _ here
    refine ⟨m.cells.token, ?_, first, uncancelled, fun d => remembers.fresh here⟩
    simp only [step, here, goOn]
  case goesOn => exact fun c => sound.goesOn
  case accepts =>
    intro c waits free none
    obtain ⟨m', went, here, cells⟩ := alone_accepted waits free (sound.idle none)
    refine ⟨m', _, went, here, by rw [cells], ?_⟩
    rw [cells]
    exact fun member => Nat.lt_irrefl _ (sound.cancelled _ member)

/-- A call is turned away while another one runs. That one is dropped while a request to stop it is
under way, and then a third call is made. -/
def dropped : List Turn :=
  [.call 0 false, .call 1 false, .call 2 true, .next 0, .next 0, .next 0, .next 0, .next 0,
    .next 1, .next 1, .next 1, .next 2, .next 2, .reach 0 3, .next 2, .close 0, .next 2, .next 2,
    .next 2, .call 3 false, .next 3, .next 3, .next 3, .next 3, .next 3]

theorem orderly_after_dropped : ∃ m, after dropped = some m ∧
    m.calls 1 = some (.execute .refused) ∧ m.calls 3 = some (.execute (.running 2)) ∧
    m.cells.cancelled = [1] ∧ Orderly dropped m :=
  ⟨_, rfl, rfl, rfl, rfl, orderly_after rfl⟩

end Shared

end Screenplay
