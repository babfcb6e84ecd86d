import Screenplay.Proofs.Interleaving

/-!
Requests to stop one engine, in any order with other calls. A request pursues the run that was in flight
when it came to the flag, and until it has cancelled a token the token of that run stays in place
(`Shared.Remembers`). So no request reaches a later run.
-/
namespace Screenplay

namespace Phase

/-- A request in this phase has found a run in flight and is still to cancel its token. -/
def pursues : Phase → Bool
  | .stop .seeing | .stop (.telling _) | .stop .cancelling => true
  | _ => false

/-- A request in this phase has nothing left to do. -/
def parts : Phase → Bool
  | .stop .leaving | .stop .done => true
  | _ => false

/-- The token of a call in this phase is in place, or was when its run was in flight. -/
def published : Phase → Bool
  | .execute .publishing | .execute (.running _) => true
  | _ => false

end Phase

namespace Shared

variable {m m' : Shared} {c d : Nat} {phase : Phase} {turn : Turn} {kind : Phase → Bool}

/-! ### What has been seen -/

/-- Among these steps the request `s` comes to the flag while the run of `c` is in flight, with the
token `t`. -/
def Saw (turns : List Turn) (s c t : Nat) : Prop :=
  ∃ before m, before ++ [.next s] <+: turns ∧ after before = some m ∧
    m.calls s = some (.stop .looking) ∧ m.calls c = some (.execute (.running t))

/-- Among these steps the run of `c` is in flight, with the token `t`. -/
def Had (turns : List Turn) (c t : Nat) : Prop :=
  ∃ before m, before <+: turns ∧ after before = some m ∧ m.calls c = some (.execute (.running t))

theorem Saw.had {turns : List Turn} {s t : Nat} (saw : Saw turns s c t) : Had turns c t := by
  obtain ⟨before, m, shorter, ran, _, here⟩ := saw
  exact ⟨before, m, (List.prefix_append before _).trans shorter, ran, here⟩

theorem saw_concat {turns : List Turn} {s t : Nat} (ran : after turns = some m) :
    Saw (turns ++ [turn]) s c t ↔ Saw turns s c t ∨ turn = .next s ∧
      m.calls s = some (.stop .looking) ∧ m.calls c = some (.execute (.running t)) := by
  constructor
  · rintro ⟨before, m₁, shorter, ran₁, looks, flies⟩
    rcases List.prefix_concat_iff.mp shorter with whole | shorter
    · obtain ⟨rfl, same⟩ := List.append_inj' whole rfl
      cases ran.symm.trans ran₁
      exact .inr ⟨(List.singleton_inj.mp same).symm, looks, flies⟩
    · exact .inl ⟨before, m₁, shorter, ran₁, looks, flies⟩
  · rintro (⟨before, m₁, shorter, ran₁, looks, flies⟩ | ⟨rfl, looks, flies⟩)
    · exact ⟨before, m₁, shorter.trans (List.prefix_append turns _), ran₁, looks, flies⟩
    · exact ⟨turns, m, List.prefix_rfl, ran, looks, flies⟩

theorem had_concat {turns : List Turn} {t : Nat} (ran : after (turns ++ [turn]) = some m') :
    Had (turns ++ [turn]) c t ↔ Had turns c t ∨ m'.calls c = some (.execute (.running t)) := by
  constructor
  · rintro ⟨before, m₁, shorter, ran₁, flies⟩
    rcases List.prefix_concat_iff.mp shorter with rfl | shorter
    · cases ran.symm.trans ran₁
      exact .inr flies
    · exact .inl ⟨before, m₁, shorter, ran₁, flies⟩
  · rintro (⟨before, m₁, shorter, ran₁, flies⟩ | flies)
    · exact ⟨before, m₁, shorter.trans (List.prefix_append turns _), ran₁, flies⟩
    · exact ⟨_, m', List.prefix_rfl, ran, flies⟩

/-- The token in place changes only when an execution renews it. -/
theorem Goes.token (goes : m.Goes turn m') :
    m'.cells.token = m.cells.token ∨ ∃ c, turn = .next c ∧ m.calls c = some (.execute .rewinding) := by
  cases goes with
  | renew here => exact .inr ⟨_, rfl, here⟩
  | _ => exact .inl rfl

/-- Tokens are cancelled by requests only, and only the token in place. -/
theorem Goes.cancels (goes : m.Goes turn m') :
    m'.cells.cancelled = m.cells.cancelled ∨ ∃ s, turn = .next s ∧
      m.calls s = some (.stop .cancelling) ∧
      m'.cells.cancelled = m.cells.token :: m.cells.cancelled := by
  cases goes with
  | cancel here => exact .inr ⟨_, rfl, here, rfl⟩
  | _ => exact .inl rfl

/-- What was cancelled stays cancelled. -/
theorem Goes.cancelled (goes : m.Goes turn m') {t : Nat} (member : t ∈ m.cells.cancelled) :
    t ∈ m'.cells.cancelled := by
  rcases goes.cancels with same | ⟨s, _, _, more⟩
  · rwa [same]
  · rw [more]
    exact List.mem_cons_of_mem _ member

/-- A request begins to pursue a run when it finds the flag set. -/
theorem Goes.pursues {s : Nat} (goes : m.Goes turn m') (now : m'.Has Phase.pursues s) :
    m.Has Phase.pursues s ∨
      turn = .next s ∧ m.calls s = some (.stop .looking) ∧ m.cells.running = true := by
  cases goes with
  | call fresh => exact .inl ((has_call fresh rfl rfl).mp now)
  | reach | tell => exact .inl now
  | @see c here busy =>
    rcases Decidable.em (s = c) with rfl | other
    · exact .inr ⟨rfl, here, busy⟩
    · exact .inl (by simpa [other] using has_put.mp now)
  | @cancel c here =>
    refine .inl ?_
    have moved := has_put.mp now
    split at moved
    next => cases moved
    next => exact moved
  | enter here | turnAway here | refuse here | claim here | rewind here | renew here | publish here
  | close here | drop here | approach here | miss here | read here | request here | part here =>
    refine .inl ((?_ : _ ↔ m.Has Phase.pursues s).mp now)
    exact has_within here rfl

/-- A request pursues its run until it has cancelled the token. -/
theorem Goes.pursued {s : Nat} (goes : m.Goes turn m') (before : m.Has Phase.pursues s) :
    m'.Has Phase.pursues s ∨ m'.Has Phase.parts s ∧ m.cells.token ∈ m'.cells.cancelled := by
  cases goes with
  | call fresh => exact .inl ((has_call fresh rfl rfl).mpr before)
  | reach | tell => exact .inl before
  | @see c here busy =>
    refine .inl (has_put.mpr ?_)
    split
    next => rfl
    next => exact before
  | @cancel c here =>
    rcases Decidable.em (s = c) with rfl | other
    · exact .inr ⟨has_put.mpr (by simp [Phase.parts]), List.mem_cons_self⟩
    · exact .inl (has_put.mpr (by simpa [other] using before))
  | enter here | turnAway here | refuse here | claim here | rewind here | renew here | publish here
  | close here | drop here | approach here | miss here | read here | request here | part here =>
    refine .inl ((?_ : _ ↔ m.Has Phase.pursues s).mpr before)
    exact has_within here rfl

theorem Goes.parted {s : Nat} (goes : m.Goes turn m') (before : m.Has Phase.parts s) :
    m'.Has Phase.parts s := by
  cases goes with
  | call fresh => exact (has_call fresh rfl rfl).mpr before
  | reach | tell => exact before
  | miss | cancel =>
    refine has_put.mpr ?_
    split
    next => rfl
    next => exact before
  | enter here | turnAway here | refuse here | claim here | rewind here | renew here | publish here
  | close here | drop here | approach here | see here | read here | request here | part here =>
    refine (?_ : _ ↔ m.Has Phase.parts s).mpr before
    exact has_within here rfl

/-- A request that finds the flag set begins to pursue. -/
theorem Goes.finds {s : Nat} (goes : m.Goes (.next s) m') (looks : m.calls s = some (.stop .looking))
    (busy : m.cells.running = true) : m' = m.put s (.stop .seeing) := by
  cases goes with
  | see => rfl
  | miss here idle => cases idle.symm.trans busy
  | enter here | turnAway here | refuse here | claim here | rewind here | renew here | publish here
  | approach here | read here | request here | cancel here | part here =>
    cases here.symm.trans looks

/-- A call that runs goes on running with its token, or it is over. -/
theorem Goes.running {t : Nat} (goes : m.Goes turn m')
    (flies : m.calls c = some (.execute (.running t))) :
    m'.calls c = some (.execute (.running t)) ∨ m'.calls c = some (.execute .closed) := by
  have kept {d : Nat} {phase : Phase} (other : c ≠ d) :
      (m.put d phase).calls c = some (.execute (.running t)) := by simpa [put, other] using flies
  cases goes with
  | call fresh => exact .inl (kept fun same => by cases (same ▸ fresh).symm.trans flies)
  | reach | tell => exact .inl flies
  | @close d u here =>
    rcases Decidable.em (c = d) with rfl | other
    · exact .inr (by simp [set, put])
    · exact .inl (kept other)
  | enter here | turnAway here | refuse here | claim here | rewind here | renew here | publish here
  | drop here | approach here | see here | miss here | read here | request here | cancel here
  | part here =>
    exact .inl (kept fun same => by cases (same ▸ here).symm.trans flies)

theorem Goes.closed (goes : m.Goes turn m') (closed : m.calls c = some (.execute .closed)) :
    m'.calls c = some (.execute .closed) := by
  have kept {d : Nat} {phase : Phase} (other : c ≠ d) :
      (m.put d phase).calls c = some (.execute .closed) := by simpa [put, other] using closed
  cases goes with
  | call fresh => exact kept fun same => by cases (same ▸ fresh).symm.trans closed
  | reach | tell => exact closed
  | enter here | turnAway here | refuse here | claim here | rewind here | renew here | publish here
  | close here | drop here | approach here | see here | miss here | read here | request here
  | cancel here | part here =>
    exact kept fun same => by cases (same ▸ here).symm.trans closed

/-- No token is made anew. -/
theorem Goes.made (goes : m.Goes turn m') : m.cells.made ≤ m'.cells.made := by
  cases goes with
  | renew => exact Nat.le_succ _
  | _ => exact Nat.le_refl _

/-- Unless the token in place is made anew, it stays in place with the calls that it was there for. -/
theorem Goes.published (goes : m.Goes turn m') :
    m'.cells.token = m.cells.made ∨
      m'.cells.token = m.cells.token ∧ ∀ d, m'.Has Phase.published d → m.Has Phase.published d := by
  cases goes with
  | renew => exact .inl rfl
  | call fresh => exact .inr ⟨rfl, fun d => (has_call fresh rfl rfl).mp⟩
  | reach | tell => exact .inr ⟨rfl, fun _ => id⟩
  | close here =>
    refine .inr ⟨rfl, fun d now => ?_⟩
    have moved := has_put.mp now
    split at moved
    next => cases moved
    next => exact moved
  | enter here | turnAway here | refuse here | claim here | rewind here | publish here
  | drop here | approach here | see here | miss here | read here | request here | cancel here
  | part here =>
    refine .inr ⟨rfl, fun d => ((?_ : _ ↔ m.Has Phase.published d).mp)⟩
    exact has_within here rfl

theorem Has.mono {kind' : Phase → Bool} (has : m.Has kind c)
    (wider : ∀ phase, kind phase = true → kind' phase = true) : m.Has kind' c := by
  obtain ⟨phase, here, holds⟩ := has
  exact ⟨phase, here, wider phase holds⟩

theorem locks_of_pursues (phase : Phase) (pursues : phase.pursues = true) : phase.locks = true := by
  rcases phase with execution | stopping
  · cases pursues
  · cases stopping with
    | seeing | telling | cancelling => rfl
    | waiting | looking | leaving | done => cases pursues

theorem parts_of_pursues (phase : Phase) (pursues : phase.pursues = true) : phase.parts = false := by
  rcases phase with execution | stopping
  · cases pursues
  · cases stopping with
    | seeing | telling | cancelling => rfl
    | waiting | looking | leaving | done => cases pursues

theorem flies_of_published (phase : Phase) (published : phase.published = true) :
    phase.flies = true := by
  rcases phase with execution | stopping
  · cases execution with
    | publishing | running => rfl
    | waiting | entering | leaving | refused | claiming | rewinding | closed => cases published
  · cases published

/-- While a request has the lock, a run that is in flight is published, and its token is in place. -/
theorem Sound.running_of_locked {s : Nat} {stopping : Stopping} (sound : m.Sound)
    (here : m.calls s = some (.stop stopping)) (lock : (Phase.stop stopping).locks = true)
    (flies : m.InFlight d) : m.calls d = some (.execute (.running m.cells.token)) := by
  obtain ⟨phase, there, flies⟩ := flies
  have other : d ≠ s := by
    rintro rfl
    cases here.symm.trans there
    cases flies
  have unlocked : phase.locks = false := by
    refine Bool.eq_false_iff.mpr fun also => other ?_
    exact sound.lock_single ((has_iff there).mpr also) ((has_iff here).mpr lock)
  rcases phase with execution | stopping
  · cases execution with
    | running t => rw [there, (sound.knows d _ there).1]
    | claiming | rewinding | publishing => cases unlocked
    | waiting | entering | leaving | refused | closed => cases flies
  · cases flies

/-- While a request pursues a run, the token of the run stays in place. -/
theorem Goes.token_pursued {s : Nat} (goes : m.Goes turn m') (sound : m.Sound)
    (pursues : m.Has Phase.pursues s) : m'.cells.token = m.cells.token := by
  rcases goes.token with same | ⟨c, _, here⟩
  · exact same
  · have mover := sound.lock_single (pursues.mono locks_of_pursues) ((has_iff here).mpr rfl)
    obtain ⟨phase, there, holds⟩ := pursues
    cases here.symm.trans (mover ▸ there)
    cases holds

/-- What the steps so far have to do with the tokens. -/
structure Remembers (turns : List Turn) (m : Shared) : Prop where
  sees : ∀ s, m.Has Phase.pursues s → ∃ c, Saw turns s c m.cells.token
  cancelled : ∀ t ∈ m.cells.cancelled, ∃ s c, Saw turns s c t
  heeds : ∀ s c t, Saw turns s c t → m.Has Phase.pursues s ∧ t = m.cells.token ∨
    m.Has Phase.parts s ∧ t ∈ m.cells.cancelled
  stays : ∀ c t, Had turns c t →
    m.calls c = some (.execute (.running t)) ∨ m.calls c = some (.execute .closed)
  owns : ∀ c t, Had turns c t → t < m.cells.made ∧
    (t = m.cells.token → ∀ d, m.Has Phase.published d → d = c)

theorem remembers_start : Remembers [] {} where
  sees := by simp [Has]
  cancelled := by simp
  heeds := by
    rintro s c t ⟨before, m, shorter, _⟩
    simp at shorter
  stays := by
    rintro c t ⟨before, m, shorter, ran, here⟩
    cases List.prefix_nil.mp shorter
    cases ran
    cases here
  owns := by
    rintro c t ⟨before, m, shorter, ran, here⟩
    cases List.prefix_nil.mp shorter
    cases ran
    cases here

theorem Remembers.step {turns : List Turn} (remembers : Remembers turns m)
    (ran : after turns = some m) (stepped : m.step turn = some m') :
    Remembers (turns ++ [turn]) m' := by
  have goes := step_goes stepped
  have sound := sound_after ran
  have sound' := goes.sound sound
  have ran' : after (turns ++ [turn]) = some m' := run_concat.mpr ⟨m, ran, stepped⟩
  constructor
  · intro s now
    rcases goes.pursues now with before | ⟨rfl, looks, busy⟩
    · obtain ⟨c, saw⟩ := remembers.sees s before
      rw [goes.token_pursued sound before]
      exact ⟨c, (saw_concat ran).mpr (.inl saw)⟩
    · obtain ⟨d, flies⟩ := sound.flown.flag.mp busy
      have running := sound.running_of_locked looks rfl flies
      cases goes.finds looks busy
      exact ⟨d, (saw_concat ran).mpr (.inr ⟨rfl, looks, running⟩)⟩
  · intro t member
    have earlier (member : t ∈ m.cells.cancelled) : ∃ s c, Saw (turns ++ [turn]) s c t := by
      obtain ⟨s, c, saw⟩ := remembers.cancelled t member
      exact ⟨s, c, (saw_concat ran).mpr (.inl saw)⟩
    rcases goes.cancels with same | ⟨s, _, here, more⟩
    · exact earlier (same ▸ member)
    · rw [more] at member
      rcases List.mem_cons.mp member with rfl | member
      · obtain ⟨c, saw⟩ := remembers.sees s ⟨_, here, rfl⟩
        exact ⟨s, c, (saw_concat ran).mpr (.inl saw)⟩
      · exact earlier member
  · intro s c t saw
    rcases (saw_concat ran).mp saw with saw | ⟨rfl, looks, flies⟩
    · rcases remembers.heeds s c t saw with ⟨pursues, rfl⟩ | ⟨parts, member⟩
      · rcases goes.pursued pursues with still | ⟨parts, member⟩
        · exact .inl ⟨still, (goes.token_pursued sound pursues).symm⟩
        · exact .inr ⟨parts, member⟩
      · exact .inr ⟨goes.parted parts, goes.cancelled member⟩
    · cases goes.finds looks (sound.flown.flag.mpr ⟨c, (has_iff flies).mpr rfl⟩)
      exact .inl ⟨has_put.mpr (by simp [Phase.pursues]), (sound.knows c _ flies).1⟩
  · intro c t had
    rcases (had_concat ran').mp had with had | flies
    · rcases remembers.stays c t had with flies | closed
      · exact goes.running flies
      · exact .inr (goes.closed closed)
    · exact .inl flies
  · intro c t had
    rcases (had_concat ran').mp had with had | flies
    · obtain ⟨below, only⟩ := remembers.owns c t had
      refine ⟨Nat.lt_of_lt_of_le below goes.made, ?_⟩
      rcases goes.published with renewed | ⟨same, kept⟩
      · exact fun again => absurd (again.trans renewed) (Nat.ne_of_lt below)
      · exact fun again d now => only (again.trans same) d (kept d now)
    · obtain ⟨same, _⟩ := sound'.knows c _ flies
      refine ⟨same ▸ sound'.token, fun _ d now => ?_⟩
      exact sound'.flown.single d c (now.mono flies_of_published) ((has_iff flies).mpr rfl)

theorem remembers_after {turns : List Turn} (ran : after turns = some m) : Remembers turns m :=
  after_keeps Remembers remembers_start
    (fun _ _ _ _ ran remembers stepped => remembers.step ran stepped) ran

/-- A token belongs to one run. -/
theorem Had.unique {turns : List Turn} {t : Nat} (first : Had turns c t) (second : Had turns d t) :
    c = d := by
  -- the later of the two runs has the token in place
  have later {c d : Nat} {early late : List Turn} {m₁ m₂ : Shared} (shorter : early <+: late)
      (ran₁ : after early = some m₁) (flies₁ : m₁.calls c = some (.execute (.running t)))
      (ran₂ : after late = some m₂) (flies₂ : m₂.calls d = some (.execute (.running t))) : c = d := by
    have owns := ((remembers_after ran₂).owns c t ⟨early, m₁, shorter, ran₁, flies₁⟩).2
    exact (owns ((sound_after ran₂).knows d _ flies₂).1 d ((has_iff flies₂).mpr rfl)).symm
  obtain ⟨before₁, m₁, shorter₁, ran₁, flies₁⟩ := first
  obtain ⟨before₂, m₂, shorter₂, ran₂, flies₂⟩ := second
  rcases List.prefix_or_prefix_of_prefix shorter₁ shorter₂ with shorter | shorter
  · exact later shorter ran₁ flies₁ ran₂ flies₂
  · exact (later shorter ran₂ flies₂ ran₁ flies₁).symm

/-- A request comes to the flag once. -/
theorem Saw.unique {turns : List Turn} {s t u : Nat} (first : Saw turns s c t)
    (second : Saw turns s d u) : c = d ∧ t = u := by
  have later {c d t u : Nat} {early late : List Turn} {m₁ m₂ : Shared}
      (shorter : early ++ [.next s] <+: late ++ [.next s]) (ran₁ : after early = some m₁)
      (looks₁ : m₁.calls s = some (.stop .looking)) (flies₁ : m₁.calls c = some (.execute (.running t)))
      (ran₂ : after late = some m₂) (looks₂ : m₂.calls s = some (.stop .looking))
      (flies₂ : m₂.calls d = some (.execute (.running u))) : c = d ∧ t = u := by
    rcases List.prefix_concat_iff.mp shorter with same | shorter
    · obtain ⟨rfl, _⟩ := List.append_inj' same rfl
      cases ran₁.symm.trans ran₂
      obtain rfl := (sound_after ran₁).flown.single c d ((has_iff flies₁).mpr rfl)
        ((has_iff flies₂).mpr rfl)
      cases flies₁.symm.trans flies₂
      exact ⟨rfl, rfl⟩
    · -- having seen a run before, it does not come to the flag again
      rcases (remembers_after ran₂).heeds s c t ⟨early, m₁, shorter, ran₁, looks₁, flies₁⟩ with
        ⟨pursues, _⟩ | ⟨parts, _⟩
      · cases (has_iff looks₂).mp pursues
      · cases (has_iff looks₂).mp parts
  obtain ⟨before₁, m₁, shorter₁, ran₁, looks₁, flies₁⟩ := first
  obtain ⟨before₂, m₂, shorter₂, ran₂, looks₂, flies₂⟩ := second
  rcases List.prefix_or_prefix_of_prefix shorter₁ shorter₂ with shorter | shorter
  · exact later shorter ran₁ looks₁ flies₁ ran₂ looks₂ flies₂
  · obtain ⟨run, token⟩ := later shorter ran₂ looks₂ flies₂ ran₁ looks₁ flies₁
    exact ⟨run.symm, token.symm⟩

end Shared

end Screenplay
