import Screenplay.Proofs.Mirroring

/-!
Watching a run. A watched performer writes down every call that it gets and then answers as the
performer does. Apart from what is written down the watched run is the run itself
(`Engine.execute_watched`), so what is proved of the one holds of the other.
-/
namespace Screenplay

variable {ω α : Type}

/-- A world and the calls that were made in it, in order, each with the world that it was made in. -/
structure Watched (ω : Type) where
  world : ω
  calls : List (Call × ω) := []

/-- The performer that writes down its calls. -/
def Performer.watched (performer : Performer ω) : Performer (Watched ω) where
  perform task w := (performer.perform task w.world).mapWorld fun world =>
    ⟨world, w.calls ++ [(.perform task, w.world)]⟩
  judge condition w := (performer.judge condition w.world).mapWorld fun world =>
    ⟨world, w.calls ++ [(.judge condition, w.world)]⟩

theorem Performer.after_watched (performer : Performer ω) (call : Call) (w : Watched ω) :
    performer.watched.after call w =
      ⟨performer.after call w.world, w.calls ++ [(call, w.world)]⟩ := by
  cases call <;> rfl

/-- During a call it is written down already. -/
theorem Performer.seen_watched (performer : Performer ω) (call : Call) (w : Watched ω) :
    performer.watched.seen call w =
      (performer.seen call w.world).map fun world => ⟨world, w.calls ++ [(call, w.world)]⟩ := by
  cases call <;> exact Reply.seen_mapWorld _ _

/-- What is seen during a watched call is seen during the call itself, and that it was made. -/
theorem Performer.mem_seen_watched {performer : Performer ω} {call : Call} {w w' : Watched ω}
    (during : w' ∈ performer.watched.seen call w) :
    w'.world ∈ performer.seen call w.world ∧ w'.calls = w.calls ++ [(call, w.world)] := by
  rw [seen_watched] at during
  obtain ⟨world, member, rfl⟩ := List.mem_map.mp during
  exact ⟨member, rfl⟩

/-- The setup of a run that is watched. -/
def RunSetup.watched (p : RunSetup ω) : RunSetup (Watched ω) where
  performer := p.performer.watched
  options := p.options
  total := p.total
  run := p.run
  atPause := p.atPause

/-- The record of a run that was watched, without what was written down. -/
def RunRecord.unwatched (record : RunRecord (Watched ω)) : RunRecord ω where
  engine := record.engine
  world := record.world.world
  events := record.events
  result := record.result
  paused := record.paused

/-- A watched run is compared with the run by all but what was written down. -/
def Watched.likeness (ω : Type) : Likeness (Watched ω) ω where
  worlds w world := world = w.world
  pauses := True

theorem Signal.mapWorld_id : (Signal.mapWorld id : Signal ω → Signal ω) = id := by
  funext signal
  cases signal <;> rfl

theorem Reply.mapWorld_id (r : Reply ω α) : r.mapWorld id = r := by
  rw [mapWorld, Signal.mapWorld_id, List.map_id]
  rfl

/-- That a call is written down does not show in the reply. -/
theorem Reply.written_alike (r : Reply ω α) (calls : List (Call × ω)) :
    (r.mapWorld fun world => ⟨world, calls⟩).Alike (Watched.likeness ω) r := by
  have same : (r.mapWorld fun world => ⟨world, calls⟩).Alike (Watched.likeness ω) (r.mapWorld id) :=
    r.mapWorld_alike fun _ => rfl
  rwa [mapWorld_id] at same

/-- A run ends in a way exactly if the watched run ends in this way. -/
theorem Engine.execute_watched {e : Engine} {performer : Performer ω} {actions : List Action}
    {world : ω} {atPause : AtPause} {fuel : Nat} {record : RunRecord ω} :
    e.execute performer actions world atPause fuel = .ran record ↔
      ∃ seen, e.execute performer.watched actions ⟨world, []⟩ atPause fuel = .ran seen ∧
        seen.unwatched = record := by
  have same : (e.execute performer.watched actions ⟨world, []⟩ atPause fuel).Alike
      (Watched.likeness ω) (e.execute performer actions world atPause fuel) := by
    apply execute_alike
    · exact fun overlooked => absurd trivial overlooked
    · rfl
    · rintro task w _ _ _ rfl
      exact Reply.written_alike _ _
    · rintro condition w _ _ _ rfl
      exact Reply.written_alike _ _
  have forgets {seen : RunRecord (Watched ω)} {record : RunRecord ω}
      (alike : seen.Alike (Watched.likeness ω) record) : seen.unwatched = record := by
    obtain ⟨engine, world, events, result, paused⟩ := record
    obtain ⟨rfl, rfl, rfl, rfl, looked⟩ := alike
    obtain rfl := looked trivial
    rfl
  constructor
  · intro ran
    rw [ran] at same
    rcases watched : e.execute performer.watched actions ⟨world, []⟩ atPause fuel with _ | _ | seen <;>
      rw [watched] at same <;> cases same
    case ran.ran alike => exact ⟨seen, rfl, forgets alike⟩
  · rintro ⟨seen, watched, rfl⟩
    rw [watched] at same
    rcases ran : e.execute performer actions world atPause fuel with _ | _ | record <;>
      rw [ran] at same <;> cases same
    case ran.ran alike => rw [forgets alike]

end Screenplay
