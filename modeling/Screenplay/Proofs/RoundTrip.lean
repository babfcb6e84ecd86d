import Screenplay.Proofs.Conditions
import Screenplay.Proofs.Encoding
import Screenplay.Proofs.Judgements
import Screenplay.Run.EventJson
import Screenplay.Scenario.Load

/-!
Reading back what was written. A condition is restored from the members of its measurement and of its
expectation (`Condition.restores`), an action by the induction over its tree (`Action.nested_restores`),
a scenario from its parts (`Scenario.restores`); so their texts are read as what they were written for
(`parse_of_print`).
-/
namespace Screenplay
open Json
open Json.Decoder (Restores)
open Json.Decoder.Restores (string double byte word longWord integer choice optional)

/-! ## Conditions -/

theorem Point.restores (p : Point) : Point.decoder.Restores p.toJson p :=
  Record.make_restores (by decide) (.cons (integer p.x) <| .cons (integer p.y) .nil) rfl

theorem ImageCheck.restores (c : ImageCheck) : ImageCheck.decoder.Restores (.object c.members) c :=
  Record.make_restores (by decide)
    (.cons (string c.template) <| .cons (optional double nofun c.threshold) <|
      .cons (optional Point.restores (fun _ => nofun) c.cropLocation) <| .cons (Restores.bool c.colorInvariant) <|
      .cons (optional longWord nofun c.timeoutMs) <| .cons (optional Restores.bool nofun c.useCache) .nil) rfl

theorem SoundCheck.restores (c : SoundCheck) : SoundCheck.decoder.Restores (.object c.members) c :=
  Record.make_restores (by decide)
    (.cons (optional double nofun c.minLevel) <| .cons (optional longWord nofun c.durationMs) .nil) rfl

theorem SystemProbe.restores (p : SystemProbe) : SystemProbe.decoder.Restores (.text p.name) p :=
  choice (by cases p <;> rfl)

theorem Comparison.restores (c : Comparison) : Comparison.decoder.Restores (.text c.symbol) c :=
  choice (by cases c <;> rfl)

/-- The members of a measurement have names of their own, other than those of the expectation. -/
theorem Measure.distinct (m : Measure) : (("type" :: m.members.map Prod.fst) ++ Condition.expectation.names).Nodup := by
  cases m with
  | image => exact (by decide : ["type", "template", "threshold", "cropLocation", "colorInvariant", "timeoutMs",
      "useCache", "operator", "value"].Nodup)
  | sound => exact (by decide : ["type", "minLevel", "durationMs", "operator", "value"].Nodup)
  | system => exact (by decide : ["type", "probe", "operator", "value"].Nodup)

theorem Measure.restores (m : Measure) :
    variants.decoder.Restores (.object (("type", .text m.kind) :: m.members)) m := by
  have distinct := (List.nodup_append.mp m.distinct).1
  cases m with
  | image check => exact Variants.restores distinct (fun _ => rfl) check.restores.map
  | sound check => exact Variants.restores distinct (fun _ => rfl) check.restores.map
  | system probe =>
    refine Variants.restores distinct (fun _ => rfl) ?_
    exact Record.make_restores (by decide) (.cons probe.restores .nil) rfl

namespace Condition

open Draft (find ofMembers)

/-- A condition is restored from the members of its measurement and those of its expectation. -/
theorem restores_append {c : Condition} {front back : List (String × Value)}
    (distinct : (front.map Prod.fst ++ expectation.names).Nodup)
    (measures : Measure.variants.decoder.Restores (.object front) c.measure)
    (writes : Record.Writes expectation back (c.operator, c.value, ())) :
    decoder.Restores (.object (front ++ back)) c where
  reads room origin shallow := by
    obtain ⟨room, rfl⟩ := Nat.exists_eq_add_one.mpr (Nat.zero_lt_of_lt shallow)
    have each := Value.memberDepth_le.mp (Nat.le_of_succ_le_succ shallow)
    have before : Value.memberDepth front ≤ room :=
      Value.memberDepth_le.mpr fun m member => each m (List.mem_append_left _ member)
    have behind : Value.memberDepth back ≤ room :=
      Value.memberDepth_le.mpr fun m member => each m (List.mem_append_right _ member)
    have apart : Draft.Distinct (ofMembers (front ++ back)) := by
      refine Draft.distinct_ofMembers ?_
      rw [List.map_append, writes.names_eq]
      exact distinct
    obtain ⟨_, _, disjoint⟩ := List.nodup_append.mp distinct
    have measured : measured (ofMembers (front ++ back)) = ofMembers front := by
      have passes : ∀ name ∈ front.map Prod.fst, decide (some name ∉ [some "operator", some "value"]) = true := by
        intro name listed
        have other : name ∉ expectation.names := fun known => disjoint name listed name known rfl
        simpa [expectation_names] using other
      have stopped : (ofMembers back).filter (fun m => decide (m.1 ∉ [some "operator", some "value"])) = [] := by
        rw [List.filter_eq_nil_iff]
        intro m inside
        obtain ⟨name, same, listed⟩ := Draft.mem_ofMembers inside
        rw [writes.names_eq, expectation_names] at listed
        simpa [same, Decidable.or_iff_not_imp_left] using listed
      rw [Condition.measured, Draft.ofMembers_append, List.filter_append, stopped, List.append_nil]
      exact Draft.filter_ofMembers (f := fun name => decide (name ∉ [some "operator", some "value"])) passes
    rw [Draft.ofValue, decoder_object apart, measured]
    refine ⟨Draft.keeps_ofMembers before, ?_, measures.reads (room + 1) .member (Nat.succ_le_succ before)⟩
    rw [← writes.read expectation_declared behind]
    refine Record.read_congr fun name known => Draft.find_append fun listed => ?_
    exact disjoint name listed name known rfl
  bounded := by
    rw [Value.bounded_object]
    intro m member
    rcases List.mem_append.mp member with inside | inside
    · exact Value.bounded_object.mp measures.bounded m inside
    · exact Value.bounded_object.mp writes.bounded m inside

theorem restores (c : Condition) : decoder.Restores c.toJson c :=
  restores_append c.measure.distinct c.measure.restores <|
    .cons (optional Comparison.restores nofun c.operator) <| .cons (optional double nofun c.value) .nil

/-- A condition nests at most as deep as a point in it. -/
theorem depth_toJson (c : Condition) : c.toJson.depth ≤ 2 := by
  have option {α : Type} {write : α → Value} (o : Option α) (each : ∀ a, (write a).depth ≤ 1) :
      (Value.ofOption write o).depth ≤ 1 := by
    cases o with
    | none => exact Nat.zero_le 1
    | some a => exact each a
  have flat {α : Type} {write : α → Value} (o : Option α) (each : ∀ a, (write a).depth = 0) :
      (Value.ofOption write o).depth ≤ 1 :=
    option o fun a => Nat.le_trans (Nat.le_of_eq (each a)) (Nat.zero_le 1)
  have measures : ∀ m ∈ c.measure.members, m.2.depth ≤ 1 := by
    cases c.measure with
    | image check =>
      simp only [Measure.members, ImageCheck.members, List.forall_mem_cons]
      exact ⟨Nat.zero_le 1, flat _ fun _ => rfl, option _ fun _ => Nat.le_refl 1, Nat.zero_le 1,
        flat _ fun _ => rfl, flat _ fun _ => rfl, nofun⟩
    | sound check =>
      simp only [Measure.members, SoundCheck.members, List.forall_mem_cons]
      exact ⟨flat _ fun _ => rfl, flat _ fun _ => rfl, nofun⟩
    | system probe => exact List.forall_mem_cons.mpr ⟨Nat.zero_le 1, nofun⟩
  refine Nat.succ_le_succ (Value.memberDepth_le.mpr (List.forall_mem_append.mpr ⟨?_, ?_⟩))
  · exact List.forall_mem_cons.mpr ⟨Nat.zero_le 1, measures⟩
  · simp only [List.forall_mem_cons]
    exact ⟨flat _ fun _ => rfl, flat _ fun _ => rfl, nofun⟩

end Condition

/-! ## Actions -/

theorem MouseButton.restores (b : MouseButton) : MouseButton.decoder.Restores (.text b.name) b :=
  choice (by cases b <;> rfl)

theorem LogLevel.restores (l : LogLevel) : LogLevel.decoder.Restores (.text l.name) l :=
  choice (by cases l <;> rfl)

theorem Task.distinct (t : Task) : ("type" :: t.members.map Prod.fst).Nodup := by
  cases t <;> simp [members, SoundCheck.members, ImageCheck.members]

/-- A task is restored by the action that its tag selects. -/
theorem Task.restores (t : Task) (dec : Decoder Action) :
    (Action.variants dec).decoder.Restores t.toJson (.task t) := by
  have distinct := t.distinct
  cases t with
  | click x y button count =>
    refine Variants.restores distinct (fun _ => rfl) (Restores.map ?_)
    exact Record.make_restores (by decide) (.cons (integer x) <| .cons (integer y) <|
      .cons button.restores <| .cons (optional byte nofun count) .nil) rfl
  | drag fromX fromY toX toY durationMs =>
    refine Variants.restores distinct (fun _ => rfl) (Restores.map ?_)
    exact Record.make_restores (by decide) (.cons (integer fromX) <| .cons (integer fromY) <|
      .cons (integer toX) <| .cons (integer toY) <| .cons (optional longWord nofun durationMs) .nil) rfl
  | input text | key text =>
    refine Variants.restores distinct (fun _ => rfl) (Restores.map ?_)
    exact Record.make_restores (by decide) (.cons (string text) .nil) rfl
  | wait ms maxMs =>
    refine Variants.restores distinct (fun _ => rfl) (Restores.map ?_)
    exact Record.make_restores (by decide) (.cons (longWord ms) <| .cons (optional longWord nofun maxMs) .nil) rfl
  | log level message =>
    refine Variants.restores distinct (fun _ => rfl) (Restores.map ?_)
    exact Record.make_restores (by decide) (.cons level.restores <| .cons (string message) .nil) rfl
  | soundCheck check => exact Variants.restores distinct (fun _ => rfl) check.restores.map.map
  | imageMatch check => exact Variants.restores distinct (fun _ => rfl) check.restores.map.map

namespace Action

mutual

/-- An action is restored by a decoder of actions that are nested as deep as its JSON. -/
theorem nested_restores (a : Action) (depth : Nat) (deep : a.toJson.depth ≤ depth) :
    (nested depth).Restores a.toJson a := by
  have some : 0 < a.toJson.depth := by cases a <;> exact Nat.succ_pos _
  obtain ⟨depth, rfl⟩ := Nat.exists_eq_add_one.mpr (Nat.lt_of_lt_of_le some deep)
  cases a with
  | task t => exact t.restores (nested depth)
  | skip reason =>
    exact Variants.restores (by simp) (fun _ => rfl)
      (Record.make_restores (by decide) (.cons (optional string nofun reason) .nil) rfl)
  | fail message =>
    exact Variants.restores (by simp) (fun _ => rfl)
      (Record.make_restores (by decide) (.cons (optional string nofun message) .nil) rfl)
  | test name =>
    exact Variants.restores (by simp) (fun _ => rfl)
      (Record.make_restores (by decide) (.cons (optional string nofun name) .nil) rfl)
  | loop count actions =>
    have inner : Value.itemDepth (listToJson actions) ≤ depth := by
      simp only [toJson, Value.depth, Value.memberDepth] at deep
      omega
    refine Variants.restores (by simp) (fun _ => rfl) (Record.make_restores
      (by decide : ["count", "actions"].Nodup) (.cons (word count) <| .cons ?_ .nil) rfl)
    exact list_restores actions depth inner
  | repeatWhile condition actions maxIterations =>
    have inner : Value.itemDepth (listToJson actions) ≤ depth := by
      simp only [toJson, Value.depth, Value.memberDepth] at deep
      omega
    refine Variants.restores (by simp) (fun _ => rfl) (Record.make_restores
      (by decide : ["condition", "actions", "maxIterations"].Nodup)
      (.cons (optional Condition.restores (fun _ => nofun) condition) <| .cons ?_ <|
        .cons (optional word nofun maxIterations) .nil) rfl)
    exact list_restores actions depth inner
  | branch condition thenActions elseActions =>
    have inner : Value.itemDepth (listToJson thenActions) ≤ depth ∧ (optionToJson elseActions).depth ≤ depth := by
      simp only [toJson, Value.depth, Value.memberDepth] at deep
      omega
    refine Variants.restores (by simp) (fun _ => rfl) (Record.make_restores
      (by decide : ["condition", "thenActions", "elseActions"].Nodup)
      (.cons (optional Condition.restores (fun _ => nofun) condition) <| .cons ?_ <| .cons ?_ .nil) rfl)
    · exact list_restores thenActions depth inner.1
    · exact option_restores elseActions depth inner.2

theorem list_restores (actions : List Action) (depth : Nat) (deep : Value.itemDepth (listToJson actions) ≤ depth) :
    (Decoder.list (nested depth)).Restores (.list (listToJson actions)) actions := by
  cases actions with
  | nil => exact .nil
  | cons a rest =>
    obtain ⟨first, later⟩ := Nat.max_le.mp deep
    exact .cons (nested_restores a depth first) (list_restores rest depth later)

theorem option_restores (o : Option (List Action)) (depth : Nat) (deep : (optionToJson o).depth ≤ depth) :
    (Decoder.optional (.list (nested depth))).Restores (optionToJson o) o := by
  cases o with
  | none => exact .null
  | some actions => exact .some (list_restores actions depth (Nat.le_of_succ_le deep)) nofun

end

theorem restores (a : Action) : decoder.Restores a.toJson a where
  reads room origin shallow := (nested_restores a (room + 1) (Nat.le_succ_of_le shallow)).reads room origin shallow
  bounded := (nested_restores a a.toJson.depth (Nat.le_refl _)).bounded

end Action

/-! ## Scenarios -/

theorem TemplateFile.restores (t : TemplateFile) : TemplateFile.decoder.Restores t.toJson t :=
  Record.make_restores (by decide)
    (.cons (string t.path) <| .cons (optional Point.restores (fun _ => nofun) t.cropLocation) .nil) rfl

theorem RunOptions.restores (o : RunOptions) : RunOptions.decoder.Restores o.toJson o :=
  Record.make_restores (by decide)
    (.cons (Restores.bool o.stopOnFailure) <| .cons (longWord o.maxDepth) <|
      .cons (word o.defaultMaxIterations) .nil) rfl

theorem CacheSettings.restores (c : CacheSettings) : CacheSettings.decoder.Restores c.toJson c :=
  Record.make_restores (by decide) (.cons (longWord c.capacity) <| .cons (longWord c.ttlMs) .nil) rfl

namespace Scenario

/-- A scenario as it stands in memory: the templates and the members of the device in the order of
their names, each name once, and whole numbers of 64 bits. -/
structure Proper (s : Scenario) : Prop where
  templates : s.templates.Pairwise (·.1 < ·.1)
  device : s.device.normal = s.device
  bounded : s.device.Bounded

theorem actions_restore (actions : List Action) :
    (Decoder.list Action.decoder).Restores (.list (Action.listToJson actions)) actions := by
  induction actions with
  | nil => exact .nil
  | cons a rest ih => exact .cons a.restores ih

theorem restores {s : Scenario} (proper : s.Proper) : decoder.Restores s.toJson s := by
  have device : Decoder.value.Restores s.device s.device :=
    ⟨fun room _ => Draft.keep_ofValue s.device room, proper.bounded⟩
  refine Record.make_restores (by decide) (.cons (optional string nofun s.name) <|
    .cons (actions_restore s.actions) <| .cons (.table proper.templates TemplateFile.restores) <|
    .cons s.options.restores <| .cons s.cache.restores <| .cons device .nil) ?_
  show { s with device := s.device.normal } = s
  rw [proper.device]

end Scenario

/-! ## Texts -/

/-- The text of a scenario, an action or a condition is read as what was written. So is the text of a
condition in an event of a run, and it is the condition that was judged there. -/
theorem parse_of_print :
    (∀ s : Scenario, s.Proper → s.toJson.Finite → s.toJson.Inverts → s.toJson.depth ≤ maximalNesting →
      (Manuscript.ofGlyphs (Glyph.ofString s.toJson.print)).decode Scenario.decoder = .ok s) ∧
    (∀ a : Action, a.toJson.Finite → a.toJson.Inverts → a.toJson.depth ≤ maximalNesting →
      (Manuscript.ofGlyphs (Glyph.ofString a.toJson.print)).decode Action.decoder = .ok a) ∧
    (∀ c : Condition, c.toJson.Finite → c.toJson.Inverts →
      (Manuscript.ofGlyphs (Glyph.ofString c.toJson.print)).decode Condition.decoder = .ok c) ∧
    ∀ (ω : Type) (e : Engine) (performer : Performer ω) (actions : List Action) (w : ω) (atPause : AtPause)
      (fuel : Nat) (record : RunRecord ω), e.execute performer actions w atPause fuel = .ran record →
      ∀ owner c result, .conditionEvaluated owner (some c) result ∈ record.events.toList →
      c.toJson.Finite → c.toJson.Inverts →
      ∃ text, (Event.conditionEvaluated owner (some c) result).toJson.get? "condition" = some (.text text) ∧
        (Manuscript.ofGlyphs (Glyph.ofString text)).decode Condition.decoder = .ok c ∧
        ∃ u, e.Asks performer actions w atPause (.judge c) u ∧ (performer.judge c u).result = result := by
  have conditions (c : Condition) (finite : c.toJson.Finite) (inverts : c.toJson.Inverts) :
      (Manuscript.ofGlyphs (Glyph.ofString c.toJson.print)).decode Condition.decoder = .ok c :=
    c.restores.decode_print finite inverts (Nat.le_trans c.depth_toJson (by decide))
  refine ⟨fun s proper => (Scenario.restores proper).decode_print, fun a => a.restores.decode_print, conditions, ?_⟩
  intro ω e performer actions w atPause fuel record ran owner c result told finite inverts
  exact ⟨c.text, rfl, conditions c finite inverts, Engine.execute_judgements ran told⟩

/-- A scenario that may run is loaded from its own text. -/
theorem Scenario.ofString_print {s : Scenario} (proper : s.Proper) (finite : s.toJson.Finite)
    (inverts : s.toJson.Inverts) (shallow : s.toJson.depth ≤ maximalNesting) (valid : s.validate = .ok ()) :
    Scenario.ofString s.toJson.print = .ok s := by
  rw [Scenario.ofString, Scenario.ofGlyphs, (Scenario.restores proper).decode_print finite inverts shallow]
  simp only [valid]

/-! ### A scenario with doubles -/

namespace Vigil

def level : Float := 0.95

def gain : Float := -1.5e-7

/-- The sound is loud enough, though hardly any is asked for. -/
def alarm : Condition where
  measure := .sound { minLevel := some level, durationMs := some 250 }
  operator := some .atLeast
  value := some gain

def answer : Action :=
  .branch (some alarm) [.task (.click 3 (-4) .right (some 2))] (some [.skip (some "still \"quiet\"\n")])

def scenario : Scenario where
  name := some "Vigil"
  actions := [answer]
  templates := [("door", ⟨"door.png", some ⟨1, 2⟩⟩), ("lamp", ⟨"lamp.png", none⟩)]
  device := .object [("gain", .double gain), ("serial", .whole 18446744073709551615)]

/-- Someone to whom everything is well. -/
def content : Performer Unit where
  perform _ _ := ⟨.ok .ok, (), []⟩
  judge _ _ := ⟨true, (), []⟩

theorem inverts_level : Inverts level := by
  intro text own
  have written : Decimal.Layout.json.text level = some "0.95" := by decide +kernel
  cases written.symm.trans own
  exact ⟨⟨false, [0], some [9, 5], none⟩, by cbv, by decide +kernel⟩

theorem inverts_gain : Inverts gain := by
  intro text own
  have written : Decimal.Layout.json.text gain = some "-1.5e-7" := by decide +kernel
  cases written.symm.trans own
  exact ⟨⟨true, [1], some [5], some (-7)⟩, by cbv, by decide +kernel⟩

theorem proper : scenario.Proper where
  templates := by decide
  device := rfl
  bounded n member := by
    have numbers : scenario.device.numbers = [.double gain, .whole 18446744073709551615] := rfl
    rw [numbers] at member
    simp at member
    subst member
    exact ⟨by decide, by decide⟩

/-- A value whose doubles are those of the scenario. -/
theorem readable {v : Value} {numbers : List Number} (all : v.numbers = numbers)
    (known : ∀ n ∈ numbers, ∀ x, n = .double x → x = level ∨ x = gain) : v.Finite ∧ v.Inverts := by
  subst all
  refine ⟨fun x member => ?_, fun x member => ?_⟩
  · obtain rfl | rfl := known _ member x rfl <;> decide +kernel
  · obtain rfl | rfl := known _ member x rfl
    · exact inverts_level
    · exact inverts_gain

theorem readable_alarm : alarm.toJson.Finite ∧ alarm.toJson.Inverts :=
  readable (show _ = [.double level, .whole 250, .double gain] from rfl) (by simp)

theorem readable_answer : answer.toJson.Finite ∧ answer.toJson.Inverts :=
  readable (show _ = [.double level, .whole 250, .double gain, .whole 3, .whole (-4), .whole 2] from rfl) (by simp)

theorem readable_scenario : scenario.toJson.Finite ∧ scenario.toJson.Inverts :=
  readable (show _ = [.double level, .whole 250, .double gain, .whole 3, .whole (-4), .whole 2, .whole 1, .whole 2,
    .whole 64, .whole 100, .whole 32, .whole 300000, .double gain, .whole 18446744073709551615] from rfl) (by simp)

end Vigil

open Vigil (alarm answer scenario content)

/-- The scenario, its only action and its condition are read back; a run of it tells of the condition. -/
theorem parse_of_print_vigil :
    (scenario.Proper ∧ (scenario.toJson.Finite ∧ scenario.toJson.Inverts) ∧
      scenario.toJson.depth ≤ maximalNesting) ∧
    (Manuscript.ofGlyphs (Glyph.ofString scenario.toJson.print)).decode Scenario.decoder = .ok scenario ∧
    (Manuscript.ofGlyphs (Glyph.ofString answer.toJson.print)).decode Action.decoder = .ok answer ∧
    (Manuscript.ofGlyphs (Glyph.ofString alarm.toJson.print)).decode Condition.decoder = .ok alarm ∧
    ∃ record, Engine.execute {} content scenario.actions () .goOn 20 = .ran record ∧
      .conditionEvaluated .branch (some alarm) true ∈ record.events.toList ∧
      ∃ text, (Event.conditionEvaluated .branch (some alarm) true).toJson.get? "condition" = some (.text text) ∧
        (Manuscript.ofGlyphs (Glyph.ofString text)).decode Condition.decoder = .ok alarm ∧
        ∃ u, Engine.Asks {} content scenario.actions () .goOn (.judge alarm) u ∧
          (content.judge alarm u).result = true := by
  obtain ⟨scenarios, actions, conditions, events⟩ := parse_of_print
  obtain ⟨finite, inverts⟩ := Vigil.readable_alarm
  have shallow : scenario.toJson.depth ≤ maximalNesting := by decide
  obtain ⟨record, ran, told⟩ : ∃ record, Engine.execute {} content scenario.actions () .goOn 20 = .ran record ∧
      .conditionEvaluated .branch (some alarm) true ∈ record.events.toList :=
    ⟨_, rfl, List.mem_of_getElem? (i := 1) rfl⟩
  refine ⟨⟨Vigil.proper, Vigil.readable_scenario, shallow⟩, ?_, ?_, conditions alarm finite inverts,
    record, ran, told, events _ _ _ _ _ _ _ _ ran _ _ _ told finite inverts⟩
  · exact scenarios scenario Vigil.proper Vigil.readable_scenario.1 Vigil.readable_scenario.2 shallow
  · exact actions answer Vigil.readable_answer.1 Vigil.readable_answer.2 (by decide)

end Screenplay
