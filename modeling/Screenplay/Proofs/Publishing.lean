import Mathlib
import Screenplay.Proofs.Covering

/-!
The published schema allows what the loader accepts (`Scenario.valid_of_loaded`), for documents in
object form whose choices are written as names: every record is within its definition, and every variant
of a tagged union goes with an alternative that asks for its tag.
-/
namespace Screenplay.Schema
open Json
open Draft (find Once)

/-! ## Records -/

theorem within_point : Within (ObjectForm Draft.Named .point) Point.decoder point :=
  (Within.record rfl (fun _ => .required .integer <| .required .integer .nil) (by decide)).describe

theorem within_templateFile : Within (ObjectForm Draft.Named .template) TemplateFile.decoder templateFile :=
  (Within.record rfl (fun _ => .required Within.string.describe <| .open_
    ((within_point.reference rfl).optional.describe.formed rfl) .nil) (by decide)).describe

theorem within_runOptions : Within (ObjectForm Draft.Named .options) RunOptions.decoder runOptions :=
  (Within.record rfl (fun _ => .open_ Within.bool.withDefault.describe <| .open_ Within.size.withDefault.describe <|
    .open_ Within.word.withDefault.describe .nil) (by decide)).describe

theorem within_cacheSettings : Within (ObjectForm Draft.Named .matcher) CacheSettings.decoder cacheSettings :=
  (Within.record rfl (fun _ => .open_ Within.size.withDefault <| .open_ Within.longWord.withDefault .nil)
    (by decide)).describe

/-! ## Conditions -/

theorem within_comparison : Within Draft.Named Comparison.decoder (reference "CompareOp") :=
  Within.choice.describe.reference rfl

theorem within_probe : Within Draft.Named SystemProbe.decoder (reference "SystemProbe") :=
  Within.choice.describe.reference rfl

/-- An image check is the same in a condition and in an action. -/
theorem mirrors_imageCheck {form : Form}
    (located : form.ofMember (some (.text (some "image-match"))) (some "cropLocation") = .point) :
    Mirrors form "image-match" ImageCheck.decoder (tagged "image-match" "ImageMatchParams") :=
  .shared rfl (fun _ allows => allows_describe.mpr allows)
    (.required Within.string.describe <| .open_ Within.double.optional.describe <|
      .open_ ((within_point.reference rfl).optional.describe.formed located) <|
      .open_ Within.bool.withDefault <| .open_ Within.longWord.optional <| .open_ Within.bool.optional .nil)
    (by decide)

theorem mirrors_soundCheck {form : Form} :
    Mirrors form "sound-check" SoundCheck.decoder (tagged "sound-check" "SoundCheckParams") :=
  .shared rfl (fun _ allows => allows)
    (.open_ Within.double.optional.describe <| .open_ Within.longWord.optional.describe .nil)
    (by decide)

theorem mirrors_systemInfo {f : Row [SystemProbe] → Measure} :
    Mirrors .condition "system-info" (Record.make Measure.system? f) (tagged "system-info" "SystemInfoParams") :=
  .shared rfl (fun _ allows => allows) (.required (within_probe.chosen (by decide)) .nil)
    (by decide)

/-- The alternatives of a condition. -/
def measures : List Keywords :=
  [tagged "image-match" "ImageMatchParams", tagged "sound-check" "SoundCheckParams",
    tagged "system-info" "SystemInfoParams"]

theorem mirrors_measure {kind : String} {i : Nat} {variant : Decoder Measure}
    (listed : (kind, i) ∈ Measure.variants.names) (ordered : Measure.variants.ordered[i]? = some variant) :
    ∃ c, measures[i]? = some c ∧ Mirrors .condition kind variant c := by
  simp only [Measure.variants, List.mem_cons, Prod.mk.injEq, List.not_mem_nil, or_false] at listed
  rcases listed with ⟨rfl, rfl⟩ | ⟨rfl, rfl⟩ | ⟨rfl, rfl⟩ <;> cases ordered
  · exact ⟨_, rfl, (mirrors_imageCheck rfl).map⟩
  · exact ⟨_, rfl, mirrors_soundCheck.map⟩
  · exact ⟨_, rfl, mirrors_systemInfo⟩

theorem within_condition : Within (ObjectForm Draft.Named .condition) Condition.decoder condition := by
  intro s d c written decoded
  obtain rfl | ⟨members, cut, rfl, writes⟩ := written.of_model rfl
  · cases decoded
  obtain ⟨supplied, measured⟩ := Condition.of_decoder decoded
  have chooses (tag : Option Draft) :
      "type" ∈ Form.condition.choices tag ∧ "operator" ∈ Form.condition.choices tag := by
    simp [Form.choices, Form.known, Member.plain, Member.optional]
  have describes (tag : Option Draft) : Describes (Form.condition.Writes tag) Condition.expectation
      [⟨"operator", optional (reference "CompareOp"), false⟩, ⟨"value", optional double, false⟩] :=
    .open_ (within_comparison.chosen (chooses tag).2).optional <| .open_ Within.double.optional .nil
  have alternatives {names : List String} :
      Meets names [("oneOf", .list (measures.map .object))] (.object members cut) :=
    meets_union (f := fun own => own ∉ [some "operator", some "value"]) (by decide) (by decide)
      (fun listed _ => mirrors_measure listed) (fun tag => (chooses tag).1) writes rfl (by decide)
      (by simp [outer]) measured
  have expectation {names : List String} : Meets names _ (.object members cut) :=
    meets_object ((describes _).fulfils writes supplied)
  exact allows_describe.mpr (allows_iff.mpr (meets_append.mpr ⟨expectation, alternatives⟩))

/-! ## Actions -/

theorem within_button : Within Draft.Named MouseButton.decoder (reference "MouseButton") :=
  Within.choice.describe.reference rfl

theorem within_level : Within Draft.Named LogLevel.decoder (reference "LogLevel") :=
  Within.choice.describe.reference rfl

/-- The alternatives of an action stand in the order of the variants, which may own actions. -/
theorem mirrors_action {action : Decoder Action}
    (within : Within (ObjectForm Draft.Named .action) action (reference "Action")) {kind : String} {i : Nat}
    {variant : Decoder Action} (listed : (kind, i) ∈ (Action.variants action).names) (original : kind ≠ "tap")
    (ordered : (Action.variants action).ordered[i]? = some variant) :
    ∃ c, variants[i]? = some c ∧ Mirrors .action kind variant c := by
  simp only [Action.variants, Action.tags, List.mem_cons, Prod.mk.injEq, List.not_mem_nil, or_false] at listed
  have conditional {tag : Option Draft} (same : Form.action.ofMember tag (some "condition") = .condition) :
      Within (Form.action.Writes tag "condition") (.optional Condition.decoder) (optional (reference "Condition")) :=
    (within_condition.reference rfl).optional.formed same
  rcases listed with ⟨rfl, rfl⟩ | ⟨rfl, rfl⟩ | ⟨rfl, rfl⟩ | ⟨rfl, rfl⟩ | ⟨rfl, rfl⟩ | ⟨rfl, rfl⟩ | ⟨rfl, rfl⟩ |
    ⟨rfl, rfl⟩ | ⟨rfl, rfl⟩ | ⟨rfl, rfl⟩ | ⟨rfl, rfl⟩ | ⟨rfl, rfl⟩ | ⟨rfl, rfl⟩ | ⟨rfl, rfl⟩ | ⟨rfl, rfl⟩ <;>
    cases ordered
  -- what owns actions
  · exact ⟨_, rfl, .describe <| .own (.open_ (conditional rfl).describe <|
      .open_ (within.actions.withDefault.formed rfl) <|
      .open_ (within.actions.optional.formed rfl) .nil) (by decide)⟩
  · exact ⟨_, rfl, .describe <| .own (.open_ (conditional rfl) <|
      .open_ (within.actions.withDefault.formed rfl) <| .open_ Within.word.optional .nil) (by decide)⟩
  · exact ⟨_, rfl, .describe <| .own (.required .word <|
      .open_ (within.actions.withDefault.formed rfl) .nil) (by decide)⟩
  -- what the engine runs itself
  · exact ⟨_, rfl, .describe <| .own (.open_ Within.string.optional .nil) (by decide)⟩
  · exact ⟨_, rfl, .describe <| .own (.open_ Within.string.optional .nil) (by decide)⟩
  · exact ⟨_, rfl, .describe <| .own (.open_ Within.string.optional .nil) (by decide)⟩
  -- tasks
  · exact ⟨_, rfl, .describe <| .map <| .own (.required .integer <| .required .integer <|
      .open_ (within_button.withDefault.chosen (by decide)) <|
      .open_ Within.byte.optional.describe .nil) (by decide)⟩
  -- no alternative asks for the other name of a click
  · exact absurd rfl original
  · exact ⟨_, rfl, .describe <| .map <| .own (.required .integer <| .required .integer <| .required .integer <|
      .required .integer <| .open_ Within.longWord.optional .nil) (by decide)⟩
  · exact ⟨_, rfl, .describe <| .map <| .own (.required .string .nil) (by decide)⟩
  · exact ⟨_, rfl, .describe <| .map <| .own (.required .string .nil) (by decide)⟩
  · exact ⟨_, rfl, .describe <| .map <| .own (.required .longWord <| .open_ Within.longWord.optional .nil) (by decide)⟩
  · exact ⟨_, rfl, .map <| .own (.required (within_level.chosen (by decide)) <|
      .required .string .nil) (by decide)⟩
  · exact ⟨_, rfl, .describe <| .map <| .map mirrors_soundCheck⟩
  · exact ⟨_, rfl, .describe <| .map <| .map (mirrors_imageCheck rfl)⟩

/-- Actions are within the schema however deep they may be nested. -/
theorem within_nested (depth : Nat) :
    Within (ObjectForm Draft.Named .action) (Action.nested depth) (reference "Action") := by
  induction depth with
  | zero => exact fun s d a _ decoded => nomatch decoded
  | succ depth ih =>
    have within : Within (ObjectForm Draft.Named .action) (Action.nested (depth + 1)) action := by
      intro s d a written decoded
      obtain rfl | ⟨members, cut, rfl, writes⟩ := written.of_model rfl
      · cases decoded
      have chooses (tag : Option Draft) : "type" ∈ Form.action.choices tag := by
        simp [Form.choices, Form.known, Member.plain]
      have every : members = members.filter fun _ => true := (List.filter_true members).symm
      exact allows_describe.mpr <| allows_iff.mpr <| meets_union (f := fun _ => true) (by decide) (by decide)
        (mirrors_action ih) chooses writes every rfl (fun _ _ => rfl) decoded
    exact within.reference rfl

theorem within_action : Within (ObjectForm Draft.Named .action) Action.decoder (reference "Action") :=
  fun s => within_nested (s.room + 1) s

/-! ## Scenarios -/

theorem within_scenario : Within (ObjectForm Draft.Named .scenario) Scenario.decoder scenario :=
  .record rfl (fun _ => .open_ Within.string.optional.describe <|
    .open_ (within_action.actions.withDefault.describe.formed rfl) <|
    .open_ ((within_templateFile.reference rfl).templates.withDefault.describe.formed rfl) <|
    .open_ ((within_runOptions.reference rfl).withDefault.formed rfl) <|
    .open_ ((within_cacheSettings.reference rfl).withDefault.formed rfl) <|
    .open_ Within.value.withDefault.describe .nil) (by decide)

/-- The document says nothing else of a scenario. -/
theorem valid_of_allows {d : Draft} (allows : Allows scenario d) : Valid d := by
  have describing {v w : Value} {names : List String} : Meets names [("$schema", v), ("title", w)] d :=
    show Meets _ ([("$schema", v)] ++ [("title", w)]) _ from
      meets_append.mpr ⟨meets_describing rfl, meets_describing rfl⟩
  have described : Allows (describe scenarioText scenario) d := allows_describe.mpr allows
  show Allows ([("$schema", _), ("title", _)] ++ describe scenarioText scenario ++ [("$defs", _)]) d
  exact allows_iff.mpr (meets_append.mpr ⟨meets_append.mpr ⟨describing, allows_iff.mp described⟩, meets_describing rfl⟩)

theorem not_valid_of_judge {d : Draft} {depth : Nat} (refused : judge document depth document d = some false) :
    ¬ Valid d :=
  fun valid => not_refuses_of_allows valid ⟨depth, refused⟩

end Screenplay.Schema

namespace Screenplay.Scenario
open Json

/-- What a text says, as far as it is JSON. -/
def draft (text : String) : Draft := (Manuscript.ofGlyphs (Glyph.ofString text)).root

theorem decoder_of_loaded {text : String} {s : Scenario} (loaded : Scenario.ofString text = .ok s) :
    ∃ s', decoder ⟨maximalNesting, .text⟩ (draft text) = .ok s' := by
  rw [ofString, ofGlyphs] at loaded
  split at loaded
  · cases loaded
  · rename_i s' decoded
    obtain ⟨s', decoded, -⟩ := bind_ok.mp decoded
    exact ⟨s', decoded⟩

/-- The published schema allows what the loader accepts, if it is in object form and its choices are
written as names. -/
theorem valid_of_loaded {text : String} {s : Scenario} (loaded : Scenario.ofString text = .ok s)
    (written : ObjectForm Draft.Named .scenario (draft text)) : Schema.Valid (draft text) := by
  obtain ⟨s', decoded⟩ := decoder_of_loaded loaded
  exact Schema.valid_of_allows (Schema.within_scenario _ _ s' written decoded)

private def spelled (text : String) : Draft := .text (some text)

private def number (n : Int) : Draft := .number (some (.whole n))

/-- A scenario of one action. -/
private def single (d : Draft) : Draft := .object [(some "actions", .list [d] none)] none

theorem written_single {chosen : Draft → Prop} {d : Draft} (written : ObjectForm chosen .action d) :
    ObjectForm chosen .scenario (single d) := by
  refine .model rfl (fun m _ choice => nomatch choice) ?_
  simp only [List.forall_mem_cons]
  exact ⟨.actions (by simpa using written), nofun⟩

/-- A skip behind a condition. -/
def guardedText : String :=
  "\x7b\"actions\":[\x7b\"type\":\"if\",\"condition\":\x7b\"type\":\"system-info\",\"probe\":\"cursor-x\"\x7d," ++
    "\"thenActions\":[\x7b\"type\":\"skip\"\x7d]\x7d]\x7d"

def guardDraft : Draft := .object [(some "type", spelled "system-info"), (some "probe", spelled "cursor-x")] none

def skipDraft : Draft := .object [(some "type", spelled "skip")] none

def branchDraft : Draft :=
  .object [(some "type", spelled "if"), (some "condition", guardDraft), (some "thenActions", .list [skipDraft] none)]
    none

theorem guarded_reads : Manuscript.ofGlyphs (Glyph.ofString guardedText) = ⟨single branchDraft, false⟩ := by
  cbv

theorem guarded_loaded : Scenario.ofString guardedText = .ok { actions :=
    [.branch (some ⟨.system .cursorX, none, none⟩) [.skip none] none] } := by
  rw [ofString, ofGlyphs, guarded_reads]
  rfl

theorem guarded_written : ObjectForm Draft.Named .scenario (draft guardedText) := by
  have guard : ObjectForm Draft.Named .condition guardDraft :=
    .model rfl (by decide) (by
      simp only [List.forall_mem_cons]
      exact ⟨.foreign _, .foreign _, nofun⟩)
  have skip : ObjectForm Draft.Named .action skipDraft :=
    .model rfl (by decide) (by
      simp only [List.forall_mem_cons]
      exact ⟨.foreign _, nofun⟩)
  have branch : ObjectForm Draft.Named .action branchDraft :=
    .model rfl (by decide) (by
      simp only [List.forall_mem_cons]
      exact ⟨.foreign _, guard, .actions (by simpa using skip), nofun⟩)
  rw [draft, guarded_reads]
  exact written_single branch

theorem valid_of_loaded_guarded : (∃ s, Scenario.ofString guardedText = .ok s) ∧
    ObjectForm Draft.Named .scenario (draft guardedText) ∧ Schema.Valid (draft guardedText) :=
  ⟨⟨_, guarded_loaded⟩, guarded_written, valid_of_loaded guarded_loaded guarded_written⟩

/-! ## Choices that are no names -/

/-- A level that is the only member of an object. -/
def wrappedText : String :=
  "\x7b\"actions\":[\x7b\"type\":\"log\",\"level\":\x7b\"info\":null\x7d,\"message\":\"m\"\x7d]\x7d"

/-- A measurement whose tag is its position. -/
def countedText : String :=
  "\x7b\"actions\":[\x7b\"type\":\"if\",\"condition\":\x7b\"type\":1\x7d\x7d]\x7d"

def wrappedDraft : Draft :=
  .object [(some "type", spelled "log"), (some "level", .object [(some "info", .null)] none),
    (some "message", spelled "m")] none

def countedDraft : Draft :=
  .object [(some "type", spelled "if"), (some "condition", .object [(some "type", number 1)] none)] none

theorem wrapped_reads : Manuscript.ofGlyphs (Glyph.ofString wrappedText) = ⟨single wrappedDraft, false⟩ := by
  cbv

theorem counted_reads : Manuscript.ofGlyphs (Glyph.ofString countedText) = ⟨single countedDraft, false⟩ := by
  cbv

/-- The loader accepts them, and they are in object form, but the schema does not allow them. -/
theorem not_valid_of_loaded :
    ((∃ s, Scenario.ofString wrappedText = .ok s) ∧ ObjectForm (fun _ => True) .scenario (draft wrappedText) ∧
      ¬ Schema.Valid (draft wrappedText)) ∧
    ((∃ s, Scenario.ofString countedText = .ok s) ∧ ObjectForm (fun _ => True) .scenario (draft countedText) ∧
      ¬ Schema.Valid (draft countedText)) := by
  rw [ofString, ofString, draft, draft, ofGlyphs, ofGlyphs, wrapped_reads, counted_reads]
  refine ⟨⟨⟨{ actions := [.task (.log .info "m")] }, rfl⟩, written_single ?_, ?_⟩,
    ⟨⟨{ actions := [.branch (some ⟨.sound ⟨none, none⟩, none, none⟩) [] none] }, rfl⟩, written_single ?_, ?_⟩⟩
  · refine .model rfl (fun _ _ _ => trivial) ?_
    simp only [List.forall_mem_cons]
    exact ⟨.foreign _, .foreign _, .foreign _, nofun⟩
  · exact Schema.not_valid_of_judge (show Schema.judge _ 12 _ _ = _ by decide)
  · refine .model rfl (fun _ _ _ => trivial) ?_
    simp only [List.forall_mem_cons]
    refine ⟨.foreign _, .model rfl (fun _ _ _ => trivial) ?_, nofun⟩
    simp only [List.forall_mem_cons]
    exact ⟨.foreign _, nofun⟩
  · exact Schema.not_valid_of_judge (show Schema.judge _ 12 _ _ = _ by decide)

end Screenplay.Scenario
