import Mathlib
import Screenplay.Proofs.Editing
import Screenplay.Proofs.Spelling
import Screenplay.Scenario.Load

/-!
Edits that should not matter do not (`Edit.agrees`): whatever reads a place of a document reads the
same before and after, or nothing both times. The induction is on the edit, for all decoders at once.
-/
namespace Screenplay
open Json Member
open Draft (find Distinct Keeps)
open Record (Fits)

variable {α : Type} {dec : Decoder α} {p : Site} {form : Form} {d d' : Draft} {name : Option String}
  {members members' rest : List (Option String × Draft)} {room : Nat} {origin : Origin}

/-! ## Objects that have a model -/

/-- The members of an object that has a model, before and after an edit. -/
structure Retouched (p : Site) (members members' : List (Option String × Draft)) : Prop where
  distinct : Distinct members
  distinct' : Distinct members'
  alike : ∀ m ∈ p.form.known (find members "type"),
    Alike (p.room - 1) m (find members m.name) (find members' m.name)
  fits : ∀ names, Fits names members ↔ Fits names members'
  keeps : p.holds = true → ∀ f : Option String → Bool,
    (Keeps (p.room - 1) (members.filter fun m => f m.1) ↔
      Keeps (p.room - 1) (members'.filter fun m => f m.1))

theorem Retouched.agrees (retouched : Retouched p members members') (model : p.form.isModel = true)
    (reads : p.form.Reads dec) : dec.Agrees ⟨p.room, origin⟩ (.object members none) (.object members' none) := by
  obtain ⟨form, held, room⟩ := p
  obtain ⟨distinct, distinct', alike, fits, keeps⟩ := retouched
  have union {depth : Nat} (same : form = .action) :
      (Action.nested depth).Agrees ⟨room, origin⟩ (.object members none) (.object members' none) := by
    subst same
    rcases depth with _ | depth
    · rfl
    rcases room with _ | room
    · rfl
    exact (Action.tagged .nested).agrees distinct distinct' alike
      (keeps (by simp [Site.holds]) fun name => decide (name ≠ some "type"))
  have record {β : Type} {dec : Decoder β} (looks : ReadsBy (form.known (find members "type")) dec)
      (shut : ∀ members, dec ⟨0, origin⟩ (.object members none) = .error .malformed) :
      dec.Agrees ⟨room, origin⟩ (.object members none) (.object members' none) := by
    rcases room with _ | room
    · rw [Decoder.Agrees, shut, shut]
    · exact looks.agrees distinct distinct' alike fits
  cases reads with
  | flat | choice | device | actions | templates => cases model
  | nested => exact union rfl
  | action =>
    have steps (d : Draft) : Action.decoder ⟨room, origin⟩ d = Action.nested (room + 1) ⟨room, origin⟩ d := rfl
    rw [Decoder.Agrees, steps, steps]
    exact union rfl
  | condition =>
    rcases room with _ | room
    · rfl
    exact Condition.agrees distinct distinct' alike
      (keeps (by simp [Site.holds]) fun name => decide (name ∉ [some "operator", some "value"]))
  | options => exact record RunOptions.reads fun _ => rfl
  | matcher => exact record CacheSettings.reads fun _ => rfl
  | template => exact record TemplateFile.reads fun _ => rfl
  | point => exact record Point.reads fun _ => rfl
  | scenario => exact record Scenario.reads fun _ => rfl

/-- No two known members have the same name. -/
theorem Form.known_declared (form : Form) (tag : Option Draft) :
    ((form.known tag).map Member.name).Nodup := by
  have listed {names : List (String × Nat)} {known : List (List Member)} (first : List Member)
      (declared : ∀ members ∈ [] :: known, ((first ++ members).map Member.name).Nodup) :
      ((first ++ taggedMembers names known tag).map Member.name).Nodup :=
    declared _ (taggedMembers_listed ..)
  cases form with
  | action => exact listed [plain "type"] (by decide)
  | condition => exact listed [plain "type", optional "operator", optional "value"] (by decide)
  | _ => simp [known, plain, Member.optional]

theorem Form.eq_of_known {tag : Option Draft} {m m' : Member} (known : m ∈ form.known tag)
    (known' : m' ∈ form.known tag) (same : m.name = m'.name) : m = m' :=
  List.inj_on_of_nodup_map (form.known_declared tag) known known' same

theorem Form.isModel_of_known {tag : Option Draft} {m : Member} (known : m ∈ form.known tag) :
    form.isModel = true := by
  cases form <;> first | rfl | cases known

theorem Form.ofMember_of_known {tag : Option Draft} {m : Member} (known : m ∈ form.known tag) :
    form.ofMember tag (some m.name) = m.form := by
  have model : form ≠ .templates := fun same => by subst same; cases known
  have found : (form.known tag).find? (fun m' => some m'.name = some m.name) = some m := by
    cases first : (form.known tag).find? (fun m' => some m'.name = some m.name) with
    | none => exact absurd (decide_eq_true rfl) (List.find?_eq_none.mp first m known)
    | some m' =>
      have same : m'.name = m.name := by simpa using List.find?_some first
      rw [Form.eq_of_known (List.mem_of_find?_eq_some first) known same]
  rw [ofMember, if_neg model, found]
  rfl

/-- The members of a name after they changed their places. -/
theorem Json.Draft.find_perm (distinct : Distinct members) (perm : members.Perm members') :
    find members' = find members := by
  have distinct' : Distinct members' := (perm.map Prod.fst).nodup_iff.mp distinct
  funext name
  ext d
  rw [find_eq_some_iff distinct, find_eq_some_iff distinct', perm.mem_iff]

namespace Retouched

theorem reorder (distinct : Distinct members) (perm : members.Perm members') : Retouched p members members' where
  distinct := distinct
  distinct' := (perm.map Prod.fst).nodup_iff.mp distinct
  alike m _ := by rw [Draft.find_perm distinct perm]; exact .same _
  fits names := ⟨fun fits m inside => fits m (perm.mem_iff.mpr inside),
    fun fits m inside => fits m (perm.mem_iff.mp inside)⟩
  keeps _ f := ⟨fun keeps m inside => keeps m ((perm.filter _).mem_iff.mpr inside),
    fun keeps m inside => keeps m ((perm.filter _).mem_iff.mp inside)⟩

/-- What comes in front can be passed over, and kept where it has to be. -/
theorem added {name : String} (distinct : Distinct ((some name, d) :: members))
    (skipped : d.skip = .ok ()) (kept : p.holds = true → d.Kept (p.room - 1))
    (known : ∀ m ∈ p.form.known (find members "type"), m.name = name → m.isOptional = true ∧ d = .null) :
    Retouched p members ((some name, d) :: members) where
  distinct := distinct.tail
  distinct' := distinct
  alike m member := by
    by_cases same : m.name = name
    · obtain ⟨optional, rfl⟩ := known m member same
      rw [same, Draft.find_cons_self, distinct.find_tail]
      exact .absent optional
    · rw [Draft.find_cons_other same]
      exact .same _
  fits names := by
    rw [Fits, Fits, List.forall_mem_cons]
    exact (and_iff_right ⟨name, rfl, fun _ => skipped⟩).symm
  keeps holds f := by
    rw [List.filter_cons]
    split
    · rw [Keeps, Keeps, List.forall_mem_cons]
      exact (and_iff_right ⟨rfl, kept holds⟩).symm
    · rfl

/-- A member changed in a way that no reader of it sees. -/
theorem changed (distinct : Distinct ((name, d) :: rest)) (edit : Edit Site.Readable
      (p.inside (p.form.ofMember (find ((name, d) :: rest) "type") name)) d d')
    (agrees : ∀ {α : Type} {dec : Decoder α}, (p.form.ofMember (find ((name, d) :: rest) "type") name).Reads dec →
      ∀ origin, dec.Agrees ⟨p.room - 1, origin⟩ d d') :
    Retouched p ((name, d) :: rest) ((name, d') :: rest) where
  distinct := distinct
  distinct' := distinct
  alike m member := by
    by_cases same : name = some m.name
    · subst same
      rw [Draft.find_cons_self, Draft.find_cons_self]
      rw [Form.ofMember_of_known member] at agrees
      exact .changed edit.solid.1 edit.solid.2 agrees
    · rw [Draft.find_cons_unlike same, Draft.find_cons_unlike same]
      exact .same _
  fits names := by
    rw [Fits, Fits, List.forall_mem_cons, List.forall_mem_cons, edit.skip_iff]
  keeps holds f := by
    have kept : d.Kept (p.room - 1) ↔ d'.Kept (p.room - 1) := edit.kept_iff holds
    rw [List.filter_cons, List.filter_cons]
    split
    · rw [Keeps, Keeps, List.forall_mem_cons, List.forall_mem_cons, kept]
    · rfl

end Retouched

/-! ## Objects of arbitrary names, and lists -/

namespace Json.Decoder

variable {names : List (String × α)} {s : Setting}

theorem nothing_flat : Flat nothing := by
  intro s d full
  cases d with
  | list => rfl
  | object members cut =>
    cases members with
    | nil => cases full
    | cons => rfl
  | _ => cases full

/-- A name with content is none. -/
theorem choice_full (full : d.Full) : (choice names s (.object [(name, d)] none)).toOption = none := by
  have refused (s : Setting) (name : String) :
      (named names name >>= fun a => nothing s d >>= fun _ => (.ok a : Except Fault α)).toOption = none := by
    cases named names name with
    | error e => rfl
    | ok a =>
      show (nothing s d >>= fun _ => (.ok a : Except Fault α)).toOption = none
      rw [toOption_bind, nothing_flat s d full]
      rfl
  obtain ⟨room, origin⟩ := s
  rcases name with _ | name
  · cases origin <;> rcases room with _ | room <;> rfl
  cases origin with
  | text =>
    rcases room with _ | room
    · rfl
    · exact refused ⟨room, .text⟩ name
  | value => exact refused ⟨room, .value⟩ name
  | member => exact refused ⟨room, .member⟩ name

/-- Two names are none. -/
theorem choice_crowded {m m' : Option String × Draft} :
    (choice names s (.object (m :: m' :: rest) none)).toOption = none := by
  obtain ⟨room, origin⟩ := s
  obtain ⟨_ | name, d⟩ := m
  · cases origin <;> rcases room with _ | room <;> rfl
  cases origin with
  | text =>
    rcases room with _ | room
    · rfl
    show (named names name >>= fun a => nothing ⟨room, .text⟩ d >>= fun _ =>
      (.error .malformed : Except Fault α)).toOption = none
    cases named names name with
    | error e => rfl
    | ok a => cases nothing ⟨room, .text⟩ d <;> rfl
  | value => rfl
  | member => rfl

end Json.Decoder

/-- What means nothing to a scenario stays as it is, or is full before and after. -/
theorem Edit.foreign {may : Site → Draft → Prop} (edit : Edit may p d d') (foreign : p.form = .foreign) :
    d = d' ∨ d.Full ∧ d'.Full := by
  cases edit with
  | reorder distinct perm =>
    rename_i members members'
    rcases members with _ | _
    · exact .inl (by rw [perm.nil_eq])
    rcases members' with _ | _
    · exact absurd perm List.not_perm_cons_nil
    · exact .inr ⟨trivial, trivial⟩
  | unknown distinct model => rw [foreign] at model; cases model
  | null distinct known => rw [foreign] at known; cases known
  | member => exact .inr ⟨trivial, trivial⟩
  | item => exact .inr ⟨trivial, trivial⟩

/-- Where names are arbitrary their order does not matter. -/
theorem Form.Reads.reorder (reads : form.Reads dec) (loose : form.isModel = false) (distinct : Distinct members)
    (perm : members.Perm members') : dec.Agrees ⟨room, origin⟩ (.object members none) (.object members' none) := by
  have edit : Edit Site.Spelled ⟨.foreign, false, room⟩ (.object members none) (.object members' none) :=
    .reorder distinct perm
  cases reads with
  | flat flat =>
    rcases edit.foreign rfl with same | ⟨full, full'⟩
    · rw [same]; rfl
    · rw [Decoder.Agrees, flat _ _ full, flat _ _ full']
  | choice =>
    rcases members with _ | ⟨m, _ | ⟨m', rest⟩⟩
    · rw [perm.nil_eq]; rfl
    · rw [List.perm_singleton.mp perm.symm]; rfl
    · rcases members' with _ | ⟨n, _ | ⟨n', rest'⟩⟩
      · exact absurd perm.length_eq (by simp)
      · exact absurd perm.length_eq (by simp)
      · rw [Decoder.Agrees, Decoder.choice_crowded, Decoder.choice_crowded]
  | device =>
    rcases room with _ | room
    · rfl
    · rw [Decoder.Agrees, Decoder.normal_object, Decoder.normal_object, Draft.tabulate_perm distinct perm]
  | actions => rfl
  | templates =>
    rcases room with _ | room
    · rfl
    · rw [Decoder.Agrees, Decoder.table_object, Decoder.table_object, Draft.tabulate_perm distinct perm]
  | _ => cases loose

/-- An edit inside a member shows only in what is read of the member. -/
theorem Form.Reads.changed {may : Site → Draft → Prop} {tag : Option Draft} (reads : form.Reads dec)
    (loose : form.isModel = false) (edit : form = .foreign → ∃ p : Site, p.form = .foreign ∧ Edit may p d d')
    (agrees : ∀ {α : Type} {dec : Decoder α}, (form.ofMember tag name).Reads dec →
      ∀ origin, dec.Agrees ⟨room - 1, origin⟩ d d') :
    dec.Agrees ⟨room, origin⟩ (.object ((name, d) :: rest) none) (.object ((name, d') :: rest) none) := by
  cases reads with
  | flat flat => rw [Decoder.Agrees, flat _ (.object (_ :: _) _) trivial, flat _ (.object (_ :: _) _) trivial]
  | choice =>
    rcases rest with _ | ⟨m', rest⟩
    · obtain ⟨p, foreign, edit⟩ := edit rfl
      rcases edit.foreign foreign with same | ⟨full, full'⟩
      · rw [same]; rfl
      · rw [Decoder.Agrees, Decoder.choice_full full, Decoder.choice_full full']
    · rw [Decoder.Agrees, Decoder.choice_crowded, Decoder.choice_crowded]
  | device =>
    rcases room with _ | room
    · rfl
    · rw [Decoder.Agrees, Decoder.normal_object, Decoder.normal_object]
      exact congrArg _ (Draft.tabulate_cons_congr (agrees .device origin))
  | actions => rfl
  | templates =>
    rcases room with _ | room
    · rfl
    · rw [Decoder.Agrees, Decoder.table_object, Decoder.table_object]
      exact Draft.tabulate_cons_congr (agrees .template origin)
  | _ => cases loose

/-- An edit inside an item shows only in what is read of the item. -/
theorem Form.Reads.item {before after : List Draft} {inner : Form} (reads : form.Reads dec)
    (items : form.ofItem = some inner)
    (agrees : ∀ {α : Type} {dec : Decoder α}, inner.Reads dec →
      ∀ origin, dec.Agrees ⟨room - 1, origin⟩ d d') :
    dec.Agrees ⟨room, origin⟩ (.list (before ++ d :: after) none) (.list (before ++ d' :: after) none) := by
  cases reads with
  | flat flat => rw [Decoder.Agrees, flat _ (.list _ _) trivial, flat _ (.list _ _) trivial]
  | choice => cases origin <;> rfl
  | device =>
    cases items
    rcases room with _ | room
    · rfl
    · rw [Decoder.Agrees, Decoder.normal_list, Decoder.normal_list]
      exact congrArg _ (Decoder.mapM_item_congr (agrees .device origin))
  | actions reads =>
    cases items
    rcases room with _ | room
    · rfl
    · rw [Decoder.Agrees, Decoder.list_list, Decoder.list_list]
      exact Decoder.mapM_item_congr (agrees reads origin)
  | _ => cases items

/-! ## Documents -/

/-- An edit is not seen by anything that reads its place. -/
theorem Edit.agrees (edit : Edit Site.Readable p d d') (reads : p.form.Reads dec) :
    dec.Agrees ⟨p.room, origin⟩ d d' := by
  induction edit generalizing α dec origin with
  | @reorder p members members' distinct perm =>
    cases model : p.form.isModel with
    | true => exact (Retouched.reorder distinct perm).agrees model reads
    | false => exact reads.reorder model distinct perm
  | unknown distinct model new allowed =>
    refine (Retouched.added distinct allowed.1 allowed.2 fun m member same => ?_).agrees model reads
    exact absurd same (new m member)
  | null distinct known optional =>
    refine (Retouched.added distinct rfl (fun _ => ⟨.null, rfl⟩) fun m member same => ?_).agrees
      (Form.isModel_of_known known) reads
    rw [Form.eq_of_known member known same]
    exact ⟨optional, rfl⟩
  | @member p name d d' rest distinct edit ih =>
    cases model : p.form.isModel with
    | true => exact (Retouched.changed distinct edit fun reads origin => ih reads).agrees model reads
    | false =>
      refine reads.changed model (fun foreign => ⟨_, ?_, edit⟩) fun reads origin => ih reads
      rw [foreign]
      rfl
  | item items edit ih => exact reads.item items fun reads origin => ih reads

namespace Scenario

/-- The place of a whole document. -/
def document : Site := ⟨.scenario, false, maximalNesting⟩

theorem agrees_of_edits (edits : Relation.EqvGen (Edit Site.Readable document) d d') :
    decoder.Agrees ⟨maximalNesting, .text⟩ d d' := by
  induction edits with
  | rel d d' edit => exact edit.agrees .scenario
  | refl d => rfl
  | symm d d' _ ih => exact ih.symm
  | trans d₁ d₂ d₃ _ _ ih ih' => exact ih.trans ih'

theorem decode_whole : Manuscript.decode decoder ⟨d, false⟩ = decoder ⟨maximalNesting, .text⟩ d := by
  rw [Manuscript.decode]
  cases decoder ⟨maximalNesting, .text⟩ d <;> rfl

theorem ofGlyphs_toOption {context : String} {text : List Glyph} : (ofGlyphs context text).toOption =
    ((Manuscript.ofGlyphs text).decode decoder).toOption.bind fun s => s.validate.toOption.map fun _ => s := by
  rw [ofGlyphs]
  cases (Manuscript.ofGlyphs text).decode decoder with
  | error fault => rfl
  | ok s => cases valid : s.validate <;> simp [Except.toOption, valid]

/-- Texts that differ by edits read as the same scenario, or both are refused. -/
theorem parse_of_edits {text text' : String}
    (read : Manuscript.ofGlyphs (Glyph.ofString text) = ⟨d, false⟩)
    (read' : Manuscript.ofGlyphs (Glyph.ofString text') = ⟨d', false⟩)
    (edits : Relation.EqvGen (Edit Site.Readable document) d d') :
    ((Manuscript.ofGlyphs (Glyph.ofString text)).decode decoder).toOption =
        ((Manuscript.ofGlyphs (Glyph.ofString text')).decode decoder).toOption ∧
      (Scenario.ofString text).toOption = (Scenario.ofString text').toOption := by
  have same : ((Manuscript.ofGlyphs (Glyph.ofString text)).decode decoder).toOption =
      ((Manuscript.ofGlyphs (Glyph.ofString text')).decode decoder).toOption := by
    rw [read, read', decode_whole, decode_whole]
    exact agrees_of_edits edits
  refine ⟨same, ?_⟩
  rw [Scenario.ofString, Scenario.ofString, ofGlyphs_toOption, ofGlyphs_toOption, same]

/-- A wait, and a device. -/
def briefText : String :=
  "\x7b\"actions\":[\x7b\"type\":\"wait\",\"ms\":5\x7d],\"device\":\x7b\"b\":1,\"a\":[2]\x7d\x7d"

/-- The same with other members and in another order. -/
def fullText : String :=
  "\x7b\"note\":[1],\"name\":null,\"device\":\x7b\"a\":[2],\"b\":1\x7d,\"actions\":" ++
    "[\x7b\"later\":true,\"maxMs\":null,\"ms\":5,\"type\":\"wait\"\x7d]\x7d"

private def whole (n : Int) : Draft := .number (some (.whole n))

def briefDraft : Draft :=
  .object [(some "actions", .list [.object [(some "type", .text (some "wait")), (some "ms", whole 5)] none] none),
    (some "device", .object [(some "b", whole 1), (some "a", .list [whole 2] none)] none)] none

def fullDraft : Draft :=
  .object [(some "note", .list [whole 1] none), (some "name", .null),
    (some "device", .object [(some "a", .list [whole 2] none), (some "b", whole 1)] none),
    (some "actions", .list [.object [(some "later", .bool true), (some "maxMs", .null), (some "ms", whole 5),
      (some "type", .text (some "wait"))] none] none)] none

theorem brief_reads : Manuscript.ofGlyphs (Glyph.ofString briefText) = ⟨briefDraft, false⟩ := by
  cbv

theorem full_reads : Manuscript.ofGlyphs (Glyph.ofString fullText) = ⟨fullDraft, false⟩ := by
  cbv

/-- The edits that lead from one to the other, those inside the action first. -/
theorem brief_edits : Relation.EqvGen (Edit Site.Readable document) briefDraft fullDraft := by
  have inside {rest members members' : List (Option String × Draft)}
      (distinct : Distinct ((some "actions", .list [.object members none] none) :: rest))
      (edit : Edit Site.Readable ((document.inside .actions).inside .action) (.object members none)
        (.object members' none)) :
      Edit Site.Readable document
        (.object ((some "actions", .list [.object members none] none) :: rest) none)
        (.object ((some "actions", .list [.object members' none] none) :: rest) none) :=
    .member distinct (@Edit.item _ _ _ [] _ _ [] rfl edit)
  refine .trans _ _ _ (.rel _ _ (inside (by decide) (.reorder (by decide) (.swap ..)))) ?_
  refine .trans _ _ _ (.rel _ _ (inside (by decide) (@Edit.null _ _ _ (Member.optional "maxMs") (by decide)
    (by decide) rfl))) ?_
  refine .trans _ _ _ (.rel _ _ (inside (by decide) (@Edit.unknown _ _ _ "later" (.bool true) (by decide) rfl
    (by decide) ⟨rfl, fun _ => ⟨.bool true, rfl⟩⟩))) ?_
  refine .trans _ _ _ (.rel _ _ (.reorder (by decide) (.swap ..))) ?_
  refine .trans _ _ _ (.rel _ _ (.member (by decide) (.reorder (by decide) (.swap ..)))) ?_
  refine .trans _ _ _ (.rel _ _ (@Edit.null _ _ _ (Member.optional "name") (by decide) (by decide) rfl)) ?_
  exact .rel _ _ (.unknown (by decide) rfl (by decide) ⟨rfl, nofun⟩)

theorem parse_of_edits_wait : (Manuscript.ofGlyphs (Glyph.ofString briefText) = ⟨briefDraft, false⟩ ∧
      Manuscript.ofGlyphs (Glyph.ofString fullText) = ⟨fullDraft, false⟩ ∧
      Relation.EqvGen (Edit Site.Readable document) briefDraft fullDraft) ∧
    (((Manuscript.ofGlyphs (Glyph.ofString briefText)).decode decoder).toOption =
        ((Manuscript.ofGlyphs (Glyph.ofString fullText)).decode decoder).toOption ∧
      (Scenario.ofString briefText).toOption = (Scenario.ofString fullText).toOption) ∧
    ((Manuscript.ofGlyphs (Glyph.ofString briefText)).decode decoder).toOption.isSome = true := by
  refine ⟨⟨brief_reads, full_reads, brief_edits⟩, parse_of_edits brief_reads full_reads brief_edits, ?_⟩
  rw [brief_reads]
  rfl

/-! ## What can be spelled but not held -/

/-- One action. -/
def plainText : String := "\x7b\"actions\":[\x7b\"type\":\"test\"\x7d]\x7d"

/-- The same action with a note that no double can hold. -/
def notedText : String := "\x7b\"actions\":[\x7b\"note\":1e400,\"type\":\"test\"\x7d]\x7d"

/-- A scenario of one action that has the given members. -/
def oneAction (members : List (Option String × Draft)) : Draft :=
  .object [(some "actions", .list [.object members none] none)] none

theorem plain_reads : Manuscript.ofGlyphs (Glyph.ofString plainText) =
    ⟨oneAction [(some "type", .text (some "test"))], false⟩ := by
  cbv

theorem noted_reads : Manuscript.ofGlyphs (Glyph.ofString notedText) =
    ⟨oneAction [(some "note", .number none), (some "type", .text (some "test"))], false⟩ := by
  have glyphs : Glyph.ofString notedText = .char '\x7b' :: (Glyph.ofString (quote "actions") ++ .char ':' ::
      .char '[' :: .char '\x7b' :: (Glyph.ofString (quote "note") ++ .char ':' ::
        (Glyph.ofString "1e400" ++ .char ',' :: (Glyph.ofString (quote "type") ++ .char ':' ::
          (Glyph.ofString (quote "test") ++ [.char '\x7d', .char ']', .char '\x7d']))))) := by cbv
  have length : (Glyph.ofString notedText).length = 42 := by cbv
  have numeral : Draft.readNumeral (Glyph.ofString "1e400") = .ok (⟨false, [1], none, some 400⟩, []) := by cbv
  have beyond : Numeral.value ⟨false, [1], none, some 400⟩ = none := by decide +kernel
  have note (rest : List Glyph) :
      Draft.readValue 80 (Glyph.ofString "1e400" ++ .char ',' :: rest) = (.number none, some (.char ',' :: rest)) := by
    rw [Draft.readValue_number (Draft.readNumeral_append (.comma rest) numeral), beyond]
    rfl
  have action (rest : List Glyph) : Draft.readValue 82 (.char '\x7b' :: (Glyph.ofString (quote "note") ++ .char ':' ::
      (Glyph.ofString "1e400" ++ .char ',' :: (Glyph.ofString (quote "type") ++ .char ':' ::
        (Glyph.ofString (quote "test") ++ .char '\x7d' :: rest))))) =
      (.object [(some "note", .number none), (some "type", .text (some "test"))] none, some rest) := by
    rw [Draft.readValue_object ((Draft.begins_quote _).append _), Draft.readMembers_more "note" (note _),
      Draft.readMembers_last "type" (Draft.readValue_quote "test" _)]
    rfl
  have actions (rest : List Glyph) : Draft.readValue 84 (.char '[' :: .char '\x7b' ::
      (Glyph.ofString (quote "note") ++ .char ':' ::
        (Glyph.ofString "1e400" ++ .char ',' :: (Glyph.ofString (quote "type") ++ .char ':' ::
          (Glyph.ofString (quote "test") ++ .char '\x7d' :: .char ']' :: rest))))) =
      (.list [.object [(some "note", .number none), (some "type", .text (some "test"))] none] none, some rest) := by
    rw [Draft.readValue_list ⟨_, _, rfl, by decide⟩, Draft.readItems_last (action _)]
  rw [Manuscript.ofGlyphs, length, glyphs, Draft.readValue_object ((Draft.begins_quote _).append _),
    Draft.readMembers_last "actions" (actions _)]
  rfl

/-- A value that can be spelled but not held is not passed over everywhere. -/
theorem not_parse_of_spelled_edits : ¬ ∀ (text text' : String) (d d' : Draft),
    Manuscript.ofGlyphs (Glyph.ofString text) = ⟨d, false⟩ →
    Manuscript.ofGlyphs (Glyph.ofString text') = ⟨d', false⟩ →
    Relation.EqvGen (Edit Site.Spelled document) d d' →
    ((Manuscript.ofGlyphs (Glyph.ofString text)).decode decoder).toOption =
      ((Manuscript.ofGlyphs (Glyph.ofString text')).decode decoder).toOption := by
  intro unseen
  have edit : Edit Site.Spelled document (oneAction [(some "type", .text (some "test"))])
      (oneAction [(some "note", .number none), (some "type", .text (some "test"))]) := by
    refine .member (by decide) (@Edit.item _ _ _ [] _ _ [] rfl ?_)
    exact .unknown (by decide) rfl (by decide) rfl
  have same := unseen plainText notedText _ _ plain_reads noted_reads (.rel _ _ edit)
  rw [plain_reads, noted_reads] at same
  cases same

end Scenario

end Screenplay
