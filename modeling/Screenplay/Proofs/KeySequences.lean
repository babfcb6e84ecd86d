import Mathlib.Tactic
import Screenplay.Device.Keys

/-!
Key sequences. The tokens of a sequence make up its text, and its keys are the names in braces that
stand in it, one for each, in their order (`KeyToken.scan_faithful`). Nothing that stands in braces is
lost: a brace is passed over alone unless a key begins there, and a key holds no brace.
-/
namespace Screenplay

/-! ### Names -/

namespace Key

variable {name : List Char} {k : Key}

/-- A known name, in any case. -/
def Named (name : List Char) (k : Key) : Prop :=
  ∃ known, (known, k) ∈ names ∧ name.map Char.toUpper = known.toList

theorem lookup_of_mem : ∀ entry ∈ names, names.lookup entry.1 = some entry.2 := by decide

theorem not_brace_of_mem : ∀ entry ∈ names, '\x7b' ∉ entry.1.toList ∧ '\x7d' ∉ entry.1.toList := by
  decide

theorem ofName?_eq_some_iff : ofName? name = some k ↔ Named name k := by
  constructor
  · intro found
    obtain ⟨before, after, split, -⟩ := List.lookup_eq_some_iff.mp found
    refine ⟨String.ofList (name.map Char.toUpper), ?_, String.toList_ofList.symm⟩
    rw [split]
    exact List.mem_append_right _ List.mem_cons_self
  · rintro ⟨known, listed, same⟩
    rw [ofName?, same, String.ofList_toList]
    exact lookup_of_mem _ listed

/-- No name has a brace in it. -/
theorem Named.not_brace (named : Named name k) : '\x7b' ∉ name ∧ '\x7d' ∉ name := by
  obtain ⟨known, listed, same⟩ := named
  obtain ⟨noOpening, noClosing⟩ := not_brace_of_mem _ listed
  rw [← same] at noOpening noClosing
  exact ⟨fun opening => noOpening (List.mem_map_of_mem opening),
    fun closing => noClosing (List.mem_map_of_mem closing)⟩

end Key

/-- The name of a key in braces, and where it stands in a text. -/
structure KeyPlace where
  start : Nat
  key : Key
  name : List Char
  deriving DecidableEq, Repr

namespace KeyPlace

/-- The same place in a text with more before it. -/
def after (n : Nat) (p : KeyPlace) : KeyPlace := { p with start := n + p.start }

theorem after_zero (p : KeyPlace) : p.after 0 = p := by simp only [after, Nat.zero_add]

theorem after_after (m n : Nat) (p : KeyPlace) : (p.after n).after m = p.after (m + n) := by
  simp only [after, Nat.add_assoc]

/-- At this place of the text stands the name of the key in braces. -/
def In (p : KeyPlace) (text : List Char) : Prop :=
  ∃ before rest, text = before ++ '\x7b' :: p.name ++ '\x7d' :: rest ∧ before.length = p.start ∧
    Key.Named p.name p.key

variable {p : KeyPlace} {text pre rest : List Char}

theorem In.lt_length (stands : p.In text) : p.start < text.length := by
  obtain ⟨before, rest, rfl, start, -⟩ := stands
  simp
  omega

theorem In.append (stands : p.In text) (pre post : List Char) :
    (p.after pre.length).In (pre ++ text ++ post) := by
  obtain ⟨before, rest, rfl, start, named⟩ := stands
  exact ⟨pre ++ before, rest ++ post, by simp [after], by simp [after, start], named⟩

/-- What holds no opening brace is passed over. -/
theorem in_append_iff (passed : '\x7b' ∉ pre) (rest : List Char) :
    p.In (pre ++ rest) ↔ ∃ q : KeyPlace, q.In rest ∧ q.after pre.length = p := by
  constructor
  · rintro ⟨before, post, split, start, named⟩
    rw [List.append_assoc, List.append_eq_append_iff] at split
    rcases split with ⟨later, rfl, rfl⟩ | ⟨later, rfl, opening⟩
    · refine ⟨⟨later.length, p.key, p.name⟩, ⟨later, post, by simp, rfl, named⟩, ?_⟩
      rw [after, ← List.length_append, start]
    · cases later with
      | nil =>
        refine ⟨⟨0, p.key, p.name⟩, ⟨[], post, by simpa using opening.symm, rfl, named⟩, ?_⟩
        rw [after, List.append_nil, start]
        rfl
      | cons c later =>
        obtain ⟨rfl, -⟩ := List.cons.inj opening
        simp at passed
  · rintro ⟨q, stands, rfl⟩
    simpa using stands.append pre []

end KeyPlace

namespace KeyToken

/-! ### Places of keys -/

/-- What stands for a token in the text. -/
def source : KeyToken → List Char
  | text chars => chars
  | key _ name => '\x7b' :: name ++ ['\x7d']

def isKey : KeyToken → Bool
  | text _ => false
  | key .. => true

/-- The key that a token is. -/
def place : KeyToken → List KeyPlace
  | text _ => []
  | key k name => [⟨0, k, name⟩]

/-- The keys among tokens, with the places in the text at which they stand. -/
def keys : List KeyToken → List KeyPlace
  | [] => []
  | token :: rest => token.place ++ (keys rest).map (·.after token.source.length)

variable {text tail rest name : List Char} {k : Key} {p : KeyPlace} {token : KeyToken}
  {tokens tokens' : List KeyToken}

theorem mem_keys_cons : p ∈ keys (token :: tokens) ↔
    p ∈ token.place ∨ ∃ q ∈ keys tokens, q.after token.source.length = p := by
  rw [keys, List.mem_append, List.mem_map]

theorem keys_append (tokens tokens' : List KeyToken) : keys (tokens ++ tokens') =
    keys tokens ++ (keys tokens').map (·.after (tokens.flatMap source).length) := by
  induction tokens with
  | nil => simp [keys, KeyPlace.after_zero]
  | cons token rest ih =>
    rw [List.cons_append, keys, keys, ih, List.map_append, List.map_map, List.append_assoc,
      List.flatMap_cons, List.length_append]
    simp only [Function.comp_def, KeyPlace.after_after]

theorem place_start (inside : p ∈ token.place) : p.start = 0 ∧ 0 < token.source.length := by
  cases token with
  | text chars => cases inside
  | key k name =>
    obtain rfl := List.mem_singleton.mp inside
    exact ⟨rfl, Nat.succ_pos _⟩

/-- Keys stand in their order. -/
theorem keys_pairwise (tokens : List KeyToken) : (keys tokens).Pairwise (·.start < ·.start) := by
  induction tokens with
  | nil => exact .nil
  | cons token rest ih =>
    rw [keys, List.pairwise_append]
    refine ⟨?_, List.pairwise_map.mpr (ih.imp (Nat.add_lt_add_left · _)), ?_⟩
    · cases token <;> simp [place]
    · rintro p first q later
      obtain ⟨q, -, rfl⟩ := List.mem_map.mp later
      obtain ⟨start, some⟩ := place_start first
      simp only [KeyPlace.after]
      omega

theorem keys_lt (inside : p ∈ keys tokens) : p.start < (tokens.flatMap source).length := by
  induction tokens generalizing p with
  | nil => cases inside
  | cons token rest ih =>
    rw [List.flatMap_cons, List.length_append]
    rcases mem_keys_cons.mp inside with first | ⟨q, later, rfl⟩
    · obtain ⟨start, some⟩ := place_start first
      omega
    · exact Nat.add_lt_add_left (ih later) _

/-! ### Braces -/

theorem braced?_eq_some_iff : braced? tail = some (name, rest) ↔
    tail = name ++ '\x7d' :: rest ∧ '\x7d' ∉ name := by
  constructor
  · intro found
    rw [braced?] at found
    split at found
    next => cases found
    next c after stopped =>
      have split := List.takeWhile_append_dropWhile (p := (· ≠ '\x7d')) (l := tail)
      have closing := List.head?_dropWhile_not (· ≠ '\x7d') tail
      rw [stopped] at split closing
      obtain rfl : c = '\x7d' := by simpa using closing
      cases found
      refine ⟨split.symm, fun inside => ?_⟩
      simpa using List.all_eq_true.mp List.all_takeWhile _ inside
  · rintro ⟨rfl, inside⟩
    have passed : ∀ c ∈ name, decide (c ≠ '\x7d') = true := by
      intro c member
      exact decide_eq_true fun same => inside (same ▸ member)
    rw [braced?, List.takeWhile_append_of_pos passed, List.dropWhile_append_of_pos passed]
    simp

/-- With an opening brace a key begins, or one begins later. -/
theorem in_opening_iff : p.In ('\x7b' :: tail) ↔
    (p.start = 0 ∧ Key.ofName? p.name = some p.key ∧ ∃ after, braced? tail = some (p.name, after)) ∨
      ∃ q : KeyPlace, q.In tail ∧ q.after 1 = p := by
  simp only [braced?_eq_some_iff, Key.ofName?_eq_some_iff]
  constructor
  · rintro ⟨before, post, split, start, named⟩
    cases before with
    | nil =>
      cases split
      exact .inl ⟨start.symm, named, post, rfl, named.not_brace.2⟩
    | cons c before =>
      cases split
      refine .inr ⟨⟨before.length, p.key, p.name⟩, ⟨before, post, by simp, rfl, named⟩, ?_⟩
      rw [KeyPlace.after, Nat.add_comm, ← List.length_cons, start]
  · rintro (⟨start, named, post, rfl, -⟩ | ⟨q, stands, rfl⟩)
    · exact ⟨[], post, rfl, start.symm, named⟩
    · simpa using stands.append ['\x7b'] []

/-! ### Scanning -/

theorem source_scan (text : List Char) : (scan text).flatMap source = text := by
  fun_induction scan text with
  | case1 => rfl
  | case2 tail found ih => rw [List.flatMap_cons, ih]; rfl
  | case3 tail name rest found k known ih =>
    obtain ⟨rfl, -⟩ := braced?_eq_some_iff.mp found
    rw [List.flatMap_cons, ih]
    simp [source]
  | case4 tail name rest found known ih => rw [List.flatMap_cons, ih]; rfl
  | case5 c rest opening ih =>
    rw [List.flatMap_cons, ih, source, List.cons_append, List.takeWhile_append_dropWhile]

theorem source_ne_nil (inside : token ∈ scan text) : token.source ≠ [] := by
  fun_induction scan text
  case case1 => cases inside
  all_goals
    rename_i ih
    rcases List.mem_cons.mp inside with rfl | later
    · exact List.cons_ne_nil _ _
    · exact ih later

/-- The keys that scanning finds are those that stand in the text. -/
theorem mem_keys_scan_iff : p ∈ keys (scan text) ↔ p.In text := by
  fun_induction scan text generalizing p with
  | case1 => simp [keys, KeyPlace.In]
  | case2 tail found ih =>
    rw [mem_keys_cons, in_opening_iff, found]
    simp only [ih, place, List.not_mem_nil, source, List.length_singleton, reduceCtorEq, exists_false,
      and_false]
  | case3 tail name rest found k known ih =>
    obtain ⟨whole, inside⟩ := braced?_eq_some_iff.mp found
    have passed : '\x7b' ∉ name ++ ['\x7d'] := by
      simp [(Key.ofName?_eq_some_iff.mp known).not_brace.1]
    have split : tail = name ++ ['\x7d'] ++ rest := by simp [whole]
    rw [mem_keys_cons, in_opening_iff, found]
    refine or_congr ?_ ?_
    · rw [place, List.mem_singleton]
      constructor
      · rintro rfl
        exact ⟨rfl, known, rest, rfl⟩
      · obtain ⟨start, k', name'⟩ := p
        rintro ⟨rfl, known', post, same⟩
        cases same
        cases known.symm.trans known'
        rfl
    · have width : (KeyToken.key k name).source.length = 1 + (name ++ ['\x7d']).length :=
        Nat.add_comm ..
      rw [split]
      simp only [ih, KeyPlace.in_append_iff passed, width]
      constructor
      · rintro ⟨q, stands, rfl⟩
        exact ⟨_, ⟨q, stands, rfl⟩, KeyPlace.after_after ..⟩
      · rintro ⟨_, ⟨q, stands, rfl⟩, rfl⟩
        exact ⟨q, stands, (KeyPlace.after_after ..).symm⟩
  | case4 tail name rest found unknown ih =>
    rw [mem_keys_cons, in_opening_iff, found]
    simp only [ih, place, List.not_mem_nil, source, List.length_singleton]
    refine or_congr ⟨False.elim, ?_⟩ Iff.rfl
    rintro ⟨-, known, post, same⟩
    cases same
    cases unknown.symm.trans known
  | case5 c rest opening ih =>
    have passed : '\x7b' ∉ c :: rest.takeWhile (· ≠ '\x7b') := by
      rw [List.mem_cons]
      rintro (rfl | inside)
      · exact opening rfl
      · simpa using List.all_eq_true.mp List.all_takeWhile _ inside
    have split := KeyPlace.in_append_iff (p := p) passed (rest.dropWhile (· ≠ '\x7b'))
    rw [List.cons_append, List.takeWhile_append_dropWhile] at split
    rw [mem_keys_cons, split]
    simp only [ih, place, List.not_mem_nil, false_or, source]

/-! ### Runs of text -/

/-- The keys are the tokens that are keys, one for each. -/
theorem map_keys (tokens : List KeyToken) :
    (keys tokens).map (fun p => KeyToken.key p.key p.name) = tokens.filter isKey := by
  induction tokens with
  | nil => rfl
  | cons token rest ih =>
    rw [keys, List.map_append, List.map_map, List.filter_cons, ← ih]
    cases token <;> rfl

theorem keys_of_texts (texts : ∀ token ∈ tokens, token.isKey = false) : keys tokens = [] := by
  rw [← List.map_eq_nil_iff, map_keys, List.filter_eq_nil_iff]
  intro token inside
  rw [texts token inside]
  exact Bool.false_ne_true

/-- No key stands in texts that follow on each other, even if they are joined. -/
theorem not_in_run (run : tokens <:+: scan text)
    (texts : ∀ token ∈ tokens, token.isKey = false) : ¬ p.In (tokens.flatMap source) := by
  intro stands
  obtain ⟨pre, post, split⟩ := run
  have whole := source_scan text
  rw [← split, List.flatMap_append, List.flatMap_append] at whole
  have found : p.after (pre.flatMap source).length ∈ keys (scan text) := by
    rw [mem_keys_scan_iff, ← whole]
    exact stands.append _ _
  have before := stands.lt_length
  rw [← split, List.append_assoc, keys_append, keys_append, keys_of_texts texts, List.nil_append,
    List.mem_append, List.mem_map] at found
  rcases found with early | ⟨q, later, same⟩
  · have := keys_lt early
    simp only [KeyPlace.after] at this
    omega
  · obtain ⟨r, -, rfl⟩ := List.mem_map.mp later
    have starts := congrArg KeyPlace.start same
    simp only [KeyPlace.after] at starts
    omega

/-- Scanning loses nothing and finds every key. -/
theorem scan_faithful (text : List Char) :
    (∀ chars, .text chars ∈ scan text → chars ≠ []) ∧
    (scan text).flatMap source = text ∧
    ((keys (scan text)).map (fun p => .key p.key p.name) = (scan text).filter isKey ∧
      (keys (scan text)).Pairwise (·.start < ·.start) ∧ ∀ p, p ∈ keys (scan text) ↔ p.In text) ∧
    ∀ run, run <:+: scan text → (∀ token ∈ run, token.isKey = false) →
      ∀ p : KeyPlace, ¬ p.In (run.flatMap source) :=
  ⟨fun _ inside => source_ne_nil inside, source_scan text,
    ⟨map_keys _, keys_pairwise _, fun _ => mem_keys_scan_iff⟩,
    fun _ run texts _ => not_in_run run texts⟩

end KeyToken

end Screenplay
