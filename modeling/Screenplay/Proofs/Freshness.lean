import Mathlib
import Screenplay.Screen.Source

/-!
A screen that looks at a file which others keep writing. It remembers the frame that it decoded
last, through versions that cannot be decoded and through times without a file; what it remembers
is always what some version of the file that it saw still decodes to. Where equal signatures mean
equal frames, it therefore answers like a screen that was never asked before.
-/
namespace Screenplay

/-- What happens to the file at a path, or is asked of the screen that looks at it. -/
inductive Moment where
  | replaced (file : StoredFile)
  | deleted
  | captured

/-- The files after a moment. A file that cannot be written stays what it was. -/
def Moment.after (path : String) (fs : Files) : Moment → Files
  | .replaced file => (fs.put path file).toOption.getD fs
  | .deleted => fs.remove path
  | .captured => fs

/-- Two times that fit a word are told apart, unless both are before 1970. -/
theorem StoredFile.signature_eq_iff {a b : StoredFile} (aFits : a.modified < 2 ^ 64)
    (bFits : b.modified < 2 ^ 64) : a.signature = b.signature ↔
      a.size = b.size ∧ max a.modified 0 = max b.modified 0 := by
  simp only [signature, FileSignature.mk.injEq, ← UInt64.toNat_inj, UInt64.toNat_ofNat']
  omega

namespace ScreenSource

/-- The answers of a screen to the captures of a history. -/
def answers (path : String) (fs : Files) (source : ScreenSource) :
    List Moment → List (Except CaptureError Frame)
  | [] => []
  | .captured :: rest => (source.capture fs).1 :: answers path fs (source.capture fs).2 rest
  | moment :: rest => answers path (moment.after path fs) source rest

/-- The answers of screens that were created for one capture each. -/
def answersAnew (path : String) (fs : Files) : List Moment → List (Except CaptureError Frame)
  | [] => []
  | .captured :: rest => ((ofFile path).capture fs).1 :: answersAnew path fs rest
  | moment :: rest => answersAnew path (moment.after path fs) rest

/-- A file that a path leads to at some time of a history, its beginning and its end included. -/
def Version (path : String) (fs : Files) (moments : List Moment) (file : StoredFile) : Prop :=
  ∃ state ∈ moments.scanl (Moment.after path) fs, state.find path = .ok (.file file)

/-- Files of one signature are one picture, or none for the same reason. -/
def Telling (path : String) (version : StoredFile → Prop) : Prop :=
  ∀ a b, version a → version b → a.signature = b.signature → a.decode path = b.decode path

/-- What is remembered is what a version of that signature decodes to. -/
def Remembers (path : String) (version : StoredFile → Prop) : Option (FileSignature × Frame) → Prop
  | none => True
  | some (signature, frame) =>
    ∃ file, version file ∧ file.signature = signature ∧ file.decode path = .ok frame

variable {path : String} {fs : Files} {version : StoredFile → Prop}
  {last : Option (FileSignature × Frame)}

/-- A file that is there is answered as if nothing was remembered. -/
theorem captureFile_eq_fresh {stored : StoredFile} (telling : Telling path version)
    (remembers : Remembers path version last) (there : fs.find path = .ok (.file stored))
    (known : version stored) : captureFile fs path last = captureFile.fresh path stored := by
  cases last with
  | none => simp [captureFile, there]
  | some remembered =>
    obtain ⟨signature, frame⟩ := remembered
    obtain ⟨file, was, signed, decoded⟩ := remembers
    by_cases same : signature = stored.signature
    · have again : stored.decode path = .ok frame :=
        (telling file stored was known (signed.trans same)).symm.trans decoded
      simp [captureFile, there, captureFile.fresh, again, same]
    · simp [captureFile, there, same]

/-- Where there is no file, what is remembered does not count. -/
theorem captureFile_of_none (none_there : ∀ stored, fs.find path ≠ .ok (.file stored)) :
    captureFile fs path last = captureFile fs path none := by
  unfold captureFile
  split
  · rfl
  · rfl
  · rename_i stored there
    exact absurd there (none_there stored)

/-- A screen that remembers right answers like a new one. -/
theorem captureFile_eq_anew (telling : Telling path version) (remembers : Remembers path version last)
    (known : ∀ stored, fs.find path = .ok (.file stored) → version stored) :
    captureFile fs path last = captureFile fs path none := by
  by_cases present : ∃ stored, fs.find path = .ok (.file stored)
  · obtain ⟨stored, there⟩ := present
    have seen := known stored there
    have nothing : Remembers path version none := trivial
    rw [captureFile_eq_fresh telling remembers there seen,
      captureFile_eq_fresh telling nothing there seen]
  · push Not at present
    exact captureFile_of_none present

/-- A new screen remembers just what it decoded. -/
theorem remembers_of_captureFile {seen : FileSignature × Frame}
    (known : ∀ stored, fs.find path = .ok (.file stored) → version stored)
    (captured : captureFile fs path none = .ok seen) : Remembers path version (some seen) := by
  rcases there : fs.find path with e | stored | _
  · simp [captureFile, there] at captured
  · rcases decoded : stored.decode path with e | frame
    · simp [captureFile, there, captureFile.fresh, decoded] at captured
    · simp only [captureFile, there, captureFile.fresh, decoded, Except.ok.injEq] at captured
      subst captured
      exact ⟨stored, known stored there, rfl, decoded⟩
  · simp [captureFile, there] at captured

/-- One capture answers like a new screen and leaves the screen remembering right; an error leaves
what was remembered before. -/
theorem capture_file (telling : Telling path version) (remembers : Remembers path version last)
    (known : ∀ stored, fs.find path = .ok (.file stored) → version stored) :
    ∃ next, Remembers path version next ∧
      (file path last).capture fs = (((ofFile path).capture fs).1, file path next) := by
  have anew := captureFile_eq_anew telling remembers known
  rcases captured : captureFile fs path none with e | seen
  · exact ⟨last, remembers, by simp only [capture, ofFile, anew, captured]⟩
  · exact ⟨some seen, remembers_of_captureFile known captured,
      by simp only [capture, ofFile, anew, captured]⟩

/-- Through a whole history, whatever was remembered before it. -/
theorem answers_eq_of_remembers (telling : Telling path version) (moments : List Moment)
    (known : ∀ file, Version path fs moments file → version file)
    (remembers : Remembers path version last) :
    answers path fs (file path last) moments = answersAnew path fs moments := by
  induction moments generalizing fs last with
  | nil => rfl
  | cons moment rest ih =>
    have now : ∀ stored, fs.find path = .ok (.file stored) → version stored :=
      fun stored there => known stored ⟨fs, by simp, there⟩
    have later : ∀ file, Version path (moment.after path fs) rest file → version file := by
      rintro file ⟨state, member, there⟩
      exact known file ⟨state, by simp [member], there⟩
    cases moment with
    | replaced file => exact ih later remembers
    | deleted => exact ih later remembers
    | captured =>
      obtain ⟨next, remembersNext, captured⟩ := capture_file telling remembers now
      have same : answers path fs (file path next) rest = answersAnew path fs rest :=
        ih later remembersNext
      simp only [answers, answersAnew, captured, same]

/-- However the file at a path is replaced, deleted and captured: if the signature tells apart what
the versions of the file decode to, a screen answers every capture like one that was created at
that moment, with the same frame or for the same reason. -/
theorem answers_eq_answersAnew (path : String) (fs : Files) (moments : List Moment)
    (telling : Telling path (Version path fs moments)) :
    answers path fs (ofFile path) moments = answersAnew path fs moments :=
  answers_eq_of_remembers telling moments (fun _ version => version) trivial

/-- A tree in which there may be one file, a screen. -/
def holding (file : Option StoredFile) : Files where
  entries := file.toList.map fun f => (["s.png"], .file f)

theorem components_screen : Path.components "s.png" = ["s.png"] := by
  unfold Path.components String.splitOn
  rw [if_neg (by decide)]
  iterate 5 rw [String.splitOnAux, if_neg (by decide), if_neg (by decide)]
  rw [String.splitOnAux, if_pos (by decide)]
  decide

theorem checkFormat_screen : checkFormat "s.png" = .ok () := by
  have parts : "s.png".splitOn "." = ["s", "png"] := by
    unfold String.splitOn
    rw [if_neg (by decide)]
    rw [String.splitOnAux, if_neg (by decide), if_neg (by decide)]
    rw [String.splitOnAux, if_neg (by decide), if_pos (by decide)]
    dsimp only
    rw [if_pos (by decide)]
    iterate 3 rw [String.splitOnAux, if_neg (by decide), if_neg (by decide)]
    rw [String.splitOnAux, if_pos (by decide)]
    decide
  have extension : Path.extension? "s.png" = some "png" := by
    simp [Path.extension?, Path.name?, components_screen, parts]
  have format : FileFormat.ofExtension? "png" = some .png := by cbv
  simp [checkFormat, extension, format]

theorem locate_holding (file : Option StoredFile) : (holding file).locate "s.png" = .ok ["s.png"] := by
  have relative : Path.isAbsolute "s.png" = false := by cbv
  have plain : Files.checkPath "s.png" = .ok () := by decide
  simp only [Files.locate, plain, components_screen, Files.origin, relative]
  rfl

theorem find_holding (file : Option StoredFile) : (holding file).find "s.png" =
    match file with
    | none => .error .missing
    | some f => .ok (.file f) := by
  rw [Files.find, locate_holding]
  cases file <;> rfl

theorem after_replaced (file : Option StoredFile) (f : StoredFile) :
    (Moment.replaced f).after "s.png" (holding file) = holding (some f) := by
  have relative : Path.isAbsolute "s.png" = false := by cbv
  have plain : Files.checkPath "s.png" = .ok () := by decide
  simp only [Moment.after, Files.put, plain, components_screen, Files.origin, relative]
  cases file <;> rfl

theorem after_captured (fs : Files) : Moment.captured.after "s.png" fs = fs := rfl

theorem after_deleted (file : Option StoredFile) :
    Moment.deleted.after "s.png" (holding file) = holding none := by
  rw [Moment.after, Files.remove, locate_holding]
  cases file <;> rfl

theorem capture_holding (file : Option StoredFile) :
    ((ofFile "s.png").capture (holding file)).1 =
      match file with
      | none => .error (.fileUnavailable "s.png" .missing)
      | some f => (f.decode "s.png").mapError (.image "s.png") := by
  cases file with
  | none => simp [capture, ofFile, captureFile, find_holding]
  | some f =>
    rcases decoded : f.decode "s.png" with e | frame <;>
      simp [capture, ofFile, captureFile, captureFile.fresh, find_holding, decoded, Except.mapError]

/-- A picture of one pixel. -/
def dot : StoredFile := { content := .picture ⟨1, 1, .gray, #[7]⟩, size := 70, modified := 1 }

/-- Bytes that are no picture. -/
def garbage : StoredFile := { content := .bytes [1, 2, 3], size := 3, modified := 2 }

/-- A picture that comes late, is spoilt, goes away and comes back as it was. -/
def flicker : List Moment :=
  [.captured, .replaced dot, .captured, .replaced garbage, .captured, .deleted, .captured,
    .replaced dot, .captured]

theorem telling_flicker : Telling "s.png" (Version "s.png" (holding none) flicker) := by
  have states : flicker.scanl (Moment.after "s.png") (holding none) =
      [none, none, dot, dot, garbage, garbage, none, none, dot, dot].map holding := by
    simp [flicker, after_replaced, after_deleted, after_captured]
  have version : ∀ file, Version "s.png" (holding none) flicker file → file = dot ∨ file = garbage := by
    rintro file ⟨state, member, there⟩
    rw [states] at member
    simp only [List.map_cons, List.map_nil, List.mem_cons, List.not_mem_nil] at member
    rcases member with rfl | rfl | rfl | rfl | rfl | rfl | rfl | rfl | rfl | rfl | member
    all_goals simp_all [find_holding]
  intro a b a_version b_version signed
  rcases version a a_version with rfl | rfl <;> rcases version b b_version with rfl | rfl
  · rfl
  · exact absurd signed (by decide)
  · exact absurd signed (by decide)
  · rfl

/-- The picture is seen twice, with different failures before and in between. -/
theorem answers_eq_answersAnew_flicker :
    answers "s.png" (holding none) (ofFile "s.png") flicker =
        answersAnew "s.png" (holding none) flicker ∧
      (answersAnew "s.png" (holding none) flicker).map Except.toOption =
        [none, some ⟨1, 1, .rgba, #[7, 7, 7, 255]⟩, none, none,
          some ⟨1, 1, .rgba, #[7, 7, 7, 255]⟩] := by
  refine ⟨answers_eq_answersAnew "s.png" (holding none) flicker telling_flicker, ?_⟩
  have decoded : dot.decode "s.png" = .ok ⟨1, 1, .rgba, #[7, 7, 7, 255]⟩ := by
    rw [StoredFile.decode, checkFormat_screen]
    rfl
  have spoilt : garbage.decode "s.png" = .error (.png .truncated) := by
    rw [StoredFile.decode, checkFormat_screen]
    rfl
  simp [flicker, answersAnew, after_replaced, after_deleted, capture_holding, decoded, spoilt,
    Except.mapError, Except.toOption]

end ScreenSource

end Screenplay
