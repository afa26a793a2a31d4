/-
  The kinds of the lines of a file.

  The kind of a line depends on the lines before it in one respect: a block
  comment may be open.  `Line.commentAfter` follows that, and `Line.kinds` are
  the kinds of lines that stand one after the other.

  * `LineKind.opensBlock` tells the kinds whose lines own the lines nested under
    them;
  * `Line.Passed` and `passed_kind`: the check that a line of a kind passed.
-/
import Mathlib
import IndentedSass.Line.Kind

namespace IndentedSass

/-- The lines of these kinds own the lines nested under them. -/
def LineKind.opensBlock : LineKind → Bool
  | .selector | .mixin | .fontFace => true
  | _ => false

namespace Line

/-- The column of the block comment that is open after a line, if one is. -/
def commentAfter (tab : Nat) (opened : Option Nat) (line : Text) : Option Nat :=
  match kind tab opened line with
  | .blockCommentStart => if leavesCommentOpen line then some (Indent.width tab line) else none
  | .blockCommentContent => if closesBlockComment line then none else opened
  | _ => none

/-- The kinds of lines, when the block comment at column `opened` is open before
    the first one. -/
def kinds (tab : Nat) (opened : Option Nat) : List Text → List LineKind
  | [] => []
  | line :: rest => kind tab opened line :: kinds tab (commentAfter tab opened line) rest

/-! ## What a kind tells -/

/-- The check that a line of a kind passed. -/
def Passed (line : Text) : LineKind → Prop
  | .blank => isBlankLine line = true
  | .comment => isLineComment line = true
  | .blockCommentStart => opensBlockComment line = true
  | .variableDecl => isVariable line = true
  | .property => isVariable line = false ∧ isProperty line = true
  | .useModule => isUse line = true
  | .importPaths => isImport line = true
  | .mixin => isMixin line = true
  | .mixinCall => isInclude line = true
  | .extendRule => isExtend line = true
  | .fontFace => isFontFace line = true
  | .selector => isSelector line = true
  | .literal => isSelector line = false
  | .blockCommentContent => False

theorem passed_kind (line : Text) : Passed line (kindOutsideComment line) := by
  unfold kindOutsideComment
  iterate 3 refine iteInduction (motive := Passed line) (fun h => h) fun _ => ?_
  refine iteInduction (motive := Passed line) (fun h => h) fun hvariable => ?_
  refine iteInduction (motive := Passed line) (fun h => ⟨Bool.eq_false_iff.2 hvariable, h⟩) fun _ => ?_
  iterate 6 refine iteInduction (motive := Passed line) (fun h => h) fun _ => ?_
  exact iteInduction (motive := Passed line) (fun h => h) Bool.eq_false_iff.2

theorem isBlankLine_of_kind {line : Text} {kind : LineKind} (h : kindOutsideComment line = kind)
    (hkind : kind ≠ .blank) : isBlankLine line = false := by
  refine Bool.eq_false_iff.2 fun hblank => hkind ?_
  rw [← h, kindOutsideComment, if_pos hblank]

theorem kindOutsideComment_ne_content (line : Text) :
    kindOutsideComment line ≠ .blockCommentContent := by
  intro h
  have hpassed := passed_kind line
  rwa [h] at hpassed

/-- The blank lines are those of white space only, also after an open comment. -/
theorem kind_eq_blank_iff {tab : Nat} {opened : Option Nat} {line : Text} :
    kind tab opened line = .blank ↔ isBlankLine line = true := by
  have houtside : kindOutsideComment line = .blank ↔ isBlankLine line = true := by
    refine ⟨fun h => ?_, fun hblank => if_pos hblank⟩
    have hpassed := passed_kind line
    rwa [h] at hpassed
  cases opened with
  | none => exact houtside
  | some column =>
    by_cases hc : continuesComment tab column line = true
    · rw [kind, if_pos hc]
      refine iff_of_false (by decide) fun hblank => ?_
      have htrim : line.trim = [] := List.isEmpty_iff.1 hblank
      simp [continuesComment, htrim] at hc
    · rw [kind, if_neg hc]
      exact houtside

theorem kind_none (tab : Nat) (line : Text) : kind tab none line = kindOutsideComment line := rfl

/-- Only a line after an open block comment goes on with it. -/
theorem opened_of_content {tab : Nat} {opened : Option Nat} {line : Text}
    (h : kind tab opened line = .blockCommentContent) : ∃ column, opened = some column := by
  cases opened with
  | none => exact absurd h (kindOutsideComment_ne_content line)
  | some column => exact ⟨column, rfl⟩

/-- The kind of a line that does not go on with a comment is that of the line on
    its own. -/
theorem kind_eq_outside {tab : Nat} {opened : Option Nat} {line : Text}
    (h : kind tab opened line ≠ .blockCommentContent) :
    kind tab opened line = kindOutsideComment line := by
  cases opened with
  | none => rfl
  | some column =>
    by_cases hc : continuesComment tab column line = true
    · simp [kind, hc] at h
    · simp [kind, hc]

@[simp] theorem kinds_length (tab : Nat) (opened : Option Nat) (lines : List Text) :
    (kinds tab opened lines).length = lines.length := by
  induction lines generalizing opened with
  | nil => rfl
  | cons line rest ih => simp [kinds, ih]

theorem kinds_append (tab : Nat) (opened : Option Nat) (first rest : List Text) :
    kinds tab opened (first ++ rest) =
      kinds tab opened first ++ kinds tab (first.foldl (commentAfter tab) opened) rest := by
  induction first generalizing opened with
  | nil => rfl
  | cons line first ih => simp [kinds, ih]

end Line

end IndentedSass
