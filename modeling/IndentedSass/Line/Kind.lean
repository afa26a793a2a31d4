/-
  The kind of a line.

  `kind` sorts a line by the checks of `Line.Head` in a fixed order; the first
  one that holds decides.  While a block comment is open, a line that is
  indented deeper than its opening line or starts with `*` belongs to it.
-/
import IndentedSass.Indent.Column
import IndentedSass.Line.Head

namespace IndentedSass

/-- What a line of indented Sass is. -/
inductive LineKind where
  /-- White space only. -/
  | blank
  /-- `name: value` -/
  | property
  /-- `$name: value` or `--name: value` -/
  | variableDecl
  /-- The header of a block: a selector, a block at-rule or a keyframe point. -/
  | selector
  /-- `@use 'module'` -/
  | useModule
  /-- `@import 'file'` -/
  | importPaths
  /-- `// comment` -/
  | comment
  /-- `/* comment` -/
  | blockCommentStart
  /-- A further line of an open block comment. -/
  | blockCommentContent
  /-- `@mixin name` or `=name` -/
  | mixin
  /-- `@include name` or `+name` -/
  | mixinCall
  /-- `@extend selector` -/
  | extendRule
  /-- `@font-face` -/
  | fontFace
  /-- Anything else. -/
  | literal
  deriving DecidableEq, Repr

namespace Line

/-- Whether a line belongs to the block comment opened at column `opened`. -/
def continuesComment (tab opened : Nat) (line : Text) : Bool :=
  match line.trim with
  | [] => false
  | c :: _ => c == '*' || opened < Indent.width tab line

/-- The kind of a line when no block comment is open. -/
def kindOutsideComment (line : Text) : LineKind :=
  if isBlankLine line then .blank
  else if isLineComment line then .comment
  else if opensBlockComment line then .blockCommentStart
  else if isVariable line then .variableDecl
  else if isProperty line then .property
  else if isUse line then .useModule
  else if isImport line then .importPaths
  else if isMixin line then .mixin
  else if isInclude line then .mixinCall
  else if isExtend line then .extendRule
  else if isFontFace line then .fontFace
  else if isSelector line then .selector
  else .literal

/-- The kind of a line; `opened` is the column of the line that opened the
    block comment that is still open, if one is. -/
def kind (tab : Nat) (opened : Option Nat) (line : Text) : LineKind :=
  match opened with
  | some column =>
    if continuesComment tab column line then .blockCommentContent else kindOutsideComment line
  | none => kindOutsideComment line

end Line

end IndentedSass
