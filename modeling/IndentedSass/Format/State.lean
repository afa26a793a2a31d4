/-
  The state of the formatter and its log.

  * `FormatState` is what is carried from line to line: the columns that
    properties and headers are expected at, and what the lines before have
    opened;
  * `LineRole` tells what a line is, given that state;
  * `FormatEvent` is an entry of the log.
-/
import IndentedSass.Indent.Column
import IndentedSass.Line.Head

namespace IndentedSass

/-- What the formatter carries from line to line. -/
structure FormatState where
  /-- The column that properties are expected at. -/
  propertyColumn : Nat := 0
  /-- The deepest column that a header may have. -/
  headerLimit : Nat := 0
  /-- Whether the lines are those of a `@keyframes` block. -/
  inKeyframes : Bool := false
  /-- The column of its keyframe points. -/
  keyframeColumn : Nat := 0
  /-- Whether the last line was brace syntax. -/
  afterBraces : Bool := false
  /-- The selector that a selector in brace syntax may repeat. -/
  lastSelector : Text := []
  /-- Whether a block comment is open. -/
  inBlockComment : Bool := false
  /-- Whether the next line is left alone. -/
  ignoreNext : Bool := false
  /-- Whether blank lines are kept, up to the next header. -/
  keepBlanks : Bool := false
  deriving DecidableEq, Repr

/-- What a line is for the formatter. -/
structure LineRole where
  /-- It opens a `@keyframes` block. -/
  isKeyframes : Bool
  /-- It is a keyframe point. -/
  isKeyframePoint : Bool
  /-- It is an `@if` or `@else` that is formatted as a header. -/
  isIfOrElse : Bool
  /-- It is an `@if` or `@else` that is formatted as a property. -/
  isBranch : Bool
  /-- It is a reset mark. -/
  isReset : Bool
  /-- It is a declaration. -/
  isDeclaration : Bool
  deriving DecidableEq, Repr

namespace LineRole

/-- The role of a line, and the state in which it is formatted: keyframe points
    and branches have expected columns of their own. -/
def ofLine (tab : Nat) (st : FormatState) (line : Text) : LineRole × FormatState :=
  let isPoint := st.inKeyframes && Line.isKeyframePoint line
  let inKeyframesBranch := st.inKeyframes && Line.isIfOrElse line
  let isElseBranch := !st.inKeyframes && Line.isElse line
  let column :=
    if inKeyframesBranch then st.keyframeColumn + tab
    else if isElseBranch then st.headerLimit - tab
    else if isPoint then st.keyframeColumn
    else st.propertyColumn
  let role :=
    { isKeyframes := Line.isKeyframes line
      isKeyframePoint := isPoint
      isIfOrElse := Line.isIfOrElse line && !inKeyframesBranch && !isElseBranch
      isBranch := inKeyframesBranch || isElseBranch
      isReset := Line.isResetMark line
      isDeclaration := Line.isProperty line || Line.isVariable line }
  (role, { st with propertyColumn := column })

/-- Whether a line is formatted as the header of a block. -/
def isHeader (role : LineRole) (line : Text) : Bool :=
  !(role.isDeclaration || role.isKeyframePoint || role.isBranch) &&
    (Line.isClassOrId line || Line.isMixin line || Line.isElement line.trim || Line.isStar line ||
      role.isIfOrElse || role.isReset || Line.isParentRef line || Line.isPseudo line ||
      role.isKeyframes || Line.isAttribute line || Line.isBlockAtRule line)

/-- Whether a line is formatted as a property. -/
def isPropertyLike (role : LineRole) (line : Text) : Bool :=
  role.isDeclaration || Line.isInclude line || Line.isExtend line || Line.isStatementAtRule line ||
    role.isKeyframePoint || role.isBranch

end LineRole

/-! ## The log -/

/-- What was changed in a line, besides its place. -/
structure LineChange where
  /-- It was converted from brace syntax. -/
  converted : Bool := false
  /-- It got a space after its colon. -/
  spaced : Bool := false
  /-- Its indentation was written anew. -/
  reindented : Bool := false
  deriving DecidableEq, Repr

namespace LineChange

/-- Whether anything was changed. -/
def any (r : LineChange) : Bool := r.converted || r.spaced || r.reindented

end LineChange

/-- An entry of the log; lines are counted from zero. -/
inductive FormatEvent where
  /-- Formatting begins. -/
  | start
  /-- A header moves to a tab stop. -/
  | snap (line : Nat) (how : LineChange)
  /-- White space at the end of a line is removed. -/
  | trail (line : Nat) (how : LineChange)
  /-- A line is changed where it is. -/
  | change (line : Nat) (how : LineChange)
  /-- A line of brace syntax that became empty is removed. -/
  | dropConverted (line : Nat)
  /-- A property moves. -/
  | move (line : Nat) (offset : Int)
  /-- A blank line is removed. -/
  | drop (line : Nat)
  /-- A blank line loses its white space. -/
  | clear (line : Nat)
  deriving DecidableEq, Repr

namespace FormatEvent

/-- The wording of an entry. -/
def message : FormatEvent → String
  | start => "FORMAT"
  | snap line how => describe "SET NEW TAB" line how
  | trail line how => describe "TRAIL" line how
  | change line how => describe "CHANGE" line how
  | dropConverted line => describe "DEL" line ⟨true, false, false⟩
  | move line offset => "MOVE line " ++ toString (line + 1) ++ " offset " ++ toString offset
  | drop line => "DEL line " ++ toString (line + 1)
  | clear line => "WHITESPACE line " ++ toString (line + 1)
where
  /-- The wording of an entry that tells what was changed in a line. -/
  describe (title : String) (line : Nat) (how : LineChange) : String :=
    title ++ " line " ++ toString (line + 1) ++ " convert: " ++ toString how.converted ++
      " set space: " ++ toString how.spaced ++ " replace spaces or tabs: " ++
      toString how.reindented

end FormatEvent

end IndentedSass
