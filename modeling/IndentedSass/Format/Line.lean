/-
  Formatting one line.

  A line is a header, property-like, blank, brace syntax only, or something
  else.

  * headers go to the nearest tab stop, at most one below the header before
    (`formatHeader`);
  * property-like lines go to the column that the last header opened
    (`formatProperty`);
  * blank lines go away unless they stand before a block (`formatBlank`);
  * everything else only loses white space at its end (`trimLine`).

  Lines inside block comments and after an ignore mark keep their indentation.
-/
import IndentedSass.Format.Config
import IndentedSass.Format.Convert
import IndentedSass.Format.Reindent
import IndentedSass.Format.State
import IndentedSass.Text.Edit

namespace IndentedSass

/-- What formatting a line gives. -/
structure LineResult where
  /-- The state for the next line. -/
  state : FormatState
  /-- The change of the line, if there is one. -/
  edit? : Option Edit
  /-- What is logged. -/
  log : List FormatEvent
  deriving Repr

namespace Format

/-- The edit that replaces a line; none when it changes nothing. -/
def replaceLine (index : Nat) (line newText : Text) : Option Edit :=
  if newText = line then none else some ⟨.wholeLine index line, newText⟩

/-- The edit that removes a line and its line break. -/
def removeLine (index : Nat) : Edit := ⟨.lineAndBreak index, []⟩

/-- Whether a line is to be converted from brace syntax. -/
def converts (config : FormatConfig) (st : FormatState) (line : Text) : Bool :=
  config.convertBraces && Line.isBraceSyntax line st.afterBraces && !Line.isComment line

/-- A line that only loses the white space at its end. -/
def trimLine (config : FormatConfig) (st : FormatState) (index : Nat) (line : Text) : LineResult :=
  if config.trimTrailing && line.trimEnd != line then
    ⟨st, replaceLine index line line.trimEnd, [.trail index {}]⟩
  else ⟨st, none, []⟩

/-- A line with the indentation of the style, when that is asked for and the
    line has another one; and whether it had. -/
def withNormalIndent (config : FormatConfig) (style : IndentStyle) (line : Text) : Text × Bool :=
  if config.normalizeIndent && !hasNormalIndent style line then (normalIndent style line, true)
  else (line, false)

/-- The new text of a line and the entry of the log that tells why: a line that
    moves by `offset` is moved, otherwise white space at the end of `line` is
    removed, otherwise the text counts if anything in the line was changed. -/
def newText? (config : FormatConfig) (style : IndentStyle) (index : Nat) (line text : Text)
    (offset : Int) (how : LineChange) (moved : FormatEvent) : Option (Text × FormatEvent) :=
  if offset ≠ 0 then some ((reindent style offset text).trimEnd, moved)
  else if 0 < Indent.trailingWidth style.tabStop line ∧ config.trimTrailing then
    some (text.trimEnd, .trail index how)
  else if how.any then some (text, .change index how)
  else none

/-- The lines of a converted rule below a header at a column. -/
def ruleLines (style : IndentStyle) (column : Nat) (lines : List RuleLine) : Text :=
  lines.flatMap fun l =>
    '\n' :: Indent.ofColumn style (column + style.tabStop * l.depth) ++ l.text

/-- The header of a block. -/
def formatHeader (config : FormatConfig) (style : IndentStyle) (role : LineRole)
    (st : FormatState) (index : Nat) (line : Text) : LineResult :=
  let tab := style.tabStop
  let column := Indent.width tab line
  let snap := Indent.snapOffset tab column st.headerLimit role.isReset
  let isConverted := converts config st line
  let converted : Converted :=
    if isConverted then convertBraces line st.lastSelector
    else ⟨line, [], if Line.isClassOrId line then [] else st.lastSelector, false⟩
  let (text, reindented) := withNormalIndent config style converted.text
  let how : LineChange := { converted := isConverted, reindented }
  let offset := snap + if converted.nested then (tab : Int) else 0
  let newColumn := ((column : Int) + offset).toNat
  let nextColumn := if role.isReset then ((column : Int) + snap).toNat else newColumn + tab
  let next : FormatState :=
    { st with
      propertyColumn := nextColumn
      headerLimit := nextColumn
      inKeyframes := role.isKeyframes
      keyframeColumn := if role.isKeyframes then newColumn + tab else st.keyframeColumn
      afterBraces := isConverted
      lastSelector := converted.lastSelector
      keepBlanks := false }
  match newText? config style index line text offset how (.snap index how) with
  | none => ⟨next, none, []⟩
  | some (newText, event) =>
    ⟨next, replaceLine index line (newText ++ ruleLines style newColumn converted.lines), [event]⟩

/-- A property-like line.  A variable at column zero is global and ends the
    last block. -/
def formatProperty (config : FormatConfig) (style : IndentStyle) (role : LineRole)
    (st : FormatState) (index : Nat) (line : Text) : LineResult :=
  let tab := style.tabStop
  let isGlobal := Line.isVariable line && Indent.width tab line == 0
  let st := if isGlobal then { st with propertyColumn := 0, headerLimit := 0 } else st
  let spaced := role.isDeclaration && !Line.hasSpaceAfterColon line && config.spaceAfterColon
  let text := if spaced then Line.spaceAfterColon line else line
  let converted := converts config st line
  let text := if converted then (convertBraces text st.lastSelector).text else text
  let offset :=
    if Line.isComment line then 0 else Indent.moveOffset tab st.propertyColumn line
  let (text, reindented) :=
    if offset = 0 then withNormalIndent config style text else (text, false)
  let how : LineChange := { converted, spaced, reindented }
  let nextColumn :=
    if role.isBranch then
      if st.inKeyframes then st.keyframeColumn + tab * 2 else st.headerLimit
    else if st.inKeyframes && role.isKeyframePoint then st.keyframeColumn + tab
    else st.propertyColumn
  let next := { st with afterBraces := converted, propertyColumn := nextColumn }
  match newText? config style index line text offset how (.move index offset) with
  | none => ⟨next, none, []⟩
  | some (newText, event) => ⟨next, replaceLine index line newText, [event]⟩

/-- Whether a blank line before the line `next` can go: `next` opens no block. -/
def isRedundantBefore (config : FormatConfig) (st : FormatState) (next : Text) : Bool :=
  config.dropBlankLines && (config.compact || !Line.isProperty next) && !st.keepBlanks &&
    !Line.isClassOrId next && !Line.isAtRule next && !Line.isParentRef next &&
    !Line.isElement next.trim && !Line.isStar next && !Line.isPseudo next

/-- A blank line; `next?` is the line after it. -/
def formatBlank (config : FormatConfig) (st : FormatState) (index : Nat) (line : Text)
    (next? : Option Text) : LineResult :=
  if next?.any (isRedundantBefore config st) then ⟨st, some (removeLine index), [.drop index]⟩
  else if !line.isEmpty && config.trimTrailing then
    ⟨st, replaceLine index line [], [.clear index]⟩
  else ⟨st, none, []⟩

/-- A line of brace syntax that is neither a header nor property-like, such as a
    closing brace. -/
def formatBraces (config : FormatConfig) (st : FormatState) (index : Nat) (line : Text)
    (next? : Option Text) : LineResult :=
  let text := (convertBraces line st.lastSelector).text
  let next := { st with afterBraces := true }
  if text.isAllWhite then
    if next?.any (isRedundantBefore config next) then
      ⟨next, some (removeLine index), [.dropConverted index]⟩
    else ⟨next, replaceLine index line [], [.change index { converted := true }]⟩
  else ⟨next, replaceLine index line text.trimEnd, [.change index { converted := true }]⟩

/-- A line of code: outside of block comments, and no ignore mark. -/
def formatCode (config : FormatConfig) (style : IndentStyle) (st : FormatState) (index : Nat)
    (line : Text) (next? : Option Text) : LineResult :=
  let (role, st) := LineRole.ofLine style.tabStop st line
  let st := if Line.isSpaceMark line then { st with keepBlanks := true } else st
  if role.isHeader line then formatHeader config style role st index line
  else if role.isPropertyLike line then formatProperty config style role st index line
  else if Line.isBlankLine line then formatBlank config st index line next?
  else if converts config st line then formatBraces config st index line next?
  else trimLine config st index line

/-- Formats the line at an index; `next?` is the line after it. -/
def formatLine (config : FormatConfig) (style : IndentStyle) (st : FormatState) (index : Nat)
    (line : Text) (next? : Option Text) : LineResult :=
  if st.ignoreNext then ⟨{ st with ignoreNext := false }, none, []⟩
  else if st.inBlockComment then
    trimLine config { st with inBlockComment := !Line.closesBlockComment line } index line
  else if Line.opensBlockComment line then
    trimLine config { st with inBlockComment := Line.leavesCommentOpen line } index line
  else if Line.isIgnoreMark line then trimLine config { st with ignoreNext := true } index line
  else formatCode config style st index line next?

end Format

end IndentedSass
