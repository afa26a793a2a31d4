/-
  Formatting a text.

  One pass over the lines, from the first to the last, gives at most one edit
  for each line.  `formatEdits` lists the edits, `formatText` applies them and
  `formatLog` is what the pass logs.
-/
import IndentedSass.Format.Line

namespace IndentedSass

namespace Format

/-- Formats lines, the first of which is at an index. -/
def formatLines (config : FormatConfig) (style : IndentStyle) (st : FormatState) (index : Nat) :
    List Text → List LineResult
  | [] => []
  | line :: rest =>
    let result := formatLine config style st index line rest.head?
    result :: formatLines config style result.state (index + 1) rest

/-- What formatting gives for each line of a text. -/
def results (config : FormatConfig) (style : IndentStyle) (text : Text) : List LineResult :=
  if config.enabled then formatLines config style {} 0 (text.lines.map Text.dropReturn) else []

end Format

/-- The edits that format a text. -/
def formatEdits (config : FormatConfig) (style : IndentStyle) (text : Text) : List Edit :=
  (Format.results config style text).filterMap LineResult.edit?

/-- The formatted text. -/
def formatText (config : FormatConfig) (style : IndentStyle) (text : Text) : Text :=
  text.applyEdits (formatEdits config style text)

/-- What formatting a text logs, when logging is asked for. -/
def formatLog (config : FormatConfig) (style : IndentStyle) (text : Text) : List FormatEvent :=
  if config.enabled && config.debug then
    .start :: (Format.results config style text).flatMap LineResult.log
  else []

end IndentedSass
