/-
  What the formatter is asked to do.

  Each part of formatting can be switched off.  An editor sends the switches in
  its settings: as the whole settings (`{"sass": {"format": …}}`), as their
  `sass` section or as the `format` section itself.

  * `FormatConfig.ofSettings` finds the section and reads it.  A switch that is
    missing keeps its default, an unknown one is ignored, a known one that is no
    truth value is an error.
-/
import IndentedSass.Json
import IndentedSass.LoadError

namespace IndentedSass

/-- The switches of the formatter. -/
structure FormatConfig where
  /-- Formatting is done at all. -/
  enabled : Bool := true
  /-- Brace syntax is converted to the indented syntax. -/
  convertBraces : Bool := true
  /-- White space at the end of lines is removed. -/
  trimTrailing : Bool := true
  /-- Blank lines that no block header follows are removed. -/
  dropBlankLines : Bool := true
  /-- So are the blank lines before properties. -/
  compact : Bool := true
  /-- A missing space after the colon of a declaration is inserted. -/
  spaceAfterColon : Bool := true
  /-- Indentation is written anew with the configured tabs or spaces. -/
  normalizeIndent : Bool := false
  /-- Every edit is logged. -/
  debug : Bool := false
  deriving DecidableEq, Repr

namespace FormatConfig

/-- The names of the switches in the settings, in their order. -/
def switchNames : List String :=
  ["enabled", "convert", "deleteWhitespace", "deleteEmptyRows", "deleteCompact",
    "setPropertySpace", "replaceSpacesOrTabs", "debug"]

/-- The part of the settings that holds the switches. -/
def section? (settings : Json) : Json :=
  match settings.get? "sass" with
  | some sass => (sass.get? "format").getD sass
  | none => (settings.get? "format").getD settings

/-- The switches of a section: an object, or an array of their values in order. -/
def ofSection? (j : Json) : Option FormatConfig := do
  let r ← Record.ofJson? [] switchNames j
  return {
    enabled := ← r.flag "enabled" true
    convertBraces := ← r.flag "convert" true
    trimTrailing := ← r.flag "deleteWhitespace" true
    dropBlankLines := ← r.flag "deleteEmptyRows" true
    compact := ← r.flag "deleteCompact" true
    spaceAfterColon := ← r.flag "setPropertySpace" true
    normalizeIndent := ← r.flag "replaceSpacesOrTabs" false
    debug := ← r.flag "debug" false }

/-- The switches in the settings of an editor. -/
def ofSettings (settings : Json) : Except LoadError FormatConfig :=
  match ofSection? (section? settings) with
  | some config => .ok config
  | none => .error .settings

/-- The switches as JSON. -/
def toJson (c : FormatConfig) : Json :=
  .obj (switchNames.zip ([c.enabled, c.convertBraces, c.trimTrailing, c.dropBlankLines, c.compact,
    c.spaceAfterColon, c.normalizeIndent, c.debug].map Json.bool))

end FormatConfig

end IndentedSass
