/-
  Positions in a text.

  A position is a line and a character column, both counted from zero and both
  32-bit numbers: a larger count keeps its low 32 bits.

  * `Position.offset?` resolves a position to a byte offset.  A column past the
    end of its line stands for the end of the line (before `\r\n`); a line past
    the end of the text has no offset;
  * `Range.within`, `Range.visible` and `Range.wholeLine` are ranges on one
    line, `Range.lineAndBreak` also covers the line break.
-/
import IndentedSass.Text.Blank

namespace IndentedSass

/-- The number of values of a position's line or column. -/
def positionLimit : Nat := UInt32.size

/-- A place in a text. -/
structure Position where
  /-- The line, from zero. -/
  line : Nat
  /-- The characters before the place on its line. -/
  character : Nat
  deriving DecidableEq, Repr

/-- A stretch of a text. -/
structure Range where
  /-- Where the stretch begins. -/
  start : Position
  /-- Where the stretch ends, exclusively. -/
  stop : Position
  deriving DecidableEq, Repr

namespace Position

/-- The position of a line and a column, each reduced to 32 bits. -/
def ofCounts (line character : Nat) : Position :=
  ⟨line % positionLimit, character % positionLimit⟩

/-- The bytes before line `n` and the text from there on. -/
def lineStart? : Nat → Text → Option (Nat × Text)
  | 0, t => some (0, t)
  | n + 1, t =>
    match t.dropWhile (· ≠ '\n') with
    | [] => none
    | _ :: rest =>
      (lineStart? n rest).map fun (before, line) =>
        (Text.size (t.takeWhile (· ≠ '\n')) + 1 + before, line)

/-- The byte offset of a position. -/
def offset? (t : Text) (p : Position) : Option Nat :=
  (lineStart? p.line t).map fun (before, rest) =>
    let line := Text.dropReturn (rest.takeWhile (· ≠ '\n'))
    before + Text.size (line.take p.character)

end Position

namespace Range

/-- The stretch of one line between two columns. -/
def within (line start stop : Nat) : Range :=
  ⟨.ofCounts line start, .ofCounts line stop⟩

/-- The visible part of a line: after the blanks it starts with, without the
    white space it ends with. -/
def visible (line : Nat) (t : Text) : Range :=
  let start := t.blanks.length
  within line start (max t.trimEnd.length start)

/-- A whole line, without its line break. -/
def wholeLine (line : Nat) (t : Text) : Range := within line 0 t.dropReturn.length

/-- A whole line and its line break. -/
def lineAndBreak (line : Nat) : Range :=
  ⟨.ofCounts line 0, ⟨(line % positionLimit + 1) % positionLimit, 0⟩⟩

end Range

end IndentedSass
