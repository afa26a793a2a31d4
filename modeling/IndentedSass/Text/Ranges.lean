/-
  Classes of characters as ranges of code points.

  A class is a list of inclusive ranges.  Long tables are written as text: the
  hexadecimal code points of a range with a hyphen between them (`300-36F`), or
  one code point (`5BF`), and blanks between the ranges.

  * `inRanges` decides whether a code point lies in a class;
  * `Ranges.read` reads the written form;
  * `Ranges.class?` looks a character up in a table of classes.
-/
import IndentedSass.Text.Radix

namespace IndentedSass

/-- Whether a code point lies in one of the ranges. -/
def inRanges (ranges : List (Nat × Nat)) (n : Nat) : Bool :=
  ranges.any fun r => r.1 ≤ n && n ≤ r.2

namespace Ranges

/-- Reads one range. -/
def entry? (t : Text) : Option (Nat × Nat) :=
  match t.splitOn '-' with
  | [a] => (Radix.read? 16 a).map fun n => (n, n)
  | [a, b] => do return (← Radix.read? 16 a, ← Radix.read? 16 b)
  | _ => none

/-- The words of a line of a table. -/
def words (line : String) : List Text := Text.splitOn ' ' line.toList

/-- Reads a line of ranges. -/
def read (line : String) : List (Nat × Nat) := (words line).filterMap entry?

/-- Reads several lines of ranges. -/
def readAll (lines : List String) : List (Nat × Nat) := lines.flatMap read

/-- Reads a table of classes, in which every line of ranges has the name of its
    class before it. -/
def readClasses {α : Type} (lines : List (α × String)) : List (α × List (Nat × Nat)) :=
  lines.map fun e => (e.1, read e.2)

/-- The class of a character in a table. -/
def class? {α : Type} (table : List (α × List (Nat × Nat))) (c : Char) : Option α :=
  (table.find? fun e => inRanges e.2 c.toNat).map (·.1)

end Ranges

end IndentedSass
