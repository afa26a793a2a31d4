/-
  Edits of a text.

  An edit replaces a range by a new text.  A list of edits refers to positions
  in the unedited text (`Text.applyEdits`); it is applied from the end of the
  text to its start, so that an edit does not move the ranges still to come.
  A content change is what an editor reports: a new text for a range of the
  current text, or for the whole.
-/
import IndentedSass.Text.Position

namespace IndentedSass

/-- A replacement of a range. -/
structure Edit where
  /-- What is replaced. -/
  range : Range
  /-- What takes its place. -/
  newText : Text
  deriving DecidableEq, Repr

/-- A change of a document: of a range, or (without one) of the whole text. -/
structure Change where
  /-- What is replaced; everything when absent. -/
  range : Option Range
  /-- What takes its place. -/
  text : Text
  deriving DecidableEq, Repr

/-- A replacement between two byte offsets. -/
structure Splice where
  /-- The first byte replaced. -/
  start : Nat
  /-- The first byte kept again. -/
  stop : Nat
  /-- What takes the place of the bytes between. -/
  newText : Text
  deriving DecidableEq, Repr

namespace Splice

/-- The text after the replacement. -/
def apply (s : Splice) (t : Text) : Text :=
  t.takeBytes s.start ++ s.newText ++ t.dropBytes s.stop

/-- Whether `a` is applied no later than `b`: the one that starts further
    right first, of two with one start the longer first. -/
def notAfter (a b : Splice) : Bool := b.start < a.start || (a.start == b.start && b.stop ≤ a.stop)

end Splice

/-- An edit at the byte offsets it has in `t`; none when a line of its range is
    past the end of the text.  A reversed range stands for its start. -/
def Edit.splice? (t : Text) (e : Edit) : Option Splice := do
  let start ← e.range.start.offset? t
  let stop ← e.range.stop.offset? t
  return ⟨start, max stop start, e.newText⟩

namespace Text

/-- The text after a list of edits that all refer to the unedited text. -/
def applyEdits (t : Text) (edits : List Edit) : Text :=
  ((edits.filterMap (Edit.splice? t)).mergeSort Splice.notAfter).foldl (fun r s => s.apply r) t

/-- The text after a reported change.  A line past the end of the text stands
    for the end, a reversed range for its start. -/
def applyChange (t : Text) (change : Change) : Text :=
  match change.range with
  | none => change.text
  | some range =>
    let start := (range.start.offset? t).getD t.size
    let stop := (range.stop.offset? t).getD t.size
    Splice.apply ⟨start, max stop start, change.text⟩ t

end Text

end IndentedSass
