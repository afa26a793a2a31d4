/-
  Columns of indentation.

  Indentation is the only structural signal of the indented syntax.  It is
  measured in columns: a space is one column, a tab as many as the tab size.

  * `width` measures the blanks a line starts with, `trailingWidth` those it
    ends with;
  * `level` is the nesting level of a column, the nearest multiple of the tab
    size;
  * `snapOffset` is how far a block header moves to reach a tab stop.  It leans
    a tenth of a tab stop to the left, and does not go past a limit unless told
    to;
  * `ofColumn` and `ofLevel` write the blanks for a column or a level
    (`width_spaces`, `width_tabs`: they measure as many columns as were asked
    for).
-/
import IndentedSass.Indent.Style
import IndentedSass.Numeric.Significand
import IndentedSass.Text.Blank

namespace IndentedSass.Indent

/-! ## Measuring -/

/-- The columns of the blanks at the start of a text. -/
def width (tab : Nat) : Text → Nat
  | [] => 0
  | c :: cs => if c = ' ' then width tab cs + 1 else if c = '\t' then width tab cs + tab else 0

/-- The columns of the blanks at the end of a text. -/
def trailingWidth (tab : Nat) (t : Text) : Nat := width tab t.reverse

/-- The largest number a 64-bit count can hold. -/
def maxCount : Nat := UInt64.size - 1

/-- The nesting level of a column: the quotient by the tab size, a half going
    to the deeper level. -/
def level (tab column : Nat) : Nat :=
  min maxCount ((Scaled.ofNat column).div (.ofNat (max tab 1))).round

/-- The number of tab stops nearest to a column, leaning a tenth of a tab stop
    to the left so that a half goes to the shallower one. -/
def snappedStops (tab column : Nat) : Nat :=
  min maxCount (((Scaled.ofNat column).div (.ofNat (max tab 1))).sub .tenth).round

/-- A difference of 64-bit counts. -/
def countDiff (a b : Nat) : Int := ((a : Int) - (b : Int)).bmod UInt64.size

/-- How far a block header at `column` has to move to stand on a tab stop: to
    the nearest one (`snappedStops`), but not to the right of `limit` unless
    `reset` is set.  A header at column zero stays. -/
def snapOffset (tab column limit : Nat) (reset : Bool) : Int :=
  if column = 0 then 0
  else
    let target := max tab 1 * snappedStops tab column % UInt64.size
    if limit < target ∧ reset = false then countDiff limit column else countDiff target column

/-- How far a line has to move to start at column `expected`. -/
def moveOffset (tab expected : Nat) (line : Text) : Int := countDiff expected (width tab line)

/-! ## Writing -/

/-- The blanks of a column count: spaces, or whole tab stops as tabs and the
    rest as spaces. -/
def ofColumn (style : IndentStyle) (column : Nat) : Text :=
  if style.insertSpaces then List.replicate column ' '
  else List.replicate (column / style.tabStop) '\t' ++ List.replicate (column % style.tabStop) ' '

/-- The blanks of a nesting level: tab sizes in spaces, or tabs. -/
def ofLevel (style : IndentStyle) (n : Nat) : Text :=
  if style.insertSpaces then List.replicate (n * style.tabSize) ' ' else List.replicate n '\t'

/-! ## What writing measures -/

theorem width_spaces (tab n : Nat) (t : Text) :
    width tab (List.replicate n ' ' ++ t) = n + width tab t := by
  induction n with
  | zero => simp
  | succ n ih => simp [List.replicate_succ, width, ih]; omega

theorem width_tabs (tab n : Nat) (t : Text) :
    width tab (List.replicate n '\t' ++ t) = n * tab + width tab t := by
  induction n with
  | zero => simp
  | succ n ih => simp [List.replicate_succ, width, ih, Nat.succ_mul]; omega

end IndentedSass.Indent
