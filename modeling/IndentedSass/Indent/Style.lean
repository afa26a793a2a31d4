/-
  Indentation settings.

  An editor tells how wide a tab stop is and whether indentation is written
  with spaces.  `IndentStyle.tabStop` is the width that is used for measuring:
  a width of zero counts as one (`tabStop_pos`).
-/
namespace IndentedSass

/-- The indentation settings of an editor. -/
structure IndentStyle where
  /-- The columns a tab stop spans, as configured. -/
  tabSize : Nat := 2
  /-- Whether indentation is written with spaces, not tabs. -/
  insertSpaces : Bool := true
  deriving DecidableEq, Repr

namespace IndentStyle

/-- The columns of a tab stop: the configured size, at least one. -/
def tabStop (style : IndentStyle) : Nat := max style.tabSize 1

theorem tabStop_pos (style : IndentStyle) : 0 < style.tabStop := by
  unfold tabStop; omega

end IndentStyle

end IndentedSass
