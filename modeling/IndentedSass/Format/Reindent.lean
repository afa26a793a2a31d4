/-
  Moving a line.

  * `reindent` moves a line by a number of columns, not past column zero, and
    writes its indentation anew;
  * `normalIndent` writes the indentation anew where it is;
    `hasNormalIndent` tells whether that changes nothing
    (`normalIndent_eq_iff`).
-/
import IndentedSass.Indent.Column

namespace IndentedSass

/-- A line moved by `offset` columns. -/
def reindent (style : IndentStyle) (offset : Int) (line : Text) : Text :=
  Indent.ofColumn style ((Indent.width style.tabStop line : Int) + offset).toNat ++ line.body

/-- A line with its indentation written in the given style. -/
def normalIndent (style : IndentStyle) (line : Text) : Text := reindent style 0 line

/-- Whether the indentation of a line is written in the given style. -/
def hasNormalIndent (style : IndentStyle) (line : Text) : Bool :=
  Indent.ofColumn style (Indent.width style.tabStop line) == line.blanks

theorem normalIndent_eq_iff (style : IndentStyle) (line : Text) :
    normalIndent style line = line ↔ hasNormalIndent style line = true := by
  simp only [normalIndent, reindent, hasNormalIndent, Int.add_zero, Int.toNat_natCast, beq_iff_eq]
  constructor
  · intro h
    exact List.append_cancel_right (h.trans line.blanks_append_body.symm)
  · intro h
    rw [h, line.blanks_append_body]

end IndentedSass
