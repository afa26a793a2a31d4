/-
  Laws of moving a line.

  A moved line is blanks of a column and what the line says behind its indentation, whatever
  mix of tabs and spaces the indentation was.

  * `width_reindent`, `body_reindent`: the two parts of a moved line;
  * `reindent_reindent`: two moves are one, unless the first one is stopped at column zero;
  * `reindent_moves`: these laws, and what they say of a line that is written in its style.
-/
import Mathlib
import IndentedSass.Format.Reindent
import IndentedSass.Proofs.Format.Placing

namespace IndentedSass

variable {style : IndentStyle} {line : Text} {a : Int}

theorem body_reindent (style : IndentStyle) (offset : Int) (line : Text) :
    (reindent style offset line).body = line.body := by
  have hbody : line.body.body = line.body := by
    rw [← Text.body_blanks line.blanks_blanks line.body, line.blanks_append_body]
  rw [reindent, Text.body_blanks (Indent.blanks_ofColumn style _), hbody]

/-- A line is moved by the offset, but not past column zero. -/
theorem width_reindent (style : IndentStyle) (offset : Int) (line : Text) :
    Indent.width style.tabStop (reindent style offset line) =
      ((Indent.width style.tabStop line : Int) + offset).toNat := by
  rw [reindent, Indent.width_ofColumn, Line.width_body, Nat.add_zero]

/-- Two moves are one when the first one does not stop at column zero. -/
theorem reindent_reindent (h : 0 ≤ (Indent.width style.tabStop line : Int) + a) (b : Int) :
    reindent style b (reindent style a line) = reindent style (a + b) line := by
  have hcolumn : (Indent.width style.tabStop (reindent style a line) : Int) + b =
      Indent.width style.tabStop line + (a + b) := by
    rw [width_reindent, Int.toNat_of_nonneg h, Int.add_assoc]
  rw [reindent, hcolumn, body_reindent, reindent]

theorem normalIndent_normalIndent (style : IndentStyle) (line : Text) :
    normalIndent style (normalIndent style line) = normalIndent style line :=
  reindent_reindent (by omega) 0

/-- A moved line is as far to the right as its column and the offset say, and says the same.
    Moving it again adds the offsets, unless the first move was stopped at column zero.  To
    write its indentation in the style is done by doing it once, and changes nothing exactly
    when the indentation is written so. -/
theorem reindent_moves (style : IndentStyle) (line : Text) (a b : Int) :
    (Indent.width style.tabStop (reindent style a line) : Int) =
        max 0 ((Indent.width style.tabStop line : Int) + a) ∧
      (reindent style a line).body = line.body ∧
      (0 ≤ (Indent.width style.tabStop line : Int) + a →
        reindent style b (reindent style a line) = reindent style (a + b) line) ∧
      normalIndent style (normalIndent style line) = normalIndent style line ∧
      hasNormalIndent style (normalIndent style line) = true ∧
      (hasNormalIndent style line = true ↔ normalIndent style line = line) := by
  refine ⟨?_, body_reindent style a line, fun h => reindent_reindent h b,
    normalIndent_normalIndent style line, ?_, (normalIndent_eq_iff style line).symm⟩
  · rw [width_reindent, Int.toNat_eq_max, max_comm]
  · exact (normalIndent_eq_iff style _).1 (normalIndent_normalIndent style line)

/-- Tabs and spaces in a style without a tab size, moved to the left and back to the right. -/
theorem reindent_moves_untabbed :
    let style : IndentStyle := ⟨0, false⟩
    let line : Text := " \t  é\t".toList
    0 ≤ (Indent.width style.tabStop line : Int) + (-3) ∧
      reindent style 4 (reindent style (-3) line) = "\t\t\t\t\té\t".toList ∧
      hasNormalIndent style line = false := by
  intro style line
  have hcolumn : 0 ≤ (Indent.width style.tabStop line : Int) + (-3) := by decide
  refine ⟨hcolumn, ?_, by decide⟩
  rw [(reindent_moves style line (-3) 4).2.2.1 hcolumn]
  decide

end IndentedSass
