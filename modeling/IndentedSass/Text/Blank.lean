/-
  White space.

  Two classes of characters matter: the space and the tab, which make up
  indentation (`isBlank`), and the characters of the Unicode property
  `White_Space`, which trimming removes (`isWhite`).

  * `trimStart`, `trimEnd` and `trim` remove white space at the ends;
    `trimmed_append_end` says that trimming the end only cuts white space off;
  * `isAllWhite` holds of the texts that are white space only;
  * `isWhite_of_isBlank`: indentation is white space.
-/
import IndentedSass.Text.Basic

namespace IndentedSass

/-- A character of the indentation: a space or a tab. -/
def isBlank (c : Char) : Bool := c == ' ' || c == '\t'

/-- A character with the Unicode property `White_Space`. -/
def isWhite (c : Char) : Bool :=
  let n := c.toNat
  (0x9 ≤ n && n ≤ 0xD) || n == 0x20 || n == 0x85 || n == 0xA0 || n == 0x1680 ||
    (0x2000 ≤ n && n ≤ 0x200A) || n == 0x2028 || n == 0x2029 || n == 0x202F || n == 0x205F ||
    n == 0x3000

theorem isWhite_of_isBlank {c : Char} (h : isBlank c = true) : isWhite c = true := by
  simp only [isBlank, Bool.or_eq_true, beq_iff_eq] at h
  rcases h with rfl | rfl <;> decide

namespace Text

/-- The text without the white space at its start. -/
def trimStart (t : Text) : Text := t.dropWhile isWhite

/-- The text without the white space at its end. -/
def trimEnd (t : Text) : Text := t.dropEnd isWhite

/-- The text without the white space at both ends. -/
def trim (t : Text) : Text := trimEnd (trimStart t)

/-- A text of white space only. -/
def isAllWhite (t : Text) : Bool := List.isEmpty (trim t)

/-- The blanks at the start of a text. -/
def blanks (t : Text) : Text := t.takeWhile isBlank

/-- The text after the blanks at its start. -/
def body (t : Text) : Text := t.dropWhile isBlank

theorem blanks_append_body (t : Text) : blanks t ++ body t = t :=
  List.takeWhile_append_dropWhile

theorem trimmed_append_end (t : Text) :
    trimEnd t ++ (t.reverse.takeWhile isWhite).reverse = t := by
  rw [trimEnd, dropEnd, ← List.reverse_append, List.takeWhile_append_dropWhile,
    List.reverse_reverse]

end Text

end IndentedSass
