/-
  The edits of the formatter.

  Whatever the formatter does to a line, it does it with one edit of that line.  Its edits
  can therefore be applied in three ways, which all give the formatted text: at once, line
  by line, or one after the other as an editor reports them.

  * `Format.Touches` is what may happen to a line (`Format.touches_formatLine`);
  * `Format.exists_lineEdits`: the edits of a text are edits of its lines;
  * `formatText_edits`: where they are, and what they do in each of the three ways.
-/
import Mathlib
import IndentedSass.Format.Document
import IndentedSass.Proofs.Text.LineEdits
import IndentedSass.Workspace.Registry

namespace IndentedSass

namespace Format

variable {config : FormatConfig} {style : IndentStyle} {st : FormatState} {role : LineRole}
  {index : Nat} {line text : Text} {next? : Option Text} {edit? : Option Edit}

/-! ## One line -/

/-- A line is replaced or kept; one that is not the last may be removed. -/
def Touches (index : Nat) (line : Text) (next? : Option Text) (edit? : Option Edit) : Prop :=
  (∃ new, edit? = replaceLine index line new) ∨ edit? = some (removeLine index) ∧ next?.isSome

theorem touches_none (index : Nat) (line : Text) (next? : Option Text) :
    Touches index line next? none :=
  .inl ⟨line, by simp [replaceLine]⟩

theorem touches_trimLine : Touches index line next? (trimLine config st index line).edit? := by
  unfold trimLine
  split
  · exact .inl ⟨_, rfl⟩
  · exact touches_none index line next?

theorem touches_formatHeader :
    Touches index line next? (formatHeader config style role st index line).edit? := by
  unfold formatHeader
  dsimp only
  split
  · exact touches_none index line next?
  · exact .inl ⟨_, rfl⟩

theorem touches_formatProperty :
    Touches index line next? (formatProperty config style role st index line).edit? := by
  unfold formatProperty
  dsimp only
  split
  · exact touches_none index line next?
  · exact .inl ⟨_, rfl⟩

theorem isSome_of_any {p : Text → Bool} (h : next?.any p = true) : next?.isSome := by
  obtain ⟨next, hnext, -⟩ := (Option.any_eq_true ..).1 h
  exact Option.isSome_of_mem hnext

theorem touches_formatBlank :
    Touches index line next? (formatBlank config st index line next?).edit? := by
  unfold formatBlank
  split_ifs with hnext
  · exact .inr ⟨rfl, isSome_of_any hnext⟩
  · exact .inl ⟨_, rfl⟩
  · exact touches_none index line next?

theorem touches_formatBraces :
    Touches index line next? (formatBraces config st index line next?).edit? := by
  unfold formatBraces
  dsimp only
  split_ifs with hwhite hnext
  · exact .inr ⟨rfl, isSome_of_any hnext⟩
  · exact .inl ⟨_, rfl⟩
  · exact .inl ⟨_, rfl⟩

theorem touches_formatCode :
    Touches index line next? (formatCode config style st index line next?).edit? := by
  unfold formatCode
  generalize LineRole.ofLine style.tabStop st line = p
  obtain ⟨role, st'⟩ := p
  dsimp only
  generalize (if Line.isSpaceMark line then { st' with keepBlanks := true } else st') = st''
  split
  · exact touches_formatHeader
  split
  · exact touches_formatProperty
  split
  · exact touches_formatBlank
  split
  · exact touches_formatBraces
  · exact touches_trimLine

/-- Formatting a line gives one edit of that line at most. -/
theorem touches_formatLine (config : FormatConfig) (style : IndentStyle) (st : FormatState)
    (index : Nat) (line : Text) (next? : Option Text) :
    Touches index line next? (formatLine config style st index line next?).edit? := by
  unfold formatLine
  split
  · exact touches_none index line next?
  split
  · exact touches_trimLine
  split
  · exact touches_trimLine
  split
  · exact touches_trimLine
  · exact touches_formatCode

/-! ## All lines -/

/-- What happens to a line, as an edit of the line with its carriage return. -/
theorem Touches.exists_lineEdit (h : Touches index line.dropReturn next? edit?) :
    ∃ e : LineEdit, edit? = e.edit? index line ∧ (e = .remove → next?.isSome) := by
  obtain ⟨new, rfl⟩ | ⟨rfl, hnext⟩ := h
  · by_cases hsame : new = line.dropReturn
    · exact ⟨.keep, if_pos hsame, LineEdit.noConfusion⟩
    · exact ⟨.replace new, if_neg hsame, LineEdit.noConfusion⟩
  · exact ⟨.remove, rfl, fun _ => hnext⟩

/-- The edits of lines are what happens to each of them. -/
theorem exists_lineEdits (config : FormatConfig) (style : IndentStyle) (st : FormatState)
    (index : Nat) (lines : List Text) :
    ∃ changes : List (Text × LineEdit), changes.map Prod.fst = lines ∧
      (formatLines config style st index (lines.map Text.dropReturn)).filterMap LineResult.edit? =
        LineEdit.edits index changes ∧
      LineEdit.KeepsLast changes := by
  induction lines generalizing st index with
  | nil => exact ⟨[], rfl, rfl, fun change hchange => nomatch hchange⟩
  | cons line rest ih =>
    obtain ⟨changes, hfst, hedits, hlast⟩ := ih
      (formatLine config style st index line.dropReturn (rest.map Text.dropReturn).head?).state
      (index + 1)
    obtain ⟨e, hedit, hremove⟩ := (touches_formatLine config style st index line.dropReturn
      (rest.map Text.dropReturn).head?).exists_lineEdit
    refine ⟨(line, e) :: changes, by rw [List.map_cons, hfst], ?_, hlast.cons fun hnil he => ?_⟩
    · rw [List.map_cons, formatLines, List.filterMap_cons, hedits, LineEdit.edits, hedit]
      cases e.edit? index line <;> rfl
    · have hsome := hremove he
      rw [← hfst, hnil] at hsome
      cases hsome

/-- The edits of a text are what happens to each of its lines. -/
theorem exists_lineEdits_of_text (config : FormatConfig) (style : IndentStyle) (text : Text) :
    ∃ changes : List (Text × LineEdit), changes.map Prod.fst = text.lines ∧
      formatEdits config style text = LineEdit.edits 0 changes ∧ LineEdit.KeepsLast changes := by
  unfold formatEdits results
  split
  · exact exists_lineEdits config style {} 0 text.lines
  · refine ⟨text.lines.map (·, .keep), by rw [List.map_map]; exact List.map_id _, ?_,
      fun change hchange => ?_⟩
    · have hnone : ∀ (lines : List Text) (index : Nat),
          LineEdit.edits index (lines.map (·, .keep)) = [] := by
        intro lines
        induction lines with
        | nil => exact fun _ => rfl
        | cons line rest ih => exact fun index => ih (index + 1)
      rw [hnone]
      rfl
    · have hmem := List.mem_of_getLast? hchange
      obtain ⟨line, -, rfl⟩ := List.mem_map.1 hmem
      exact LineEdit.noConfusion

end Format

/-- The edits of the formatter go through the text from its start to its end.  Each of them
    replaces one line or removes it with its line break, and no two of them overlap.  What
    comes out is the formatted text, whether they are applied at once, each line is replaced
    or removed where it stands, or an open document is changed by one of them after the
    other, the last one first. -/
theorem formatText_edits (config : FormatConfig) (style : IndentStyle) (text : Text)
    (hcount : text.lines.length < positionLimit)
    (hlength : ∀ line ∈ text.lines, line.dropReturn.length < positionLimit)
    (hreturn : ∀ line ∈ text.lines, line.dropReturn.getLast? ≠ some '\r') :
    (formatEdits config style text).Pairwise Edit.Before ∧
      (∀ e ∈ formatEdits config style text, e.CoversLine text.lines) ∧
      formatText config style text = text.replaceLines (formatEdits config style text) ∧
      ∀ (g : Registry) (uri : Uri) (version : Int), g.documentText? uri = some text →
        (g.changeDocument uri ((formatEdits config style text).reverse.map Edit.change)
            version).1.documentText? uri =
          some (formatText config style text) := by
  obtain ⟨changes, hfst, hedits, hlast⟩ := Format.exists_lineEdits_of_text config style text
  have hmem : ∀ change ∈ changes, change.1 ∈ text.lines :=
    fun change hchange => hfst ▸ List.mem_map_of_mem hchange
  have hlength' : ∀ change ∈ changes, change.1.dropReturn.length < positionLimit :=
    fun change hchange => hlength change.1 (hmem change hchange)
  have hreturn' : ∀ change ∈ changes, change.1.dropReturn.dropReturn = change.1.dropReturn :=
    fun change hchange => if_neg (hreturn change.1 (hmem change hchange))
  have hcount' : 0 + changes.length < positionLimit := by
    rwa [Nat.zero_add, ← List.length_map Prod.fst, hfst]
  have htext : formatText config style text = Text.unlines (LineEdit.applyAll changes) := by
    rw [formatText, hedits]
    exact Text.applyEdits_lines hfst.symm (Nat.le_of_lt hcount) hlength hlast
  refine ⟨?_, ?_, ?_, ?_⟩
  · rw [hedits]
    exact LineEdit.pairwise_edits hcount' hlength'
  · rw [hedits, ← hfst]
    exact fun e he => LineEdit.coversLine_of_mem_edits hcount' hlength' rfl hreturn' hlast he
  · rw [htext, Text.replaceLines, ← hfst, hedits,
      LineEdit.filterMap_replaced hcount' hlength' hreturn']
  · intro g uri version hdocument
    obtain ⟨d, hget, rfl⟩ := Option.map_eq_some_iff.1 hdocument
    have hfold := LineEdit.foldr_edits []
      (fun l hl => Text.not_mem_of_mem_lines (hfst ▸ hl)) hcount' hlength' hlast
    rw [List.nil_append, hfst, Text.unlines_lines, List.nil_append, ← htext] at hfold
    rw [Registry.changeDocument, hget, hedits]
    simp only [Registry.documentText?, Table.get?_insert_self, Option.map_some, List.foldl_map,
      List.foldl_reverse]
    exact congrArg some hfold

/-- Braces, returns and a character of two bytes: the five edits, two of which remove a line, give
    the same text as lines that are replaced and as changes of an open document. -/
theorem formatText_edits_of_sheet :
    let sheet : Text := ".a \x7b\r\n    é: c;\r\n\r\n\r\n\x7d\r\n  .b\n".toList
    let uri : Uri := .ofPath (.ofBytes (FileName.ofString "/a.sass"))
    let g : Registry := ({} : Registry).openDocument uri sheet 1
    (formatEdits {} {} sheet).length = 5 ∧
      sheet.replaceLines (formatEdits {} {} sheet) = ".a\r\n  é: c\r\n\r\n  .b\n".toList ∧
      (g.changeDocument uri ((formatEdits {} {} sheet).reverse.map Edit.change) 2).1.documentText?
          uri =
        some (sheet.replaceLines (formatEdits {} {} sheet)) := by
  intro sheet uri g
  obtain ⟨-, -, hlines, hchange⟩ := formatText_edits {} {} sheet (by decide +kernel)
    (by decide +kernel) (by decide +kernel)
  refine ⟨by decide +kernel, by decide +kernel, ?_⟩
  rw [← hlines]
  exact hchange g uri 2 (by simp [g, Registry.documentText?, Registry.openDocument])

end IndentedSass
