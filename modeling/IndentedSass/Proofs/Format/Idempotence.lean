/-
  Formatting a text twice.

  The second pass goes through the lines that the first one left, in step with it: it
  meets the same states (`Repeats`) and has nothing to do.

  * `Format.kept` lists the lines of a formatted text; no line of them is changed once
    more (`formatLines_kept`);
  * `Format.changes` is what happens to each line, with the carriage return at its end;
    `lines_formatText` reads the formatted lines off the formatted text;
  * `formatText_formatText`: formatting a formatted text gives no edits;
  * `formatText_of_hidden_mark`: it may do so where trimming a line uncovers a mark.
-/
import Mathlib
import IndentedSass.Format.Document
import IndentedSass.Proofs.Format.Repeat
import IndentedSass.Proofs.Text.LineEdits

namespace IndentedSass

namespace Format

variable {config : FormatConfig} {style : IndentStyle} {st st' : FormatState} {line : Text}
  {lines : List Text}

/-! ## Blank lines -/

/-- A blank line is dropped before another one, if blank lines are dropped at all. -/
theorem isRedundantBefore_of_isBlankLine {next : Text} (hblank : Line.isBlankLine line = true)
    (hnext : isRedundantBefore config st next = true) : isRedundantBefore config st line = true := by
  rw [isRedundantBefore_congr (Line.traits_of_isBlankLine hblank)]
  simp only [isRedundantBefore, Bool.and_eq_true] at hnext ⊢
  obtain ⟨⟨⟨⟨⟨⟨⟨⟨hdrop, -⟩, hkeep⟩, -⟩, -⟩, -⟩, -⟩, -⟩, -⟩ := hnext
  refine ⟨⟨⟨⟨⟨⟨⟨⟨hdrop, ?_⟩, hkeep⟩, ?_⟩, ?_⟩, ?_⟩, ?_⟩, ?_⟩, ?_⟩
  · exact Bool.or_true _
  all_goals decide

/-- Fewer blank lines are dropped in a state that repeats another one. -/
theorem Repeats.isRedundantBefore (hrep : Repeats st st')
    (h : Format.isRedundantBefore config st' line = true) :
    Format.isRedundantBefore config st line = true := by
  obtain ⟨keep, hkeep, rfl⟩ := hrep
  simp only [Format.isRedundantBefore, Bool.and_eq_true, Bool.not_eq_true'] at h ⊢
  refine ⟨⟨⟨⟨⟨⟨⟨h.1.1.1.1.1.1.1, ?_⟩, h.1.1.1.1.1.2⟩, h.1.1.1.1.2⟩, h.1.1.1.2⟩, h.1.1.2⟩, h.1.2⟩, h.2⟩
  refine Bool.eq_false_iff.2 fun htrue => ?_
  rw [hkeep htrue] at h
  exact absurd h.1.1.1.1.1.1.2 (by decide)

theorem drops_iff {next? : Option Text} : drops config st line next? = true ↔
    st.ignoreNext = false ∧ st.inBlockComment = false ∧ Line.isBlankLine line = true ∧
      ∃ next ∈ next?, isRedundantBefore config st next = true := by
  simp only [drops, Bool.and_eq_true, Bool.not_eq_true', Option.any_eq_true, and_assoc]
  rfl

/-- A blank line leaves the state as it is. -/
theorem advance_of_isBlankLine (hignore : st.ignoreNext = false) (hcomment : st.inBlockComment = false)
    (hblank : Line.isBlankLine line = true) : (advance config style st line).1 = st := by
  have hinert := Line.isInert_of_isBlankLine hblank
  have hmark := isMark_of_isBlankLine hblank
  have hopens : Line.opensBlockComment line = false :=
    congrArg Line.Traits.opensBlockComment (Line.traits_of_isBlankLine hblank)
  rw [advance, hignore, hcomment, hopens, Line.isIgnoreMark, hmark]
  simp only [Bool.false_eq_true, if_false]
  rw [advanceCode, codeState_of_isBlankLine hblank, ofLine_of_isInert hinert, Line.isResetMark, hmark,
    isHeader_of_isInert hinert, isPropertyLike_of_isInert hinert]
  rfl

/-- So does a line that is dropped. -/
theorem advance_of_drops {next? : Option Text} (h : drops config st line next? = true) :
    (advance config style st line).1 = st := by
  obtain ⟨hignore, hcomment, hblank, -⟩ := drops_iff.1 h
  exact advance_of_isBlankLine hignore hcomment hblank

/-! ## The second pass -/

/-- The lines of a formatted text. -/
def kept (config : FormatConfig) (style : IndentStyle) : FormatState → List Text → List Text
  | _, [] => []
  | st, line :: rest =>
    let after := kept config style (advance config style st line).1 rest
    if drops config st line rest.head? then after else (advance config style st line).2 :: after

/-- A blank line that was kept is kept once more. -/
theorem drops_again (hlines : ∀ l ∈ line :: lines, Plain config style l) (hrep : Repeats st st')
    (hkept : drops config st line lines.head? = false) :
    drops config st' (advance config style st line).2
      (kept config style (advance config style st line).1 lines).head? = false := by
  refine Bool.eq_false_iff.2 fun hdrops => ?_
  obtain ⟨hignore, hcomment, hblank, next, hnext, hredundant⟩ := drops_iff.1 hdrops
  have halike := alike_advance st (hlines line (List.mem_cons_self ..))
  rw [show Line.isBlankLine _ = Line.isBlankLine line from
    congrArg Line.Traits.isBlankLine halike.traits] at hblank
  have hst : st.ignoreNext = false ∧ st.inBlockComment = false := by
    obtain ⟨keep, -, rfl⟩ := hrep
    exact ⟨hignore, hcomment⟩
  rw [advance_of_isBlankLine hst.1 hst.2 hblank] at hnext
  cases lines with
  | nil => cases hnext
  | cons l rest =>
    have hnot : isRedundantBefore config st l ≠ true := by
      intro h
      exact Bool.eq_false_iff.1 hkept (drops_iff.2 ⟨hst.1, hst.2, hblank, l, rfl, h⟩)
    by_cases hl : drops config st l rest.head? = true
    · -- two blank lines: the first of them would have been dropped
      obtain ⟨-, -, hblank', after, -, hafter⟩ := drops_iff.1 hl
      exact hnot (isRedundantBefore_of_isBlankLine hblank' hafter)
    · rw [kept, if_neg hl, List.head?_cons, Option.mem_some_iff] at hnext
      have htraits := (alike_advance st (hlines l (by simp))).traits
      rw [← hnext, isRedundantBefore_congr htraits] at hredundant
      exact hnot (hrep.isRedundantBefore hredundant)

/-- The second pass changes no line. -/
theorem formatLines_kept (ht : style.tabStop < 2 ^ 50) (hst : Settled style.tabStop st)
    (hlines : ∀ line ∈ lines, Plain config style line) (hrep : Repeats st st') (index : Nat) :
    ∀ result ∈ formatLines config style st' index (kept config style st lines),
      result.edit? = none := by
  -- the invariant: the two passes are in states that repeat each other
  induction lines generalizing st st' index with
  | nil => simp [kept, formatLines]
  | cons line rest ih =>
    have hline := hlines line (List.mem_cons_self ..)
    have hrest : ∀ l ∈ rest, Plain config style l :=
      fun l hl => hlines l (List.mem_cons_of_mem line hl)
    have hnext := hst.advance config ht hline.column
    cases hdrops : drops config st line rest.head? with
    | true =>
      rw [kept, if_pos hdrops, advance_of_drops hdrops]
      exact ih hst hrest hrep index
    | false =>
      have hagain := drops_again hlines hrep hdrops
      obtain ⟨hnew, hrep'⟩ := advance_again ht hst hline hrep
      obtain ⟨hstate, hedit⟩ := formatLine_eq index
        (kept config style (advance config style st line).1 rest).head? ht (hrep.settled hst)
        (regular_advance ht hst hline)
      rw [kept, if_neg (by simp [hdrops]), formatLines]
      intro result hresult
      rcases List.mem_cons.1 hresult with rfl | hlater
      · rw [hedit, hagain, hnew]
        exact replaceLine_self ..
      · rw [hstate] at hlater
        exact ih hnext hrest hrep' (index + 1) result hlater

/-! ## The first pass -/

/-- What happens to the lines of a text, each with the carriage return at its end. -/
def changes (config : FormatConfig) (style : IndentStyle) :
    FormatState → List Text → List (Text × LineEdit)
  | _, [] => []
  | st, line :: rest =>
    let new := (advance config style st line.dropReturn).2
    (line,
      if drops config st line.dropReturn (rest.map Text.dropReturn).head? then .remove
      else if new = line.dropReturn then .keep else .replace new) ::
      changes config style (advance config style st line.dropReturn).1 rest

variable (config style) in
theorem map_fst_changes (st : FormatState) (lines : List Text) :
    (changes config style st lines).map Prod.fst = lines := by
  induction lines generalizing st with
  | nil => rfl
  | cons line rest ih => rw [changes, List.map_cons, ih]

variable (config style) in
/-- There is nothing behind the last line that a blank line could be redundant before. -/
theorem keepsLast_changes (st : FormatState) (lines : List Text) :
    LineEdit.KeepsLast (changes config style st lines) := by
  induction lines generalizing st with
  | nil => exact fun change hchange => nomatch hchange
  | cons line rest ih =>
    cases rest with
    | nil =>
      intro change hchange
      simp only [changes, drops, List.map_nil, List.head?_nil, Option.any_none, Bool.and_false,
        Bool.false_eq_true, if_false, List.getLast?_singleton, Option.mem_some_iff] at hchange
      rw [← hchange]
      dsimp only
      split <;> simp
    | cons next rest =>
      intro change hchange
      refine ih (advance config style st line.dropReturn).1 change ?_
      rw [changes, changes, List.getLast?_cons_cons] at hchange
      exact hchange

/-- A line that ends plainly ends in no carriage return. -/
theorem dropReturn_of_endsPlainly (h : EndsPlainly line) : line.dropReturn = line := by
  refine if_neg fun hlast => ?_
  exact absurd (h '\r' hlast (by decide)) (by decide)

/-- Behind a line that ends plainly there is one carriage return at most. -/
theorem endings_of_endsPlainly (h : EndsPlainly line.dropReturn) : line.endings = line.ending := by
  have hnone : line.dropReturn.ending = [] := by
    have hsame := line.dropReturn.dropReturn_append_ending
    rw [dropReturn_of_endsPlainly h] at hsame
    exact List.append_right_eq_self.1 hsame
  rw [Text.endings, hnone, List.nil_append]

theorem dropReturn_append_ending (h : EndsPlainly line) (other : Text) :
    Text.dropReturn (line ++ other.ending) = line := by
  unfold Text.ending
  split
  · simp [Text.dropReturn]
  · rw [List.append_nil]
    exact dropReturn_of_endsPlainly h

/-- The edits of the first pass are those changes. -/
theorem filterMap_formatLines (ht : style.tabStop < 2 ^ 50) (hst : Settled style.tabStop st)
    (hlines : ∀ line ∈ lines, Plain config style line.dropReturn) (index : Nat) :
    (formatLines config style st index (lines.map Text.dropReturn)).filterMap LineResult.edit? =
      LineEdit.edits index (changes config style st lines) := by
  induction lines generalizing st index with
  | nil => rfl
  | cons line rest ih =>
    have hline := hlines line (List.mem_cons_self ..)
    obtain ⟨hstate, hedit⟩ := formatLine_eq index (rest.map Text.dropReturn).head? ht hst
      hline.regular
    have hrest := ih (hst.advance config ht hline.column)
      (fun l hl => hlines l (List.mem_cons_of_mem line hl)) (index + 1)
    rw [List.map_cons, formatLines, List.filterMap_cons, hstate, hrest, changes, LineEdit.edits,
      hedit]
    by_cases hdrops : drops config st line.dropReturn (rest.map Text.dropReturn).head? = true
    · rw [if_pos hdrops, if_pos hdrops]
      rfl
    rw [if_neg hdrops, if_neg hdrops]
    by_cases hsame : (advance config style st line.dropReturn).2 = line.dropReturn
    · rw [if_pos hsame, hsame, replaceLine_self]
      rfl
    · rw [if_neg hsame, replaceLine, if_neg hsame]
      rfl

/-- The changes leave the lines of the formatted text. -/
theorem map_dropReturn_applyAll (ht : style.tabStop < 2 ^ 50) (hst : Settled style.tabStop st)
    (hlines : ∀ line ∈ lines, Plain config style line.dropReturn) :
    (LineEdit.applyAll (changes config style st lines)).map Text.dropReturn =
      kept config style st (lines.map Text.dropReturn) := by
  induction lines generalizing st with
  | nil => rfl
  | cons line rest ih =>
    have hline := hlines line (List.mem_cons_self ..)
    have hrest := ih (hst.advance config ht hline.column)
      fun l hl => hlines l (List.mem_cons_of_mem line hl)
    rw [LineEdit.applyAll] at hrest
    rw [changes, LineEdit.applyAll, List.filterMap_cons, List.map_cons, kept]
    dsimp only
    by_cases hdrops : drops config st line.dropReturn (rest.map Text.dropReturn).head? = true
    · rw [if_pos hdrops, if_pos hdrops]
      exact hrest
    rw [if_neg hdrops, if_neg hdrops]
    by_cases hsame : (advance config style st line.dropReturn).2 = line.dropReturn
    · rw [if_pos hsame, hsame]
      exact congrArg (line.dropReturn :: ·) hrest
    · rw [if_neg hsame]
      have hends := (regular_advance ht hst hline).ends
      rw [LineEdit.apply, endings_of_endsPlainly hline.ends]
      exact congrArg₂ (· :: ·) (dropReturn_append_ending hends line) hrest

/-- No line break comes into a line. -/
theorem not_mem_applyAll (ht : style.tabStop < 2 ^ 50) (hst : Settled style.tabStop st)
    (hlines : ∀ line ∈ lines, Plain config style line.dropReturn)
    (hfeed : ∀ line ∈ lines, '\n' ∉ line) :
    ∀ line ∈ LineEdit.applyAll (changes config style st lines), '\n' ∉ line := by
  induction lines generalizing st with
  | nil => simp [changes, LineEdit.applyAll]
  | cons line rest ih =>
    have hline := hlines line (List.mem_cons_self ..)
    have hfeed' := hfeed line (List.mem_cons_self ..)
    have hrest := ih (hst.advance config ht hline.column)
      (fun l hl => hlines l (List.mem_cons_of_mem line hl))
      fun l hl => hfeed l (List.mem_cons_of_mem line hl)
    have hsplit := line.dropReturn_append_ending
    intro l hl
    rw [changes, LineEdit.applyAll, List.filterMap_cons] at hl
    dsimp only at hl
    by_cases hdrops : drops config st line.dropReturn (rest.map Text.dropReturn).head? = true
    · rw [if_pos hdrops] at hl
      exact hrest l hl
    rw [if_neg hdrops] at hl
    by_cases hsame : (advance config style st line.dropReturn).2 = line.dropReturn
    · rw [if_pos hsame] at hl
      rcases List.mem_cons.1 hl with rfl | hl
      · exact hfeed'
      · exact hrest l hl
    · rw [if_neg hsame, LineEdit.apply, endings_of_endsPlainly hline.ends] at hl
      rcases List.mem_cons.1 hl with rfl | hl
      · rw [← hsplit, List.mem_append, not_or] at hfeed'
        rw [List.mem_append, not_or]
        refine ⟨fun hnew => ?_, hfeed'.2⟩
        rcases mem_of_mem_advance ht hst hline hnew with hblank | hmem
        · exact absurd hblank (by decide)
        · exact hfeed'.1 hmem
      · exact hrest l hl

end Format

/-! ## Formatting twice -/

variable {config : FormatConfig} {style : IndentStyle} {text : Text}

/-- The lines of a formatted text. -/
theorem lines_formatText (ht : style.tabStop < 2 ^ 50) (henabled : config.enabled = true)
    (hcount : text.lines.length ≤ positionLimit)
    (hlength : ∀ line ∈ text.lines, line.dropReturn.length < positionLimit)
    (hlines : ∀ line ∈ text.lines, Format.Plain config style line.dropReturn) :
    (formatText config style text).lines.map Text.dropReturn =
      Format.kept config style {} (text.lines.map Text.dropReturn) := by
  have hst := Format.settled_start style.tabStop
  have hfst := Format.map_fst_changes config style {} text.lines
  have hlast := Format.keepsLast_changes config style {} text.lines
  have hedits : formatEdits config style text =
      LineEdit.edits 0 (Format.changes config style {} text.lines) := by
    rw [formatEdits, Format.results, if_pos henabled]
    exact Format.filterMap_formatLines ht hst hlines 0
  have hkept : (formatText config style text).lines =
      LineEdit.applyAll (Format.changes config style {} text.lines) := by
    rw [formatText, hedits]
    exact Text.lines_applyEdits hfst.symm hcount hlength hlast
      (Format.not_mem_applyAll ht hst hlines fun line hline => Text.not_mem_of_mem_lines hline)
  rw [hkept]
  exact Format.map_dropReturn_applyAll ht hst hlines

/-- Formatting a formatted text gives no edits and changes nothing, where no brace syntax
    is converted and trimming a line does not uncover a mark. -/
theorem formatText_formatText (config : FormatConfig) (style : IndentStyle) (text : Text)
    (htab : style.tabStop < 2 ^ 50) (hcount : text.lines.length ≤ positionLimit)
    (hlength : ∀ line ∈ text.lines, line.dropReturn.length < positionLimit)
    (hlines : ∀ line ∈ text.lines, Format.Plain config style line.dropReturn) :
    formatEdits config style (formatText config style text) = [] ∧
      formatText config style (formatText config style text) = formatText config style text := by
  have hedits : formatEdits config style (formatText config style text) = [] := by
    rw [formatEdits, Format.results]
    split
    · rename_i henabled
      rw [lines_formatText htab henabled hcount hlength hlines]
      refine List.filterMap_eq_nil_iff.2 ?_
      refine Format.formatLines_kept htab (Format.settled_start _) ?_ (.rfl _) 0
      intro line hline
      obtain ⟨raw, hraw, rfl⟩ := List.mem_map.1 hline
      exact hlines raw hraw
    · rfl
  refine ⟨hedits, ?_⟩
  rw [formatText, hedits, Text.applyEdits, List.filterMap_nil, List.mergeSort_nil, List.foldl_nil]

/-- A sheet that the first pass changes, with a property at a column of its own, a header without a
    body, and an ignore mark that has a blank behind it. -/
theorem formatText_formatText_rules :
    formatEdits {} {} "a\n     b:c \n\n  x: y\n.d  \n// I \n    e".toList ≠ [] ∧
      formatEdits {} {}
        (formatText {} {} "a\n     b:c \n\n  x: y\n.d  \n// I \n    e".toList) = [] := by
  have hagain := formatText_formatText {} {}
    "a\n     b:c \n\n  x: y\n.d  \n// I \n    e".toList
    (by decide) (by decide) (by decide) (by decide)
  exact ⟨by decide +kernel, hagain.1⟩

/-- A mark that is followed by white space other than blanks is none, but it becomes one
    when it is trimmed.  The second pass then leaves the header below it alone, and moves
    `b: c` as if there were none. -/
theorem formatText_of_hidden_mark :
    (∀ line ∈ Text.lines "// I\u00a0 \na\n  b: c".toList, EndsPlainly line.dropReturn ∧
      Indent.width 2 line < 2 ^ 50 ∧ Line.isBraceSyntax line false = false) ∧
    formatText {} {} "// I\u00a0 \na\n  b: c".toList = "// I\na\n  b: c".toList ∧
    formatText {} {} (formatText {} {} "// I\u00a0 \na\n  b: c".toList) ≠
      formatText {} {} "// I\u00a0 \na\n  b: c".toList ∧
    formatEdits {} {} (formatText {} {} "// I\u00a0 \na\n  b: c".toList) ≠ [] := by
  decide +kernel

end IndentedSass
