/-
  The lines of a formatted text.

  Without conversion each line of a text is dropped, when it is blank, or written as the
  step of the formatter says, but for white space at its end.  `Format.Rests` is what is left
  of one line.

  * `Format.Leaves` says so of lines and what is left of them, from a state on;
  * `Format.leaves_formatText`: it holds of a text and the formatted text.
-/
import Mathlib
import IndentedSass.Proofs.Format.Idempotence
import IndentedSass.Proofs.Format.Whitespace

namespace IndentedSass.Format

variable {config : FormatConfig} {style : IndentStyle} {st : FormatState} {line new target : Text}
  {lines : List Text} {index : Nat}

/-- What is left of a line that is to become `target`: what is written for it, and behind that a
    carriage return in which the line still ended. -/
def Rests (line target left : Text) : Prop :=
  ∃ new, Trims line target new ∧ (left = new ∨ left = new ++ line.ending)

/-- What a run of the formatter leaves of lines, each with the carriage return at its end. -/
inductive Leaves (config : FormatConfig) (style : IndentStyle) :
    FormatState → List Text → List Text → Prop
  | nil (st : FormatState) : Leaves config style st [] []
  /-- A blank line is dropped, outside of comments. -/
  | drop {st : FormatState} {line : Text} {rest lefts : List Text}
      (hcomment : st.inBlockComment = false) (hblank : Line.isBlankLine line.dropReturn = true)
      (h : Leaves config style (advance config style st line.dropReturn).1 rest lefts) :
      Leaves config style st (line :: rest) lefts
  /-- A line is written. -/
  | write {st : FormatState} {line left : Text} {rest lefts : List Text}
      (hleft : Rests line.dropReturn (advance config style st line.dropReturn).2 left.dropReturn)
      (h : Leaves config style (advance config style st line.dropReturn).1 rest lefts) :
      Leaves config style st (line :: rest) (left :: lefts)

theorem replaceLine_inj {a b : Text} (h : replaceLine index line a = replaceLine index line b) :
    a = b := by
  unfold replaceLine at h
  split_ifs at h with ha hb
  · rw [ha, hb]
  · simpa using h

theorem dropReturn_of_trims (h : Trims line target new) (hreturn : line.dropReturn = line) :
    new.dropReturn = new := by
  refine if_neg fun hlast => ?_
  rcases h with rfl | rfl
  · exact absurd (Text.getLast?_trimEnd target '\r' hlast) (by decide)
  · cases hends : line.endWhite with
    | nil =>
      rw [hends, List.append_nil] at hlast
      exact absurd (Text.getLast?_trimEnd target '\r' hlast) (by decide)
    | cons c ws =>
      -- the line ended in a carriage return
      have hline : line.getLast? = some '\r' := by
        rw [List.getLast?_append_of_ne_nil _ (by simp [hends])] at hlast
        rw [← hlast, ← line.trimEnd_append_endWhite, List.getLast?_append_of_ne_nil _ (by simp [hends]),
          line.trimEnd_append_endWhite]
      have hshort := congrArg List.length hreturn
      rw [Text.dropReturn, if_pos hline, List.length_dropLast] at hshort
      have hpos : 0 < line.length := by
        cases line with
        | nil => cases hline
        | cons _ _ => exact Nat.succ_pos _
      omega

theorem ending_of_dropReturn (h : line.dropReturn = line) : line.ending = [] := by
  have hsplit := line.dropReturn_append_ending
  rw [h] at hsplit
  exact List.append_right_eq_self.1 hsplit

/-- Without such a carriage return what is written is left. -/
theorem Rests.trims (h : Rests line target new) (hreturn : line.dropReturn = line) :
    Trims line target new := by
  obtain ⟨written, htrims, rfl | rfl⟩ := h
  · exact htrims
  · rwa [ending_of_dropReturn hreturn, List.append_nil]

/-- What stands behind a line that is replaced, without the last carriage return. -/
theorem Trims.rests_endings (h : Trims line.dropReturn target new) :
    Rests line.dropReturn target (new ++ line.endings).dropReturn := by
  by_cases hlast : line.getLast? = some '\r'
  · have hending : line.ending = ['\r'] := if_pos hlast
    refine ⟨new, h, .inr ?_⟩
    rw [Text.endings, hending, ← List.append_assoc, Text.dropReturn, if_pos (by simp),
      List.dropLast_concat]
  · have hsame : line.dropReturn = line := if_neg hlast
    refine ⟨new, h, .inl ?_⟩
    rw [hsame] at h
    rw [Text.endings, hsame, ending_of_dropReturn hsame, List.append_nil, List.append_nil]
    exact dropReturn_of_trims h hsame

/-- A line of a text is replaced by what is written for it, with white space behind it. -/
theorem Writes.exists_lineEdit (h : Writes line.dropReturn target new) :
    ∃ (e : LineEdit) (ws : Text), replaceLine index line.dropReturn new = e.edit? index line ∧
      e.apply line = some (new ++ ws) ∧ '\n' ∉ ws ∧
      Rests line.dropReturn target (new ++ ws).dropReturn := by
  by_cases hsame : new = line.dropReturn
  · subst hsame
    refine ⟨.keep, line.ending, ?_, ?_, line.not_mem_ending, ?_⟩
    · rw [replaceLine_self]
      rfl
    · rw [line.dropReturn_append_ending]
      rfl
    · rw [line.dropReturn_append_ending]
      exact ⟨_, h.trims, .inl rfl⟩
  · refine ⟨.replace new, line.endings, ?_, rfl, line.not_mem_endings, h.trims.rests_endings⟩
    rw [replaceLine, if_neg hsame]
    rfl

/-- Replacing a line is not removing it. -/
theorem removeLine_ne_replaceLine : some (removeLine index) ≠ replaceLine index line new := by
  unfold replaceLine removeLine
  split
  · simp
  · intro h
    have hline : (index % positionLimit + 1) % positionLimit = index % positionLimit :=
      congrArg (fun e : Edit => e.range.stop.line) (Option.some.inj h)
    unfold positionLimit UInt32.size at hline
    omega

variable {next? : Option Text} in
/-- No line break is written into a line. -/
theorem mem_of_mem_replaceLine (hconvert : config.convertBraces = false)
    (hedit : (formatLine config style st index line next?).edit? = replaceLine index line new)
    (hmem : '\n' ∈ new) : '\n' ∈ line := by
  rcases happens_formatLine hconvert style st index line next? with ⟨other, hother, hrecast, -⟩ | hgone
  · rw [replaceLine_inj (hedit.symm.trans hother)] at hmem
    exact hrecast.feed hmem
  · exact absurd (hgone.1.symm.trans hedit) removeLine_ne_replaceLine

/-- The edits of lines, and what they leave. -/
theorem exists_leaves (hconvert : config.convertBraces = false) (ht : style.tabStop < 2 ^ 50)
    (hst : Settled style.tabStop st)
    (hwidth : ∀ line ∈ lines, Line.isBlankLine line.dropReturn = false →
      Indent.width style.tabStop line.dropReturn < 2 ^ 50) (index : Nat) :
    ∃ changes : List (Text × LineEdit), changes.map Prod.fst = lines ∧
      (formatLines config style st index (lines.map Text.dropReturn)).filterMap LineResult.edit? =
        LineEdit.edits index changes ∧
      LineEdit.KeepsLast changes ∧
      (∀ left ∈ LineEdit.applyAll changes, '\n' ∈ left → ∃ line ∈ lines, '\n' ∈ line) ∧
      Leaves config style st lines (LineEdit.applyAll changes) := by
  induction lines generalizing st index with
  | nil =>
    exact ⟨[], rfl, rfl, (fun change hchange => nomatch hchange), (fun _ h => nomatch h), .nil st⟩
  | cons line rest ih =>
    have hline := hwidth line (List.mem_cons_self ..)
    obtain ⟨changes, hfst, hedits, hlast, hfeed, hleaves⟩ :=
      ih (hst.advance_of_visible config ht hline)
        (fun l hl => hwidth l (List.mem_cons_of_mem _ hl)) (index + 1)
    have hbraces : config.convertBraces = true →
        Line.isBraceSyntax line.dropReturn false = false := by simp [hconvert]
    obtain ⟨hstate, new, hwrites, hedit⟩ :=
      formatLine_writes index (rest.map Text.dropReturn).head? ht hst
        (fun hvisible => .inl (hline hvisible)) hbraces
    have hresults : (formatLines config style st index ((line :: rest).map Text.dropReturn)).filterMap
        LineResult.edit? = (formatLine config style st index line.dropReturn
          (rest.map Text.dropReturn).head?).edit?.toList ++ LineEdit.edits (index + 1) changes := by
      rw [List.map_cons, formatLines, List.filterMap_cons, hstate, hedits]
      cases (formatLine config style st index line.dropReturn
        (rest.map Text.dropReturn).head?).edit? <;> rfl
    by_cases hdrops : drops config st line.dropReturn (rest.map Text.dropReturn).head? = true
    · obtain ⟨-, hcomment, hblank, next, hnext, -⟩ := drops_iff.1 hdrops
      refine ⟨(line, .remove) :: changes, by rw [List.map_cons, hfst], ?_, hlast.cons fun hnil => ?_,
        fun left hleft hmem => ?_, ?_⟩
      · rw [hresults, hedit, if_pos hdrops, LineEdit.edits]
        rfl
      · rw [hnil] at hfst
        rw [← hfst] at hnext
        cases hnext
      · obtain ⟨l, hl, hl'⟩ := hfeed left hleft hmem
        exact ⟨l, List.mem_cons_of_mem line hl, hl'⟩
      · exact .drop hcomment hblank hleaves
    · rw [if_neg hdrops] at hedit
      obtain ⟨e, ws, he, happly, hplain, hrests⟩ := hwrites.exists_lineEdit
      refine ⟨(line, e) :: changes, by rw [List.map_cons, hfst], ?_, hlast.cons fun _ hremove => ?_,
        fun left' hleft hmem => ?_, ?_⟩
      · rw [hresults, hedit, he, LineEdit.edits]
      · rw [hremove] at happly
        cases happly
      · rw [LineEdit.applyAll_cons, happly] at hleft
        rcases List.mem_cons.1 hleft with rfl | hleft
        · have hold := mem_of_mem_replaceLine hconvert hedit
            ((List.mem_append.1 hmem).resolve_right hplain)
          refine ⟨line, List.mem_cons_self, ?_⟩
          rw [← line.dropReturn_append_ending]
          exact List.mem_append_left _ hold
        · obtain ⟨l, hl, hl'⟩ := hfeed left' hleft hmem
          exact ⟨l, List.mem_cons_of_mem line hl, hl'⟩
      · rw [LineEdit.applyAll_cons, happly]
        exact .write hrests hleaves

/-- The lines of a formatted text are what the formatter leaves of those of the text. -/
theorem leaves_formatText (henabled : config.enabled = true)
    (hconvert : config.convertBraces = false) (ht : style.tabStop < 2 ^ 50) (text : Text)
    (hcount : text.lines.length ≤ positionLimit)
    (hlength : ∀ line ∈ text.lines, line.dropReturn.length < positionLimit)
    (hwidth : ∀ line ∈ text.lines, Line.isBlankLine line.dropReturn = false →
      Indent.width style.tabStop line.dropReturn < 2 ^ 50) :
    Leaves config style {} text.lines (formatText config style text).lines := by
  obtain ⟨changes, hfst, hedits, hlast, hfeed, hleaves⟩ :=
    exists_leaves hconvert ht (settled_start style.tabStop) hwidth 0
  have hnews : (formatText config style text).lines = LineEdit.applyAll changes := by
    rw [formatText, formatEdits, results, if_pos henabled, hedits]
    refine Text.lines_applyEdits hfst.symm hcount hlength hlast fun left hleft hmem => ?_
    obtain ⟨line, hline, hfeed⟩ := hfeed left hleft hmem
    exact Text.not_mem_of_mem_lines hline hfeed
  rw [hnews]
  exact hleaves

end IndentedSass.Format
